import Mathlib.Data.List.AList
import Mathlib.Logic.Hydra

/-!
# Actors with mailboxes and timers

Actors known by number, with mailboxes and a queue of those that have mail. Timers hold messages
until the clock, a sequence of readings, has reached a time.
-/

namespace BoostGateway

structure ActorCell (α μ : Type) where
  actor : α
  mailbox : List μ := []
  queued : Bool := false

structure ActorTimer (μ : Type) where
  id : Nat
  target : Nat
  message : μ
  readyAt : Int

structure ActorSystem (α μ : Type) where
  cells : AList fun _ : Nat => ActorCell α μ := ∅
  ready : List Nat := []
  timers : List (ActorTimer μ) := []
  nextActorId : Nat := 1
  nextTimerId : Nat := 1
  readings : Nat := 0

inductive Popped (α μ : Type) where
  | empty
  /-- An actor without mail, or none at all. -/
  | idle (rest : ActorSystem α μ)
  | message (id : Nat) (actor : α) (mail : μ) (rest : ActorSystem α μ)

namespace ActorSystem

variable {α μ : Type}

/-- Put a message into a mailbox, or drop it. -/
def send (target : Nat) (message : μ) (sys : ActorSystem α μ) : ActorSystem α μ :=
  match sys.cells.lookup target with
  | none => sys
  | some cell =>
    { sys with
      cells := sys.cells.insert target
        { cell with mailbox := cell.mailbox ++ [message], queued := true }
      ready := if cell.queued then sys.ready else sys.ready ++ [target] }

def create (actor : α) (sys : ActorSystem α μ) : Nat × ActorSystem α μ :=
  (sys.nextActorId,
    { sys with
      cells := sys.cells.insert sys.nextActorId { actor }
      nextActorId := sys.nextActorId + 1 })

def setActor (id : Nat) (actor : α) (sys : ActorSystem α μ) : ActorSystem α μ :=
  match sys.cells.lookup id with
  | none => sys
  | some cell => { sys with cells := sys.cells.insert id { cell with actor } }

def scheduleAfter (now : Nat → Int) (target : Nat) (message : μ) (delay : Int)
    (sys : ActorSystem α μ) : Nat × ActorSystem α μ :=
  (sys.nextTimerId,
    { sys with
      timers := sys.timers ++
        [{ id := sys.nextTimerId, target, message, readyAt := now sys.readings + delay }]
      nextTimerId := sys.nextTimerId + 1
      readings := sys.readings + 1 })

def cancelTimer (id : Nat) (sys : ActorSystem α μ) : ActorSystem α μ :=
  { sys with timers := sys.timers.filter (·.id ≠ id) }

def lookAt (now : Nat → Int) (sys : ActorSystem α μ) (timer : ActorTimer μ) :
    ActorSystem α μ :=
  let looked := { sys with readings := sys.readings + 1 }
  if timer.readyAt ≤ now sys.readings then looked.send timer.target timer.message
  else { looked with timers := sys.timers ++ [timer] }

def promote (now : Nat → Int) (sys : ActorSystem α μ) : ActorSystem α μ :=
  sys.timers.foldl (lookAt now) { sys with timers := [] }

/-- Take the oldest message of the first ready actor. -/
def pop (sys : ActorSystem α μ) : Popped α μ :=
  match sys.ready with
  | [] => .empty
  | id :: ready =>
    match sys.cells.lookup id with
    | none => .idle { sys with ready }
    | some cell =>
      match cell.mailbox with
      | [] =>
        .idle
          { sys with cells := sys.cells.insert id { cell with queued := false }, ready }
      | mail :: mailbox =>
        .message id cell.actor mail
          { sys with
            cells := sys.cells.insert id
              { cell with mailbox, queued := false }
            ready }

/-- An actor that still has mail goes back into the queue. -/
def requeue (id : Nat) (sys : ActorSystem α μ) : ActorSystem α μ :=
  match sys.cells.lookup id with
  | none => sys
  | some cell =>
    if cell.mailbox = [] ∨ cell.queued = true then sys
    else
      { sys with
        cells := sys.cells.insert id { cell with queued := true }
        ready := sys.ready ++ [id] }

/-! ## What the operations change -/

def actorOf (id : Nat) (sys : ActorSystem α μ) : Option α :=
  (sys.cells.lookup id).map (·.actor)

def mailOf (id : Nat) (sys : ActorSystem α μ) : List μ :=
  ((sys.cells.lookup id).map (·.mailbox)).getD []

variable {id other : Nat} {sys rest : ActorSystem α μ}

theorem actorOf_insert (cell : ActorCell α μ) :
    actorOf id { sys with cells := sys.cells.insert other cell } =
      if id = other then some cell.actor else sys.actorOf id := by
  by_cases h : id = other
  · subst h
    simp [actorOf]
  · simp [actorOf, AList.lookup_insert_ne h, h]

theorem mailOf_insert (cell : ActorCell α μ) :
    mailOf id { sys with cells := sys.cells.insert other cell } =
      if id = other then cell.mailbox else sys.mailOf id := by
  by_cases h : id = other
  · subst h
    simp [mailOf]
  · simp [mailOf, AList.lookup_insert_ne h, h]

structure Alike (sys sys' : ActorSystem α μ) : Prop where
  actorOf_eq : ∀ id, sys'.actorOf id = sys.actorOf id
  mailOf_eq : ∀ id, sys'.mailOf id = sys.mailOf id
  timers_eq : sys'.timers = sys.timers
  readings_eq : sys'.readings = sys.readings
  nextTimerId_eq : sys'.nextTimerId = sys.nextTimerId

theorem alike_of_flag {cell : ActorCell α μ} (h : sys.cells.lookup other = some cell)
    (queued : Bool) (ready : List Nat) :
    Alike sys { sys with cells := sys.cells.insert other { cell with queued }, ready } := by
  refine ⟨fun id => ?_, fun id => ?_, rfl, rfl, rfl⟩
  · refine (actorOf_insert _).trans ?_
    split
    · rename_i heq
      rw [heq, actorOf, h]
      rfl
    · rfl
  · refine (mailOf_insert _).trans ?_
    split
    · rename_i heq
      rw [heq, mailOf, h]
      rfl
    · rfl

theorem alike_requeue (id : Nat) (sys : ActorSystem α μ) : Alike sys (sys.requeue id) := by
  unfold requeue
  cases h : sys.cells.lookup id with
  | none => exact ⟨fun _ => rfl, fun _ => rfl, rfl, rfl, rfl⟩
  | some =>
    dsimp only
    split
    · exact ⟨fun _ => rfl, fun _ => rfl, rfl, rfl, rfl⟩
    · exact alike_of_flag h true _

theorem alike_of_pop_idle (h : sys.pop = .idle rest) : Alike sys rest := by
  unfold pop at h
  split at h
  · cases h
  split at h
  · cases h
    exact ⟨fun _ => rfl, fun _ => rfl, rfl, rfl, rfl⟩
  rename_i cell hcell
  split at h
  · cases h
    exact alike_of_flag hcell false _
  · cases h

/-- What a message that is taken leaves behind. -/
structure Took (id : Nat) (actor : α) (mail : μ) (sys rest : ActorSystem α μ) : Prop where
  actor_eq : sys.actorOf id = some actor
  mail_eq : sys.mailOf id = mail :: rest.mailOf id
  actorOf_eq : ∀ other, rest.actorOf other = sys.actorOf other
  mailOf_eq : ∀ other, other ≠ id → rest.mailOf other = sys.mailOf other
  timers_eq : rest.timers = sys.timers
  readings_eq : rest.readings = sys.readings
  nextTimerId_eq : rest.nextTimerId = sys.nextTimerId

theorem took_of_pop {actor : α} {mail : μ} (h : sys.pop = .message id actor mail rest) :
    Took id actor mail sys rest := by
  unfold pop at h
  split at h
  · cases h
  split at h
  · cases h
  rename_i cell hcell
  split at h
  · cases h
  rename_i head mailbox hmail
  cases h
  refine ⟨by rw [actorOf, hcell]; rfl, ?_, fun other => ?_, fun other hne => ?_, rfl, rfl, rfl⟩
  · refine Eq.trans (by rw [mailOf, hcell]; exact hmail)
      (congrArg (mail :: ·) (Eq.symm ((mailOf_insert _).trans (if_pos rfl))))
  · refine (actorOf_insert _).trans ?_
    split
    · rename_i heq
      rw [heq, actorOf, hcell]
      rfl
    · rfl
  · exact (mailOf_insert _).trans (if_neg hne)

theorem actorOf_send (tgt : Nat) (msg : μ) : (sys.send tgt msg).actorOf id = sys.actorOf id := by
  unfold send
  cases h : sys.cells.lookup tgt with
  | none => rfl
  | some cell =>
    refine (actorOf_insert _).trans ?_
    split
    · rename_i heq
      rw [heq, actorOf, h]
      rfl
    · rfl

theorem mem_mailOf_send {target : Nat} {message mail : μ}
    (h : mail ∈ (sys.send target message).mailOf id) : mail ∈ sys.mailOf id ∨ mail = message := by
  unfold send at h
  cases hcell : sys.cells.lookup target with
  | none =>
    rw [hcell] at h
    exact .inl h
  | some cell =>
    rw [hcell] at h
    have hmail := (mailOf_insert _) ▸ h
    split at hmail
    · rename_i heq
      rw [heq, mailOf, hcell]
      simpa using hmail
    · exact .inl hmail

theorem send_timers (tgt : Nat) (msg : μ) : (sys.send tgt msg).timers = sys.timers := by
  unfold send
  cases sys.cells.lookup tgt <;> rfl

theorem send_readings (tgt : Nat) (msg : μ) : (sys.send tgt msg).readings = sys.readings := by
  unfold send
  cases sys.cells.lookup tgt <;> rfl

theorem actorOf_promote (now : Nat → Int) : (sys.promote now).actorOf id = sys.actorOf id := by
  have hfold : ∀ (timers : List (ActorTimer μ)) (sys : ActorSystem α μ),
      (timers.foldl (lookAt now) sys).actorOf id = sys.actorOf id := by
    intro timers
    induction timers with
    | nil => exact fun _ => rfl
    | cons timer timers ih =>
      intro sys
      rw [List.foldl_cons, ih]
      dsimp only [lookAt]
      split
      · exact actorOf_send _ _
      · rfl
  exact hfold _ _

theorem setActor_spec (actor : α) (h : (sys.actorOf id).isSome) :
    (sys.setActor id actor).actorOf id = some actor ∧
      (∀ other, other ≠ id → (sys.setActor id actor).actorOf other = sys.actorOf other) ∧
      (∀ other, (sys.setActor id actor).mailOf other = sys.mailOf other) ∧
      (sys.setActor id actor).timers = sys.timers ∧
      (sys.setActor id actor).readings = sys.readings ∧
      (sys.setActor id actor).nextTimerId = sys.nextTimerId := by
  unfold setActor
  cases hcell : sys.cells.lookup id with
  | none =>
    rw [actorOf, hcell] at h
    cases h
  | some cell =>
    refine ⟨(actorOf_insert _).trans (if_pos rfl),
      fun other hne => (actorOf_insert _).trans (if_neg hne), fun other => ?_, rfl, rfl, rfl⟩
    refine (mailOf_insert _).trans ?_
    split
    · rename_i heq
      rw [heq, mailOf, hcell]
      rfl
    · rfl

end ActorSystem

end BoostGateway
