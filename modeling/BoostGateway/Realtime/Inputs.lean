import BoostGateway.Battle.Instance
import BoostGateway.Runs

/-!
# Inputs of an instance

An instance of `InstanceRuntime` with any plugin; instances share only the limit on their number. An
input without a number makes the runtime forget the last number, so an old one is accepted again
(`sequence_numbers_rise`), and nothing asks whether the user of an input is attached
(`detached_users_unheard`).
-/

namespace BoostGateway.Realtime

open List Battle

structure InputEnvelope where
  userId : Bytes
  seq : Nat := 0

/-- `InternalInstance`, as far as it is read here. -/
structure Instance where
  state : InstanceState := .waitingPlayers
  /-- The users of `ctx.players`. -/
  players : List Bytes
  inputQueue : List InputEnvelope := []
  /-- `last_seq` of `player_input_state`; a user without an entry has zero. -/
  lastSeq : Table Nat := ∅

/-- A call for the instance, but for a refused creation. -/
inductive Call where
  | createInstance (players : List Bytes)
  | destroyInstance
  | attachPlayer (userId : Bytes)
  | detachPlayer (userId : Bytes)
  | submitInput (input : InputEnvelope)
  | processInputImmediate (input : InputEnvelope)
  | finishInstance
  /-- The plugin or the frame limit may finish the instance. -/
  | tickInstance (shouldFinish : Bool)

namespace Instance

def inputQueueLimit : Nat := 64

@[grind]
def active (inst : Instance) : Bool := inst.state = .running || inst.state = .waitingPlayers

@[grind]
def last (inst : Instance) (userId : Bytes) : Nat := (inst.lastSeq.lookup userId).getD 0

@[grind]
def attachPlayer (inst : Instance) (userId : Bytes) : Except Bytes Instance :=
  if userId = [] then .error (ascii "empty_user_id")
  else if !inst.active then .error (ascii "instance_not_active")
  else if userId ∈ inst.players then .error (ascii "player_already_attached")
  else .ok { inst with players := inst.players ++ [userId] }

@[grind]
def detachPlayer (inst : Instance) (userId : Bytes) : Except Bytes Instance :=
  if !inst.active then .error (ascii "instance_not_active")
  else if userId ∉ inst.players then .error (ascii "player_not_attached")
  else
    .ok { inst with
      players := inst.players.erase userId
      lastSeq := inst.lastSeq.erase userId
      inputQueue := inst.inputQueue.filter (·.userId ≠ userId) }

@[grind]
def submitInput (inst : Instance) (input : InputEnvelope) : Except Bytes Instance :=
  if !inst.active then .error (ascii "instance_not_active")
  else if 0 < input.seq ∧ input.seq ≤ inst.last input.userId then .error (ascii "duplicate_seq")
  else if inputQueueLimit ≤ inst.inputQueue.length then .error (ascii "input_queue_full")
  else
    .ok { inst with
      lastSeq := inst.lastSeq.insert input.userId input.seq
      inputQueue := inst.inputQueue ++ [input] }

@[grind]
def finish (inst : Instance) : Instance :=
  if inst.state = .finished || inst.state = .closed then inst else { inst with state := .finished }

@[grind]
def tick (inst : Instance) (shouldFinish : Bool) : Instance :=
  if !inst.active then inst
  else if shouldFinish then finish { inst with state := .running, inputQueue := [] }
  else { inst with state := .running, inputQueue := [] }

def handed (inst : Instance) : Call → List InputEnvelope
  | .processInputImmediate input => if inst.active then [input] else []
  | .tickInstance _ => if inst.active then inst.inputQueue else []
  | _ => []

end Instance

/-- The instance, and what is observed of one user. -/
structure Watch where
  instance? : Option Instance := none
  /-- The numbers above zero that were accepted since the user was attached. -/
  accepted : List Nat := []
  /-- The user was detached and not attached since. -/
  detached : Bool := false

namespace Watch

def step (userId : Bytes) (w : Watch) (call : Call) : Watch :=
  match w.instance?, call with
  | none, .createInstance players =>
    { instance? := some { players }, detached := w.detached && userId ∉ players }
  | none, _ | some _, .createInstance _ | some _, .processInputImmediate _ => w
  | some _, .destroyInstance => { detached := w.detached }
  | some inst, .attachPlayer user =>
    match inst.attachPlayer user with
    | .error _ => w
    | .ok inst' =>
      if user = userId then { instance? := inst' } else { w with instance? := inst' }
  | some inst, .detachPlayer user =>
    match inst.detachPlayer user with
    | .error _ => w
    | .ok inst' =>
      if user = userId then { instance? := inst', detached := true }
      else { w with instance? := inst' }
  | some inst, .submitInput input =>
    match inst.submitInput input with
    | .error _ => w
    | .ok inst' =>
      if input.userId = userId ∧ 0 < input.seq then
        { w with instance? := inst', accepted := input.seq :: w.accepted }
      else { w with instance? := inst' }
  | some inst, .finishInstance => { w with instance? := inst.finish }
  | some inst, .tickInstance shouldFinish => { w with instance? := inst.tick shouldFinish }

variable {userId : Bytes} {w : Watch}

/-! ## Sequence numbers -/

/-- After a numbered input no unnumbered one is taken. -/
def Numbered (userId : Bytes) (w : Watch) : Call → Prop
  | .submitInput input => ∀ inst ∈ w.instance?, inst.active = true →
      inst.inputQueue.length < Instance.inputQueueLimit → input.userId = userId → input.seq = 0 →
        w.accepted = []
  | _ => True

@[grind]
def last (userId : Bytes) (w : Watch) : Nat :=
  match w.instance? with
  | none => 0
  | some inst => inst.last userId

structure Risen (userId : Bytes) (w : Watch) : Prop where
  rises : w.accepted.Pairwise (· > ·)
  bounded : ∀ seq ∈ w.accepted, seq ≤ w.last userId

theorem Risen.step (h : w.Risen userId) (call : Call) (hnumbered : w.Numbered userId call) :
    (w.step userId call).Risen userId := by
  obtain ⟨hrises, hbounded⟩ := h
  fun_cases Watch.step userId w call with
  | case13 inst input =>
    -- A number is accepted only above the last one.
    have hlater : ∀ seq ∈ w.accepted, seq < input.seq := by grind
    exact ⟨pairwise_cons.mpr ⟨hlater, hrises⟩, by grind [AList.lookup_insert]⟩
  | case14 inst input hinst =>
    -- An input without a number brings the last one back to zero.
    by_cases huser : input.userId = userId
    · have hnone : w.accepted = [] := hnumbered inst hinst (by grind) (by grind) huser (by grind)
      grind [Risen]
    · grind [Risen, AList.lookup_insert_ne]
  | _ => grind [Risen, AList.lookup_erase_ne]

/-- The accepted numbers of a user rise while the user stays attached, if no input without a number
is taken after one with a number. -/
theorem sequence_numbers_rise (userId : Bytes) (calls : List Call)
    (h : Along (step userId) (Numbered userId) {} calls) :
    Always (step userId) (fun w => w.accepted.Pairwise (· > ·)) {} calls := by
  have hinit : Risen userId {} := ⟨.nil, nofun⟩
  exact h.always (fun _ call hw => hw.step call) (fun _ hw => hw.rises) hinit

def ann : Bytes := ascii "ann"

theorem sequence_numbers_rise_ann : ((([.createInstance [ann], .submitInput ⟨ann, 1⟩,
    .submitInput ⟨ann, 2⟩] : List Call).foldl (step ann) {}).accepted).Pairwise (· > ·) :=
  sequence_numbers_rise ann _ (by simp [along_cons, along_nil, Numbered]) _ []
    (append_nil _).symm

/-- After an input without a number the same number is accepted again. -/
theorem number_accepted_twice : ¬ Always (step ann) (fun w => w.accepted.Pairwise (· > ·)) {}
    [.createInstance [ann], .submitInput ⟨ann, 1⟩, .submitInput ⟨ann, 0⟩,
      .submitInput ⟨ann, 1⟩] := by
  intro h
  exact absurd (h _ [] (append_nil _).symm) (by decide)

/-! ## Detached users -/

/-- A detached user's inputs do not reach the plugin. -/
def Unheard (userId : Bytes) (w : Watch) (call : Call) : Prop :=
  w.detached = true → ∀ inst ∈ w.instance?, ∀ input ∈ inst.handed call, input.userId ≠ userId

/-- Detached users send nothing to an active instance. -/
def Silent (userId : Bytes) (w : Watch) : Call → Prop
  | .submitInput input | .processInputImmediate input => w.detached = true →
      ∀ inst ∈ w.instance?, inst.active = true → input.userId ≠ userId
  | _ => True

def Cleared (userId : Bytes) (w : Watch) : Prop :=
  w.detached = true → ∀ inst ∈ w.instance?, ∀ input ∈ inst.inputQueue, input.userId ≠ userId

theorem Cleared.step (h : w.Cleared userId) (call : Call) (hsilent : w.Silent userId call) :
    (w.step userId call).Cleared userId := by
  unfold Cleared at *
  fun_cases Watch.step userId w call <;> grind [Silent]

theorem Cleared.unheard (h : w.Cleared userId) {call : Call} (hsilent : w.Silent userId call) :
    w.Unheard userId call := by
  intro hdetached inst hinst input hinput
  cases call with
  | processInputImmediate => grind [Silent, Instance.handed]
  | tickInstance => grind [Cleared, Instance.handed]
  | _ => cases hinput

/-- No input of a detached user is handed to the plugin, if none comes in while the instance is
active. -/
theorem detached_users_unheard (userId : Bytes) (calls : List Call)
    (h : Along (step userId) (Silent userId) {} calls) :
    Along (step userId) (Unheard userId) {} calls := by
  have hinit : Cleared userId {} := nofun
  exact h.of_invariant (fun w call hw hcall =>
    ⟨hw.step call hcall, hw.unheard hcall⟩) hinit

theorem detached_users_unheard_ann : Unheard ann
    (([.createInstance [ann], .submitInput ⟨ann, 1⟩, .detachPlayer ann] : List Call).foldl
      (step ann) {}) (.tickInstance false) :=
  detached_users_unheard ann _ (by simp [along_cons, along_nil, Silent, step]) _ _ [] rfl

/-- A user who was detached sends an input, and the next tick hands it to the plugin. -/
theorem detached_user_heard : ¬ Along (step ann) (Unheard ann) {}
    [.createInstance [ann], .detachPlayer ann, .submitInput ⟨ann, 1⟩, .tickInstance false] := by
  intro h
  exact h [.createInstance [ann], .detachPlayer ann, .submitInput ⟨ann, 1⟩]
    (.tickInstance false) [] rfl rfl _ rfl ⟨ann, 1⟩ (mem_singleton_self _) rfl

end Watch

end BoostGateway.Realtime
