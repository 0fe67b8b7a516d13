import BoostGateway.Realtime.Inputs

/-!
# Ticks of an instance runtime

`InstanceRuntime` under concurrent calls. What a thread does under one lock, and every event it
emits, is one `Block`. A tick finishes its instance by its id, after it has released the lock
(`ticks_finish_own`), `tick_all` reads frames and ticks in separate blocks (`ticks_forward`), and
events are emitted without the lock (`settles_once`).
-/

namespace BoostGateway.Realtime

open List Battle

structure InternalInstance extends Instance where
  players := []
  id : Bytes := []
  registered : Bool := false
  currentFrame : UInt32 := 0
  maxFrames : UInt32 := 0

@[grind]
def InternalInstance.live (inst : InternalInstance) : Bool := inst.registered && inst.active

/-- Objects are numbers; `asker` is the one whose tick asked to finish. -/
inductive Block where
  | lookTick (id : Bytes) (frame : UInt32)
  | tick (object : Nat) (frame : UInt32)
  | snapshotAvailable (object : Nat)
  | lookFinish (id : Bytes) (asker : Option Nat)
  | finish (object : Nat) (asker : Option Nat)
  | instanceFinished (object : Nat)
  | collect
  | readFrames (objects : List Nat)
  deriving DecidableEq

/-- What the plugin and the event callback see. -/
inductive Trace where
  | onTick (object : Nat) (frame : UInt32)
  | buildSettlement (object : Nat) (asker : Option Nat)
  | snapshotAvailable (object : Nat)
  | instanceFinished (object : Nat)
  deriving DecidableEq

abbrev WalkOrder := { order : List Nat → List Nat // ∀ objects, (order objects).Perm objects }

structure InstanceRuntime where
  walk : WalkOrder := ⟨id, fun _ => .refl _⟩
  objects : Nat → InternalInstance := fun _ => {}
  created : Nat := 0
  instances : Bytes → Option Nat := fun _ => none
  /-- What the threads have to do, the next block of a thread first. -/
  pending : List (Nat × Block) := []
  /-- The latest first. -/
  traces : List Trace := []

/-- A call or the next block of a thread, with the plugin's answer to a tick. A found object may get
an input at any time. A creation refused but for its id is no step. -/
inductive Step where
  | createInstance (id : Bytes) (players : List Bytes) (maxFrames : UInt32)
  | submitInput (object : Nat) (input : InputEnvelope)
  | destroyInstance (id : Bytes)
  | tickInstance (thread : Nat) (id : Bytes) (frame : UInt32)
  | tickAll (thread : Nat)
  | finishInstance (thread : Nat) (id : Bytes)
  | run (thread : Nat) (shouldFinish : Bool)

def pop (thread : Nat) : List (Nat × Block) → Option (Block × List (Nat × Block))
  | [] => none
  | (other, block) :: rest =>
    if other = thread then some (block, rest)
    else (pop thread rest).map fun popped => (popped.1, (other, block) :: popped.2)

namespace InstanceRuntime

/-- A thread makes one call at a time. -/
def call (s : InstanceRuntime) (thread : Nat) (block : Block) : InstanceRuntime :=
  if s.pending.any (·.1 = thread) then s else { s with pending := s.pending ++ [(thread, block)] }

def exec (s : InstanceRuntime) (thread : Nat) (shouldFinish : Bool) : Block → InstanceRuntime
  | .lookTick id frame =>
    match s.instances id with
    | none => s
    | some object => { s with pending := s.pending ++ [(thread, .tick object frame)] }
  | .tick object frame =>
    let inst := s.objects object
    if !inst.live then s
    else
      let limit : Bool := 0 < inst.maxFrames ∧ inst.maxFrames ≤ frame
      let finishes := if shouldFinish || limit then
        [(thread, Block.lookFinish inst.id (some object))] else []
      let ticked := { inst with state := .running, inputQueue := [], currentFrame := frame }
      { s with
        objects := Function.update s.objects object ticked
        pending := (thread, .snapshotAvailable object) :: finishes ++ s.pending
        traces := .onTick object frame :: s.traces }
  | .snapshotAvailable object => { s with traces := .snapshotAvailable object :: s.traces }
  | .lookFinish id asker =>
    match s.instances id with
    | none => s
    | some object => { s with pending := (thread, .finish object asker) :: s.pending }
  | .finish object asker =>
    let inst := s.objects object
    if !inst.registered || inst.state = .finished || inst.state = .closed then s
    else
      { s with
        objects := Function.update s.objects object { inst with state := .finished }
        pending := (thread, .instanceFinished object) :: s.pending
        traces := .buildSettlement object asker :: s.traces }
  | .instanceFinished object => { s with traces := .instanceFinished object :: s.traces }
  | .collect =>
    let known := (List.range s.created).filter fun object =>
      s.instances (s.objects object).id = some object
    { s with pending := (thread, .readFrames (s.walk.1 known)) :: s.pending }
  | .readFrames [] => s
  | .readFrames (object :: objects) =>
    let inst := s.objects object
    let ticks := if inst.live then [(thread, .tick object (inst.currentFrame + 1))] else []
    { s with pending := (thread, .readFrames objects) :: s.pending ++ ticks }

def step (s : InstanceRuntime) : Step → InstanceRuntime
  | .createInstance id players maxFrames =>
    if (s.instances id).isSome then s
    else
      -- The object is new: its state and its frame are the initial ones.
      let inst := { s.objects s.created with id, players, maxFrames, registered := true }
      { s with
        objects := Function.update s.objects s.created inst
        created := s.created + 1
        instances := Function.update s.instances id (some s.created) }
  | .destroyInstance id =>
    match s.instances id with
    | none => s
    | some object =>
      let inst := { s.objects object with registered := false }
      { s with
        objects := Function.update s.objects object inst
        instances := Function.update s.instances id none }
  | .submitInput object input =>
    let inst := s.objects object
    match inst.toInstance.submitInput input with
    | .error _ => s
    | .ok accepted =>
      if !inst.registered then s
      else
        { s with objects := Function.update s.objects object { inst with toInstance := accepted } }
  | .tickInstance thread id frame => s.call thread (.lookTick id frame)
  | .tickAll thread => s.call thread .collect
  | .finishInstance thread id => s.call thread (.lookFinish id none)
  | .run thread shouldFinish =>
    match pop thread s.pending with
    | none => s
    | some (block, rest) => { s with pending := rest }.exec thread shouldFinish block

def awaiting (pending : List (Nat × Block)) (kind : Block → Bool) : Nat :=
  pending.countP fun entry => kind entry.2

/-- The condition holds of the block that the step runs. -/
def onRun (condition : InstanceRuntime → Block → Bool) (s : InstanceRuntime) : Step → Bool
  | .run thread _ => (pop thread s.pending).all fun popped => condition s popped.1
  | _ => true

variable {s : InstanceRuntime} {thread : Nat} {block : Block} {rest : List (Nat × Block)}

theorem pop_perm {pending : List (Nat × Block)} (h : pop thread pending = some (block, rest)) :
    pending.Perm ((thread, block) :: rest) := by
  induction pending generalizing rest with
  | nil => cases h
  | cons first pending ih =>
    unfold pop at h
    split at h
    next hsame =>
      cases h
      exact hsame ▸ List.Perm.refl _
    · obtain ⟨popped, hpopped, heq⟩ := Option.map_eq_some_iff.mp h
      cases heq
      exact ((ih hpopped).cons _).trans (List.Perm.swap ..)

@[grind =]
theorem awaiting_nil (kind : Block → Bool) : awaiting [] kind = 0 := rfl

@[grind =]
theorem awaiting_cons (kind : Block → Bool) :
    awaiting ((thread, block) :: rest) kind = awaiting rest kind + if kind block then 1 else 0 :=
  countP_cons

theorem awaiting_of_perm (hpend : s.pending.Perm ((thread, block) :: rest)) (kind : Block → Bool) :
    awaiting s.pending kind = awaiting rest kind + if kind block then 1 else 0 :=
  (hpend.countP_eq _).trans (awaiting_cons _)

@[grind =]
theorem awaiting_append (pending : List (Nat × Block)) (kind : Block → Bool) :
    awaiting (pending ++ rest) kind = awaiting pending kind + awaiting rest kind :=
  countP_append

@[grind →]
theorem eq_false_of_awaiting {kind : Block → Bool} (h : awaiting rest kind = 0)
    (hmem : (thread, block) ∈ rest) : kind block = false := by
  simpa using countP_eq_zero.mp h _ hmem

/-! ## A tick finishes its own instance -/

/-- No settlement was asked for by the tick of another object. -/
def FinishOwn (s : InstanceRuntime) : Prop :=
  ∀ object asker, .buildSettlement object (some asker) ∈ s.traces → object = asker

@[grind]
def asksFor (id : Bytes) : Block → Bool
  | .lookFinish other asker => other = id && asker.isSome
  | _ => false

/-- An id is reused only when no tick is to finish it. -/
def idsSettled (s : InstanceRuntime) : Step → Bool
  | .createInstance id .. => awaiting s.pending (asksFor id) = 0
  | _ => true

structure Owned (s : InstanceRuntime) : Prop where
  listed : ∀ object, (s.objects object).registered = true →
    s.instances (s.objects object).id = some object
  asked : ∀ thread id asker object, (thread, .lookFinish id (some asker)) ∈ s.pending →
    s.instances id = some object → object = asker
  found : ∀ thread object asker, (thread, .finish object (some asker)) ∈ s.pending →
    object = asker
  settled : s.FinishOwn

theorem Owned.exec (h : s.Owned) (hpend : s.pending.Perm ((thread, block) :: rest))
    (shouldFinish : Bool) : ({ s with pending := rest }.exec thread shouldFinish block).Owned := by
  obtain ⟨hlist, hasked, hfind, hsettled⟩ := h
  have hnext : (thread, block) ∈ s.pending := hpend.mem_iff.mpr (.head _)
  have hrest : ∀ entry ∈ rest, entry ∈ s.pending := fun _ h => hpend.mem_iff.mpr (.tail _ h)
  fun_cases InstanceRuntime.exec { s with pending := rest } thread shouldFinish block <;>
    constructor <;> grind [FinishOwn]

theorem Owned.step (h : s.Owned) (input : Step) (hids : s.idsSettled input = true) :
    (s.step input).Owned := by
  have hkept := h
  obtain ⟨hlist, hasked, hfind, hsettled⟩ := h
  fun_cases InstanceRuntime.step s input
  case case12 hpop => exact hkept.exec (pop_perm hpop) _
  all_goals constructor <;> grind [FinishOwn, idsSettled, InstanceRuntime.call]

/-- A tick finishes and settles its own object, if an id is reused only after the ticks of its
earlier object have looked it up. -/
theorem ticks_finish_own (walk : WalkOrder) (steps : List Step)
    (h : Along step (fun s input => s.idsSettled input) { walk } steps) :
    Always step FinishOwn { walk } steps := by
  refine h.always (fun s input (hs : s.Owned) => hs.step input) (fun _ hs => hs.settled) ?_
  constructor <;> simp [FinishOwn]

/-- A tick that asks to finish, up to the lookup. -/
def finishingTick : List Step :=
  [.createInstance [] [] 0, .tickInstance 1 [] 1, .run 1 false, .run 1 true, .run 1 false]

theorem ticks_finish_own_tick :
    ((finishingTick ++ List.replicate 2 (Step.run 1 false)).foldl step {}).FinishOwn :=
  ticks_finish_own _ _ (by decide) _ [] (append_nil _).symm

/-- The instance is destroyed and its id reused before the tick looks it up. -/
theorem tick_finishes_later_instance : ¬ Always step FinishOwn {} (finishingTick ++
    [.destroyInstance [], .createInstance [] [] 0, .run 1 false, .run 1 false]) := by
  intro h
  exact absurd (h _ [] (append_nil _).symm 1 0 (by decide)) (by decide)

/-! ## Ticks move time forward -/

/-- Later frames of an object are larger. -/
@[grind]
def forward : Trace → Trace → Bool
  | .onTick object frame, .onTick object' frame' => object ≠ object' || frame' < frame
  | _, _ => true

@[grind]
def ticks (object : Nat) : Block → Bool
  | .tick other _ => other = object
  | _ => false

/-- An object gets a later frame, and only when no tick of it is to come. -/
@[grind]
def takesFrame (s : InstanceRuntime) : Block → Bool
  | .lookTick id frame => (s.instances id).all fun object =>
      awaiting s.pending (ticks object) = 0 && (s.objects object).currentFrame < frame
  | .readFrames (object :: _) => awaiting s.pending (ticks object) = 0 &&
      (s.objects object).currentFrame < (s.objects object).currentFrame + 1
  | _ => true

structure Timely (s : InstanceRuntime) : Prop where
  forward : s.traces.Pairwise (forward · ·)
  past : ∀ object frame, .onTick object frame ∈ s.traces → frame ≤ (s.objects object).currentFrame
  ahead : ∀ thread object frame, (thread, .tick object frame) ∈ s.pending →
    (s.objects object).currentFrame < frame
  single : ∀ object, awaiting s.pending (ticks object) ≤ 1

theorem Timely.exec (h : s.Timely) (hpend : s.pending.Perm ((thread, block) :: rest))
    (htakes : s.takesFrame block = true) (shouldFinish : Bool) :
    ({ s with pending := rest }.exec thread shouldFinish block).Timely := by
  obtain ⟨hforward, hpast, hahead, hsingle⟩ := h
  have hnext : (thread, block) ∈ s.pending := hpend.mem_iff.mpr (.head _)
  have hrest : ∀ entry ∈ rest, entry ∈ s.pending := fun _ h => hpend.mem_iff.mpr (.tail _ h)
  have hcount := awaiting_of_perm hpend
  fun_cases InstanceRuntime.exec { s with pending := rest } thread shouldFinish block
  case case4 object frame _ _ _ _ _ =>
    -- The tick was the only one of its object that was to come.
    have hlone : awaiting rest (ticks object) = 0 := by grind
    refine ⟨pairwise_cons.mpr ⟨fun trace htrace => ?_, hforward⟩, ?_, ?_, ?_⟩
    · cases trace <;> grind
    all_goals grind
  case case5 | case9 | case10 => exact ⟨hforward.cons fun _ _ => rfl, by grind, by grind, by grind⟩
  all_goals constructor <;> grind

theorem Timely.step (h : s.Timely) (input : Step) (htakes : s.onRun takesFrame input = true) :
    (s.step input).Timely := by
  have hkept := h
  obtain ⟨hforward, hpast, hahead, hsingle⟩ := h
  fun_cases InstanceRuntime.step s input
  case case12 hpop =>
    simp only [onRun, hpop] at htakes
    exact hkept.exec (pop_perm hpop) htakes _
  all_goals constructor <;> grind [InstanceRuntime.call]

/-- The frames that an object is handed rise strictly, if it is given a frame only when its last
tick is done and the counter does not wrap. -/
theorem ticks_forward (walk : WalkOrder) (steps : List Step)
    (h : Along step (fun s input => s.onRun takesFrame input) { walk } steps) :
    Always step (fun s => s.traces.Pairwise (forward · ·)) { walk } steps := by
  refine h.always (fun s input (hs : s.Timely) => hs.step input) (fun _ hs => hs.forward) ?_
  constructor <;> simp [awaiting]

def round : List Step := .tickAll 1 :: List.replicate 5 (.run 1 false)

/-- Two rounds. -/
theorem ticks_forward_rounds :
    let s := (.createInstance [] [] 0 :: (round ++ round)).foldl step {}
    s.traces = [.snapshotAvailable 0, .onTick 0 2, .snapshotAvailable 0, .onTick 0 1] ∧
      s.traces.Pairwise (forward · ·) :=
  ⟨by decide, ticks_forward _ _ (by decide) _ [] (append_nil _).symm⟩

/-- Two rounds read the frame of an object before either ticks it. -/
theorem frame_ticked_twice : ¬ Always step (fun s => s.traces.Pairwise (forward · ·)) {}
    [.createInstance [] [] 0, .tickAll 1, .tickAll 2, .run 1 false, .run 1 false, .run 1 false,
      .run 2 false, .run 2 false, .run 2 false, .run 1 false, .run 2 false] := by
  intro h
  exact absurd (h _ [] (append_nil _).symm) (by decide)

/-! ## An instance settles once and is silent after -/

/-- No second settlement or end of one object. -/
@[grind]
def once : Trace → Trace → Bool
  | .buildSettlement object _, .buildSettlement object' _
  | .instanceFinished object, .instanceFinished object' => object ≠ object'
  | _, _ => true

/-- No snapshot of an object after its end. -/
@[grind]
def silent : Trace → Trace → Bool
  | .snapshotAvailable object, .instanceFinished object' => object ≠ object'
  | _, _ => true

@[grind]
def ends (object : Nat) (block : Block) : Bool := block = .instanceFinished object

@[grind]
def shows (object : Nat) (block : Block) : Bool := block = .snapshotAvailable object

/-- Objects are finished after their snapshots. -/
@[grind]
def snapshotsEmitted (s : InstanceRuntime) : Block → Bool
  | .finish object _ => awaiting s.pending (shows object) = 0
  | _ => true

/-- A settled or ended object is finished, and ends once. -/
structure Settled (s : InstanceRuntime) : Prop where
  once : s.traces.Pairwise (once · ·)
  settled : ∀ object asker, .buildSettlement object asker ∈ s.traces →
    (s.objects object).state = .finished
  ended : ∀ object, .instanceFinished object ∈ s.traces →
    (s.objects object).state = .finished ∧ awaiting s.pending (ends object) = 0
  ending : ∀ object, awaiting s.pending (ends object) ≤
    if (s.objects object).state = .finished then 1 else 0

structure Quiet (s : InstanceRuntime) : Prop where
  silent : s.traces.Pairwise (silent · ·)
  emitted : ∀ object, (s.objects object).state = .finished →
    awaiting s.pending (shows object) = 0

theorem Settled.exec (h : s.Settled) (hpend : s.pending.Perm ((thread, block) :: rest))
    (shouldFinish : Bool) :
    ({ s with pending := rest }.exec thread shouldFinish block).Settled := by
  obtain ⟨honce, hsettled, hended, hending⟩ := h
  have hcount := awaiting_of_perm hpend
  fun_cases InstanceRuntime.exec { s with pending := rest } thread shouldFinish block
  case case4 | case5 | case9 | case10 =>
    refine ⟨honce.cons fun trace htrace => ?_, by grind, by grind, by grind⟩
    cases trace <;> grind
  all_goals constructor <;> grind

theorem Settled.step (h : s.Settled) (input : Step) : (s.step input).Settled := by
  have hkept := h
  obtain ⟨honce, hsettled, hended, hending⟩ := h
  fun_cases InstanceRuntime.step s input
  case case12 hpop => exact hkept.exec (pop_perm hpop) _
  all_goals constructor <;> grind [InstanceRuntime.call]

theorem Quiet.exec (h : s.Quiet) (hsettled : s.Settled)
    (hpend : s.pending.Perm ((thread, block) :: rest)) (hemits : s.snapshotsEmitted block = true)
    (shouldFinish : Bool) : ({ s with pending := rest }.exec thread shouldFinish block).Quiet := by
  obtain ⟨hsilent, hemitted⟩ := h
  have hended := hsettled.ended
  have hcount := awaiting_of_perm hpend
  fun_cases InstanceRuntime.exec { s with pending := rest } thread shouldFinish block
  case case4 | case5 | case9 | case10 =>
    refine ⟨hsilent.cons fun trace htrace => ?_, by grind⟩
    cases trace <;> grind
  all_goals constructor <;> grind

theorem Quiet.step (h : s.Quiet) (hsettled : s.Settled) (input : Step)
    (hemits : s.onRun snapshotsEmitted input = true) : (s.step input).Quiet := by
  have hkept := h
  obtain ⟨hsilent, hemitted⟩ := h
  fun_cases InstanceRuntime.step s input
  case case12 hpop =>
    simp only [onRun, hpop] at hemits
    exact hkept.exec hsettled (pop_perm hpop) hemits _
  all_goals constructor <;> grind [InstanceRuntime.call]

/-- Every object is settled and ends at most once, and shows no snapshot after its end, if it is
finished only when its snapshots are emitted. -/
theorem settles_once (walk : WalkOrder) (steps : List Step) :
    Always step (fun s => s.traces.Pairwise (once · ·)) { walk } steps ∧
      (Along step (fun s input => s.onRun snapshotsEmitted input) { walk } steps →
        Always step (fun s => s.traces.Pairwise (silent · ·)) { walk } steps) := by
  have hsettled : Settled { walk } := by constructor <;> simp [awaiting]
  constructor
  · exact .of_invariant (fun s input (hs : s.Settled) => hs.step input) (fun _ hs => hs.once)
      hsettled
  · intro h
    exact h.always (fun s input (hs : s.Settled ∧ s.Quiet) hemits =>
        ⟨hs.1.step input, hs.2.step hs.1 input hemits⟩)
      (fun _ hs => hs.2.silent) ⟨hsettled, by simp, by simp [awaiting]⟩

theorem settles_once_tick :
    let traces := ((finishingTick ++ List.replicate 3 (Step.run 1 false)).foldl step {}).traces
    traces.Pairwise (once · ·) ∧ traces.Pairwise (silent · ·) :=
  ⟨(settles_once _ _).1 _ [] (append_nil _).symm,
    (settles_once _ _).2 (by decide) _ [] (append_nil _).symm⟩

/-- Another thread finishes the instance between a tick and its snapshot. -/
theorem snapshot_after_finish : ¬ Always step
    (fun s => s.traces.Pairwise (once · ·) ∧ s.traces.Pairwise (silent · ·)) {}
    [.createInstance [] [] 0, .tickInstance 1 [] 1, .run 1 false, .run 1 false,
      .finishInstance 2 [], .run 2 false, .run 2 false, .run 2 false, .run 1 false] := by
  intro h
  exact absurd (h _ [] (append_nil _).symm) (by decide)

end InstanceRuntime

end BoostGateway.Realtime
