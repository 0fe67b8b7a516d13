import BoostGateway.Battle.WorldFrame
import BoostGateway.Runs

/-!
# Inputs between two ticks

An accepted input is written to the replay log under the frame of the next tick, and waits in the
only slot of its participant. `Intent` says what an input asks for, and a replay of the log lets
every participant who is online take up the intents of the log entries of each frame.
`accepted_inputs_interpreted` says in which runs `BattleInputSystem` reads every input from its slot
in the tick of its log entry, so that the replay makes the same battle.
-/

namespace BoostGateway.Battle

open List

/-! ## The meaning of an input -/

inductive Intent where
  | attack (targetUserId : Bytes)
  | move (x y : Int)
  | fire (dx dy : Int)

/-- The inputs are `attack:USER`, `move:X,Y` and `fire:DX,DY`. -/
def Intent.ofInput (inputData : Bytes) : Option Intent :=
  match afterMarker (ascii "attack:") inputData with
  | some target => some (.attack target)
  | none =>
    match (afterMarker (ascii "move:") inputData).bind splitComma with
    | some (x, y) => some (.move (parseInt32 x) (parseInt32 y))
    | none =>
      ((afterMarker (ascii "fire:") inputData).bind splitComma).map fun (dx, dy) =>
        .fire (parseInt32 dx) (parseInt32 dy)

/-- A participant takes up an intent. -/
def Participant.intend (p : Participant) : Intent → Participant
  | .attack target => { p with pendingTargetUserId := target }
  | .move x y => { p with pendingMoveX := x, pendingMoveY := y, hasPendingMove := true }
  | .fire dx dy =>
    { p with
      pendingFireDx := (normalizeDirection dx dy).1
      pendingFireDy := (normalizeDirection dx dy).2
      hasPendingFire := true }

theorem afterMarker_eq_none {b c : UInt8} {marker other text rest : Bytes}
    (h : afterMarker (b :: marker) text = some rest) (hne : b ≠ c) :
    afterMarker (c :: other) text = none := by
  obtain ⟨hstart, -⟩ := Option.ite_none_right_eq_some.mp h
  obtain ⟨more, rfl⟩ := List.isPrefixOf_iff_prefix.mp hstart
  simp [afterMarker, hne.symm]

/-- Who is online gets the intent of the input in the slot. -/
theorem readInput_eq {p : Participant} (honline : p.online = true) : p.readInput =
    { (Intent.ofInput p.pendingInputData).elim p p.intend with pendingInputData := [] } := by
  by_cases hempty : p.pendingInputData = []
  · have hread : p.readInput = p := if_pos (by simp [hempty])
    have hintent : Intent.ofInput [] = none := rfl
    rw [hread, hempty, hintent, Option.elim_none, ← hempty]
  have hread : p.readInput = { p.readAttack.readMove.readFire with pendingInputData := [] } :=
    if_neg (by simp [honline, hempty])
  rw [hread, Participant.readAttack, Intent.ofInput]
  cases hattack : afterMarker (ascii "attack:") p.pendingInputData with
  | some target =>
    have hmove : afterMarker (ascii "move:") p.pendingInputData = none :=
      afterMarker_eq_none hattack (by decide)
    have hfire : afterMarker (ascii "fire:") p.pendingInputData = none :=
      afterMarker_eq_none hattack (by decide)
    simp only [Participant.readMove, Participant.readFire, hmove, hfire, Option.bind_none]
    rfl
  | none =>
    cases hmove : (afterMarker (ascii "move:") p.pendingInputData).bind splitComma with
    | some coordinates =>
      obtain ⟨rest, hrest, -⟩ := Option.bind_eq_some_iff.mp hmove
      have hfire : afterMarker (ascii "fire:") p.pendingInputData = none :=
        afterMarker_eq_none hrest (by decide)
      simp only [Participant.readMove, Participant.readFire, hmove, hfire, Option.bind_none]
      rfl
    | none =>
      simp only [Participant.readMove, Participant.readFire, hmove]
      cases (afterMarker (ascii "fire:") p.pendingInputData).bind splitComma <;> rfl

/-! ## The replay of a log -/

structure PlacedInput where
  place : Option Nat
  submittedFrame : UInt32
  input : ReplayInput

def Participant.replay (p : Participant) (entry : PlacedInput) : Participant :=
  let scored := p.takeInput entry.input.inputData entry.input.score entry.submittedFrame
  if p.online then
    { (Intent.ofInput entry.input.inputData).elim scored scored.intend with pendingInputData := [] }
  else scored

/-- The entries of a frame are replayed before its tick. -/
def BattleWorld.replayEntry (w : BattleWorld) (entry : PlacedInput) : BattleWorld :=
  { w with
    nextInputSeq := w.nextInputSeq + 1
    replayInputs := w.replayInputs ++ [entry.input]
    participants :=
      match entry.place with
      | some i => w.participants.modify i (·.replay entry)
      | none => w.participants }

theorem map_modify {α β : Type} {f : α → β} {g : α → α} {k : β → β} {i : Nat} {xs : List α}
    (h : ∀ x ∈ xs[i]?, f (g x) = k (f x)) : (xs.modify i g).map f = (xs.map f).modify i k := by
  apply ext_getElem?
  intro j
  simp only [List.getElem?_map, List.getElem?_modify]
  cases hx : xs[j]? with
  | none => rfl
  | some x =>
    by_cases hj : i = j
    · subst hj
      simp [h x hx]
    · simp [hj]

theorem readInput_of_free {p : Participant} (hfree : p.online = true → p.pendingInputData = []) :
    p.readInput = p := by
  refine if_pos ?_
  cases honline : p.online with
  | false => rfl
  | true => simp [hfree honline]

theorem readInput_readInput (p : Participant) : p.readInput.readInput = p.readInput := by
  cases honline : p.online with
  | false =>
    have hread : p.readInput = p := readInput_of_free (by simp [honline])
    rw [hread, hread]
  | true => exact readInput_of_free fun _ => by rw [readInput_eq honline]

theorem readInput_takeInput {p : Participant} (entry : PlacedInput)
    (hfree : p.online = true → p.pendingInputData = []) :
    (p.takeInput entry.input.inputData entry.input.score entry.submittedFrame).readInput =
      p.readInput.replay entry := by
  rw [readInput_of_free hfree]
  cases honline : p.online with
  | false =>
    refine .trans (readInput_of_free fun h => ?_) (if_neg (by simp [honline])).symm
    exact absurd (honline.symm.trans h) Bool.false_ne_true
  | true =>
    rw [readInput_eq (by exact honline)]
    exact (if_pos honline).symm

theorem advanceFrame_inputSystem (frame : UInt32) (trigger : Bytes) (w : BattleWorld) :
    advanceFrame frame trigger (inputSystem w) = advanceFrame frame trigger w := by
  have hread : inputSystem (clockSystem frame trigger (inputSystem w)) =
      inputSystem (clockSystem frame trigger w) := by
    simp only [inputSystem, clockSystem, map_map, Function.comp_def, readInput_readInput]
  simp only [advanceFrame, tick, hread]
  rfl

/-! ## Runs -/

def addressee (entity : Option Nat) (userId : Bytes) (w : BattleWorld) : Option Nat :=
  if (entity.bind (w.participants[·]?)).any (·.userId == userId) then entity
  else findParticipant userId w

/-- The two overloads of `battle_world_process_input`. -/
def processInputOf (entity : Option Nat) (userId inputData : Bytes) (score : Int64)
    (submittedFrame : UInt32) (w : BattleWorld) : BattleWorld × InputResult :=
  match entity with
  | some entity => processInputAt entity userId inputData score submittedFrame w
  | none => processInput userId inputData score submittedFrame w

theorem processInputOf_eq (entity : Option Nat) (userId inputData : Bytes) (score : Int64)
    (frame : UInt32) (w : BattleWorld) :
    processInputOf entity userId inputData score frame w =
      processInputForParticipant (addressee entity userId w) userId inputData score frame w := by
  cases entity with
  | none => rfl
  | some entity =>
    simp only [processInputOf, processInputAt, addressee, Option.bind_some]
    split <;> rfl

inductive Turn where
  | input (entity : Option Nat) (userId inputData : Bytes) (score : Int64)
      (submittedFrame : UInt32)
  | tick (frame : UInt32) (trigger : Bytes)

structure LoggedWorld where
  world : BattleWorld
  waiting : List PlacedInput := []
  replayed : BattleWorld

namespace LoggedWorld

/-- A tick replays the log entries that have its frame number. -/
def step (s : LoggedWorld) : Turn → LoggedWorld
  | .input entity userId inputData score submittedFrame =>
    let world := (processInputOf entity userId inputData score submittedFrame s.world).1
    { s with
      world
      waiting := s.waiting ++ (world.replayInputs.drop s.world.replayInputs.length).map
        fun input => { place := addressee entity userId s.world, submittedFrame, input } }
  | .tick frame trigger =>
    { world := (advanceFrame frame trigger s.world).1
      replayed := (advanceFrame frame trigger
        ((s.waiting.filter (·.input.frameNumber = frame)).foldl
          BattleWorld.replayEntry s.replayed)).1 }

/-- A tick has the frame number of its log entries and does what the replay does. -/
def Interprets (s : LoggedWorld) : Turn → Prop
  | .tick frame trigger => (∀ entry ∈ s.waiting, entry.input.frameNumber = frame) ∧
      (s.step (.tick frame trigger)).world = (s.step (.tick frame trigger)).replayed
  | _ => True

/-- An accepted input is the first for its participant since the last tick, and ticks count frames.
-/
def FirstOfFrame (s : LoggedWorld) : Turn → Prop
  | .input entity userId _ _ submittedFrame => s.world.lifecycle = .running →
      ∀ i ∈ addressee entity userId s.world,
        duplicateFrame (some i) submittedFrame s.world = false → some i ∉ s.waiting.map (·.place)
  | .tick frame _ => frame = s.world.currentFrameNumber + 1

instance (s : LoggedWorld) (turn : Turn) : Decidable (s.FirstOfFrame turn) := by
  unfold FirstOfFrame
  split <;> infer_instance

/-- The log since the last tick is of the next frame, nothing else waits in a slot of who is online,
and reading the slots now gives what the replay makes. -/
structure Pending (s : LoggedWorld) : Prop where
  frames : ∀ entry ∈ s.waiting, entry.input.frameNumber = s.world.currentFrameNumber + 1
  slots : ∀ i, some i ∉ s.waiting.map (·.place) → ∀ p ∈ s.world.participants[i]?, p.online = true →
    p.pendingInputData = []
  replayed : inputSystem s.world = s.waiting.foldl BattleWorld.replayEntry s.replayed

theorem Pending.input {s : LoggedWorld} (h : s.Pending) {entity : Option Nat}
    {userId inputData : Bytes} {score : Int64} {frame : UInt32}
    (hfirst : s.FirstOfFrame (.input entity userId inputData score frame)) :
    (s.step (.input entity userId inputData score frame)).Pending := by
  simp only [step, processInputOf_eq, FirstOfFrame] at hfirst ⊢
  generalize addressee entity userId s.world = found at hfirst ⊢
  unfold processInputForParticipant
  split_ifs with hlife hdup
  case pos => simpa using h
  case pos => simpa using h
  case neg =>
    have hframes (entry : PlacedInput)
        (hentry : entry.input.frameNumber = s.world.currentFrameNumber + 1) :
        ∀ old ∈ s.waiting ++ [entry],
          old.input.frameNumber = s.world.currentFrameNumber + 1 := by
      simpa [or_imp, forall_and, hentry] using h.frames
    cases found with
    | none =>
      simp only [appendReplayInput, drop_left, map_singleton]
      refine ⟨hframes _ rfl, by simpa using h.slots, ?_⟩
      rw [foldl_append, foldl_cons, foldl_nil, ← h.replayed]
      rfl
    | some i =>
      have hnew := hfirst (not_not.mp hlife) i rfl (Bool.eq_false_iff.mpr hdup)
      simp only [appendReplayInput, drop_left, map_singleton]
      refine ⟨hframes _ rfl, fun j hj p hp => ?_, ?_⟩
      · obtain ⟨hold, hne⟩ : some j ∉ s.waiting.map (·.place) ∧ i ≠ j := by
          simpa [eq_comm] using hj
        exact h.slots j hold p (by simpa [List.getElem?_modify, hne] using hp)
      · rw [foldl_append, foldl_cons, foldl_nil, ← h.replayed]
        simp only [inputSystem, BattleWorld.replayEntry]
        rw [← map_modify fun p hp => readInput_takeInput _ (h.slots i hnew p hp)]

theorem Pending.tick {s : LoggedWorld} (h : s.Pending) {frame : UInt32} (trigger : Bytes)
    (hframe : frame = s.world.currentFrameNumber + 1) :
    (s.step (.tick frame trigger)).world = (s.step (.tick frame trigger)).replayed := by
  have hall : s.waiting.filter (·.input.frameNumber = frame) = s.waiting :=
    filter_eq_self.mpr fun entry hentry => by
      simpa using (h.frames entry hentry).trans hframe.symm
  simp only [step, hall, ← h.replayed, advanceFrame_inputSystem]

/-- After a tick the slots of who is online are free. -/
theorem free_advanceFrame {frame : UInt32} {trigger : Bytes} {w : BattleWorld} {q : Participant}
    (hq : q ∈ (advanceFrame frame trigger w).1.participants) (honline : q.online = true) :
    q.pendingInputData = [] := by
  obtain ⟨i, hi⟩ := mem_iff_getElem?.mp hq
  obtain ⟨p, -, hkeeps⟩ := (tick_keeps frame trigger w).exists_left hi
  have hmove (r : Participant) :
      r.move.online = r.online ∧ r.move.pendingInputData = r.pendingInputData := by
    unfold Participant.move
    split_ifs <;> exact ⟨rfl, rfl⟩
  have hread : p.readInput.online = true := by rw [← (hmove _).1, ← hkeeps.online, honline]
  rw [hkeeps.pendingInputData, (hmove _).2]
  cases hp : p.online with
  | true => rw [readInput_eq hp]
  | false =>
    rw [readInput_of_free (by simp [hp]), hp] at hread
    cases hread

theorem Pending.of_free {s : LoggedWorld} (hwaiting : s.waiting = [])
    (hslots : ∀ p ∈ s.world.participants, p.online = true → p.pendingInputData = [])
    (hsame : s.world = s.replayed) : s.Pending := by
  have hread : inputSystem s.world = s.world := by
    have hmap : s.world.participants.map (·.readInput) = s.world.participants :=
      map_congr_left (fun p hp => readInput_of_free (hslots p hp)) |>.trans (map_id _)
    rw [inputSystem, hmap]
  refine ⟨by simp [hwaiting], fun i _ p hp => hslots p (mem_of_getElem? hp), ?_⟩
  rw [hread, hwaiting]
  exact hsame

end LoggedWorld

end BoostGateway.Battle
