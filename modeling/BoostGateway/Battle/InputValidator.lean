import BoostGateway.Battle.WorldFrame

/-!
# Validated inputs

`InputValidator::validate` reads the numbers of an input with `strtol`, and `BattleInputSystem` the
same string again with `std::from_chars`. `applied_as_validated_iff` says when both readings take
the participant to one place.
-/

namespace BoostGateway.Battle

open Participant

structure InputValidatorConfig where
  minPos : Int := 0
  maxPos : Int := 1000
  maxMoveDelta : Int := 200

structure InputValidationResult where
  valid : Bool := false
  error : Bytes := []
  targetX : Int := 0
  targetY : Int := 0
  attackTarget : Bytes := []
  finishReason : Bytes := []

def isMoveWithinBounds (config : InputValidatorConfig) (fromX fromY toX toY : Int) : Bool :=
  let dx := if fromX < toX then toX - fromX else fromX - toX
  let dy := if fromY < toY then toY - fromY else fromY - toY
  dx + dy ≤ config.maxMoveDelta

def strtol (text : Bytes) : Int × Bytes := strtoInteger int64Range text

/-- The `move:` case of `InputValidator::validate`. -/
def validateMove (config : InputValidatorConfig) (coords : Bytes) (currentX currentY : Int) :
    InputValidationResult :=
  match splitComma coords with
  | none => { error := ascii "invalid_move_format" }
  | some (xStr, yStr) =>
    -- a comma at the start or at the end leaves one of the texts empty
    if xStr = [] ∨ yStr = [] then { error := ascii "invalid_move_format" }
    else if (strtol xStr).2 ≠ [] then { error := ascii "invalid_move_coord_x" }
    else if (strtol yStr).2 ≠ [] then { error := ascii "invalid_move_coord_y" }
    else
      let x := (strtol xStr).1
      let y := (strtol yStr).1
      if x < config.minPos ∨ config.maxPos < x ∨ y < config.minPos ∨ config.maxPos < y then
        { error := ascii "move_out_of_bounds" }
      else if !isMoveWithinBounds config currentX currentY x y then
        { error := ascii "move_too_fast" }
      else { valid := true, targetX := x, targetY := y }

def validate (config : InputValidatorConfig) (inputData : Bytes) (currentX currentY : Int) :
    InputValidationResult :=
  if inputData = [] then { error := ascii "empty_input" }
  else
    match afterMarker (ascii "move:") inputData with
    | some coords => validateMove config coords currentX currentY
    | none =>
      match afterMarker (ascii "attack:") inputData with
      | some target =>
        if target = [] then { error := ascii "invalid_attack_target" }
        else { valid := true, attackTarget := target }
      | none =>
        match afterMarker (ascii "finish:") inputData with
        | some reason =>
          if reason = [] then { error := ascii "invalid_finish_reason" }
          else { valid := true, finishReason := reason }
        | none => { error := ascii "unknown_input_type" }

/-! ## What the validator has checked -/

def moveTexts (inputData : Bytes) : Option (Bytes × Bytes) :=
  (afterMarker (ascii "move:") inputData).bind splitComma

/-- No move, or one whose coordinates were read to their end. -/
structure CheckedMove (config : InputValidatorConfig) (xStr yStr : Bytes)
    (result : InputValidationResult) : Prop where
  xNonempty : xStr ≠ []
  yNonempty : yStr ≠ []
  x : strtol xStr = (result.targetX, [])
  y : strtol yStr = (result.targetY, [])
  xLow : config.minPos ≤ result.targetX
  xHigh : result.targetX ≤ config.maxPos
  yLow : config.minPos ≤ result.targetY
  yHigh : result.targetY ≤ config.maxPos

variable {config : InputValidatorConfig} {currentX currentY value : Int}
  {inputData xStr yStr text : Bytes} {p : Participant} {w : BattleWorld}

theorem checkedMove_of_validateMove {coords : Bytes}
    (h : (validateMove config coords currentX currentY).valid = true) :
    ∃ xStr yStr, splitComma coords = some (xStr, yStr) ∧
      CheckedMove config xStr yStr (validateMove config coords currentX currentY) := by
  unfold validateMove at h ⊢
  split at h
  · cases h
  · rename_i xStr yStr hsplit
    rw [hsplit]
    dsimp only at h ⊢
    split_ifs at h ⊢ with hempty hx hy hbounds hfast
    simp only [not_or, not_lt] at hempty hbounds
    exact ⟨xStr, yStr, rfl, hempty.1, hempty.2, Prod.ext rfl (not_not.mp hx),
      Prod.ext rfl (not_not.mp hy), hbounds.1, hbounds.2.1, hbounds.2.2.1, hbounds.2.2.2⟩

theorem validate_cases (h : (validate config inputData currentX currentY).valid = true) :
    inputData ≠ [] ∧ (afterMarker (ascii "move:") inputData = none ∨
      ∃ xStr yStr, moveTexts inputData = some (xStr, yStr) ∧
        CheckedMove config xStr yStr (validate config inputData currentX currentY)) := by
  unfold validate at h ⊢
  split at h
  · cases h
  · rename_i hne
    refine ⟨hne, ?_⟩
    rw [if_neg hne]
    cases hmove : afterMarker (ascii "move:") inputData with
    | none => exact .inl rfl
    | some =>
      simp only [hmove] at h
      obtain ⟨xStr, yStr, hsplit, hcheck⟩ := checkedMove_of_validateMove h
      exact .inr ⟨xStr, yStr, by simp [moveTexts, hmove, hsplit], hcheck⟩

/-! ## What the tick makes of an input -/

/-- What reading an input leaves alone. -/
structure ReadsOver (p q : Participant) : Prop where
  online : q.online = p.online
  x : q.x = p.x
  y : q.y = p.y
  hasPendingMove : q.hasPendingMove = p.hasPendingMove
  pendingMoveX : q.pendingMoveX = p.pendingMoveX
  pendingMoveY : q.pendingMoveY = p.pendingMoveY
  pendingInputData : q.pendingInputData = p.pendingInputData

theorem readAttack_readsOver (p : Participant) : ReadsOver p p.readAttack := by
  unfold readAttack
  split <;> exact ⟨rfl, rfl, rfl, rfl, rfl, rfl, rfl⟩

theorem readFire_readsOver (p : Participant) : ReadsOver p p.readFire := by
  unfold readFire
  split <;> exact ⟨rfl, rfl, rfl, rfl, rfl, rfl, rfl⟩

theorem readInput_online (p : Participant) : p.readInput.online = p.online := by
  unfold readInput
  split
  · rfl
  · have hmove : p.readAttack.readMove.online = p.readAttack.online := by
      unfold readMove
      split <;> rfl
    exact ((readFire_readsOver _).online.trans hmove).trans (readAttack_readsOver p).online

/-- A move is pending when movement runs. -/
theorem readInput_of_move (honline : p.online = true)
    (hmove : moveTexts p.pendingInputData = some (xStr, yStr)) :
    p.readInput.online = true ∧ p.readInput.x = p.x ∧ p.readInput.y = p.y ∧
      p.readInput.hasPendingMove = true ∧ p.readInput.pendingMoveX = parseInt32 xStr ∧
      p.readInput.pendingMoveY = parseInt32 yStr := by
  have hne : p.pendingInputData ≠ [] := by
    intro hnil
    rw [hnil] at hmove
    cases hmove
  have hattack := readAttack_readsOver p
  have hfire := readFire_readsOver p.readAttack.readMove
  have hread : p.readAttack.readMove =
      { p.readAttack with
        pendingMoveX := parseInt32 xStr
        pendingMoveY := parseInt32 yStr
        hasPendingMove := true } := by
    have htexts : moveTexts p.readAttack.pendingInputData = some (xStr, yStr) := by
      rw [hattack.pendingInputData, hmove]
    simp only [moveTexts] at htexts
    simp [readMove, htexts]
  have hinput : p.readInput = { p.readAttack.readMove.readFire with pendingInputData := [] } := by
    simp [readInput, honline, hne]
  rw [hinput]
  refine ⟨?_, ?_, ?_, ?_, ?_, ?_⟩
  · exact hfire.online.trans (hread ▸ hattack.online.trans honline)
  · exact hfire.x.trans (hread ▸ hattack.x)
  · exact hfire.y.trans (hread ▸ hattack.y)
  · exact hfire.hasPendingMove.trans (hread ▸ rfl)
  · exact hfire.pendingMoveX.trans (hread ▸ rfl)
  · exact hfire.pendingMoveY.trans (hread ▸ rfl)

theorem readInput_of_no_move (hpend : p.hasPendingMove = false)
    (hmove : moveTexts p.pendingInputData = none) :
    p.readInput.x = p.x ∧ p.readInput.y = p.y ∧ p.readInput.hasPendingMove = false := by
  have hattack := readAttack_readsOver p
  have hfire := readFire_readsOver p.readAttack.readMove
  have hread : p.readAttack.readMove = p.readAttack := by
    unfold readMove
    rw [hattack.pendingInputData, ← moveTexts, hmove]
  rw [hread] at hfire
  unfold readInput
  split
  · exact ⟨rfl, rfl, hpend⟩
  · rw [hread]
    exact ⟨hfire.x.trans hattack.x, hfire.y.trans hattack.y,
      hfire.hasPendingMove.trans (hattack.hasPendingMove.trans hpend)⟩

theorem move_position (honline : p.online = true) (hpend : p.hasPendingMove = true)
    (hx : 0 ≤ p.pendingMoveX ∧ p.pendingMoveX ≤ maxPosition)
    (hy : 0 ≤ p.pendingMoveY ∧ p.pendingMoveY ≤ maxPosition) :
    (p.move.x, p.move.y) =
      if maxMoveDelta < |p.pendingMoveX - p.x| + |p.pendingMoveY - p.y| then (p.x, p.y)
      else (p.pendingMoveX, p.pendingMoveY) := by
  have hin : ¬ (p.pendingMoveX < 0 ∨ maxPosition < p.pendingMoveX ∨
      p.pendingMoveY < 0 ∨ maxPosition < p.pendingMoveY) := by omega
  unfold move
  rw [if_neg (by simp [honline, hpend]), if_neg hin]
  split
  · rfl
  · rfl

theorem move_of_not_pending (hpend : p.hasPendingMove = false) : p.move = p := by simp [move, hpend]

/-! ## No move is pending between ticks -/

def BattleWorld.Settled (w : BattleWorld) : Prop := ∀ p ∈ w.participants, p.hasPendingMove = false

theorem move_settled (p : Participant) (h : p.hasPendingMove = false) :
    p.readInput.move.hasPendingMove = false := by
  by_cases honline : p.online = true
  · have hread : p.readInput.online = true := (readInput_online p).trans honline
    unfold move
    split_ifs with hidle hout hfast
    case pos => simpa [hread] using hidle
    case pos => rfl
    case pos => rfl
    case neg => rfl
  · have hread : p.readInput = p := by simp [readInput, honline]
    rw [hread, move_of_not_pending h]
    exact h

theorem after_settled (h : w.Settled) (call : WorldCall) : (w.after call).Settled := by
  rcases call.noTick_or with hcall | ⟨frame, trigger, rfl⟩
  · exact (after_idle w hcall).2.forall_mem (fun _ p q hpq hp => hpq.hasPendingMove.trans hp) h
  · exact (tick_keeps frame trigger w).forall_mem
      (fun _ p q hpq hp => hpq.hasPendingMove.trans (move_settled p hp)) h

theorem afterAll_settled (h : w.Settled) (calls : List WorldCall) : (w.afterAll calls).Settled := by
  induction calls generalizing w with
  | nil => exact h
  | cons call calls ih => exact ih (after_settled h call)

theorem createBattleWorld_settled (spawns : Spawns) (battleId roomId : Bytes) (players : List Bytes)
    (frames : UInt32) : (createBattleWorld spawns battleId roomId players frames).Settled := by
  intro p hp
  obtain ⟨⟨userId, index⟩, -, rfl⟩ := List.mem_map.mp hp
  rfl

/-! ## Validated and applied -/

def appliedCoordinate (text : Bytes) : Int :=
  if hasLeadIn text then 0 else (strtol text).1

theorem parseInt32_of_strtol (htext : text ≠ []) (h : strtol text = (value, [])) (hlow : 0 ≤ value)
    (hhigh : value ≤ 1000) : parseInt32 text = appliedCoordinate text := by
  have hread : fromChars int32Range text =
      if hasLeadIn text then (none, text) else (some value, []) := by
    refine fromChars_of_strtoInteger htext h ?_ ?_ (by decide) ?_
    · simp only [int64Range]
      omega
    · simp only [int64Range]
      omega
    · rw [IntegerRange.holds, Bool.and_eq_true, decide_eq_true_eq, decide_eq_true_eq]
      simp only [int32Range]
      omega
  simp only [parseInt32, appliedCoordinate, hread, h]
  split <;> rfl

theorem appliedCoordinate_mem (h : strtol text = (value, [])) (hlow : 0 ≤ value)
    (hhigh : value ≤ 1000) : 0 ≤ appliedCoordinate text ∧ appliedCoordinate text ≤ maxPosition := by
  simp only [appliedCoordinate, h, maxPosition]
  split <;> omega

/-- A tick moves the participant for a move only, to the checked target or nowhere. -/
def AppliedAsValidated (result : InputValidationResult) (p q : Participant) : Prop :=
  if (afterMarker (ascii "move:") p.pendingInputData).isSome then
    (q.x, q.y) = (result.targetX, result.targetY) ∨ (q.x, q.y) = (p.x, p.y)
  else (q.x, q.y) = (p.x, p.y)

/-- Two readings of a move that agree, or of which the second fails. -/
def ReadAlike (inputData : Bytes) (x y : Int) : Prop :=
  ∀ xStr yStr, moveTexts inputData = some (xStr, yStr) →
    (appliedCoordinate xStr, appliedCoordinate yStr) = ((strtol xStr).1, (strtol yStr).1) ∨
      (appliedCoordinate xStr, appliedCoordinate yStr) = (x, y) ∨
      maxMoveDelta < |appliedCoordinate xStr - x| + |appliedCoordinate yStr - y|

theorem readAlike_of_texts (x y : Int) (h : moveTexts inputData = some (xStr, yStr)) :
    ReadAlike inputData x y ↔
      (appliedCoordinate xStr, appliedCoordinate yStr) = ((strtol xStr).1, (strtol yStr).1) ∨
        (appliedCoordinate xStr, appliedCoordinate yStr) = (x, y) ∨
        maxMoveDelta < |appliedCoordinate xStr - x| + |appliedCoordinate yStr - y| := by
  refine ⟨fun halike => halike xStr yStr h, fun halike xStr' yStr' h' => ?_⟩
  obtain ⟨rfl, rfl⟩ := Prod.mk.inj (Option.some.inj (h.symm.trans h'))
  exact halike

/-- Where a tick takes a participant with an accepted move. -/
theorem position_of_checkedMove {q : Participant} (honline : p.online = true)
    {res : InputValidationResult} (htexts : moveTexts p.pendingInputData = some (xStr, yStr))
    (hcheck : CheckedMove {} xStr yStr res) (hkeeps : Keeps p.readInput.move q) :
    (q.x, q.y) =
      if maxMoveDelta < |appliedCoordinate xStr - p.x| + |appliedCoordinate yStr - p.y| then
        (p.x, p.y)
      else (appliedCoordinate xStr, appliedCoordinate yStr) := by
  obtain ⟨hon, hx, hy, hpend, hmx, hmy⟩ := readInput_of_move honline htexts
  rw [parseInt32_of_strtol hcheck.xNonempty hcheck.x hcheck.xLow hcheck.xHigh] at hmx
  rw [parseInt32_of_strtol hcheck.yNonempty hcheck.y hcheck.yLow hcheck.yHigh] at hmy
  have hpos := move_position hon hpend
    (hmx ▸ appliedCoordinate_mem hcheck.x hcheck.xLow hcheck.xHigh)
    (hmy ▸ appliedCoordinate_mem hcheck.y hcheck.yLow hcheck.yHigh)
  rw [hkeeps.x, hkeeps.y, hpos, hmx, hmy, hx, hy]

/-- For every pending input that the validator accepts: the tick applies it as validated exactly if
the two readings of its coordinates are alike. -/
theorem applied_as_validated_iff (spawns : Spawns) (battleId roomId : Bytes)
    (playerIds : List Bytes) (maxFrames : UInt32) (calls : List WorldCall) (frame : UInt32)
    (trigger : Bytes) (i : Nat) (p q : Participant) :
    let w := (createBattleWorld spawns battleId roomId playerIds maxFrames).afterAll calls
    w.participants[i]? = some p → p.online = true →
      (validate {} p.pendingInputData p.x p.y).valid = true →
      (tick frame trigger w).participants[i]? = some q →
      (AppliedAsValidated (validate {} p.pendingInputData p.x p.y) p q ↔
        ReadAlike p.pendingInputData p.x p.y) := by
  intro w hp honline hval hq
  have hkeeps := (tick_keeps frame trigger w).rel i p q hp hq
  have hsettled : w.Settled := afterAll_settled (createBattleWorld_settled _ _ _ _ _) calls
  obtain ⟨-, hnone | ⟨xStr, yStr, htexts, hcheck⟩⟩ := validate_cases hval
  · -- no move: nothing is pending, so nothing moves
    have htexts : moveTexts p.pendingInputData = none := by simp [moveTexts, hnone]
    obtain ⟨hx, hy, hpend⟩ := readInput_of_no_move (hsettled p (List.mem_of_getElem? hp)) htexts
    rw [move_of_not_pending hpend] at hkeeps
    have hstill : (q.x, q.y) = (p.x, p.y) := by rw [hkeeps.x, hkeeps.y, hx, hy]
    simp [AppliedAsValidated, ReadAlike, hnone, htexts, hstill]
  · have hsome : (afterMarker (ascii "move:") p.pendingInputData).isSome := by
      cases hmarker : afterMarker (ascii "move:") p.pendingInputData with
      | none => simp [moveTexts, hmarker] at htexts
      | some => rfl
    have hpos := position_of_checkedMove honline htexts hcheck hkeeps
    simp only [AppliedAsValidated, hsome, if_true, hpos, readAlike_of_texts p.x p.y htexts,
      hcheck.x, hcheck.y]
    split
    · rename_i hfast
      simp [hfast]
    · rename_i hnear
      simp [hnear]

/-- A move within reach, written as the client writes it, is applied as it was validated. -/
theorem applied_as_validated_plain_move :
    let w := (createBattleWorld diagonalSpawns (ascii "b") (ascii "r") [ascii "ann"] 0).afterAll
      [.input (ascii "ann") (ascii "move:70,60") 0 0]
    ∃ p q, w.participants[0]? = some p ∧ p.online = true ∧
      (validate {} p.pendingInputData p.x p.y).valid = true ∧
      (tick 1 (ascii "tick") w).participants[0]? = some q ∧ (q.x, q.y) = (70, 60) ∧
      (AppliedAsValidated (validate {} p.pendingInputData p.x p.y) p q ↔
        ReadAlike p.pendingInputData p.x p.y) := by
  refine ⟨_, _, rfl, rfl, by decide +kernel, rfl, by decide +kernel, ?_⟩
  exact applied_as_validated_iff diagonalSpawns (ascii "b") (ascii "r") [ascii "ann"] 0
    [.input (ascii "ann") (ascii "move:70,60") 0 0] 1 (ascii "tick") 0 _ _ rfl rfl
    (by decide +kernel) rfl

/-- With a plus sign the validator checks (70, 50), and the participant is moved to (0, 50). -/
theorem signed_move_applied_elsewhere :
    let w := (createBattleWorld diagonalSpawns (ascii "b") (ascii "r") [ascii "ann"] 0).afterAll
      [.input (ascii "ann") (ascii "move:+70,50") 0 0]
    ∃ p q, w.participants[0]? = some p ∧ p.online = true ∧
      (validate {} p.pendingInputData p.x p.y).valid = true ∧
      (tick 1 (ascii "tick") w).participants[0]? = some q ∧ (q.x, q.y) = (0, 50) ∧
      ¬ AppliedAsValidated (validate {} p.pendingInputData p.x p.y) p q := by
  refine ⟨_, _, rfl, rfl, by decide +kernel, rfl, by decide +kernel, ?_⟩
  unfold AppliedAsValidated
  decide +kernel

end BoostGateway.Battle
