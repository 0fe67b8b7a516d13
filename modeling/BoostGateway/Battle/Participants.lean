import BoostGateway.Battle.WorldFrame

/-!
# Who acts in a battle

The source looks up the participant of an input, but accepts the input also when there is none: it
gets a sequence number, is logged and counts as activity (`only_participants_act_iff`).
-/

namespace BoostGateway.Battle

open List BattleWorld

def BattleWorld.userIds (w : BattleWorld) : List Bytes := w.participants.map (·.userId)

/-! ## The participants of a battle do not change -/

theorem readInput_userId (p : Participant) : p.readInput.userId = p.userId := by
  unfold Participant.readInput Participant.readFire Participant.readMove Participant.readAttack
  split
  · rfl
  · dsimp only
    split <;> split <;> split <;> rfl

theorem move_userId (p : Participant) : p.move.userId = p.userId := by
  unfold Participant.move
  split_ifs <;> rfl

theorem map_userId_of_entrywise {ps qs : List Participant}
    (h : Entrywise (fun _ p q => q.userId = p.userId) ps qs) :
    qs.map (·.userId) = ps.map (·.userId) := by
  refine ext_getElem? fun i => ?_
  rw [List.getElem?_map, List.getElem?_map]
  cases hp : ps[i]? with
  | none =>
    have hq : qs[i]? = none := by
      rw [List.getElem?_eq_none_iff] at hp ⊢
      exact h.length_eq ▸ hp
    rw [hq]
  | some =>
    obtain ⟨q, hq, hpq⟩ := h.exists_right hp
    rw [hq, Option.map_some, Option.map_some, hpq]

theorem tick_userIds (frame : UInt32) (trigger : Bytes) (w : BattleWorld) :
    (tick frame trigger w).userIds = w.userIds := by
  refine map_userId_of_entrywise ((tick_keeps frame trigger w).imp fun _ p q hpq => ?_)
  rw [hpq.userId, move_userId, readInput_userId]

theorem after_userIds (w : BattleWorld) (call : WorldCall) :
    (w.after call).userIds = w.userIds := by
  rcases call.noTick_or with hcall | ⟨frame, trigger, rfl⟩
  · exact map_userId_of_entrywise ((after_idle w hcall).2.imp fun _ _ _ hpq => hpq.userId)
  · exact tick_userIds frame trigger w

/-! ## Accepted inputs -/

/-- The user of an input call and the result of the call. -/
def BattleWorld.inputOf (w : BattleWorld) : WorldCall → Option (Bytes × InputResult)
  | .input userId inputData score submittedFrame =>
    some (userId, (processInput userId inputData score submittedFrame w).2)
  | .inputAt entity userId inputData score submittedFrame =>
    some (userId, (processInputAt entity userId inputData score submittedFrame w).2)
  | _ => none

def BattleWorld.acceptedIn (w : BattleWorld) (call : WorldCall) : List Bytes :=
  ((w.inputOf call).toList.filter (·.2.accepted)).map (·.1)

def BattleWorld.acceptedUsers : BattleWorld → List WorldCall → List Bytes
  | _, [] => []
  | w, call :: calls => w.acceptedIn call ++ acceptedUsers (w.after call) calls

theorem processInputForParticipant_accepted (found : Option Nat) (userId inputData : Bytes)
    (score : Int64) (frame : UInt32) (w : BattleWorld) :
    let r := processInputForParticipant found userId inputData score frame w
    r.2.accepted = false ∧ r.1 = w ∨ r.2.accepted = true ∧ r.1.nextInputSeq = w.nextInputSeq + 1 ∧
        r.1.replayInputs.map (·.userId) = w.replayInputs.map (·.userId) ++ [userId] := by
  intro r
  simp only [r, processInputForParticipant]
  split_ifs with hlife hdup
  case pos => exact .inl ⟨rfl, rfl⟩
  case pos => exact .inl ⟨rfl, rfl⟩
  case neg => cases found <;> simp [appendReplayInput]

variable {w : BattleWorld} {call : WorldCall} {userId : Bytes}

theorem processInputForParticipant_none (userId inputData : Bytes) (score : Int64)
    (frame : UInt32) (hrun : w.lifecycle = .running) :
    (processInputForParticipant none userId inputData score frame w).2.accepted = true := by
  simp [processInputForParticipant, hrun, duplicateFrame]

theorem findParticipant_eq_none_iff (userId : Bytes) (w : BattleWorld) :
    findParticipant userId w = none ↔ userId ∉ w.userIds := by simp [findParticipant, userIds]

def WorldCall.inputUser : WorldCall → Option Bytes
  | .input userId _ _ _ => some userId
  | .inputAt _ userId _ _ _ => some userId
  | _ => none

theorem tick_records (frame : UInt32) (trigger : Bytes) (w : BattleWorld) :
    (tick frame trigger w).nextInputSeq = w.nextInputSeq ∧
      (tick frame trigger w).replayInputs = w.replayInputs := by
  have hlife : ∀ v : BattleWorld, (lifecycleSystem v).nextInputSeq = v.nextInputSeq ∧
      (lifecycleSystem v).replayInputs = v.replayInputs := by
    intro v
    unfold lifecycleSystem countOffline
    split
    · exact ⟨rfl, rfl⟩
    · exact ⟨rfl, rfl⟩
    · split_ifs <;> exact ⟨rfl, rfl⟩
  obtain ⟨hseq, hlog⟩ := hlife (inputSystem (clockSystem frame trigger w))
  simp only [tick, replaySystem, projectileSystem, combatSystem, movementSystem]
  exact ⟨hseq, hlog⟩

/-- The numbers and the log follow the accepted inputs. -/
theorem after_records (w : BattleWorld) (call : WorldCall) :
    (w.after call).replayInputs.map (·.userId) =
        w.replayInputs.map (·.userId) ++ w.acceptedIn call ∧
      (w.after call).nextInputSeq = w.nextInputSeq + UInt64.ofNat (w.acceptedIn call).length := by
  have hinput : ∀ found userId inputData score submittedFrame,
      let r := processInputForParticipant found userId inputData score submittedFrame w
      r.1.replayInputs.map (·.userId) = w.replayInputs.map (·.userId) ++
          (([(userId, r.2)] : List (Bytes × InputResult)).filter (·.2.accepted)).map (·.1) ∧
        r.1.nextInputSeq = w.nextInputSeq + UInt64.ofNat
          ((([(userId, r.2)] : List (Bytes × InputResult)).filter (·.2.accepted)).map
            (·.1)).length := by
    intro found userId inputData score submittedFrame r
    rcases processInputForParticipant_accepted found userId inputData score submittedFrame w with
      ⟨hno, hsame⟩ | ⟨hyes, hseq, hlog⟩
    · simp [r, hno, hsame]
    · simp [r, hyes, hseq, hlog]
  cases call with
  | input => exact hinput _ _ _ _ _
  | inputAt =>
    simp only [BattleWorld.after, acceptedIn, inputOf, processInputAt]
    split
    · exact hinput _ _ _ _ _
    · exact hinput _ _ _ _ _
  | disconnect =>
    simp only [BattleWorld.after, handleDisconnect]
    split <;> simp [acceptedIn, inputOf, markOffline]
  | reconnect => simp [BattleWorld.after, acceptedIn, inputOf, setOnline]
  | acknowledge => simp [BattleWorld.after, acceptedIn, inputOf, recordFrameAck]
  | advance frame trigger =>
    obtain ⟨hseq, hlog⟩ := tick_records frame trigger w
    simp [BattleWorld.after, acceptedIn, inputOf, advanceFrame, hseq, hlog,
      Function.comp_def, apply_ite ReplayInput.userId]

theorem afterAll_records (w : BattleWorld) (calls : List WorldCall) :
    (w.afterAll calls).replayInputs.map (·.userId) =
        w.replayInputs.map (·.userId) ++ w.acceptedUsers calls ∧
      (w.afterAll calls).nextInputSeq =
        w.nextInputSeq + UInt64.ofNat (w.acceptedUsers calls).length := by
  induction calls generalizing w with
  | nil => simp [afterAll, acceptedUsers]
  | cons call calls ih =>
    obtain ⟨hlog, hseq⟩ := after_records w call
    obtain ⟨hlog', hseq'⟩ := ih (w.after call)
    refine ⟨?_, ?_⟩
    · rw [hlog, append_assoc] at hlog'
      exact hlog'
    · rw [hseq, UInt64.add_assoc, ← UInt64.ofNat_add, ← length_append] at hseq'
      exact hseq'

/-! ## Runs in which only participants act -/

/-- Accepted inputs, records and numbers are of participants. -/
structure OnlyParticipantsAct (w : BattleWorld) (calls : List WorldCall) : Prop where
  accepted : ∀ userId ∈ w.acceptedUsers calls, userId ∈ w.userIds
  replayed : ∀ record ∈ (w.afterAll calls).replayInputs, record.userId ∈ w.userIds
  counted : (w.afterAll calls).nextInputSeq =
    w.nextInputSeq + UInt64.ofNat ((w.acceptedUsers calls).countP (· ∈ w.userIds))

/-- Inputs during the battle are of participants. -/
def BattleWorld.InputsOfParticipants : BattleWorld → List WorldCall → Prop
  | _, [] => True
  | w, call :: calls =>
    (∀ userId, call.inputUser = some userId → w.lifecycle = .running → userId ∈ w.userIds) ∧
      InputsOfParticipants (w.after call) calls

theorem running_of_mem_acceptedIn (h : userId ∈ w.acceptedIn call) :
    call.inputUser = some userId ∧ w.lifecycle = .running := by
  have hrun : ∀ found userId inputData score frame,
      (processInputForParticipant found userId inputData score frame w).2.accepted = true →
        w.lifecycle = .running := by
    intro found userId inputData score frame haccepted
    by_contra hnot
    simp [processInputForParticipant, hnot] at haccepted
  cases call with
  | input =>
    simp only [acceptedIn, inputOf, Option.toList_some, mem_map, mem_filter, mem_singleton] at h
    obtain ⟨_, ⟨rfl, haccepted⟩, rfl⟩ := h
    exact ⟨rfl, hrun _ _ _ _ _ haccepted⟩
  | inputAt =>
    simp only [acceptedIn, inputOf, Option.toList_some, mem_map,
      mem_filter, mem_singleton, processInputAt] at h
    obtain ⟨_, ⟨rfl, haccepted⟩, rfl⟩ := h
    refine ⟨rfl, ?_⟩
    split at haccepted
    · exact hrun _ _ _ _ _ haccepted
    · exact hrun _ _ _ _ _ haccepted
  | disconnect | reconnect | acknowledge | advance => simp [acceptedIn, inputOf] at h

/-- A running battle accepts an outsider's input. -/
theorem mem_acceptedIn_of_outsider (hcall : call.inputUser = some userId)
    (hrun : w.lifecycle = .running) (houtside : userId ∉ w.userIds) :
    userId ∈ w.acceptedIn call := by
  have hnone := (findParticipant_eq_none_iff userId w).mpr houtside
  cases call with
  | input user =>
    obtain rfl : user = userId := Option.some.inj hcall
    simp [acceptedIn, inputOf, processInput, hnone, processInputForParticipant_none _ _ _ _ hrun]
  | inputAt entity user =>
    obtain rfl : user = userId := Option.some.inj hcall
    have hentity : (w.participants[entity]?).any (·.userId == user) = false := by
      cases hp : w.participants[entity]? with
      | none => rfl
      | some p =>
        have hne : p.userId ≠ user := fun heq =>
          houtside (heq ▸ mem_map_of_mem (mem_of_getElem? hp))
        simpa using hne
    simp [acceptedIn, inputOf, processInputAt, hentity, processInput, hnone,
      processInputForParticipant_none _ _ _ _ hrun]
  | disconnect | reconnect | acknowledge | advance => cases hcall

theorem acceptedUsers_subset_iff (w : BattleWorld) (calls : List WorldCall) :
    (∀ userId ∈ w.acceptedUsers calls, userId ∈ w.userIds) ↔ w.InputsOfParticipants calls := by
  induction calls generalizing w with
  | nil => simp [acceptedUsers, InputsOfParticipants]
  | cons call calls ih =>
    have hrest := ih (w.after call)
    rw [after_userIds] at hrest
    simp only [acceptedUsers, InputsOfParticipants, forall_mem_append, hrest]
    refine and_congr_left fun _ => ⟨fun h userId hcall hrun => ?_, fun h userId hmem => ?_⟩
    · by_contra houtside
      exact houtside (h userId (mem_acceptedIn_of_outsider hcall hrun houtside))
    · obtain ⟨hcall, hrun⟩ := running_of_mem_acceptedIn hmem
      exact h userId hcall hrun

/-- Only participants act exactly if every input that arrives while the battle is running is of a
participant. -/
theorem only_participants_act_iff (spawns : Spawns) (battleId roomId : Bytes)
    (playerIds : List Bytes) (maxFrames : UInt32) (calls : List WorldCall) :
    OnlyParticipantsAct (createBattleWorld spawns battleId roomId playerIds maxFrames) calls ↔
      (createBattleWorld spawns battleId roomId playerIds
        maxFrames).InputsOfParticipants calls := by
  set w := createBattleWorld spawns battleId roomId playerIds maxFrames with hw
  rw [← acceptedUsers_subset_iff]
  refine ⟨fun h => h.accepted, fun h => ?_⟩
  obtain ⟨hlog, hseq⟩ := afterAll_records w calls
  refine ⟨h, fun record hrec => ?_, ?_⟩
  · have hmem : record.userId ∈ (w.afterAll calls).replayInputs.map (·.userId) :=
      mem_map_of_mem hrec
    have hempty : w.replayInputs = [] := rfl
    rw [hlog, hempty, map_nil, nil_append] at hmem
    exact h _ hmem
  · rw [hseq, countP_eq_length.mpr (by simpa using h)]

/-- An input of a user who is not in the battle is accepted. -/
theorem outsider_acts : ¬ OnlyParticipantsAct
      (createBattleWorld diagonalSpawns (ascii "b") (ascii "r") [ascii "ann", ascii "bob"] 0)
      [.input (ascii "eve") (ascii "attack:ann") 0 0] := by
  intro h
  have hmem := h.accepted (ascii "eve") (by decide +kernel)
  revert hmem
  decide +kernel

end BoostGateway.Battle
