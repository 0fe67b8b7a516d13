import BoostGateway.Battle.Actor

/-!
# Settling a finished battle

A battle ends by its actor, which pushes the settlement, or inside a tick by
`BattleLifecycleSystem`, which tells nobody. `settles_once_iff` says in which runs every finished
battle is settled once and nothing is pushed afterwards.
-/

namespace BoostGateway.Battle

open List BattleActor

/-! ## The lifecycle under a tick -/

variable (frame : UInt32) (trigger : Bytes)

theorem timesOut_inputSystem (w : BattleWorld) :
    (inputSystem (clockSystem frame trigger w)).timesOut = w.timesOut := by
  have hempty : (inputSystem (clockSystem frame trigger w)).participants.isEmpty =
      w.participants.isEmpty := by simp [inputSystem, clockSystem]
  have hall : (inputSystem (clockSystem frame trigger w)).participants.all (!·.online) =
      w.participants.all (!·.online) := by
    simp [inputSystem, clockSystem, all_map, Function.comp_def, readInput_online]
  simp only [BattleWorld.timesOut, BattleWorld.idleLimit, BattleWorld.offlineLimit, hempty, hall]
  rfl

theorem countIdle_limit (w : BattleWorld) :
    maxIdleFrames ≤ (countIdle w).idleFrames ↔ w.idleLimit = true := by
  simp only [countIdle, BattleWorld.idleLimit, Bool.and_eq_true, decide_eq_true_eq]
  split
  case isTrue hinput =>
    have hlim : ¬ maxIdleFrames ≤ 0 := by decide
    exact ⟨fun h => absurd h hlim, fun h => absurd hinput (UInt64.not_lt.mpr h.1)⟩
  case isFalse hinput => exact ⟨fun h => ⟨UInt64.not_lt.mp hinput, h⟩, fun h => h.2⟩

variable {w : BattleWorld} {a : BattleActor}

theorem lifecycleSystem_running (h : w.lifecycle = .running) :
    (lifecycleSystem w).lifecycle = if w.timesOut then .finished else .running := by
  unfold lifecycleSystem
  rw [h]
  dsimp only
  split
  case isTrue hidle => simp [BattleWorld.timesOut, (countIdle_limit w).mp hidle]
  case isFalse hidle =>
    have hlim : w.idleLimit = false := by simpa [countIdle_limit w] using hidle
    simp only [BattleWorld.timesOut, hlim, Bool.false_or, BattleWorld.offlineLimit, countOffline,
      countIdle]
    by_cases hnone : w.participants.isEmpty = true
    · simp [hnone, h]
    · by_cases hoffline : w.participants.all (!·.online) = true <;> simp [hnone, hoffline, h]

theorem lifecycleSystem_finished (h : w.lifecycle = .finished) :
    (lifecycleSystem w).lifecycle = .finished := by
  unfold lifecycleSystem
  rw [h]

theorem advanceFrame_lifecycle (w : BattleWorld) :
    (advanceFrame frame trigger w).1.lifecycle =
      (lifecycleSystem (inputSystem (clockSystem frame trigger w))).lifecycle := by
  simp [advanceFrame, tick, replaySystem, projectileSystem, combatSystem, movementSystem]

theorem advanceFrame_running (h : w.lifecycle = .running) :
    (advanceFrame frame trigger w).1.lifecycle = if w.timesOut then .finished else .running := by
  have hread : (inputSystem (clockSystem frame trigger w)).lifecycle = .running := h
  rw [advanceFrame_lifecycle, lifecycleSystem_running hread, timesOut_inputSystem]

theorem advanceFrame_finished (h : w.lifecycle = .finished) :
    (advanceFrame frame trigger w).1.lifecycle = .finished := by
  have hread : (inputSystem (clockSystem frame trigger w)).lifecycle = .finished := h
  rw [advanceFrame_lifecycle, lifecycleSystem_finished hread]

variable (userId : Bytes) (requestId : UInt32) (inputData : Bytes) (score : Int64)
  (submittedFrame : UInt32)

theorem processInputForParticipant_lifecycle (found : Option Nat) (w : BattleWorld) :
    (processInputForParticipant found userId inputData score submittedFrame w).1.lifecycle =
      w.lifecycle := by
  unfold processInputForParticipant
  split_ifs
  case pos => rfl
  case pos => rfl
  case neg => cases found <;> rfl

/-! ## What a message does -/

def BattleEffect.isSettlement : BattleEffect → Bool
  | .push (.settlementPrepared _) => true
  | _ => false

def BattleEffect.isFinished : BattleEffect → Bool
  | .push (.finished ..) => true
  | _ => false

def BattleEffect.isProgress : BattleEffect → Bool
  | .push (.frameAdvanced ..) => true
  | .push (.inputAccepted ..) => true
  | _ => false

def BattleMsg.isTick : BattleMsg → Bool
  | .tick _ => true
  | _ => false

def BattleMsg.isCreate : BattleMsg → Bool
  | .create .. => true
  | _ => false

def Settles (n : Nat) (effects : List BattleEffect) : Prop :=
  effects.countP (·.isSettlement) = n ∧ effects.countP (·.isFinished) = n

variable {n : Nat} {effects : List BattleEffect} {msg : BattleMsg}

theorem Settles.append_iff {m : Nat} (h : Settles m effects) (effects' : List BattleEffect) :
    Settles (m + n) (effects ++ effects') ↔ Settles n effects' := by simp [Settles, h.1, h.2]

theorem Settles.cons {effect : BattleEffect} (h : Settles n effects)
    (hsettlement : effect.isSettlement = false) (hfin : effect.isFinished = false) :
    Settles n (effect :: effects) := by simpa [Settles, hsettlement, hfin] using h

def BattleActor.In (a : BattleActor) (state : BattleLifecycleState) : Prop :=
  ∃ w, a.world = some w ∧ w.lifecycle = state

theorem BattleActor.in_iff {state : BattleLifecycleState} :
    a.In state ↔ a.world.map (·.lifecycle) = some state :=
  Option.map_eq_some_iff.symm

/-- The battle goes on, or is settled, or a tick ends it unsettled. -/
inductive RunningStep (w : BattleWorld) (msg : BattleMsg) (a' : BattleActor)
    (effects : List BattleEffect) : Prop where
  | goesOn : a'.In .running → Settles 0 effects → (msg.isTick → w.timesOut = false) →
      RunningStep w msg a' effects
  | settled : a'.In .finished → Settles 1 effects → (msg.isTick → w.timesOut = false) →
      RunningStep w msg a' effects
  | timedOut : a'.In .finished → Settles 0 effects → msg.isTick → w.timesOut = true →
      RunningStep w msg a' effects

structure FinishedStep (msg : BattleMsg) (a' : BattleActor) (effects : List BattleEffect) :
    Prop where
  finished : a'.In .finished
  settles : Settles 0 effects
  progress : (effects.any (·.isProgress)) = msg.isTick

theorem finishBattle_running (reason : BattleFinishReason) (userId : Bytes)
    (h : w.lifecycle = .running) :
    (finishBattle reason userId w).1.lifecycle = .finished ∧
      Settles 1 ((finishBattle reason userId w).2.map .push) := by
  simp [finishBattle, h, setLifecycle, Settles, BattleEffect.isSettlement, BattleEffect.isFinished]

theorem finishBattle_finished (reason : BattleFinishReason) (userId : Bytes)
    (h : w.lifecycle = .finished) : finishBattle reason userId w = (w, []) := by
  simp [finishBattle, h]

theorem submitInput_lifecycle (w : BattleWorld) :
    (submitInput userId requestId inputData score submittedFrame w).1.lifecycle = w.lifecycle ∧
      Settles 0 ((submitInput userId requestId inputData score submittedFrame w).2.map .push) := by
  have hworld := processInputForParticipant_lifecycle userId inputData score submittedFrame
    (findParticipant userId w) w
  unfold submitInput processInput
  split
  · exact ⟨rfl, rfl, rfl⟩
  · dsimp only
    split <;> exact ⟨hworld, rfl, rfl⟩

theorem submitInput_finished (h : w.lifecycle = .finished) :
    (submitInput userId requestId inputData score submittedFrame w).2 = [] := by
  unfold submitInput processInput processInputForParticipant
  split
  · rfl
  · simp [h]

/-- The frame limit ends what the tick has not. -/
theorem tickBattle_running (h : w.lifecycle = .running) (a : BattleActor) :
    RunningStep w (.tick trigger) { a with world := some (tickBattle trigger w).1 }
      ((tickBattle trigger w).2.map .push) := by
  have hadvanced := advanceFrame_running (w.currentFrameNumber + 1) trigger h
  dsimp only [tickBattle]
  cases htimeout : w.timesOut with
  | true =>
    rw [htimeout, if_pos rfl] at hadvanced
    split
    · rw [finishBattle_finished _ _ hadvanced]
      exact .timedOut ⟨_, rfl, hadvanced⟩ ⟨rfl, rfl⟩ rfl htimeout
    · exact .timedOut ⟨_, rfl, hadvanced⟩ ⟨rfl, rfl⟩ rfl htimeout
  | false =>
    rw [htimeout, if_neg (by simp)] at hadvanced
    split
    · obtain ⟨hdone, hset⟩ := finishBattle_running
        (advanceFrame (w.currentFrameNumber + 1) trigger w).2.finishReason trigger hadvanced
      exact .settled ⟨_, rfl, hdone⟩ (hset.cons rfl rfl) fun _ => htimeout
    · exact .goesOn ⟨_, rfl, hadvanced⟩ ⟨rfl, rfl⟩ fun _ => htimeout

theorem tickBattle_finished (h : w.lifecycle = .finished) (a : BattleActor) :
    FinishedStep (.tick trigger) { a with world := some (tickBattle trigger w).1 }
      ((tickBattle trigger w).2.map .push) := by
  have hadvanced := advanceFrame_finished (w.currentFrameNumber + 1) trigger h
  dsimp only [tickBattle]
  split
  · rw [finishBattle_finished _ _ hadvanced]
    exact ⟨⟨_, rfl, hadvanced⟩, ⟨rfl, rfl⟩, rfl⟩
  · exact ⟨⟨_, rfl, hadvanced⟩, ⟨rfl, rfl⟩, rfl⟩

theorem handleDisconnect_lifecycle (w : BattleWorld) :
    (handleDisconnect userId w).lifecycle = w.lifecycle := by
  unfold handleDisconnect
  split <;> rfl

theorem playerDisconnected_step (sid : ScheduleId) (userId : Bytes) (w : BattleWorld)
    (a : BattleActor) :
    (playerDisconnected sid userId w a).1.In w.lifecycle ∧
      Settles 0 (playerDisconnected sid userId w a).2 ∧
      (playerDisconnected sid userId w a).2.any (·.isProgress) = false := by
  have hlife := handleDisconnect_lifecycle userId w
  dsimp only [playerDisconnected]
  split <;> exact ⟨⟨_, rfl, hlife⟩, ⟨rfl, rfl⟩, rfl⟩

theorem playerReconnected_step (w : BattleWorld) (a : BattleActor) :
    (playerReconnected userId w a).1.In w.lifecycle ∧ Settles 0 (playerReconnected userId w a).2 ∧
      (playerReconnected userId w a).2.any (·.isProgress) = false := by
  refine ⟨⟨_, rfl, rfl⟩, ?_, ?_⟩
  · simp [Settles, playerReconnected, countP_map, Function.comp_def,
      BattleEffect.isSettlement, BattleEffect.isFinished]
  · simp [playerReconnected, any_map, Function.comp_def, BattleEffect.isProgress]

variable (spawns : Spawns)

theorem onMessage_running (sid : ScheduleId) (hw : a.world = some w)
    (h : w.lifecycle = .running) (hmsg : msg.isCreate = false) :
    RunningStep w msg (a.onMessage spawns sid msg).1 (a.onMessage spawns sid msg).2 := by
  obtain ⟨world, timers⟩ := a
  obtain rfl : world = some w := hw
  cases msg with
  | create => cases hmsg
  | submitInput userId requestId inputData score submittedFrame =>
    obtain ⟨hlife, hset⟩ := submitInput_lifecycle userId requestId inputData score submittedFrame w
    exact .goesOn ⟨_, rfl, hlife.trans h⟩ hset nofun
  | tick trigger => exact tickBattle_running trigger h _
  | endBattle reason triggeringUserId =>
    obtain ⟨hdone, hset⟩ := finishBattle_running reason triggeringUserId h
    simp only [onMessage, h, if_true]
    exact .settled ⟨_, rfl, hdone⟩ hset nofun
  | frameAck => exact .goesOn ⟨_, rfl, h⟩ ⟨rfl, rfl⟩ nofun
  | playerDisconnected userId =>
    obtain ⟨hin, hset, -⟩ := playerDisconnected_step sid userId w _
    exact .goesOn (h ▸ hin) hset nofun
  | playerReconnected userId =>
    obtain ⟨hin, hset, -⟩ := playerReconnected_step userId w _
    exact .goesOn (h ▸ hin) hset nofun
  | graceTimerExpired userId =>
    obtain ⟨hdone, hset⟩ := finishBattle_running .playerDisconnected userId h
    simp only [onMessage, h, if_true]
    exact .settled ⟨_, rfl, hdone⟩ hset nofun

theorem onMessage_finished (sid : ScheduleId) (hw : a.world = some w)
    (h : w.lifecycle = .finished) (hmsg : msg.isCreate = false) :
    FinishedStep msg (a.onMessage spawns sid msg).1 (a.onMessage spawns sid msg).2 := by
  have hnot : w.lifecycle ≠ .running := by simp [h]
  obtain ⟨world, timers⟩ := a
  obtain rfl : world = some w := hw
  cases msg with
  | create => cases hmsg
  | submitInput userId requestId inputData score submittedFrame =>
    obtain ⟨hlife, hset⟩ := submitInput_lifecycle userId requestId inputData score submittedFrame w
    have hquiet := submitInput_finished userId requestId inputData score submittedFrame h
    refine ⟨⟨_, rfl, hlife.trans h⟩, hset, ?_⟩
    dsimp only [onMessage]
    rw [hquiet]
    rfl
  | tick trigger => exact tickBattle_finished trigger h _
  | endBattle | graceTimerExpired =>
    simp only [onMessage, hnot, if_false]
    exact ⟨⟨w, rfl, h⟩, ⟨rfl, rfl⟩, rfl⟩
  | frameAck => exact ⟨⟨_, rfl, h⟩, ⟨rfl, rfl⟩, rfl⟩
  | playerDisconnected userId =>
    obtain ⟨hin, hset, hquiet⟩ := playerDisconnected_step sid userId w _
    exact ⟨h ▸ hin, hset, hquiet⟩
  | playerReconnected userId =>
    obtain ⟨hin, hset, hquiet⟩ := playerReconnected_step userId w _
    exact ⟨h ▸ hin, hset, hquiet⟩

/-! ## Runs -/

structure Delivery where
  scheduleId : ScheduleId
  message : BattleMsg

def BattleActor.deliverAll (spawns : Spawns) :
    BattleActor → List Delivery → BattleActor × List BattleEffect
  | a, [] => (a, [])
  | a, d :: rest =>
    let step := a.onMessage spawns d.scheduleId d.message
    let others := deliverAll spawns step.1 rest
    (others.1, step.2 ++ others.2)

@[simp]
theorem deliverAll_cons (a : BattleActor) (d : Delivery) (rest : List Delivery) :
    a.deliverAll spawns (d :: rest) =
      (((a.onMessage spawns d.scheduleId d.message).1.deliverAll spawns rest).1,
        (a.onMessage spawns d.scheduleId d.message).2 ++
          ((a.onMessage spawns d.scheduleId d.message).1.deliverAll spawns rest).2) :=
  rfl

def BattleActor.QuietWhenFinished (spawns : Spawns) : BattleActor → List Delivery → Prop
  | _, [] => True
  | a, d :: rest =>
    (a.In .finished → (a.onMessage spawns d.scheduleId d.message).2.any (·.isProgress) = false) ∧
    QuietWhenFinished spawns (a.onMessage spawns d.scheduleId d.message).1 rest

/-- Settled once if finished, and silent afterwards. -/
structure SettlesOnce (spawns : Spawns) (a : BattleActor) (deliveries : List Delivery) : Prop where
  whenFinished : (a.deliverAll spawns deliveries).1.In .finished →
    Settles 1 (a.deliverAll spawns deliveries).2
  otherwise : ¬ (a.deliverAll spawns deliveries).1.In .finished →
    Settles 0 (a.deliverAll spawns deliveries).2
  quiet : a.QuietWhenFinished spawns deliveries

/-- Ticks find the battle running and reach no idle or offline limit. -/
def BattleActor.TicksInTime (spawns : Spawns) : BattleActor → List Delivery → Prop
  | _, [] => True
  | a, d :: rest =>
    (d.message.isTick → ∀ w, a.world = some w → w.lifecycle = .running ∧ w.timesOut = false) ∧
    TicksInTime spawns (a.onMessage spawns d.scheduleId d.message).1 rest

theorem BattleActor.In.unique {s t : BattleLifecycleState} (h : a.In s) (h' : a.In t) : s = t := by
  obtain ⟨w, hw, rfl⟩ := h
  obtain ⟨w', hw', rfl⟩ := h'
  rw [Option.some.inj (hw.symm.trans hw')]

theorem BattleActor.In.not_finished (h : a.In .running) : ¬ a.In .finished :=
  fun h' => by cases h.unique h'

/-- A finished battle is quiet exactly until a tick. -/
theorem deliverAll_finished (dels : List Delivery) (ha : a.In .finished)
    (hcreate : ∀ d ∈ dels, d.message.isCreate = false) :
    (a.deliverAll spawns dels).1.In .finished ∧ Settles 0 (a.deliverAll spawns dels).2 ∧
      (a.QuietWhenFinished spawns dels ↔ a.TicksInTime spawns dels) := by
  induction dels generalizing a with
  | nil => exact ⟨ha, ⟨rfl, rfl⟩, Iff.rfl⟩
  | cons d rest ih =>
    obtain ⟨hd, hrest⟩ := forall_mem_cons.mp hcreate
    obtain ⟨w, hw, hfin⟩ := ha
    have hstep := onMessage_finished spawns d.scheduleId hw hfin hd
    obtain ⟨hend, hset, hquiet⟩ := ih hstep.finished hrest
    have hall := (hstep.settles.append_iff (n := 0) _).mpr hset
    refine ⟨by simpa using hend, by simpa using hall, ?_⟩
    simp only [QuietWhenFinished, TicksInTime, hquiet, hstep.progress]
    refine and_congr_left fun _ => ⟨fun h htick => ?_, fun h _ => ?_⟩
    · rw [h ⟨w, hw, hfin⟩] at htick
      cases htick
    · by_contra htick
      have hrun := (h (by simpa using htick) w hw).1
      rw [hfin] at hrun
      cases hrun

theorem settlesOnce_cons_iff {d : Delivery} {rest : List Delivery} (ha : ¬ a.In .finished)
    (hset : Settles 0 (a.onMessage spawns d.scheduleId d.message).2) :
    SettlesOnce spawns a (d :: rest) ↔
      SettlesOnce spawns (a.onMessage spawns d.scheduleId d.message).1 rest := by
  have hcount (n : Nat) := hset.append_iff (n := n)
    ((a.onMessage spawns d.scheduleId d.message).1.deliverAll spawns rest).2
  refine ⟨fun h => ⟨fun hend => ?_, fun hend => ?_, h.quiet.2⟩,
    fun h => ⟨fun hend => ?_, fun hend => ?_, fun hin => absurd hin ha, h.quiet⟩⟩
  · exact (hcount 1).mp (h.whenFinished hend)
  · exact (hcount 0).mp (h.otherwise hend)
  · exact (hcount 1).mpr (h.whenFinished hend)
  · exact (hcount 0).mpr (h.otherwise hend)

/-- Settled once exactly if the ticks are in time. -/
theorem settlesOnce_iff_of_running (deliveries : List Delivery)
    (ha : a.In .running) (hcreate : ∀ d ∈ deliveries, d.message.isCreate = false) :
    SettlesOnce spawns a deliveries ↔ a.TicksInTime spawns deliveries := by
  induction deliveries generalizing a with
  | nil =>
    refine ⟨fun _ => trivial, fun _ => ⟨fun h => absurd h ha.not_finished, fun _ => ⟨rfl, rfl⟩,
      trivial⟩⟩
  | cons d rest ih =>
    obtain ⟨hd, hrest⟩ := forall_mem_cons.mp hcreate
    obtain ⟨w, hw, hrun⟩ := ha
    have hnot : ¬ a.In .finished := In.not_finished ⟨w, hw, hrun⟩
    have htickNow (htimeout : d.message.isTick → w.timesOut = false) : d.message.isTick →
        ∀ w', a.world = some w' → w'.lifecycle = .running ∧ w'.timesOut = false := by
      intro htick w' hw'
      cases hw.symm.trans hw'
      exact ⟨hrun, htimeout htick⟩
    cases onMessage_running spawns d.scheduleId hw hrun hd with
    | goesOn hin hset htimeout =>
      rw [settlesOnce_cons_iff spawns hnot hset, ih hin hrest, TicksInTime,
        and_iff_right (htickNow htimeout)]
    | settled hin hset htimeout =>
      obtain ⟨hend, hnone, hquiet⟩ := deliverAll_finished spawns rest hin hrest
      have honce := (hset.append_iff (n := 0) _).mpr hnone
      rw [TicksInTime, ← hquiet, and_iff_right (htickNow htimeout)]
      exact ⟨fun h => h.quiet.2,
        fun h => ⟨fun _ => honce, fun hopen => absurd hend hopen, fun hin => absurd hin hnot, h⟩⟩
    | timedOut hin hset htick htimeout =>
      obtain ⟨hend, hnone, -⟩ := deliverAll_finished spawns rest hin hrest
      have hzero := (hset.append_iff (n := 0) _).mpr hnone
      refine ⟨fun h => ?_, fun h => ?_⟩
      · -- finished, but without a settlement
        have hone := (h.whenFinished hend).1
        rw [deliverAll_cons, hzero.1] at hone
        cases hone
      · have hfalse := (h.1 htick w hw).2
        rw [htimeout] at hfalse
        cases hfalse

/-- A battle is settled exactly once if it is finished and nothing is pushed about it afterwards,
exactly if every tick finds it running and reaches neither the idle nor the offline limit. -/
theorem settles_once_iff (spawns : Spawns) (scheduleId : ScheduleId) (battleId roomId : Bytes)
    (playerIds : List Bytes) (maxFrames : UInt32) (deliveries : List Delivery)
    (hcreate : ∀ d ∈ deliveries, d.message.isCreate = false) :
    SettlesOnce spawns {}
        (⟨scheduleId, .create battleId roomId playerIds maxFrames⟩ :: deliveries) ↔
      TicksInTime spawns {}
        (⟨scheduleId, .create battleId roomId playerIds maxFrames⟩ :: deliveries) := by
  set a : BattleActor :=
    { world := some (createBattleWorld spawns battleId roomId playerIds maxFrames) } with ha
  have hrun : a.In .running := ⟨_, rfl, rfl⟩
  have hticks : TicksInTime spawns {}
      (⟨scheduleId, .create battleId roomId playerIds maxFrames⟩ :: deliveries) ↔
        a.TicksInTime spawns deliveries := by simp [TicksInTime, BattleMsg.isTick, onMessage, ha]
  rw [hticks, ← settlesOnce_iff_of_running spawns deliveries hrun hcreate]
  exact settlesOnce_cons_iff spawns (fun ⟨_, hw, _⟩ => nomatch hw) ⟨rfl, rfl⟩

/-- A battle of one player that is ticked once and then ended by the player. -/
theorem settles_once_surrender : SettlesOnce diagonalSpawns {}
      [⟨0, .create (ascii "b") (ascii "r") [ascii "ann"] 0⟩, ⟨0, .tick (ascii "timer")⟩,
        ⟨0, .endBattle .surrender (ascii "ann")⟩] := by
  refine (settles_once_iff diagonalSpawns 0 (ascii "b") (ascii "r") [ascii "ann"] 0 _
    (by decide)).mpr ⟨by decide, ?_, by decide, trivial⟩
  intro _ w hw
  cases hw
  exact ⟨rfl, by decide +kernel⟩

/-- The only player of a battle is gone, and sixty ticks follow. -/
def abandonedBattle : List Delivery :=
  [⟨0, .create (ascii "b") (ascii "r") [ascii "ann"] 0⟩, ⟨1, .playerDisconnected (ascii "ann")⟩] ++
    List.replicate 60 ⟨2, .tick (ascii "timer")⟩

/-- The offline limit finishes the battle, and neither event is pushed. -/
theorem abandoned_battle_not_settled : ¬ SettlesOnce diagonalSpawns {} abandonedBattle := by
  intro h
  have hin : (deliverAll diagonalSpawns {} abandonedBattle).1.In .finished := by
    rw [in_iff]
    decide +kernel
  have hnone : (deliverAll diagonalSpawns {} abandonedBattle).2.countP
      (·.isSettlement) = 0 := by decide +kernel
  have hone := (h.whenFinished hin).1
  cases hone

end BoostGateway.Battle
