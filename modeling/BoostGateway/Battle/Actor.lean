import BoostGateway.Battle.InputValidator

/-!
# The battle actor

`BattleActor::on_message` on every message. Timers live in the actor system, so arming one is an
effect here, and the id it gets is the one that the system would hand out.
-/

namespace BoostGateway.Battle

abbrev ScheduleId := Nat

/-- The messages that `BattleActor::on_message` handles. -/
inductive BattleMsg where
  | create (battleId roomId : Bytes) (playerIds : List Bytes) (maxFrames : UInt32)
  | submitInput (userId : Bytes) (requestId : UInt32) (inputData : Bytes) (score : Int64)
      (submittedFrame : UInt32)
  | tick (trigger : Bytes)
  | endBattle (reason : BattleFinishReason) (triggeringUserId : Bytes)
  | frameAck (userId : Bytes) (frameNumber : UInt32)
  | playerDisconnected (userId : Bytes)
  | playerReconnected (userId : Bytes)
  | graceTimerExpired (userId : Bytes)

structure BattleSettlement where
  battleId : Bytes
  roomId : Bytes
  reason : BattleFinishReason
  triggeringUserId : Bytes
  totalFrames : UInt32
  participantUserIds : List Bytes
  replayInputs : List ReplayInput
  result : BattleResultSummary
  deriving DecidableEq

inductive BattleEvent where
  | created (battleId roomId : Bytes) (playerIds : List Bytes)
  | inputAccepted (battleId roomId userId : Bytes) (inputSeq : UInt64) (requestId : UInt32)
      (inputData : Bytes)
  | frameAdvanced (battleId roomId : Bytes) (frameNumber : UInt32) (trigger : Bytes)
  | settlementPrepared (settlement : BattleSettlement)
  | finished (battleId roomId : Bytes) (reason : BattleFinishReason) (triggeringUserId : Bytes)
  | frameAck (userId : Bytes) (frameNumber : UInt32)
  deriving DecidableEq

/-- What a message makes the actor do. -/
inductive BattleEffect where
  /-- `sink_.push` -/
  | push (event : BattleEvent)
  /-- `schedule_after(self(), DisconnectGraceTimerExpiredMsg, kDisconnectGracePeriod)` -/
  | armGraceTimer (id : ScheduleId) (userId : Bytes)
  /-- `cancel_schedule` -/
  | cancelSchedule (id : ScheduleId)
  deriving DecidableEq

structure BattleActor where
  world : Option BattleWorld := none
  graceTimers : List (Bytes × ScheduleId) := []

def eraseTimer (userId : Bytes) (timers : List (Bytes × ScheduleId)) : List (Bytes × ScheduleId) :=
  timers.filter (·.1 != userId)

/-- `BattleActor::finish_battle` where there is a world. -/
def finishBattle (reason : BattleFinishReason) (triggeringUserId : Bytes) (w : BattleWorld) :
    BattleWorld × List BattleEvent :=
  if w.lifecycle = .finished then (w, [])
  else
    let done := setLifecycle .finished w
    (done, [.settlementPrepared
          { battleId := w.battleId
            roomId := w.roomId
            reason
            triggeringUserId
            totalFrames := w.currentFrameNumber
            participantUserIds := done.participants.map (·.userId)
            replayInputs := w.replayInputs
            result := buildResultSummary reason w.currentFrameNumber done },
        .finished w.battleId w.roomId reason triggeringUserId])

def positionOf (userId : Bytes) (w : BattleWorld) : Int × Int :=
  match w.participants.find? (·.userId == userId) with
  | some p => (p.x, p.y)
  | none => (0, 0)

/-- `BattleActor::on_message` on an input. A refused one is dropped. -/
def submitInput (userId : Bytes) (requestId : UInt32) (inputData : Bytes) (score : Int64)
    (submittedFrame : UInt32) (w : BattleWorld) : BattleWorld × List BattleEvent :=
  if !(validate {} inputData (positionOf userId w).1 (positionOf userId w).2).valid then (w, [])
  else
    let (w', result) := processInput userId inputData score submittedFrame w
    if !result.accepted then (w', [])
    else (w', [.inputAccepted w'.battleId w'.roomId userId result.inputSeq requestId inputData])

/-- The tick case of `BattleActor::on_message`. -/
def tickBattle (trigger : Bytes) (w : BattleWorld) : BattleWorld × List BattleEvent :=
  let (w', result) := advanceFrame (w.currentFrameNumber + 1) trigger w
  let advanced := BattleEvent.frameAdvanced w'.battleId w'.roomId result.frameNumber trigger
  if result.shouldFinish then
    let (done, events) := finishBattle result.finishReason trigger w'
    (done, advanced :: events)
  else (w', [advanced])

/-- The timer is armed unless there is one, also for an outsider. -/
def playerDisconnected (scheduleId : ScheduleId) (userId : Bytes) (w : BattleWorld)
    (a : BattleActor) : BattleActor × List BattleEffect :=
  let marked := { a with world := some (handleDisconnect userId w) }
  if a.graceTimers.any (·.1 == userId) then (marked, [])
  else
    ({ marked with graceTimers := (userId, scheduleId) :: a.graceTimers },
      [.armGraceTimer scheduleId userId])

def playerReconnected (userId : Bytes) (w : BattleWorld) (a : BattleActor) :
    BattleActor × List BattleEffect :=
  ({ world := some (setOnline userId w), graceTimers := eraseTimer userId a.graceTimers },
    (a.graceTimers.filter (·.1 == userId)).map fun timer => .cancelSchedule timer.2)

/-- `BattleActor::on_message`, given the id of a new timer. -/
def BattleActor.onMessage (spawns : Spawns) (scheduleId : ScheduleId) (a : BattleActor) :
    BattleMsg → BattleActor × List BattleEffect
  | .create battleId roomId playerIds maxFrames =>
    ({ a with world := some (createBattleWorld spawns battleId roomId playerIds maxFrames) },
      [.push (.created battleId roomId playerIds)])
  | .submitInput userId requestId inputData score submittedFrame =>
    match a.world with
    | none => (a, [])
    | some w =>
      let (w', events) := submitInput userId requestId inputData score submittedFrame w
      ({ a with world := some w' }, events.map .push)
  | .tick trigger =>
    match a.world with
    | none => (a, [])
    | some w =>
      let (w', events) := tickBattle trigger w
      ({ a with world := some w' }, events.map .push)
  | .endBattle reason triggeringUserId =>
    match a.world with
    | none => (a, [])
    | some w =>
      if w.lifecycle = .running then
        let (w', events) := finishBattle reason triggeringUserId w
        ({ a with world := some w' }, events.map .push)
      else (a, [])
  | .frameAck userId frameNumber =>
    ({ a with world := a.world.map (recordFrameAck userId frameNumber) },
      [.push (.frameAck userId frameNumber)])
  | .playerDisconnected userId =>
    match a.world with
    | none => (a, [])
    | some w => playerDisconnected scheduleId userId w a
  | .playerReconnected userId =>
    match a.world with
    | none => (a, [])
    | some w => playerReconnected userId w a
  | .graceTimerExpired userId =>
    let erased := { a with graceTimers := eraseTimer userId a.graceTimers }
    match a.world with
    | none => (erased, [])
    | some w =>
      if w.lifecycle = .running then
        let (w', events) := finishBattle .playerDisconnected userId w
        ({ erased with world := some w' }, events.map .push)
      else (erased, [])

/-! ## The lifecycle under a tick -/

def BattleWorld.idleLimit (w : BattleWorld) : Bool :=
  w.nextInputSeq ≤ w.lastInputSeq && maxIdleFrames ≤ w.idleFrames + 1

def BattleWorld.offlineLimit (w : BattleWorld) : Bool :=
  !w.participants.isEmpty && w.participants.all (!·.online) &&
    maxOfflineFrames ≤ w.offlineFrames + 1

def BattleWorld.timesOut (w : BattleWorld) : Bool := w.idleLimit || w.offlineLimit

end BoostGateway.Battle
