import BoostGateway.Battle.Instance

/-!
# The battle service

The handlers of `BattleBackendService`. A handler drives one instance of the runtime and answers
with the snapshot, the settlement and the pushes. A reply is modelled by the fields of its JSON
body; archives and replays are left out.
-/

namespace BoostGateway.Battle

/-! ## Requests and replies -/

inductive BattleRequest where
  | create (battleId roomId : Bytes) (playerIds : List Bytes) (maxFrames : UInt32)
  | input (userId battleId inputData : Bytes) (score : Int64) (submittedFrame : UInt32)
  | state (battleId : Bytes)
  | finish (userId battleId : Bytes) (hasReason : Bool)
  /-- A field is missing or has another type, so `nlohmann::json` throws. -/
  | unreadable (throws : Bool)

structure BattleItemState where
  picked : Bool := false
  pickedBy : Bytes := []

structure ItemSnapshot where
  snapshot : BattleSnapshot
  item : BattleItemState
  pickup : Option Bytes

structure FinishedPush where
  battleId : Bytes
  reason : Bytes
  totalFrames : UInt32
  winnerUserId : Option Bytes := none
  scores : Option (List BattleScore) := none

inductive BattlePush where
  | battleStarted (battleId roomId : Bytes) (playerIds : List Bytes)
  | frameAdvanced (battleId : Bytes) (frameNumber : UInt32) (trigger : Bytes)
      (snapshot : Option ItemSnapshot)
  | battleFinished (push : FinishedPush)

inductive BattleReply where
  | error (errorCode detailCode : Int) (reason : Bytes)
  /-- `BackendServer` answers for a handler that throws. -/
  | internalError
  | created (battleId roomId : Bytes) (playerIds : List Bytes) (pushes : List BattlePush)
  | input (battleId : Bytes) (inputSeq : UInt64) (frameNumber : UInt32) (shouldFinish : Bool)
      (pushes : List BattlePush)
  | state (battleId : Bytes) (frameNumber : UInt32) (snapshot : Option ItemSnapshot)
  | finished (battleId reason : Bytes) (totalFrames : UInt32) (pushes : List BattlePush)

def BattleReply.pushes : BattleReply → List BattlePush
  | .created _ _ _ pushes => pushes
  | .input _ _ _ _ pushes => pushes
  | .finished _ _ _ pushes => pushes
  | .error .. | .internalError | .state .. => []

def makeError (code : Int) (reason : Bytes) : BattleReply :=
  .error (if code = -1004 then -1004 else -1003) code reason

/-! ## The service -/

/-- `BattleBackendService::Impl` with its `SyncCapture`. -/
structure BattleBackend where
  instances : Table BattleInstance := ∅
  snapshots : Table BattleSnapshot := ∅
  settlements : Table BattleResultSummary := ∅
  instanceFrames : Table UInt32 := ∅
  lastTickMs : Table Int := ∅
  latestSnapshots : Table ItemSnapshot := ∅
  battleItems : Table BattleItemState := ∅

def BattleBackend.capture (s : BattleBackend) : InstanceEvent → BattleBackend
  | .snapshotAvailable id snapshot => { s with snapshots := s.snapshots.insert id snapshot }
  | .instanceFinished id settlement => { s with settlements := s.settlements.insert id settlement }

def BattleBackend.absorb (s : BattleBackend) (instances : Table BattleInstance)
    (events : List InstanceEvent) : BattleBackend :=
  events.foldl BattleBackend.capture { s with instances }

def BattleBackend.instanceFrame (s : BattleBackend) (battleId : Bytes) : UInt32 :=
  (s.instanceFrames.lookup battleId).getD 0

def BattleBackend.dueForTick (s : BattleBackend) (battleId : Bytes) (nowMs : Int) : Bool :=
  let last := (s.lastTickMs.lookup battleId).getD 0
  !(0 < last && nowMs - last < 50)

/-- `release_instance_resources`. -/
def BattleBackend.release (s : BattleBackend) (battleId : Bytes) : BattleBackend :=
  { instances := s.instances.erase battleId
    snapshots := s.snapshots.erase battleId
    settlements := s.settlements.erase battleId
    instanceFrames := s.instanceFrames.erase battleId
    lastTickMs := s.lastTickMs.erase battleId
    latestSnapshots := s.latestSnapshots.erase battleId
    battleItems := s.battleItems.erase battleId }

def BattleItemState.pickUp (item : BattleItemState) (userId : Option Bytes) :
    BattleItemState × Option Bytes :=
  match userId with
  | some user => if item.picked then (item, none) else ({ picked := true, pickedBy := user }, user)
  | none => (item, none)

/-- `enrich_snapshot_with_items` on the captured snapshot. -/
def BattleBackend.takeSnapshot (s : BattleBackend) (battleId : Bytes) (pickup : Option Bytes) :
    BattleBackend × Option ItemSnapshot :=
  match s.snapshots.lookup battleId with
  | none => (s, none)
  | some snapshot =>
    let (item, event) := ((s.battleItems.lookup battleId).getD {}).pickUp pickup
    let enriched : ItemSnapshot := { snapshot, item, pickup := event }
    ({ s with
        snapshots := s.snapshots.erase battleId
        battleItems := s.battleItems.insert battleId item
        latestSnapshots := s.latestSnapshots.insert battleId enriched },
      some enriched)

def BattleBackend.consumeSettlement (s : BattleBackend) (battleId : Bytes) :
    BattleBackend × Option BattleResultSummary :=
  ({ s with settlements := s.settlements.erase battleId }, s.settlements.lookup battleId)

def FinishedPush.withSettlement (push : FinishedPush) : Option BattleResultSummary → FinishedPush
  | none => push
  | some settlement =>
    { push with
      winnerUserId := settlement.winnerUserId
      scores := some settlement.scores
      reason := settlement.reason.toString }

/-! ## Handlers -/

structure Handled where
  service : BattleBackend
  reply : BattleReply
  events : List InstanceEvent := []

/-- `handle_battle_create`, with the plugin registered. -/
def handleBattleCreate (spawns : Spawns) (battleId roomId : Bytes) (playerIds : List Bytes)
    (maxFrames : UInt32) (s : BattleBackend) : Handled :=
  if battleId.isEmpty || roomId.isEmpty then
    { service := s, reply := makeError (-1004) (ascii "empty_fields") }
  else if playerIds.length < 2 then
    { service := s, reply := makeError (-1004) (ascii "need_at_least_two_players") }
  else
    match createInstance spawns battleId roomId playerIds maxFrames s.instances with
    | none =>
      { service := s
        reply := makeError (-2004)
          (if (s.instances.lookup battleId).isSome then ascii "battle_already_exists"
            else ascii "battle_capacity_reached") }
    | some instances =>
      { service :=
          { s with instances, instanceFrames := s.instanceFrames.insert battleId 0 }
        reply := .created battleId roomId playerIds [.battleStarted battleId roomId playerIds] }

def handleBattleInput (userId battleId inputData : Bytes) (score : Int64)
    (submittedFrame : UInt32) (s : BattleBackend) : Handled :=
  if (s.instances.lookup battleId).isNone then
    { service := s, reply := makeError (-2003) (ascii "battle_not_found") }
  else
    let (instances, result) :=
      processInputImmediate battleId userId inputData score submittedFrame s.instances
    if !result.accepted then
      { service := { s with instances }, reply := makeError (-3002) result.rejectReason }
    else
      let (ticked, stats, events) := tickInstance battleId (s.instanceFrame battleId + 1) instances
      let s := s.absorb ticked events
      let s := { s with instanceFrames := s.instanceFrames.insert battleId stats.frameNumber }
      -- the item of the battle is picked up by naming it
      let pickup :=
        if inputData = ascii "pickup:" ++ (ascii "boost_" ++ battleId) then some userId else none
      let (s, snapshot) := s.takeSnapshot battleId pickup
      let frame := BattlePush.frameAdvanced battleId stats.frameNumber
        (ascii "input:" ++ userId ++ ascii ":" ++ decimal result.inputSeq.toNat) snapshot
      if stats.shouldFinish then
        let (s, settlement) := s.consumeSettlement battleId
        let push : FinishedPush :=
          { battleId, reason := ascii "finished", totalFrames := stats.frameNumber }
        { service := s.release battleId
          reply := .input battleId result.inputSeq stats.frameNumber true
            [frame, .battleFinished (push.withSettlement settlement)]
          events }
      else
        { service := s
          reply := .input battleId result.inputSeq stats.frameNumber false [frame]
          events }

/-- `handle_battle_state`, which ticks an instance that is due. -/
def handleBattleState (battleId : Bytes) (nowMs : Int) (s : BattleBackend) : Handled :=
  if battleId.isEmpty then
    { service := s, reply := makeError (-1004) (ascii "empty_battle_id") }
  else if (s.instances.lookup battleId).isNone then
    match s.latestSnapshots.lookup battleId with
    | none => { service := s, reply := makeError (-2003) (ascii "battle_not_found") }
    | some cached =>
      { service := s, reply := .state battleId (s.instanceFrame battleId) (some cached) }
  else if !s.dueForTick battleId nowMs then
    { service := s
      reply := .state battleId (s.instanceFrame battleId) (s.latestSnapshots.lookup battleId) }
  else
    let (ticked, stats, events) := tickInstance battleId (s.instanceFrame battleId + 1) s.instances
    let s := s.absorb ticked events
    let s :=
      { s with
        lastTickMs := s.lastTickMs.insert battleId nowMs
        instanceFrames := s.instanceFrames.insert battleId stats.frameNumber }
    let (s, _) := s.takeSnapshot battleId none
    let reply := BattleReply.state battleId stats.frameNumber (s.latestSnapshots.lookup battleId)
    if stats.shouldFinish then
      -- the settlement is consumed for the archive only
      let (s, _) := s.consumeSettlement battleId
      { service := s.release battleId, reply, events }
    else { service := s, reply, events }

/-- `handle_battle_finish`, whether or not there is such a battle. -/
def handleBattleFinish (battleId : Bytes) (hasReason : Bool) (s : BattleBackend) : Handled :=
  let (instances, events) := finishInstance battleId .userRequested s.instances
  let s := s.absorb instances events
  let (s, settlement) := s.consumeSettlement battleId
  let totalFrames := s.instanceFrame battleId
  let push : FinishedPush :=
    { battleId
      reason := if hasReason then ascii "user_requested" else ascii "finished"
      totalFrames }
  let push := push.withSettlement settlement
  { service := s.release battleId
    reply := .finished battleId push.reason totalFrames [.battleFinished push]
    events }

def BattleBackend.handle (spawns : Spawns) (nowMs : Int) (s : BattleBackend) :
    BattleRequest → Handled
  | .create battleId roomId playerIds maxFrames =>
    handleBattleCreate spawns battleId roomId playerIds maxFrames s
  | .input userId battleId inputData score submittedFrame =>
    handleBattleInput userId battleId inputData score submittedFrame s
  | .state battleId => handleBattleState battleId nowMs s
  | .finish _ battleId hasReason => handleBattleFinish battleId hasReason s
  | .unreadable throws =>
    { service := s
      reply := if throws then .internalError else makeError (-1004) (ascii "invalid_json") }

end BoostGateway.Battle
