import BoostGateway.Gateway.SessionLookup

/-!
# The player and the room actor

`PlayerActor::on_message` and `RoomActor::on_message`. What an actor does besides changing its own
state are its effects: events pushed to the runtime, and timers armed and cancelled, with the number
that the actor system would hand out.
-/

namespace BoostGateway.Gateway

/-! ## Players -/

/-- `PlayerLifecycleState`. -/
inductive PlayerLifecycle where
  | offline
  | authenticating
  | onlineIdle
  | inRoom
  | inBattle
  | suspended
  deriving DecidableEq

structure PlayerSessionBinding where
  sessionId : SessionId := 0
  connectionId : Nat := 0
  boundAt : Nat := 0

/-- `PlayerActor` with its `PlayerRuntimeState`. -/
structure PlayerActor where
  lifecycle : PlayerLifecycle := .offline
  userId : Bytes := []
  displayName : Bytes := []
  binding : Option PlayerSessionBinding := none
  roomActorId : Option ActorId := none
  roomId : Option Bytes := none
  battleActorId : Option ActorId := none
  battleId : Option Bytes := none
  pendingBattleSettlementReason : Option Bytes := none
  pendingBinding : Option PlayerSessionBinding := none
  reconnectTimerId : Option Nat := none

/-- The messages that `PlayerActor::on_message` handles. -/
inductive PlayerMsg where
  | bindSession (sessionId : SessionId) (connectionId : Nat)
  | loginRequest (sessionId : SessionId) (userId : Bytes) (displayName : Option Bytes)
  | roomAssigned (roomActorId : ActorId) (roomId : Bytes)
  | battleAssigned (battleActorId : ActorId) (battleId : Bytes)
  | battleSettlement (battleId reason : Bytes)
  | battleEnded (battleId reason : Bytes)
  | sessionClosed (sessionId : SessionId)
  | reconnectTimerExpired (userId : Bytes)
  | tokenRefresh (sessionId : SessionId) (userId : Bytes)

inductive PlayerEvent where
  | loginAccepted (sessionId : SessionId) (userId displayName : Bytes) (roomId : Option Bytes)
  | sessionKick (oldSessionId newSessionId : SessionId)
  | sessionResume (sessionId : SessionId) (roomId : Bytes) (inBattle : Bool)
  | settlementApplied (battleId reason : Bytes)

inductive PlayerEffect where
  /-- `sink_.push` -/
  | push (event : PlayerEvent)
  /-- `schedule_after(self(), ReconnectTimerExpiredMsg, kReconnectWindow)` -/
  | armReconnectTimer (userId : Bytes)
  /-- `cancel_schedule` -/
  | cancelTimer (id : Nat)

namespace PlayerActor

def handleBindSession (sessionId : SessionId) (connectionId : Nat) (a : PlayerActor) :
    PlayerActor :=
  let binding : PlayerSessionBinding :=
    { sessionId, connectionId, boundAt := connectionId }
  let bound :=
    if a.binding = none ∨ a.lifecycle = .offline ∨ a.lifecycle = .authenticating then
      { a with binding := some binding }
    else { a with pendingBinding := some binding }
  if a.lifecycle = .offline ∨ a.lifecycle = .suspended then
    { bound with lifecycle := .authenticating }
  else bound

def kicks (sessionId : SessionId) (a : PlayerActor) : Option SessionId :=
  match a.binding with
  | none => none
  | some binding =>
    if binding.sessionId ≠ 0 ∧ binding.sessionId ≠ sessionId then some binding.sessionId
    else none

def handleLoginRequest (sessionId : SessionId) (userId : Bytes) (displayName : Option Bytes)
    (a : PlayerActor) : PlayerActor × List PlayerEffect :=
  let incoming :=
    if a.pendingBinding.any (·.sessionId = sessionId) then a.pendingBinding else a.binding
  let kick := (a.kicks sessionId).toList.map fun old => .push (.sessionKick old sessionId)
  let cancel := a.reconnectTimerId.toList.map .cancelTimer
  let lifecycle := if a.roomId.isSome then PlayerLifecycle.inRoom else .onlineIdle
  let a' :=
    { a with
      reconnectTimerId := none
      userId
      displayName := displayName.getD userId
      binding := some
        { sessionId
          connectionId := (incoming.map (·.connectionId)).getD sessionId
          boundAt := sessionId }
      pendingBinding := none
      lifecycle }
  (a', kick ++ cancel ++ .push (.loginAccepted sessionId userId a'.displayName a.roomId) ::
      a.roomId.toList.map fun roomId =>
        .push (.sessionResume sessionId roomId (lifecycle = .inBattle)))

def handleBattleSettlement (battleId reason : Bytes) (a : PlayerActor) :
    PlayerActor × List PlayerEffect :=
  if a.battleId = some battleId then
    ({ a with pendingBattleSettlementReason := some reason },
      [.push (.settlementApplied battleId reason)])
  else (a, [])

def handleBattleEnded (battleId : Bytes) (a : PlayerActor) : PlayerActor :=
  if a.battleId.any (· ≠ battleId) then a
  else
    { a with
      battleActorId := none
      battleId := none
      pendingBattleSettlementReason := none
      lifecycle := if a.roomId.isSome then .inRoom else .onlineIdle }

def handleSessionClosed (timerId : Nat) (sessionId : SessionId) (a : PlayerActor) :
    PlayerActor × List PlayerEffect :=
  if a.binding.any (·.sessionId = sessionId) then
    let unbound := { a with binding := none, pendingBinding := none }
    if a.roomId.isSome then
      ({ unbound with lifecycle := .suspended, reconnectTimerId := some timerId },
        [.armReconnectTimer a.userId])
    else ({ unbound with lifecycle := .offline }, [])
  else (a, [])

def onMessage (timerId : Nat) (a : PlayerActor) : PlayerMsg → PlayerActor × List PlayerEffect
  | .bindSession sessionId connectionId => (a.handleBindSession sessionId connectionId, [])
  | .loginRequest sessionId userId displayName =>
    a.handleLoginRequest sessionId userId displayName
  | .roomAssigned roomActorId roomId =>
    ({ a with roomActorId := some roomActorId, roomId := some roomId, lifecycle := .inRoom }, [])
  | .battleAssigned battleActorId battleId =>
    ({ a with
        battleActorId := some battleActorId
        battleId := some battleId
        pendingBattleSettlementReason := none
        lifecycle := .inBattle }, [])
  | .battleSettlement battleId reason => a.handleBattleSettlement battleId reason
  | .battleEnded battleId _ => (a.handleBattleEnded battleId, [])
  | .sessionClosed sessionId => a.handleSessionClosed timerId sessionId
  | .reconnectTimerExpired _ =>
    ({ a with
        reconnectTimerId := none
        lifecycle := if a.lifecycle = .suspended then .offline else a.lifecycle }, [])
  | .tokenRefresh _ _ => (a, [])

end PlayerActor

/-! ## Rooms -/

structure RoomMemberState where
  userId : Bytes
  playerActorId : ActorId := 0
  ready : Bool := false

/-- `RoomActor` with its `RoomRuntimeState`. -/
structure RoomActor where
  roomId : Bytes := []
  ownerUserId : Bytes := []
  members : List RoomMemberState := []
  activeBattleId : Option Bytes := none
  pendingBattleSettlementReason : Option Bytes := none

/-- The messages that `RoomActor::on_message` handles. -/
inductive RoomMsg where
  | createRoom (roomId ownerUserId : Bytes) (ownerActorId : ActorId)
  | joinRoom (userId : Bytes) (playerActorId : ActorId)
  | setReady (userId : Bytes) (ready : Bool)
  | startBattle (requesterUserId : Bytes)
  | battleStarted (battleId : Bytes)
  | battleSettlement (battleId reason : Bytes)
  | battleEnded (battleId reason : Bytes)
  | leaveRoom (userId : Bytes)
  | kickMember (requesterUserId targetUserId : Bytes)
  | transferOwner (requesterUserId newOwnerUserId : Bytes)

inductive RoomEvent where
  | battleStartRequested (roomId : Bytes) (playerIds : List Bytes) (requesterUserId : Bytes)
  | battleStartRejected (roomId reason : Bytes)
  | settlementApplied (roomId battleId reason : Bytes)
  | leaveApplied (roomId userId : Bytes)
  | kickApplied (roomId targetUserId : Bytes)
  | ownerTransferred (roomId oldOwnerUserId newOwnerUserId : Bytes)

namespace RoomActor

def hasMember (userId : Bytes) (a : RoomActor) : Bool := a.members.any (·.userId = userId)

def allMembersReady (a : RoomActor) : Bool := a.members.all (·.ready)

def setReadyOf (userId : Bytes) (ready : Bool) : List RoomMemberState → List RoomMemberState
  | [] => []
  | m :: members =>
    if m.userId = userId then { m with ready } :: members
    else m :: setReadyOf userId ready members

def handleStartBattle (requesterUserId : Bytes) (a : RoomActor) : List RoomEvent :=
  if a.activeBattleId.isSome then
    [.battleStartRejected a.roomId (ascii "battle_already_started")]
  else if requesterUserId ≠ a.ownerUserId then
    [.battleStartRejected a.roomId (ascii "not_room_owner")]
  else if a.members.length < 2 then
    [.battleStartRejected a.roomId (ascii "not_enough_players")]
  else if !a.allMembersReady then [.battleStartRejected a.roomId (ascii "not_all_ready")]
  else [.battleStartRequested a.roomId (a.members.map (·.userId)) requesterUserId]

def handleBattleSettlement (battleId reason : Bytes) (a : RoomActor) : RoomActor × List RoomEvent :=
  if a.activeBattleId = some battleId then
    ({ a with pendingBattleSettlementReason := some reason },
      [.settlementApplied a.roomId battleId reason])
  else (a, [])

def handleBattleEnded (battleId : Bytes) (a : RoomActor) : RoomActor :=
  if a.activeBattleId = some battleId then
    { a with
      activeBattleId := none
      pendingBattleSettlementReason := none
      members := a.members.map fun m => { m with ready := false } }
  else a

def reassignOwnerIfNeeded (a : RoomActor) : RoomActor × List RoomEvent :=
  match a.members with
  | [] => (a, [])
  | first :: _ =>
    ({ a with ownerUserId := first.userId }, [.ownerTransferred a.roomId [] first.userId])

def handleLeaveRoom (userId : Bytes) (a : RoomActor) : RoomActor × List RoomEvent :=
  if !a.hasMember userId then (a, [])
  else
    let left := { a with members := a.members.filter (·.userId ≠ userId) }
    if a.ownerUserId = userId then
      let (reassigned, events) := left.reassignOwnerIfNeeded
      (reassigned, .leaveApplied a.roomId userId :: events)
    else (left, [.leaveApplied a.roomId userId])

def handleKickMember (requesterUserId targetUserId : Bytes) (a : RoomActor) :
    RoomActor × List RoomEvent :=
  if requesterUserId ≠ a.ownerUserId ∨ targetUserId = a.ownerUserId ∨
      !a.hasMember targetUserId then (a, [])
  else
    ({ a with members := a.members.filter (·.userId ≠ targetUserId) },
      [.kickApplied a.roomId targetUserId])

def handleTransferOwner (requesterUserId newOwnerUserId : Bytes) (a : RoomActor) :
    RoomActor × List RoomEvent :=
  if requesterUserId ≠ a.ownerUserId ∨ newOwnerUserId = a.ownerUserId ∨
      !a.hasMember newOwnerUserId then (a, [])
  else
    ({ a with ownerUserId := newOwnerUserId },
      [.ownerTransferred a.roomId a.ownerUserId newOwnerUserId])

def onMessage (a : RoomActor) : RoomMsg → RoomActor × List RoomEvent
  | .createRoom roomId ownerUserId ownerActorId =>
    ({ a with
        roomId
        ownerUserId
        members := [{ userId := ownerUserId, playerActorId := ownerActorId }] }, [])
  | .joinRoom userId playerActorId =>
    if a.hasMember userId then (a, [])
    else
      ({ a with members := a.members ++ [{ userId, playerActorId }] }, [])
  | .setReady userId ready => ({ a with members := setReadyOf userId ready a.members }, [])
  | .startBattle requesterUserId => (a, a.handleStartBattle requesterUserId)
  | .battleStarted battleId =>
    ({ a with activeBattleId := some battleId, pendingBattleSettlementReason := none }, [])
  | .battleSettlement battleId reason => a.handleBattleSettlement battleId reason
  | .battleEnded battleId _ => (a.handleBattleEnded battleId, [])
  | .leaveRoom userId => a.handleLeaveRoom userId
  | .kickMember requesterUserId targetUserId => a.handleKickMember requesterUserId targetUserId
  | .transferOwner requesterUserId newOwnerUserId =>
    a.handleTransferOwner requesterUserId newOwnerUserId

end RoomActor

end BoostGateway.Gateway
