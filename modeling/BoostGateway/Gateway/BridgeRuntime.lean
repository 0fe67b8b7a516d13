import BoostGateway.Battle.BackendService
import BoostGateway.Gateway.Commands
import BoostGateway.Room.BackendService

/-!
# The runtime in front of backend services

`Runtime` with a service bridge. The services are a parameter: anything that answers a request and
may change by it. The bridge is set before the first command, so there are no actors here, and the
entries of `battles_by_room_id_` are placeholders. A request is modelled by the fields of its
payload, an answer by the fields that are read of it. A payload for a room passes its schema check,
as neither the user nor the room is empty; that of a login may not.
-/

namespace BoostGateway.Gateway

open Battle (BattleFinishReason BattleRequest)
open Room (RoomRequest)

/-! ## Requests and answers -/

inductive BackendRequest where
  | login (userId token displayName : Bytes)
  | sessionClose (userId : Bytes) (sessionId : SessionId)
  | registerAccount (document : Bytes)
  | room (request : RoomRequest)
  | roomList (body : Bytes)
  | roomDetail (roomId : Bytes)
  /-- What the answer to `room_start_battle` asks to forward to the battle service. -/
  | forward (messageType : Bytes) (request : BattleRequest)
  | battle (request : BattleRequest)
  | replayLoad (battleId : Bytes)
  | matchJoin (userId : Bytes) (mmr : Int) (mode : Bytes)
  | matchLeave (userId mode : Bytes)
  | matchStatus (userId mode : Bytes)
  | leaderboardSubmit (userId displayName : Bytes) (score : Int)
  | leaderboardTop (k : Int)
  | leaderboardRank (userId : Bytes)
  | leaderboardSettle (battleId roomId reason userId : Bytes) (score : Int64)

/-- The strings of the payloads that are built here. -/
def BackendRequest.strings : BackendRequest → List Bytes
  | login userId token displayName => [userId, token, displayName]
  | sessionClose userId _ => [userId]
  | room (.create userId roomId _) => [userId, roomId]
  | room (.join userId roomId) => [userId, roomId]
  | room (.ready userId roomId _) => [userId, roomId]
  | room (.startBattle userId roomId) => [userId, roomId]
  | room (.leave userId roomId) => [userId, roomId]
  | room (.battleFinished roomId battleId) => [roomId, battleId]
  | room (.kick userId roomId targetUserId) => [userId, roomId, targetUserId]
  | room (.transferOwner userId roomId newOwnerId) => [userId, roomId, newOwnerId]
  | roomDetail roomId => [roomId]
  | battle (.input userId battleId inputData _ _) => [userId, battleId, inputData]
  | battle (.state battleId) => [battleId]
  | battle (.finish userId battleId _) => [userId, battleId]
  | battle (.create battleId roomId playerIds _) => battleId :: roomId :: playerIds
  | replayLoad battleId => [battleId]
  | matchJoin userId _ mode => [userId, mode]
  | matchLeave userId mode => [userId, mode]
  | matchStatus userId mode => [userId, mode]
  | leaderboardSubmit userId displayName _ => [userId, displayName]
  | leaderboardRank userId => [userId]
  | leaderboardSettle battleId roomId reason userId _ => [battleId, roomId, reason, userId]
  | registerAccount _ | roomList _ | forward _ _ | battle (.unreadable _) | leaderboardTop _ => []

def BackendRequest.dumps (request : BackendRequest) : Bool := request.strings.all utf8Valid

structure ForwardDoc where
  target : Bytes := []
  messageType : Bytes := []
  payload : Option BattleRequest := none

/-- What is read of an answer, with the defaults of `value`. -/
structure ReplyDoc where
  status : Bytes := []
  reason : Option Bytes := none
  isDuplicate : Bool := false
  role : Bytes := ascii "player"
  forward : Option ForwardDoc := none
  battleId : Bytes := []
  pushToSessions : Option (List PushDoc) := none
  inputSeq : UInt64 := 0
  snapshot : Option Bytes := none
  /-- The document as `dump` writes it. -/
  text : Bytes := []

/-- `BackendRoutingResult`, with what can be parsed. -/
structure Answer where
  success : Bool := false
  error : ServiceErrorCode := .ok
  payload : Bytes := []
  document : Option ReplyDoc := none

def ReplyDoc.isOk (document : ReplyDoc) : Bool := document.status = ascii "ok"

def Answer.reasonOr (answer : Answer) (fallback discarded : Bytes) : Bytes :=
  match answer.document with
  | none => discarded
  | some document => document.reason.getD fallback

def Answer.accepted (answer : Answer) : Option ReplyDoc :=
  if answer.success then answer.document.filter ReplyDoc.isOk else none

def Answer.backendErrorReason (answer : Answer) (fallback : Bytes) : Bytes :=
  if answer.payload = [] then fallback else answer.reasonOr fallback answer.payload

/-! ## The state -/

inductive Role where
  | player
  | admin
  | observer

def roleFromString (text : Bytes) : Role :=
  if text = ascii "admin" then .admin
  else if text = ascii "observer" then .observer
  else .player

/-- A battle input with a worker's answer to come. -/
structure BattleRouteTask where
  sessionId : SessionId
  requestId : UInt32
  roomId : Bytes
  battleId : Bytes
  request : BattleRequest

/-- What the runtime does not decide itself. -/
structure Environment where
  /-- The order in which `session_for_user` meets the sessions. -/
  order : WalkOrder
  /-- `Authorizer::is_allowed`. -/
  isAllowed : Role → CommandType → Bool
  /-- `nlohmann::json::parse` gives an object. -/
  isJsonObject : Bytes → Bool
  /-- `battle_route_offload_enabled`. -/
  offload : Bool
  /-- `V2_BATTLE_ROUTE_QUEUE_CAPACITY`. -/
  queueCapacity : Nat
  /-- `V2_BATTLE_FRAME_PUSH_EVERY`. -/
  battleFramePushEvery : Nat

/-- `Runtime` with a bridge to services with states in `β`. -/
structure BridgeRuntime (β : Type) where
  backend : β
  lookup : SessionLookup := {}
  sessionRoles : AList fun _ : SessionId => Role := ∅
  battlesByRoomId : List Bytes := []
  roomToBattleId : AList fun _ : Bytes => Bytes := ∅
  completedBridgeBattleIds : List Bytes := []
  leaderboardSettlementKeys : List Bytes := []
  lastEmittedBattleFrame : AList fun _ : Bytes => Nat := ∅
  battleRouteTasks : List BattleRouteTask := []
  battleRouteCompletions : List (BattleRouteTask × Answer) := []
  /-- The writes so far, in order. -/
  writes : List SessionWrite := []

inductive HandleOutcome where
  | handled
  | unhandled
  | threw

variable {β : Type}

namespace BridgeRuntime

def emit (write : SessionWrite) (g : BridgeRuntime β) : BridgeRuntime β :=
  { g with writes := g.writes ++ [write] }

def broadcastToRoom (roomId : Bytes) (message : ServerMessage) (body : Body)
    (g : BridgeRuntime β) : BridgeRuntime β :=
  { g with
    writes := g.writes ++ (g.lookup.sessionsInRoom roomId).map fun sessionId =>
      { message, sessionId, requestId := 0, body } }

def reply (c : Command) (message : ServerMessage) (body : Bytes) (g : BridgeRuntime β) :
    HandleOutcome × BridgeRuntime β :=
  (.handled, g.emit
      { message, sessionId := c.sessionId, requestId := c.requestId, body := .text body })

def fail (c : Command) (code : ErrorCode) (body : Bytes) (g : BridgeRuntime β) :
    HandleOutcome × BridgeRuntime β :=
  (.handled, g.emit
      { message := .errorResponse
        sessionId := c.sessionId
        requestId := c.requestId
        errorCode := code
        body := .text body })

def battleIdForRoom (roomId : Bytes) (g : BridgeRuntime β) : Bytes :=
  (g.roomToBattleId.lookup roomId).getD []

def shouldEmitBattleFramePush (env : Environment) (roomId : Bytes) (frameNumber : Nat)
    (g : BridgeRuntime β) : Bool × BridgeRuntime β :=
  let last := (g.lastEmittedBattleFrame.lookup roomId).getD 0
  if env.battleFramePushEvery ≤ 1 ∨ frameNumber = 0 ∨ last = 0 ∨ frameNumber ≤ last ∨
      env.battleFramePushEvery ≤ frameNumber - last then
    (true,
      { g with lastEmittedBattleFrame := g.lastEmittedBattleFrame.insert roomId frameNumber })
  else (false, { g with lastEmittedBattleFrame := g.lastEmittedBattleFrame.insert roomId last })

variable (serve : BackendRequest → β → Answer × β)

def route (request : BackendRequest) (g : BridgeRuntime β) : Answer × BridgeRuntime β :=
  ((serve request g.backend).1, { g with backend := (serve request g.backend).2 })

def ask (request : BackendRequest) (g : BridgeRuntime β)
    (next : Answer → BridgeRuntime β → HandleOutcome × BridgeRuntime β) :
    HandleOutcome × BridgeRuntime β :=
  if request.dumps then next (g.route serve request).1 (g.route serve request).2
  else (.threw, g)

/-- `bridge_route` with the name of the handler. -/
def bridgeRoute (handlerName : Bytes) (request : BackendRequest) (g : BridgeRuntime β)
    (onOk : ReplyDoc → BridgeRuntime β → HandleOutcome × BridgeRuntime β)
    (onError : Bytes → BridgeRuntime β → HandleOutcome × BridgeRuntime β) :
    HandleOutcome × BridgeRuntime β :=
  g.ask serve request fun answer g =>
    if answer.success then
      match answer.document with
      | some document =>
        if document.isOk then onOk document g
        else onError (document.reason.getD (handlerName ++ ascii "_failed")) g
      | none => onError (handlerName ++ ascii "_failed") g
    else onError (answer.backendErrorReason (ascii "backend_error")) g

/-- A command and its answer are passed on. -/
def relay (c : Command) (request : BackendRequest) (response : ServerMessage)
    (unavailable : ErrorCode) (fallback : Bytes) (g : BridgeRuntime β) :
    HandleOutcome × BridgeRuntime β :=
  g.ask serve request fun answer g =>
    if answer.success then g.reply c response answer.payload
    else g.fail c unavailable (answer.backendErrorReason fallback)

/-! ## Logins -/

def acceptLogin (env : Environment) (c : Command) (userId : Bytes) (document : ReplyDoc)
    (g : BridgeRuntime β) : HandleOutcome × BridgeRuntime β :=
  let g := { g with
    sessionRoles := g.sessionRoles.insert c.sessionId (roleFromString document.role) }
  let g :=
    if document.isDuplicate then
      match g.lookup.sessionForUser env.order userId with
      | some old =>
        let g := g.emit
          { message := .sessionKickedPush
            sessionId := old
            requestId := 0
            errorCode := .duplicateLogin
            body := .text (ascii "duplicate_login") }
        { g with lookup := g.lookup.eraseSessionUser old }
      | none => g
    else g
  let g := { g with lookup := g.lookup.setSessionUser c.sessionId userId }
  g.reply c .loginResponse (ascii "login_ok:" ++ userId)

def loginSchemaError (body : LoginBody) : Option Bytes :=
  if body.userId = [] then some (ascii "empty_field:user_id")
  else if body.token = [] then some (ascii "empty_field:token")
  else none

/-- `Runtime::handle` on `kLogin`. -/
def handleLogin (env : Environment) (c : Command) (g : BridgeRuntime β) :
    HandleOutcome × BridgeRuntime β :=
  match parseLoginBody c.body with
  | none => g.fail c .invalidUserId ErrorCode.invalidUserId.text
  | some body =>
    let request := .login body.userId body.token (body.displayName.getD [])
    -- the payload is written out before it is checked
    match if request.dumps then loginSchemaError body else none with
    | some error => g.fail c .invalidUserId error
    | none =>
      g.ask serve request fun answer g =>
        if answer.success then
          match answer.document with
          | some document =>
            if document.isOk then g.acceptLogin env c body.userId document
            else g.fail c .invalidToken (document.reason.getD (ascii "auth_failed"))
          | none => g.fail c .invalidToken (ascii "auth_failed")
        else
          g.fail c (if answer.error = .rejected then .invalidToken else .loginBackendUnavailable)
            (ascii "backend_error")

/-- `Runtime::handle` on `kRegister`. -/
def handleRegister (env : Environment) (c : Command) (g : BridgeRuntime β) :
    HandleOutcome × BridgeRuntime β :=
  if !env.isJsonObject c.body then
    g.fail c .invalidUserId (ascii "invalid_register_payload")
  else
    g.relay serve c (.registerAccount c.body) .registerResponse .loginBackendUnavailable
      (ascii "register_failed")

/-! ## Rooms -/

/-- `Runtime::handle` on `kRoomCreate`. -/
def handleRoomCreate (c : Command) (g : BridgeRuntime β) : HandleOutcome × BridgeRuntime β :=
  let userId := g.lookup.userIdFor c.sessionId
  match parseRoomIdBody c.body with
  | none => g.fail c .invalidRoomId ErrorCode.invalidRoomId.text
  | some roomId =>
    if userId = [] then g.fail c .invalidRoomId ErrorCode.invalidRoomId.text
    else
      g.bridgeRoute serve (ascii "room_create") (.room (.create userId roomId 0)) (fun _ g =>
          { g with lookup := g.lookup.setSessionRoom c.sessionId roomId }.reply c
            .roomCreateResponse roomId)
        (fun reason g =>
          g.fail c
            (if reason = ascii "backend_error" then .roomBackendUnavailable else .invalidRoomId)
            reason)

/-- `Runtime::handle` on `kRoomJoin`. -/
def handleRoomJoin (c : Command) (g : BridgeRuntime β) : HandleOutcome × BridgeRuntime β :=
  let userId := g.lookup.userIdFor c.sessionId
  match parseRoomIdBody c.body with
  | none => g.fail c .invalidRoomId ErrorCode.invalidRoomId.text
  | some roomId =>
    if userId = [] then g.fail c .invalidRoomId ErrorCode.invalidRoomId.text
    else
      g.ask serve (.room (.join userId roomId)) fun answer g =>
        if answer.success then
          if answer.document.any ReplyDoc.isOk then
            { g with lookup := g.lookup.setSessionRoom c.sessionId roomId }.reply c
              .roomJoinResponse roomId
          else
            g.fail c .invalidRoomId
              (answer.reasonOr (ascii "room_join_failed") (ascii "room_join_failed"))
        else if answer.error = .rejected then
          g.fail c .invalidRoomId (answer.backendErrorReason (ascii "room_join_rejected"))
        else
          g.fail c .roomBackendUnavailable (answer.backendErrorReason (ascii "backend_error"))

/-- `Runtime::handle` on `kRoomReady`. -/
def handleRoomReady (c : Command) (g : BridgeRuntime β) : HandleOutcome × BridgeRuntime β :=
  let userId := g.lookup.userIdFor c.sessionId
  let roomId := g.lookup.roomIdFor c.sessionId
  if userId = [] ∨ roomId = [] then (.unhandled, g)
  else
    match parseRoomReadyBody c.body with
    | none => g.fail c .authRequired (ascii "invalid_ready_state")
    | some ready =>
      g.ask serve (.room (.ready userId roomId ready)) fun answer g =>
        if answer.success then
          if answer.document.any ReplyDoc.isOk then
            g.reply c .roomReadyResponse (boolText ready)
          else
            g.fail c .authRequired (answer.reasonOr (ascii "ready_failed") (ascii "ready_failed"))
        else if answer.error = .rejected then
          g.fail c .authRequired (answer.backendErrorReason (ascii "room_ready_rejected"))
        else
          g.fail c .roomBackendUnavailable (answer.backendErrorReason (ascii "backend_error"))

/-- `Runtime::handle` on `kRoomLeave`. -/
def handleRoomLeave (c : Command) (g : BridgeRuntime β) : HandleOutcome × BridgeRuntime β :=
  let userId := g.lookup.userIdFor c.sessionId
  let roomId := g.lookup.roomIdFor c.sessionId
  if userId = [] ∨ roomId = [] then (.unhandled, g)
  else
    g.ask serve (.room (.leave userId roomId)) fun answer g =>
      if answer.success then
        if answer.document.any ReplyDoc.isOk then
          { g with lookup := g.lookup.eraseSessionRoom c.sessionId }.reply c .roomLeaveResponse
            roomId
        else
          g.fail c .notInRoom (answer.reasonOr (ascii "leave_failed") (ascii "leave_failed"))
      else g.fail c .roomBackendUnavailable (ascii "backend_error")

def handleRoomList (c : Command) (g : BridgeRuntime β) : HandleOutcome × BridgeRuntime β :=
  -- an empty body is read as an empty object
  let body := if c.body = [] then [123, 125] else c.body
  g.relay serve c (.roomList body) .roomListResponse .roomBackendUnavailable
    (ascii "room_list_failed")

/-- `Runtime::handle` on `kRoomDetail`. -/
def handleRoomDetail (c : Command) (g : BridgeRuntime β) : HandleOutcome × BridgeRuntime β :=
  match parseRoomIdBody c.body with
  | none => g.fail c .invalidRoomId ErrorCode.invalidRoomId.text
  | some roomId =>
    g.relay serve c (.roomDetail roomId) .roomDetailResponse .roomBackendUnavailable
      (ascii "room_detail_failed")

/-- `Runtime::handle` on an owner's command about a member. -/
def handleOwnerCommand (c : Command) (request : Bytes → Bytes → RoomRequest)
    (response : ServerMessage) (fallback : Bytes) (g : BridgeRuntime β) :
    HandleOutcome × BridgeRuntime β :=
  let userId := g.lookup.userIdFor c.sessionId
  let roomId := g.lookup.roomIdFor c.sessionId
  if userId = [] ∨ roomId = [] then g.fail c .notInRoom ErrorCode.notInRoom.text
  else g.relay serve c (.room (request userId roomId)) response .roomBackendUnavailable fallback

def handleRoomKick (c : Command) (g : BridgeRuntime β) : HandleOutcome × BridgeRuntime β :=
  g.handleOwnerCommand serve c (fun userId roomId => .kick userId roomId c.body)
    .roomKickResponse (ascii "room_kick_failed")

def handleRoomTransferOwner (c : Command) (g : BridgeRuntime β) : HandleOutcome × BridgeRuntime β :=
  g.handleOwnerCommand serve c (fun userId roomId => .transferOwner userId roomId c.body)
    .roomTransferOwnerResponse (ascii "room_transfer_failed")

end BridgeRuntime

end BoostGateway.Gateway
