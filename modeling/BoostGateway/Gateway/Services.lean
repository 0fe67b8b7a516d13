import BoostGateway.Gateway.BridgeBattles

/-!
# The services behind the bridge

The room and the battle service as the backend of the runtime. A request or its reply can get lost,
and a request without a reply is sent once more, so a service may execute it twice, or once when the
gateway takes it to have failed. The answers of the other services are arbitrary.
-/

namespace BoostGateway.Gateway

open Battle (BattleBackend BattlePush BattleReply BattleRequest ItemSnapshot Spawns)
open Room (RoomReply RoomService)

/-! ## Calls -/

/-- The reply of a service: kind, code and body. -/
structure Reply where
  failed : Bool := false
  errorCode : ServiceErrorCode := .ok
  payload : Bytes := []
  document : Option ReplyDoc := none

inductive Fate where
  | notConnected
  | requestLost
  | replyLost
  | delivered
  deriving DecidableEq

inductive Plan where
  /-- The breaker is open, or there is no endpoint. -/
  | refused (error : ServiceErrorCode)
  | sent (first : Fate) (retry : Fate)

def Reply.answer (reply : Reply) : Answer where
  success := !reply.failed
  error := if reply.failed then reply.errorCode else .ok
  payload := reply.payload
  document := reply.document

section Delivery

variable {σ : Type} (execute : σ → Reply × σ)

def resend (retry : Fate) (s : σ) : Answer × σ :=
  match retry with
  | .notConnected | .requestLost => ({ error := .timeout }, s)
  | .replyLost => ({ error := .timeout }, (execute s).2)
  | .delivered => ((execute s).1.answer, (execute s).2)

def deliver (plan : Plan) (s : σ) : Answer × σ :=
  match plan with
  | .refused error => ({ error }, s)
  | .sent .notConnected _ => ({ error := .unavailable }, s)
  | .sent .delivered _ => ((execute s).1.answer, (execute s).2)
  | .sent .requestLost retry => resend execute retry s
  | .sent .replyLost retry => resend execute retry (execute s).2

end Delivery

def Reply.envelope (reply : Reply) (correlationId : UInt64) : BackendReply where
  correlationId := correlationId
  kind := if reply.failed then .error else .response
  errorCode := reply.errorCode.code
  payload := reply.payload

def Fate.attempt (fate : Fate) (reply : BackendReply) : Attempt :=
  match fate with
  | .notConnected => .notConnected
  | .requestLost | .replyLost => .noResponse
  | .delivered => .answered reply

def Fate.leaves {σ : Type} (execute : σ → Reply × σ) (fate : Fate) (s : σ) : σ :=
  match fate with
  | .notConnected | .requestLost => s
  | .replyLost | .delivered => (execute s).2

/-- The answer is what `route` makes of the two attempts. -/
theorem deliver_eq_settle {σ : Type} (execute : σ → Reply × σ) (first retry : Fate) (s : σ)
    (correlationId : UInt64) :
    let exchange : Exchange :=
      { first := first.attempt ((execute s).1.envelope correlationId)
        retry := retry.attempt ((execute (first.leaves execute s)).1.envelope correlationId) }
    let answer := (deliver execute (.sent first retry) s).1
    (answer.success, answer.error, answer.payload) =
      (exchange.settle.2.success, exchange.settle.2.error, exchange.settle.2.responsePayload) := by
  have hrep : ∀ reply : Reply, (reply.answer.success, reply.answer.error, reply.answer.payload) =
        ((Exchange.settle { first := .answered (reply.envelope correlationId) }).2.success,
          (Exchange.settle { first := .answered (reply.envelope correlationId) }).2.error,
          (Exchange.settle
            { first := .answered (reply.envelope correlationId) }).2.responsePayload) := by
    rintro ⟨failed, errorCode, payload, document⟩
    cases failed
    · rfl
    · simp only [Reply.answer, Exchange.settle, Exchange.answer, Reply.envelope, if_pos]
      split <;> rfl
  cases first with
  | notConnected => rfl
  | delivered => exact hrep _
  | requestLost | replyLost =>
    cases retry with
    | notConnected | requestLost | replyLost => rfl
    | delivered => exact hrep _

/-! ## The replies -/

def errorReply (code : ServiceErrorCode) (reason : Bytes) (payload : Bytes) : Reply where
  failed := true
  errorCode := code
  payload := payload
  document := some { status := ascii "error", reason := some reason, text := payload }

/-- The room service's reply, as `dump` writes it. -/
def roomReply (text : RoomReply → Bytes) (reply : RoomReply) : Reply :=
  match reply with
  | .error code reason => errorReply code reason (text reply)
  | .started _ _ _ forward =>
    { payload := text reply
      document := some
        { status := ascii "ok"
          text := text reply
          forward := some
            { target := ascii "battle"
              messageType := ascii "battle_create"
              payload := some (.create forward.battleId forward.roomId forward.playerIds
                forward.maxFrames) } } }
  | _ =>
    { payload := text reply, document := some { status := ascii "ok", text := text reply } }

/-- What the gateway reads of a push of the battle service. -/
def pushDoc : BattlePush → PushDoc
  | .battleStarted battleId _ _ =>
    { kind := ascii "battle_started", battleId := some battleId }
  | .frameAdvanced battleId frameNumber _ _ =>
    { kind := ascii "frame_advanced", battleId := some battleId, frameNumber := frameNumber.toNat }
  | .battleFinished push =>
    { kind := ascii "battle_finished"
      battleId := some push.battleId
      reason := some push.reason
      scores := push.scores.map fun scores => scores.map fun score =>
        (score.userId, score.score) }

def battleReply (text : BattleReply → Bytes) (snapshotText : ItemSnapshot → Bytes)
    (reply : BattleReply) : Reply :=
  let ok (document : ReplyDoc) : Reply :=
    { payload := text reply
      document := some { document with status := ascii "ok", text := text reply } }
  match reply with
  | .error errorCode _ reason => errorReply ⟨Int32.ofInt errorCode⟩ reason (text reply)
  | .internalError => { failed := true, errorCode := .internalError, payload := text reply }
  | .created battleId _ _ pushes =>
    ok { battleId, pushToSessions := some (pushes.map pushDoc) }
  | .input battleId inputSeq _ _ pushes =>
    ok { battleId, inputSeq, pushToSessions := some (pushes.map pushDoc) }
  | .state battleId _ snapshot =>
    ok { battleId, snapshot := snapshot.map snapshotText }
  | .finished battleId reason _ pushes =>
    ok { battleId, reason := some reason, pushToSessions := some (pushes.map pushDoc) }

/-! ## The backend -/

structure Services where
  rooms : RoomService := {}
  battles : BattleBackend := {}
  calls : Nat := 0

/-- What services and connections depend on, call by call. -/
structure Outside where
  clock : Nat → Int
  plan : Nat → Plan
  spawns : Spawns
  /-- The answers of the services that are not modelled. -/
  other : Nat → BackendRequest → Answer
  roomText : RoomReply → Bytes
  battleText : BattleReply → Bytes
  snapshotText : ItemSnapshot → Bytes

def Outside.reliable (o : Outside) : Outside :=
  { o with plan := fun _ => .sent .delivered .delivered }

namespace Services

def executeRoom (o : Outside) (request : Room.RoomRequest) (s : Services) : Reply × Services :=
  let (rooms, reply) := s.rooms.handle (o.clock s.calls) request
  (roomReply o.roomText reply, { s with rooms })

def executeBattle (o : Outside) (request : BattleRequest) (s : Services) : Reply × Services :=
  let handled := s.battles.handle o.spawns (o.clock s.calls) request
  (battleReply o.battleText o.snapshotText handled.reply, { s with battles := handled.service })

def handlerName : BattleRequest → Bytes
  | .create .. => ascii "battle_create"
  | .input .. => ascii "battle_input"
  | .state .. => ascii "battle_state"
  | .finish .. => ascii "battle_finish"
  | .unreadable .. => []

def serve (o : Outside) (request : BackendRequest) (s : Services) : Answer × Services :=
  let (answer, s') :=
    match request with
    | .room request => deliver (executeRoom o request) (o.plan s.calls) s
    | .battle request => deliver (executeBattle o request) (o.plan s.calls) s
    | .forward messageType request =>
      if messageType = handlerName request then
        deliver (executeBattle o request) (o.plan s.calls) s
      else (o.other s.calls (.forward messageType request), s)
    | request => (o.other s.calls request, s)
  (answer, { s' with calls := s.calls + 1 })

end Services

/-- Every role may do everything, and inputs are routed at once. -/
def plainEnvironment : Environment where
  order := .asListed
  isAllowed _ _ := true
  isJsonObject _ := true
  offload := false
  queueCapacity := 1024
  battleFramePushEvery := 1

/-- Every call is answered, and other services accept. -/
def plainOutside : Outside where
  clock _ := 0
  plan _ := .sent .delivered .delivered
  spawns := Battle.diagonalSpawns
  other _ _ := { success := true, document := some { status := ascii "ok" } }
  roomText _ := []
  battleText _ := []
  snapshotText _ := []

/-! ## How often a backend handles a request

`BackendConnection::do_send` fails at the write or at the read of a frame, and `route` sends the
request again in either case. A read that fails does not say whether the backend has handled it. -/

inductive FailureStage where
  | none
  | notConnected
  | write
  | read

/-- What becomes of one `send_request`. -/
inductive Transport where
  /-- The socket is not open. -/
  | closed
  /-- The frame is not written completely. -/
  | writeFails
  /-- There is no response in time, and the backend has or has not handled the frame. -/
  | readFails (handled : Bool)
  | answered

/-- The connections of a call, and what becomes of it. -/
structure RouteCall where
  /-- The answer of `allow_request`. -/
  allowed : Bool := true
  first : Option Transport
  retry : Option Transport := none

namespace Transport

def handles : Transport → Bool
  | .closed | .writeFails => false
  | .readFails handled => handled
  | .answered => true

/-- `BackendConnection::send_request` with `do_send`. -/
def sendRequest {σ : Type} (execute : σ → Reply × σ) (transport : Transport) (s : σ) :
    Option Reply × FailureStage × σ :=
  match transport with
  | .closed => (Option.none, .notConnected, s)
  | .writeFails => (Option.none, .write, s)
  | .readFails handled => (Option.none, .read, if handled then (execute s).2 else s)
  | .answered => (some (execute s).1, .none, (execute s).2)

def fate : Transport → Fate
  | .closed | .writeFails | .readFails false => .requestLost
  | .readFails true => .replyLost
  | .answered => .delivered

end Transport

namespace RouteCall

/-- `GatewayServiceBridge::route`, without its metrics. -/
def route {σ : Type} (execute : σ → Reply × σ) (call : RouteCall) (s : σ) : Answer × σ :=
  if !call.allowed then ({ error := .circuitOpen }, s)
  else
    match call.first with
    | none => ({ error := .unavailable }, s)
    | some first =>
      match first.sendRequest execute s with
      | (some reply, _, s) => (reply.answer, s)
      | (none, _, s) =>
        match call.retry with
        | none => ({ error := .timeout }, s)
        | some retry =>
          match retry.sendRequest execute s with
          | (some reply, _, s) => (reply.answer, s)
          | (none, _, s) => ({ error := .timeout }, s)

def plan (call : RouteCall) : Plan :=
  if call.allowed then
    .sent ((call.first.map (·.fate)).getD .notConnected)
      ((call.retry.map (·.fate)).getD .notConnected)
  else .refused .circuitOpen

theorem route_eq_deliver {σ : Type} (execute : σ → Reply × σ) (call : RouteCall) (s : σ) :
    call.route execute s = deliver execute call.plan s := by
  obtain ⟨allowed, first, retry⟩ := call
  cases allowed with
  | false => rfl
  | true =>
    have hretry : ∀ s : σ, (match retry with
        | none => (({ error := .timeout } : Answer), s)
        | some retry =>
          match retry.sendRequest execute s with
          | (some reply, _, s) => (reply.answer, s)
          | (none, _, s) => ({ error := .timeout }, s)) =
        resend execute ((retry.map (·.fate)).getD .notConnected) s := by
      intro s
      rcases retry with _ | _ | _ | handled | _
      · rfl
      · rfl
      · rfl
      · cases handled <;> rfl
      · rfl
    rcases first with _ | _ | _ | handled | _
    · rfl
    · exact hretry s
    · exact hretry s
    · cases handled
      · exact hretry s
      · exact hretry _
    · rfl

def counted {σ : Type} (execute : σ → Reply × σ) (s : Nat × σ) : Reply × Nat × σ :=
  ((execute s.2).1, s.1 + 1, (execute s.2).2)

/-- How often the backend handles the request of the call. -/
def handlerRuns {σ : Type} (execute : σ → Reply × σ) (call : RouteCall) (s : σ) : Nat :=
  (call.route (counted execute) (0, s)).2.1

theorem handlerRuns_eq {σ : Type} (execute : σ → Reply × σ) (call : RouteCall) (s : σ) :
    call.handlerRuns execute s =
      if call.allowed = true then
        match call.first with
        | none => 0
        | some .answered => 1
        | some first => first.handles.toNat + ((call.retry.map (·.handles)).getD false).toNat
      else 0 := by
  obtain ⟨allowed, first, retry⟩ := call
  cases allowed with
  | false => rfl
  | true =>
    rcases first with _ | _ | _ | handled | _
    · rfl
    all_goals try cases handled
    all_goals rcases retry with _ | _ | _ | handled' | _
    all_goals try cases handled'
    all_goals rfl

/-- A request is handled at most once exactly if it is not sent again after it was handled, or is
lost then. -/
theorem handled_at_most_once_iff {σ : Type} (execute : σ → Reply × σ) (call : RouteCall) (s : σ) :
    call.handlerRuns execute s ≤ 1 ↔ ¬(call.allowed = true ∧ call.first = some (.readFails true) ∧
        (call.retry = some (.readFails true) ∨ call.retry = some .answered)) := by
  rw [handlerRuns_eq]
  obtain ⟨allowed, first, retry⟩ := call
  cases allowed with
  | false => simp
  | true =>
    rcases first with _ | _ | _ | handled | _
    · simp
    all_goals try cases handled
    all_goals rcases retry with _ | _ | _ | handled' | _
    all_goals try cases handled'
    all_goals simp [Transport.handles]

/-- The response to the first request is lost, and the second request is answered. -/
theorem request_handled_twice : ¬∀ (σ : Type) (execute : σ → Reply × σ) (call : RouteCall) (s : σ),
      call.handlerRuns execute s ≤ 1 := by
  intro h
  have honce := h Unit (fun s => ({}, s))
    { first := some (.readFails true), retry := some .answered } ()
  exact absurd honce (by decide)

end RouteCall

end BoostGateway.Gateway
