import BoostGateway.Gateway.BridgeRuntime

/-!
# Battles and the remaining commands in front of backend services

A battle is started by the room service and created by the battle service, inputs are routed at once
or by the workers of the route queue, and the end of a battle is processed once. At the end stand
`Runtime::handle` and the closing of a session.
-/

namespace BoostGateway.Gateway

open List

open Battle (BattleRequest)

def ReplyDoc.toBattle (document : ReplyDoc) : Option (Bytes × BattleRequest) :=
  match document.forward with
  | some forward =>
    if forward.target = ascii "battle" then forward.payload.map (forward.messageType, ·)
    else none
  | none => none

variable {β : Type}

namespace BridgeRuntime

variable (serve : BackendRequest → β → Answer × β)

/-! ## Starting a battle -/

def trackBattle (roomId battleId : Bytes) (g : BridgeRuntime β) : BridgeRuntime β :=
  if battleId = [] then g
  else
    { g with
      battlesByRoomId := roomId :: g.battlesByRoomId.filter (· ≠ roomId)
      roomToBattleId := g.roomToBattleId.insert roomId battleId }

/-- `Runtime::handle` on `kBattleStart`, towards the services. -/
def startBattle (c : Command) (userId roomId : Bytes) (g : BridgeRuntime β) :
    HandleOutcome × BridgeRuntime β :=
  g.ask serve (.room (.startBattle userId roomId)) fun answer g =>
    if !answer.success then
      if answer.error = .rejected then
        g.fail c .battleNotStarted (answer.backendErrorReason (ascii "room_start_battle_rejected"))
      else g.fail c .roomBackendUnavailable (answer.backendErrorReason (ascii "backend_error"))
    else
      match answer.accepted with
      | none =>
        g.fail c .battleNotStarted
          (answer.reasonOr (ascii "start_battle_failed") (ascii "start_battle_failed"))
      | some document =>
        match document.toBattle with
        | none => g.fail c .battleNotStarted (ascii "no_battle_forward")
        | some (messageType, request) =>
          let (created, g) := g.route serve (.forward messageType request)
          match created.accepted with
          | none =>
            g.fail c .battleNotStarted (created.backendErrorReason (ascii "battle_create_failed"))
          | some battle =>
            let g := g.trackBattle roomId battle.battleId
            let (outcome, g) := g.reply c .battleStartResponse
              (battleStartedText roomId battle.battleId)
            (outcome, (battle.pushToSessions.getD []).foldl (fun g push =>
                  if push.kind = ascii "battle_started" then
                    g.broadcastToRoom roomId .battleStatePush
                      (.text (battleStateText roomId battle.battleId))
                  else g)
                g)

/-- `Runtime::handle` on `kBattleStart`. -/
def handleBattleStart (c : Command) (g : BridgeRuntime β) : HandleOutcome × BridgeRuntime β :=
  let userId := g.lookup.userIdFor c.sessionId
  let roomId := g.lookup.roomIdFor c.sessionId
  if userId = [] ∨ roomId = [] then (.unhandled, g)
  else if c.body ≠ [] ∧ c.body ≠ roomId then
    g.fail c .invalidRoomId ErrorCode.invalidRoomId.text
  else g.startBattle serve c userId roomId

/-- `Runtime::start_battle_for_room`, which may throw. -/
def startBattleForRoom (roomId userId : Bytes) (g : BridgeRuntime β) : BridgeRuntime β :=
  (g.ask serve (.room (.startBattle userId roomId)) fun answer g =>
    match answer.accepted with
    | none => (.handled, g)
    | some document =>
      match document.toBattle with
      | none => (.handled, g)
      | some (messageType, request) =>
        let (created, g) := g.route serve (.forward messageType request)
        match created.accepted with
        | none => (.handled, g)
        | some battle => (.handled, g.trackBattle roomId battle.battleId)).2

/-! ## The end of a battle -/

/-- One round of `submit_battle_settlement_to_leaderboard`. -/
def submitScore (battleId roomId reason : Bytes) (g : BridgeRuntime β) (score : Bytes × Int64) :
    BridgeRuntime β :=
  let key := battleId ++ ascii ":" ++ score.1
  if score.1 = [] ∨ key ∈ g.leaderboardSettlementKeys then g
  else
    let (answer, g) := g.route serve (.leaderboardSettle battleId roomId reason score.1 score.2)
    if answer.success then
      { g with leaderboardSettlementKeys := key :: g.leaderboardSettlementKeys }
    else g

def submitBattleFinishedPushToLeaderboard (push : PushDoc) (roomId : Bytes)
    (g : BridgeRuntime β) : BridgeRuntime β :=
  match push.battleId, push.scores with
  | some battleId, some scores =>
    if battleId = [] then g
    else
      scores.foldl (submitScore serve battleId roomId (push.reason.getD (ascii "finished"))) g
  | _, _ => g

def processBridgeBattleFinishedPush (push : PushDoc) (roomId fallbackBattleId : Bytes)
    (g : BridgeRuntime β) : BridgeRuntime β :=
  let battleId := push.battleId.getD fallbackBattleId
  if push.kind ≠ ascii "battle_finished" ∨ battleId = [] ∨
      battleId ∈ g.completedBridgeBattleIds then g
  else
    let g := { g with completedBridgeBattleIds := battleId :: g.completedBridgeBattleIds }
    let push := { push with battleId := some battleId }
    let g := g.submitBattleFinishedPushToLeaderboard serve push roomId
    let g := g.broadcastToRoom roomId .battleStatePush (.push push)
    let g := (g.route serve (.room (.battleFinished roomId battleId))).2
    if g.roomToBattleId.lookup roomId = some battleId then
      { g with
        battlesByRoomId := g.battlesByRoomId.filter (· ≠ roomId)
        roomToBattleId := g.roomToBattleId.erase roomId
        lastEmittedBattleFrame := g.lastEmittedBattleFrame.erase roomId }
    else g

/-! ## Inputs -/

def processInputPush (env : Environment) (roomId battleId : Bytes) (g : BridgeRuntime β)
    (push : PushDoc) : BridgeRuntime β :=
  if push.kind = ascii "frame_advanced" then
    if g.roomToBattleId.lookup roomId ≠ some battleId then g
    else
      let (emits, g) := g.shouldEmitBattleFramePush env roomId push.frameNumber
      if emits then g.broadcastToRoom roomId .battleStatePush (.push push) else g
  else if push.kind = ascii "battle_finished" then
    g.processBridgeBattleFinishedPush serve push roomId battleId
  else g

def completeBridgeBattleInput (env : Environment) (sessionId : SessionId) (requestId : UInt32)
    (roomId battleId : Bytes) (answer : Answer) (g : BridgeRuntime β) : BridgeRuntime β :=
  let failed (code : ErrorCode) (body : Bytes) : SessionWrite :=
    { message := .errorResponse, sessionId, requestId, errorCode := code, body := .text body }
  if !answer.success then
    g.emit (failed .battleBackendUnavailable (answer.backendErrorReason (ascii "backend_error")))
  else
    match answer.accepted with
    | none =>
      g.emit (failed .authRequired
        (answer.reasonOr (ascii "input_rejected") (ascii "input_rejected")))
    | some document =>
      let g := g.emit
        { message := .battleInputResponse
          sessionId
          requestId
          body := .text (battleInputResponseText document.inputSeq) }
      (document.pushToSessions.getD []).foldl (processInputPush serve env roomId battleId) g

/-- `Runtime::handle` on `kBattleInput`, for a finish. -/
def finishBattle (c : Command) (userId roomId battleId : Bytes)
    (reason : Battle.BattleFinishReason) (g : BridgeRuntime β) :
    HandleOutcome × BridgeRuntime β :=
  g.ask serve (.battle (.finish userId battleId true)) fun answer g =>
    match answer.accepted with
    | none => g.fail c .battleNotStarted (ascii "battle_finish_failed")
    | some document =>
      let (outcome, g) := g.reply c .battleInputResponse (battleEndAcceptedText reason)
      let pushes := document.pushToSessions.getD []
      let g := pushes.foldl
        (fun g push => g.processBridgeBattleFinishedPush serve push roomId battleId) g
      if pushes.any (·.kind = ascii "battle_finished") then (outcome, g)
      else
        -- the battle service did not say so, so the gateway does
        let push : PushDoc :=
          { kind := ascii "battle_finished"
            battleId := some battleId
            reason := some reason.toString }
        (outcome, g.processBridgeBattleFinishedPush serve push roomId battleId)

/-- `enqueue_battle_route_task`, also of a full queue. -/
def enqueueBattleInput (env : Environment) (c : Command) (task : BattleRouteTask)
    (g : BridgeRuntime β) : HandleOutcome × BridgeRuntime β :=
  if !(BackendRequest.battle task.request).dumps then (.threw, g)
  else if env.queueCapacity ≤ g.battleRouteTasks.length then
    g.fail c .battleRouteOverloaded ErrorCode.battleRouteOverloaded.text
  else (.handled, { g with battleRouteTasks := g.battleRouteTasks ++ [task] })

/-- `Runtime::handle` on `kBattleInput`. -/
def handleBattleInput (env : Environment) (c : Command) (g : BridgeRuntime β) :
    HandleOutcome × BridgeRuntime β :=
  let userId := g.lookup.userIdFor c.sessionId
  let roomId := g.lookup.roomIdFor c.sessionId
  if userId = [] ∨ roomId = [] then (.unhandled, g)
  else
    match parseBattleInputBody c.body with
    | none => g.fail c .authRequired (ascii "invalid_battle_input")
    | some body =>
      if roomId ∉ g.battlesByRoomId then
        g.fail c .battleNotStarted ErrorCode.battleNotStarted.text
      else
        let battleId := g.battleIdForRoom roomId
        match body.finishReason with
        | some reason => g.finishBattle serve c userId roomId battleId reason
        | none =>
          let request : BattleRequest :=
            .input userId battleId body.inputData body.score body.submittedFrame
          if env.offload ∧ battleId ≠ [] then
            g.enqueueBattleInput env c
              { sessionId := c.sessionId, requestId := c.requestId, roomId, battleId, request }
          else
            g.ask serve (.battle request) fun answer g =>
              (.handled,
                g.completeBridgeBattleInput serve env c.sessionId c.requestId roomId battleId
                  answer)

def runRouteTask (g : BridgeRuntime β) : BridgeRuntime β :=
  match g.battleRouteTasks with
  | [] => g
  | task :: tasks =>
    let (answer, g) := { g with battleRouteTasks := tasks }.route serve (.battle task.request)
    { g with battleRouteCompletions := g.battleRouteCompletions ++ [(task, answer)] }

def runCompletion (env : Environment) (g : BridgeRuntime β) : BridgeRuntime β :=
  match g.battleRouteCompletions with
  | [] => g
  | (task, answer) :: completions =>
    { g with battleRouteCompletions := completions }.completeBridgeBattleInput serve env
      task.sessionId task.requestId task.roomId task.battleId answer

/-- `Runtime::handle` on `kBattleState`. -/
def handleBattleState (c : Command) (g : BridgeRuntime β) : HandleOutcome × BridgeRuntime β :=
  if g.lookup.userIdFor c.sessionId = [] then (.unhandled, g)
  else
    let battleId :=
      if c.body = [] then g.battleIdForRoom (g.lookup.roomIdFor c.sessionId) else c.body
    if battleId = [] then g.fail c .battleNotStarted ErrorCode.battleNotStarted.text
    else
      g.ask serve (.battle (.state battleId)) fun answer g =>
        if !answer.success then
          g.fail c .battleBackendUnavailable
            (answer.backendErrorReason (ascii "battle_state_failed"))
        else
          match answer.accepted with
          | none =>
            g.fail c .battleNotStarted
              (answer.reasonOr (ascii "battle_state_failed") (ascii "battle_state_failed"))
          | some document =>
            g.reply c .battleStateResponse (document.snapshot.getD answer.payload)

/-- `Runtime::handle` on `kReplayLoad`. -/
def handleReplayLoad (c : Command) (g : BridgeRuntime β) : HandleOutcome × BridgeRuntime β :=
  if g.lookup.userIdFor c.sessionId = [] then (.unhandled, g)
  else if c.body = [] then g.fail c .battleNotStarted (ascii "empty_battle_id")
  else
    g.relay serve c (.replayLoad c.body) .replayLoadResponse .battleBackendUnavailable
      (ascii "replay_load_failed")

/-! ## Matches and leaderboards -/

/-- A command whose answer is written again from its document. -/
def consult (c : Command) (handlerName : Bytes) (request : BackendRequest)
    (response : ServerMessage) (g : BridgeRuntime β) : HandleOutcome × BridgeRuntime β :=
  g.bridgeRoute serve handlerName request (fun document g => g.reply c response document.text)
    (fun reason g => g.fail c .sessionNotFound reason)

/-- `Runtime::handle` on the match commands. -/
def handleMatchCommand (c : Command) (handlerName invalid : Bytes)
    (request : MatchBody → BackendRequest) (response : ServerMessage) (g : BridgeRuntime β) :
    HandleOutcome × BridgeRuntime β :=
  let userId := g.lookup.userIdFor c.sessionId
  match (parseMatchBody c.body).filter fun body => userId ≠ [] ∧ body.userId = userId with
  | none => g.fail c .authRequired invalid
  | some body => g.consult serve c handlerName (request body) response

def handleMatchJoin (c : Command) (g : BridgeRuntime β) : HandleOutcome × BridgeRuntime β :=
  g.handleMatchCommand serve c (ascii "match_join") (ascii "invalid_match_join")
    (fun body => .matchJoin body.userId body.mmr body.mode) .matchJoinResponse

def handleMatchLeave (c : Command) (g : BridgeRuntime β) : HandleOutcome × BridgeRuntime β :=
  g.handleMatchCommand serve c (ascii "match_leave") (ascii "invalid_match_leave")
    (fun body => .matchLeave body.userId body.mode) .matchLeaveResponse

def handleMatchStatus (c : Command) (g : BridgeRuntime β) : HandleOutcome × BridgeRuntime β :=
  g.handleMatchCommand serve c (ascii "match_status") (ascii "invalid_match_status")
    (fun body => .matchStatus body.userId body.mode) .matchStatusResponse

/-- `Runtime::handle` on `kLeaderboardSubmit`. -/
def handleLeaderboardSubmit (c : Command) (g : BridgeRuntime β) : HandleOutcome × BridgeRuntime β :=
  let userId := g.lookup.userIdFor c.sessionId
  match (parseLeaderboardSubmitBody c.body).filter fun body =>
      userId ≠ [] ∧ body.userId = userId with
  | none => g.fail c .authRequired (ascii "invalid_leaderboard_submit")
  | some body =>
    g.consult serve c (ascii "leaderboard_submit")
      (.leaderboardSubmit body.userId body.displayName body.score) .leaderboardSubmitResponse

/-- `Runtime::handle` on `kLeaderboardTop`. -/
def handleLeaderboardTop (c : Command) (g : BridgeRuntime β) : HandleOutcome × BridgeRuntime β :=
  if g.lookup.userIdFor c.sessionId = [] then
    g.fail c .authRequired ErrorCode.authRequired.text
  else
    match parseLeaderboardTopBody c.body with
    | none => g.fail c .authRequired (ascii "invalid_leaderboard_top")
    | some k =>
      g.consult serve c (ascii "leaderboard_top") (.leaderboardTop k) .leaderboardTopResponse

/-- `Runtime::handle` on `kLeaderboardRank`. -/
def handleLeaderboardRank (c : Command) (g : BridgeRuntime β) : HandleOutcome × BridgeRuntime β :=
  if g.lookup.userIdFor c.sessionId = [] then
    g.fail c .authRequired ErrorCode.authRequired.text
  else if c.body = [] then g.fail c .authRequired (ascii "invalid_leaderboard_rank")
  else
    g.consult serve c (ascii "leaderboard_rank") (.leaderboardRank c.body) .leaderboardRankResponse

/-! ## The whole of it -/

def isSessionAllowed (env : Environment) (c : Command) (g : BridgeRuntime β) : Bool :=
  match g.sessionRoles.lookup c.sessionId with
  | none => true
  | some role => env.isAllowed role c.type

def handle (env : Environment) (c : Command) (g : BridgeRuntime β) :
    HandleOutcome × BridgeRuntime β :=
  if !g.isSessionAllowed env c then g.fail c .authRequired (ascii "permission_denied")
  else
    match c.type with
    | .login => g.handleLogin serve env c
    | .register => g.handleRegister serve env c
    | .roomCreate => g.handleRoomCreate serve c
    | .roomJoin => g.handleRoomJoin serve c
    | .roomReady => g.handleRoomReady serve c
    | .roomLeave => g.handleRoomLeave serve c
    | .roomList => g.handleRoomList serve c
    | .roomDetail => g.handleRoomDetail serve c
    | .roomKick => g.handleRoomKick serve c
    | .roomTransferOwner => g.handleRoomTransferOwner serve c
    | .battleStart => g.handleBattleStart serve c
    | .battleInput => g.handleBattleInput serve env c
    | .battleState => g.handleBattleState serve c
    | .replayLoad => g.handleReplayLoad serve c
    | .matchJoin => g.handleMatchJoin serve c
    | .matchLeave => g.handleMatchLeave serve c
    | .matchStatus => g.handleMatchStatus serve c
    | .leaderboardSubmit => g.handleLeaderboardSubmit serve c
    | .leaderboardTop => g.handleLeaderboardTop serve c
    | .leaderboardRank => g.handleLeaderboardRank serve c
    | .heartbeat | .echo => (.unhandled, g)

/-- `Runtime::on_session_closed`. Its ids were dumped before, so `dump` does not throw. -/
def onSessionClosed (sessionId : SessionId) (g : BridgeRuntime β) : BridgeRuntime β :=
  let userId := g.lookup.userIdFor sessionId
  let roomId := g.lookup.roomIdFor sessionId
  let g := if userId = [] then g else (g.route serve (.sessionClose userId sessionId)).2
  let g :=
    if userId = [] ∨ roomId = [] then g else (g.route serve (.room (.leave userId roomId))).2
  { g with
    sessionRoles := g.sessionRoles.erase sessionId
    lookup := g.lookup.eraseSession sessionId }

end BridgeRuntime

/-! ## Battle inputs that workers route

With the route queue, several workers take inputs from one queue and route them outside the lock,
and the answers are completed as the calls return. An input may therefore be routed before an
earlier one of its session that another worker has taken (`calls_in_order_iff`). -/

/-! ## The order of the calls -/

inductive RouteWorker where
  | free
  /-- The worker has taken an input and not started its route call. -/
  | holding (input : Nat)
  | routing

/-- The route queue and its workers. Inputs are named by their places. -/
structure RouteQueue where
  stopping : Bool := false
  /-- The sessions of the inputs. -/
  inputs : List SessionId := []
  /-- The number of inputs that were taken: `battle_route_tasks_` holds the others. -/
  taken : Nat := 0
  worker : Nat → RouteWorker := fun _ => .free

inductive RouteQueueEvent where
  | enqueue (sessionId : SessionId)
  | take (worker : Nat)
  | call (worker : Nat)
  | callReturned (worker : Nat)
  | stop

namespace RouteQueue

def step (workerCount capacity : Nat) (q : RouteQueue) : RouteQueueEvent → RouteQueue
  | .enqueue sessionId =>
    if q.stopping ∨ capacity ≤ q.inputs.length - q.taken then q
    else { q with inputs := q.inputs ++ [sessionId] }
  | .take worker =>
    match q.worker worker with
    | .free =>
      if worker < workerCount ∧ q.taken < q.inputs.length then
        { q with
          taken := q.taken + 1
          worker := Function.update q.worker worker (.holding q.taken) }
      else q
    | _ => q
  | .call worker =>
    match q.worker worker with
    | .holding _ => { q with worker := Function.update q.worker worker .routing }
    | _ => q
  | .callReturned worker =>
    match q.worker worker with
    | .routing => { q with worker := Function.update q.worker worker .free }
    | _ => q
  | .stop => { q with stopping := true, inputs := q.inputs.take q.taken }

def Waits (q : RouteQueue) (input : Nat) : Prop :=
  q.taken ≤ input ∧ input < q.inputs.length ∨ ∃ worker, q.worker worker = .holding input

/-- A call starts after those of earlier inputs. -/
def KeepsOrder (q : RouteQueue) : RouteQueueEvent → Prop
  | .call worker => ∀ input, q.worker worker = .holding input →
      ∀ other, q.Waits other → q.inputs[other]? = q.inputs[input]? → input ≤ other
  | _ => True

/-- No other worker holds an earlier input of the session. -/
def NoneHeld (q : RouteQueue) : RouteQueueEvent → Prop
  | .call worker => ∀ input, q.worker worker = .holding input → ∀ worker' other,
      q.worker worker' = .holding other → q.inputs[other]? = q.inputs[input]? → input ≤ other
  | _ => True

def HoldsTaken (workerCount : Nat) (q : RouteQueue) : Prop :=
  ∀ worker input, q.worker worker = .holding input → worker < workerCount ∧ input < q.taken

variable {q : RouteQueue} {workerCount : Nat}

theorem HoldsTaken.step (h : q.HoldsTaken workerCount) (capacity : Nat) (event : RouteQueueEvent) :
    (q.step workerCount capacity event).HoldsTaken workerCount := by
  fun_cases RouteQueue.step workerCount capacity q event
  all_goals grind [HoldsTaken]

theorem keepsOrder_iff (h : q.HoldsTaken workerCount) (event : RouteQueueEvent) :
    q.KeepsOrder event ↔ q.NoneHeld event := by
  cases event with
  | call worker =>
    constructor
    · intro horder input hinput worker' other hother
      exact horder input hinput other (.inr ⟨worker', hother⟩)
    · rintro hnone input hinput other (⟨hqueued, _⟩ | ⟨worker', hother⟩) hsession
      · exact (h worker input hinput).2.le.trans hqueued
      · exact hnone input hinput worker' other hother hsession
  | _ => exact Iff.rfl

/-- One worker keeps the order. -/
theorem calls_in_order_of_one_worker (hone : workerCount ≤ 1) (capacity : Nat)
    (events : List RouteQueueEvent) : Along (step workerCount capacity) KeepsOrder {} events := by
  have hevents : Along (step workerCount capacity) (fun _ _ => True) {} events :=
    fun _ _ _ _ => trivial
  refine hevents.of_invariant (fun q event (h : q.HoldsTaken workerCount) _ =>
    ⟨h.step capacity event, (keepsOrder_iff h event).mpr ?_⟩) nofun
  cases event with
  | call worker =>
    intro input hinput worker' other hother _
    have hworker := (h worker input hinput).1
    have hworker' := (h worker' other hother).1
    obtain rfl : worker' = worker := by omega
    cases hinput.symm.trans hother
    exact le_rfl
  | _ => exact trivial

def Carries (q : RouteQueue) (g : BridgeRuntime β) : Prop :=
  q.stopping = false ∧ q.taken ≤ q.inputs.length ∧
    q.inputs.drop q.taken = g.battleRouteTasks.map (·.sessionId)

variable {g : BridgeRuntime β} {worker : Nat}

/-- `enqueue_battle_route_task` puts the input in the queue. -/
theorem Carries.enqueue (h : q.Carries g) (workerCount : Nat) (env : Environment) (c : Command)
    {task : BattleRouteTask} (hdumps : (BackendRequest.battle task.request).dumps = true) :
    (q.step workerCount env.queueCapacity (.enqueue task.sessionId)).Carries
      (g.enqueueBattleInput env c task).2 := by
  obtain ⟨hrunning, htaken, htasks⟩ := h
  have hlength : q.inputs.length - q.taken = g.battleRouteTasks.length := by
    simpa using congrArg List.length htasks
  simp only [RouteQueue.step, hrunning, Bool.false_eq_true, false_or, hlength,
    BridgeRuntime.enqueueBattleInput, hdumps, Bool.not_true, if_false]
  split
  · exact ⟨hrunning, htaken, htasks⟩
  · refine ⟨rfl, by simp only [length_append]; omega, ?_⟩
    simp [drop_append_of_le_length htaken, htasks]

/-- A free worker takes a task, calls, and is free again. -/
theorem Carries.runRouteTask (h : q.Carries g) (serve : BackendRequest → β → Answer × β)
    (hfree : q.worker worker = .free) (hworker : worker < workerCount) (capacity : Nat) :
    ([.take worker, .call worker, .callReturned worker].foldl (step workerCount capacity) q).Carries
      (g.runRouteTask serve) := by
  have hkept := h
  obtain ⟨hrunning, htaken, htasks⟩ := h
  simp only [foldl_cons, foldl_nil, RouteQueue.step, hfree, hworker, true_and,
    BridgeRuntime.runRouteTask]
  cases hqueue : g.battleRouteTasks with
  | nil =>
    have hempty : ¬q.taken < q.inputs.length := by simpa [hqueue] using htasks
    simpa [hempty, hfree] using hkept
  | cons task tasks =>
    rw [hqueue, map_cons] at htasks
    have hlt : q.taken < q.inputs.length := by
      by_contra hnot
      simp [drop_eq_nil_of_le (Nat.le_of_not_lt hnot)] at htasks
    rw [drop_eq_getElem_cons hlt] at htasks
    have hnext : q.taken + 1 ≤ q.inputs.length := hlt
    simp [hlt, hnext, BridgeRuntime.route, Carries, hrunning, (List.cons.inj htasks).2]

/-- The completion of an answer leaves the queue alone. -/
theorem Carries.runCompletion (h : q.Carries g) (serve : BackendRequest → β → Answer × β)
    (env : Environment) : q.Carries (g.runCompletion serve env) := by
  have hfold {α : Type} {f : BridgeRuntime β → α → BridgeRuntime β}
      (hf : ∀ g x, (f g x).battleRouteTasks = g.battleRouteTasks) (xs : List α)
      (g : BridgeRuntime β) : (xs.foldl f g).battleRouteTasks = g.battleRouteTasks := by
    induction xs generalizing g with
    | nil => rfl
    | cons x xs ih => exact (ih (f g x)).trans (hf g x)
  have hscore (g : BridgeRuntime β) (battleId roomId reason : Bytes) (score : Bytes × Int64) :
      (g.submitScore serve battleId roomId reason score).battleRouteTasks = g.battleRouteTasks := by
    simp [BridgeRuntime.submitScore, BridgeRuntime.route,
      apply_ite BridgeRuntime.battleRouteTasks]
  have hsubmit (g : BridgeRuntime β) (push : PushDoc) (roomId : Bytes) :
      (g.submitBattleFinishedPushToLeaderboard serve push roomId).battleRouteTasks =
        g.battleRouteTasks := by
    unfold BridgeRuntime.submitBattleFinishedPushToLeaderboard
    split
    · simp [apply_ite BridgeRuntime.battleRouteTasks, hfold (hscore · _ _ _ ·)]
    · rfl
  have hpush (g : BridgeRuntime β) (roomId battleId : Bytes) (push : PushDoc) :
      (g.processInputPush serve env roomId battleId push).battleRouteTasks =
        g.battleRouteTasks := by
    have hemit : (g.shouldEmitBattleFramePush env roomId push.frameNumber).2.battleRouteTasks =
        g.battleRouteTasks := by
      dsimp only [BridgeRuntime.shouldEmitBattleFramePush]
      split_ifs <;> rfl
    simp [BridgeRuntime.processInputPush, BridgeRuntime.processBridgeBattleFinishedPush,
      BridgeRuntime.route, BridgeRuntime.broadcastToRoom,
      apply_ite BridgeRuntime.battleRouteTasks, hsubmit, hemit]
  suffices hsame : (g.runCompletion serve env).battleRouteTasks = g.battleRouteTasks by
    rwa [Carries, hsame]
  unfold BridgeRuntime.runCompletion BridgeRuntime.completeBridgeBattleInput
  split
  · rfl
  · split
    · rfl
    · split
      · rfl
      · exact hfold (hpush · _ _ ·) _ _

end RouteQueue

end BoostGateway.Gateway
