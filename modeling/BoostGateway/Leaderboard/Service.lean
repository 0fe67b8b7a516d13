import BoostGateway.Raft.CommandRoundTrip
import BoostGateway.Raft.StateMachine

/-!
# The leaderboard service on its Raft cluster

`handle_submit` records the idempotency key of a request first, and answers a request whose key is
there as if its score had been submitted. Otherwise it asks whether the node leads and hands the
score to `append_command`. Several requests can be on their way at once, and one of them holds the
apply pipeline. The callback enters the score into the leaderboard of its process; the Redis mirror
and the event store are left out.
-/

namespace BoostGateway.Leaderboard

open Raft Protobuf

/-! ## Scores -/

structure LeaderboardEntry where
  userId : Bytes
  displayName : Bytes := []
  score : Int64
  rank : Nat

def scoreCompare (a b : Int64 × Bytes) : Bool :=
  if a.1 ≠ b.1 then b.1 < a.1 else a.2 < b.2

/-- `SortedSet`, whose set of pairs is read off the scores. -/
structure SortedSet where
  userScores : AList (fun _ : Bytes => Int64) := ∅
  displayNames : AList (fun _ : Bytes => Bytes) := ∅

def SortedSet.submit (set : SortedSet) (userId displayName : Bytes) (score : Int64) :
    SortedSet where
  userScores := set.userScores.insert userId score
  displayNames :=
    if displayName.isEmpty then set.displayNames else set.displayNames.insert userId displayName

/-- `rank_of`: one more than the pairs before the user's. -/
def SortedSet.rankOf (set : SortedSet) (userId : Bytes) : Option LeaderboardEntry :=
  (set.userScores.lookup userId).map fun score => {
    userId
    displayName := (set.displayNames.lookup userId).getD []
    score
    rank := 1 + set.userScores.entries.countP fun entry =>
      scoreCompare (entry.2, entry.1) (score, userId) }

/-! ## Requests -/

/-- A `leaderboard_submit` request, with the score as an `int`. -/
structure SubmitRequest where
  userId : Bytes
  displayName : Bytes := []
  score : Int32 := 0
  idempotencyKey : Bytes := []
  deriving DecidableEq

/-- The command of `make_submit_command`. -/
def makeSubmitCommand (request : SubmitRequest) : RaftCommand where
  kind := .leaderboardSubmit
  userId := request.userId
  displayName := request.displayName
  score := request.score.toInt64

/-- The answer to a request, or an exception. -/
inductive SubmitReply where
  | ok (userId : Bytes) (idempotent : Bool) (rank : Option Nat)
  | error (code : Int) (reason : Bytes)
  | threw (what : Bytes)

def SubmitReply.isOk : SubmitReply → Bool
  | .ok _ _ _ => true
  | _ => false

structure Call where
  request : SubmitRequest
  leading : Bool := false

structure LeaderboardService where
  leaderboard : SortedSet := {}
  appliedIdempotencyKeys : List Bytes := []
  waiting : List Call := []
  /-- The request whose call of `append_command` is under way. -/
  holder : Option SubmitRequest := none

def LeaderboardService.rankOf (s : LeaderboardService) (userId : Bytes) : Option Nat :=
  (s.leaderboard.rankOf userId).map LeaderboardEntry.rank

/-- The reply once `append_command` has ended. -/
def LeaderboardService.reply (s : LeaderboardService) (request : SubmitRequest) (action : Action)
    (outputs : List (NodeId × Output)) : SubmitReply :=
  if outputs.any (fun record => match record.2 with
      | .appended _ _ => true
      | _ => false) then
    .ok request.userId false (s.rankOf request.userId)
  else match action with
    | .entriesReplied (.threw what) => .threw what
    | .heartbeatReplied .pipeline (.threw what) => .threw what
    | _ => .error (-1005) (ascii "raft_commit_failed")

section Machine

variable (lib : Libraries) (proto : Codec Proto.CommandEnvelope)

def submitOf (entry : LogEntry) : Except CodecException RaftCommand := do
  let command ← parseRaftCommand lib proto entry.command
  match command.kind with
  | .leaderboardSubmit => pure command
  | _ =>
    .error (.invalidArgument "matchmaking command routed to leaderboard state machine")

def applyRaftEntry (entry : LogEntry) (s : LeaderboardService) : LeaderboardService × Verdict :=
  match submitOf lib proto entry with
  | .error exception => (s, .threw (some (ascii exception.what)))
  | .ok command =>
    ({ s with
      leaderboard := s.leaderboard.submit command.userId command.displayName command.score },
      .accepted)

def machine : StateMachine LeaderboardService where
  restart _ := {}
  apply := applyRaftEntry lib proto

end Machine

/-! ## The cluster -/

structure Submission where
  request : SubmitRequest
  index : Nat
  entry : LogEntry

/-- The nodes and services, the replies and the submissions. -/
structure LeaderboardCluster where
  nodes : ServiceCluster LeaderboardService := { services := fun _ => {} }
  replies : List (SubmitRequest × SubmitReply) := []
  stored : List Submission := []

inductive LeaderboardEvent where
  /-- A step of a node. -/
  | node (event : Event)
  /-- A request comes in, and its key is looked up. -/
  | submit (v : NodeId) (request : SubmitRequest)
  /-- A waiting request asks whether the node is the leader. -/
  | check (v : NodeId) (i : Nat)
  /-- A waiting request calls `append_command`. -/
  | append (v : NodeId) (i : Nat) (format : RaftWireFormat) (io : List IoOutcome)

structure LeaderboardSetup where
  lib : Libraries
  proto : Codec Proto.CommandEnvelope
  cluster : ClusterConfig
  host : NodeId → Bytes
  port : NodeId → UInt16

namespace LeaderboardCluster

variable (setup : LeaderboardSetup)

def service (m : LeaderboardCluster) (v : NodeId) : LeaderboardService := m.nodes.services v

def setService (m : LeaderboardCluster) (v : NodeId) (s : LeaderboardService) :
    LeaderboardCluster :=
  { m with nodes := m.nodes.setService v s }

def answer (m : LeaderboardCluster) (request : SubmitRequest) (reply : SubmitReply) :
    LeaderboardCluster :=
  { m with replies := m.replies ++ [(request, reply)] }

def applied (m : LeaderboardCluster) (index : Nat) (entry : LogEntry) : Bool :=
  m.nodes.raft.history.any fun record => record.2 = .applied index entry

def getLeaderHint (m : LeaderboardCluster) (v : NodeId) : Bytes :=
  let lid := (m.nodes.raft.procs v).host.node.leaderId
  if lid.isEmpty then []
  else if lid ∈ setup.cluster.peers then
    ascii "\x7b\"leader_id\":\"" ++ lid ++ ascii "\",\"leader_host\":\"" ++ setup.host lid ++
      ascii "\",\"leader_port\":" ++ decimal (setup.port lid).toNat ++ ascii "\x7d"
  else ascii "\x7b\"leader_id\":\"" ++ lid ++ ascii "\"\x7d"

/-- The holder of a pipeline is answered at the end of its call. -/
def settle (m : LeaderboardCluster) (v : NodeId) (action : Action)
    (outputs : List (NodeId × Output)) : LeaderboardCluster :=
  let s := m.service v
  match s.holder, (m.nodes.raft.procs v).pipeline.appending with
  | some request, none =>
    (m.setService v { s with holder := none }).answer request (s.reply request action outputs)
  | _, _ => m

/-- `handle_submit` up to the lookup of the key. -/
def handleSubmit (m : LeaderboardCluster) (v : NodeId) (request : SubmitRequest) :
    LeaderboardCluster :=
  let s := m.service v
  let wait := { s with waiting := s.waiting ++ [{ request }] }
  if request.userId.isEmpty then m.answer request (.error (-1004) (ascii "empty_user_id"))
  else if request.idempotencyKey.isEmpty then m.setService v wait
  else if request.idempotencyKey ∈ s.appliedIdempotencyKeys then
    m.answer request (.ok request.userId true (s.rankOf request.userId))
  else
    m.setService v { wait with
      appliedIdempotencyKeys := s.appliedIdempotencyKeys ++ [request.idempotencyKey] }

/-- `handle_submit` at `is_leader`. -/
def checkLeader (m : LeaderboardCluster) (v : NodeId) (i : Nat) : Option LeaderboardCluster :=
  let s := m.service v
  match s.waiting[i]? with
  | some { request, leading := false } =>
    if (m.nodes.raft.procs v).host.node.state = .leader then
      some (m.setService v { s with waiting := s.waiting.set i { request, leading := true } })
    else
      some ((m.setService v { s with waiting := s.waiting.eraseIdx i }).answer request
        (.error (-1003) (ascii "not_raft_leader:" ++ m.getLeaderHint setup v)))
  | _ => none

/-- `handle_submit` at `append_command`, if the command can be serialized. -/
def appendSubmit (m : LeaderboardCluster) (v : NodeId) (i : Nat) (format : RaftWireFormat)
    (io : List IoOutcome) : Option LeaderboardCluster :=
  let s := m.service v
  match s.waiting[i]? with
  | some { request, leading := true } =>
    let s := { s with waiting := s.waiting.eraseIdx i }
    match serializeRaftCommand setup.lib setup.proto (makeSubmitCommand request) format with
    | .error exception =>
      some ((m.setService v s).answer request (.threw (ascii exception.what)))
    | .ok bytes =>
      let node := (m.nodes.raft.procs v).host.node
      (m.nodes.append setup.lib setup.cluster v bytes io).map fun nodes =>
        let stored := m.stored ++
          if storesCommand node bytes then
            [{ request
               index := node.log.length + 1
               entry := { term := node.currentTerm, command := bytes } }]
          else []
        ({ m with nodes := nodes.setService v { s with holder := some request }, stored }).settle
          v (.appendCommand bytes) []
  | _ => none

/-- The cluster after an event, or nothing if it cannot happen. -/
def advance (m : LeaderboardCluster) : LeaderboardEvent → Option LeaderboardCluster
  | .node event =>
    (m.nodes.step setup.lib setup.cluster (machine setup.lib setup.proto) event).map fun nodes =>
      ({ m with nodes }).settle event.node event.action (newOutputs m.nodes.raft nodes.raft)
  | .submit v request => if m.nodes.isUp v then some (m.handleSubmit v request) else none
  | .check v i => m.checkLeader setup v i
  | .append v i format io => m.appendSubmit setup v i format io

/-- One step. What cannot happen changes nothing. -/
def step (m : LeaderboardCluster) (event : LeaderboardEvent) : LeaderboardCluster :=
  (m.advance setup event).getD m

end LeaderboardCluster

end BoostGateway.Leaderboard
