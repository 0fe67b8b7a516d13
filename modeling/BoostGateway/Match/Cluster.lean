import BoostGateway.Match.Service
import BoostGateway.Raft.CommandRoundTrip
import BoostGateway.Raft.Verdicts

/-!
# The matchmaking service on its Raft cluster

The apply callback changes the queues and the pending matches of a node. Its matcher thread gives a
found match an id from a counter of the process and hands it to `append_command` if the node leads;
`append_command` asks that again, so its step is taken by leaders only. The gateway starts an
applied match whose id it has not processed. `Moves` says what an event does to the nodes, and the
queues of a node are those that its entries make (`MatchCluster.Follows`).
-/

namespace BoostGateway.Match

open List Raft Protobuf ServiceCluster

/-! ## Commands -/

def toRaftMode : MatchMode → RaftMatchMode
  | .oneVsOne => .oneVsOne
  | .twoVsTwo => .twoVsTwo
  | .fourVsFour => .fourVsFour

def fromRaftMode : RaftMatchMode → Except CodecException MatchMode
  | .oneVsOne => .ok .oneVsOne
  | .twoVsTwo => .ok .twoVsTwo
  | .fourVsFour => .ok .fourVsFour
  | .other _ => .error (.invalidArgument "unsupported Raft matchmaking mode")

/-- The command of `make_join_command`. -/
def makeJoinCommand (player : MatchPlayer) : RaftCommand where
  kind := .matchJoin
  userId := player.userId
  mode := toRaftMode player.mode
  mmr := player.mmr
  queuedAtMs := player.queuedAtMs

def makeLeaveCommand (userId : Bytes) (mode : MatchMode) : RaftCommand where
  kind := .matchLeave
  userId := userId
  mode := toRaftMode mode

def makeMatchFoundCommand (result : MatchResult) : RaftCommand where
  kind := .matchFound
  matchId := result.matchId
  mode := toRaftMode result.mode
  avgMmr := result.avgMmr
  userIds := result.playerIds

def makePurgeCommand (mode : MatchMode) (userIds : List Bytes) : RaftCommand where
  kind := .matchPurge
  mode := toRaftMode mode
  userIds := userIds

def MatchRequest.raftCommand : MatchRequest → RaftCommand
  | .join player => makeJoinCommand player
  | .leave mode userId => makeLeaveCommand userId mode

/-- The operation that `apply_raft_entry` makes of a command. -/
def queueOp (command : RaftCommand) : Except CodecException QueueOp :=
  match command.kind with
  | .matchJoin => do
    let mode ← fromRaftMode command.mode
    pure (.add {
      userId := command.userId, mmr := command.mmr, queuedAtMs := command.queuedAtMs, mode })
  | .matchLeave => do
    let mode ← fromRaftMode command.mode
    pure (.remove mode command.userId)
  | .matchFound => do
    let mode ← fromRaftMode command.mode
    pure (.commit {
      matchId := command.matchId, mode, avgMmr := command.avgMmr, playerIds := command.userIds })
  | .matchPurge => do
    let mode ← fromRaftMode command.mode
    pure (.purge mode command.userIds)
  | .leaderboardSubmit =>
    .error (.invalidArgument "leaderboard command routed to matchmaking state machine")

/-! ## The service of a node -/

/-- The service of one process, the `life`-th of its node. -/
structure MatchService where
  life : Nat := 0
  /-- `g_next_match_id` -/
  nextMatchId : UInt64 := 1
  queues : Queues := fun _ => []
  pendingMatches : AList (fun _ : Bytes => MatchResult) := ∅
  /-- The match that the matcher thread has found and not handed on, with its number. -/
  found : Option (UInt64 × MatchResult) := none

def MatchService.record (s : MatchService) : QueueOp → MatchService
  | .commit result =>
    { s with pendingMatches := s.pendingMatches.insert result.matchId result }
  | _ => s

section Machine

variable (lib : Libraries) (proto : Codec Proto.CommandEnvelope)

def entryOp (entry : LogEntry) : Except CodecException QueueOp := do
  let command ← parseRaftCommand lib proto entry.command
  queueOp command

def applyRaftEntry (entry : LogEntry) (s : MatchService) : MatchService × Verdict :=
  match entryOp lib proto entry with
  | .error exception => (s, .threw (some (ascii exception.what)))
  | .ok op => (({ s with queues := op.apply s.queues }).record op, .accepted)

def matchOf (entry : LogEntry) : Option MatchResult :=
  match entryOp lib proto entry with
  | .ok (.commit result) => some result
  | _ => none

def machine : StateMachine MatchService where
  restart s := { life := s.life + 1 }
  apply := applyRaftEntry lib proto

end Machine

/-! ## The cluster and the gateway -/

structure Proposal where
  node : NodeId
  life : Nat
  number : UInt64
  index : Nat
  entry : LogEntry

/-- The nodes with their services, and the gateway. -/
structure MatchCluster where
  nodes : ServiceCluster MatchService := { services := fun _ => {} }
  /-- `processed_match_ids_` -/
  processedMatchIds : List Bytes := []
  /-- The matches that passed the check of `on_match_found`, by their entries. -/
  started : List (Nat × LogEntry) := []
  proposals : List Proposal := []

inductive MatchEvent where
  /-- A step of a node. -/
  | node (event : Event)
  /-- A node gets a request. -/
  | request (v : NodeId) (request : MatchRequest) (format : RaftWireFormat) (io : List IoOutcome)
  /-- The matcher thread finds players who have waited too long. -/
  | purge (v : NodeId) (mode : MatchMode) (now : UInt64) (format : RaftWireFormat)
      (io : List IoOutcome)
  /-- The matcher thread looks for a match around an anchor, which it has read before. -/
  | look (v : NodeId) (mode : MatchMode) (anchor : MatchPlayer)
  /-- The matcher thread does not hand its match on, because the node is no leader. -/
  | drop (v : NodeId)
  /-- The matcher thread hands its match to `append_command`. -/
  | propose (v : NodeId) (format : RaftWireFormat) (io : List IoOutcome)
  /-- `on_match_found`, for a match that a node has applied. It can fail to create the room. -/
  | onMatchFound (index : Nat) (entry : LogEntry) (created : Bool)

structure MatchSetup where
  lib : Libraries
  proto : Codec Proto.CommandEnvelope
  cluster : ClusterConfig
  order : QueueSort
  config : MatchmakingConfig := {}

namespace MatchCluster

variable (setup : MatchSetup)

def service (m : MatchCluster) (v : NodeId) : MatchService := m.nodes.services v

def isLeader (m : MatchCluster) (v : NodeId) : Bool :=
  (m.nodes.raft.procs v).host.node.state = .leader

def applied (m : MatchCluster) (index : Nat) (entry : LogEntry) : Bool :=
  m.nodes.raft.history.any fun record => record.2 = .applied index entry

/-- A leader's `append_command`, unless `dump` throws. -/
def submit (m : MatchCluster) (v : NodeId) (command : RaftCommand) (format : RaftWireFormat)
    (io : List IoOutcome) : Option MatchCluster :=
  match serializeRaftCommand setup.lib setup.proto command format with
  | .error _ => some m
  | .ok bytes =>
    (m.nodes.append setup.lib setup.cluster v bytes io).map fun nodes => { m with nodes }

/-- The cluster after an event, or nothing if it cannot happen. -/
def advance (m : MatchCluster) : MatchEvent → Option MatchCluster
  | .node event =>
    (m.nodes.step setup.lib setup.cluster (machine setup.lib setup.proto) event).map
      fun nodes => { m with nodes }
  | .request v request format io =>
    if m.isLeader v then m.submit setup v request.raftCommand format io else some m
  | .purge v mode now format io =>
    let expired := expiredPlayers setup.config now ((m.service v).queues mode)
    if m.isLeader v ∧ !expired.isEmpty then
      m.submit setup v (makePurgeCommand mode expired) format io
    else some m
  | .look v mode anchor =>
    let s := m.service v
    match s.found,
        findMatch setup.order setup.config.mmrRangeInitial mode anchor s.nextMatchId s.queues with
    | none, some result =>
      some { m with
        nodes := m.nodes.setService v
          { s with nextMatchId := s.nextMatchId + 1, found := some (s.nextMatchId, result) } }
    | _, _ => none
  | .drop v =>
    if m.isLeader v then none
    else some { m with nodes := m.nodes.setService v { m.service v with found := none } }
  | .propose v format io =>
    match (m.service v).found with
    | none => none
    | some (number, result) =>
      if m.isLeader v then
        match serializeRaftCommand setup.lib setup.proto (makeMatchFoundCommand result) format with
        | .error _ => none
        | .ok bytes =>
          let node := (m.nodes.raft.procs v).host.node
          (m.nodes.append setup.lib setup.cluster v bytes io).map fun nodes =>
            { m with
              nodes := nodes.setService v { m.service v with found := none }
              proposals := m.proposals ++ [{
                node := v
                life := (m.service v).life
                number
                index := node.log.length + 1
                entry := { term := node.currentTerm, command := bytes } }] }
      else none
  | .onMatchFound index entry created =>
    match matchOf setup.lib setup.proto entry with
    | none => none
    | some result =>
      if m.applied index entry then
        if result.matchId ∈ m.processedMatchIds then some m
        else some { m with
          processedMatchIds :=
            if created then m.processedMatchIds ++ [result.matchId] else m.processedMatchIds
          started := m.started ++ [(index, entry)] }
      else none

def step (m : MatchCluster) (event : MatchEvent) : MatchCluster := (m.advance setup event).getD m

end MatchCluster

/-! ## Entries that were written for a command -/

section Entries

variable {lib : Libraries} {proto : Codec Proto.CommandEnvelope} {command : RaftCommand}

theorem queueOp_of_agrees {read : RaftCommand} (h : read.Agrees command) :
    queueOp read = queueOp command := by
  obtain ⟨hkind, hfields⟩ := h
  unfold queueOp
  rw [hkind]
  cases hcommand : command.kind <;> rw [hcommand] at hfields <;> simp [hfields]

theorem entryOp_serialized (hlib : lib.Lawful) (htext : lib.WritesText)
    (hproto : proto.Lawful Proto.CommandEnvelope.strings) {format : RaftWireFormat} {bytes : Bytes}
    (hbytes : serializeRaftCommand lib proto command format = .ok bytes) {term : Nat} {op : QueueOp}
    (h : entryOp lib proto { term, command := bytes } = .ok op) : queueOp command = .ok op := by
  obtain ⟨read, hread, hop⟩ := bind_ok_iff.mp h
  rw [← queueOp_of_agrees (agrees_of_parse hlib htext hproto hbytes hread), hop]

def MatchRequest.operation : MatchRequest → QueueOp
  | .join player => .add player
  | .leave mode userId => .remove mode userId

theorem queueOp_raftCommand (request : MatchRequest) :
    queueOp request.raftCommand = .ok request.operation := by
  cases request with
  | join player =>
    obtain ⟨_, _, _, mode⟩ := player
    cases mode <;> rfl
  | leave mode => cases mode <;> rfl

theorem queueOp_makePurgeCommand (mode : MatchMode) (userIds : List Bytes) :
    queueOp (makePurgeCommand mode userIds) = .ok (.purge mode userIds) := by cases mode <;> rfl

theorem queueOp_makeMatchFoundCommand (result : MatchResult) :
    queueOp (makeMatchFoundCommand result) = .ok (.commit result) := by
  obtain ⟨_, mode, _, _⟩ := result
  cases mode <;> rfl

theorem matchOf_eq_some_iff {entry : LogEntry} {result : MatchResult} :
    matchOf lib proto entry = some result ↔ entryOp lib proto entry = .ok (.commit result) := by
  unfold matchOf
  split <;> simp_all

end Entries

/-! ## What an event does -/

namespace MatchCluster

/-- The node and operation handed to `append_command`. -/
def handed (setup : MatchSetup) (m : MatchCluster) : MatchEvent → Option (NodeId × QueueOp)
  | .request v request _ _ => some (v, request.operation)
  | .purge v mode now _ _ =>
    some (v, .purge mode (expiredPlayers setup.config now ((m.service v).queues mode)))
  | .propose v _ _ => (m.service v).found.map fun found => (v, .commit found.2)
  | _ => none

/-- Nothing, a step of a node, or a call of `append_command`. -/
inductive Moves (setup : MatchSetup) (m : MatchCluster) (event : MatchEvent) (m' : MatchCluster) :
    Prop where
  | still : m'.nodes.raft = m.nodes.raft →
      (∀ v, (m'.service v).queues = (m.service v).queues) → Moves setup m event m'
  | node (raftEvent : Event) : event = .node raftEvent →
      Steps setup.lib setup.cluster (machine setup.lib setup.proto) raftEvent m.nodes m'.nodes →
      Moves setup m event m'
  | append {v : NodeId} {op : QueueOp} {bytes : Bytes} {io : List IoOutcome} :
      m.handed setup event = some (v, op) →
      (∀ term op', entryOp setup.lib setup.proto { term, command := bytes } = .ok op' → op' = op) →
      Cluster.step setup.lib setup.cluster { node := v, action := .appendCommand bytes, io }
        m.nodes.raft = some m'.nodes.raft →
      (∀ v, (m'.service v).queues = (m.service v).queues) → Moves setup m event m'

variable {setup : MatchSetup} {m : MatchCluster}

theorem queues_setService (nodes : ServiceCluster MatchService) {v : NodeId} {s : MatchService}
    (h : s.queues = (nodes.services v).queues) (u : NodeId) :
    ((nodes.setService v s).services u).queues = (nodes.services u).queues := by
  simp only [setService]
  by_cases hu : u = v
  · subst hu
    rw [Function.update_self, h]
  · rw [Function.update_of_ne hu]

variable (hlib : setup.lib.Lawful) (htext : setup.lib.WritesText)
  (hproto : setup.proto.Lawful Proto.CommandEnvelope.strings)

include hlib htext hproto

theorem moves_submit {event : MatchEvent} {v : NodeId} {command : RaftCommand} {op : QueueOp}
    (format : RaftWireFormat) (io : List IoOutcome) (hop : queueOp command = .ok op)
    (hhanded : m.handed setup event = some (v, op)) :
    Moves setup m event ((m.submit setup v command format io).getD m) := by
  fun_cases MatchCluster.submit setup m v command format io with
  | case1 => exact .still rfl fun _ => rfl
  | case2 bytes hbytes =>
    cases hnodes : m.nodes.append setup.lib setup.cluster v bytes io with
    | none => exact .still rfl fun _ => rfl
    | some nodes =>
      obtain ⟨hraft, _, hservices, _⟩ := appends_of_append hnodes
      refine .append hhanded (fun term op' hop' => ?_) hraft fun u => ?_
      · have hread := entryOp_serialized hlib htext hproto hbytes hop'
        exact Except.ok.inj (hread.symm.trans hop)
      · exact congrArg MatchService.queues (congrFun hservices u)

theorem moves_step (m : MatchCluster) (event : MatchEvent) :
    Moves setup m event (m.step setup event) := by
  unfold MatchCluster.step
  fun_cases advance setup m event with
  | case1 event =>
    cases hnodes : m.nodes.step setup.lib setup.cluster (machine setup.lib setup.proto) event with
    | none => exact .still rfl fun _ => rfl
    | some nodes => exact .node event rfl (steps_of_step hnodes)
  | case2 v request => exact moves_submit hlib htext hproto _ _ (queueOp_raftCommand request) rfl
  | case4 => exact moves_submit hlib htext hproto _ _ (queueOp_makePurgeCommand _ _) rfl
  | case6 | case9 => exact .still rfl (queues_setService m.nodes rfl)
  | case12 v format io number result hfound hlead bytes hbytes node =>
    cases hnodes : m.nodes.append setup.lib setup.cluster v bytes io with
    | none => exact .still rfl fun _ => rfl
    | some nodes =>
      obtain ⟨hraft, _, hservices, _⟩ := appends_of_append hnodes
      have hhanded : m.handed setup (.propose v format io) = some (v, .commit result) := by
        simp [handed, hfound]
      refine .append hhanded (fun term op' hop' => ?_) hraft fun u => ?_
      · have hread := entryOp_serialized hlib htext hproto hbytes hop'
        exact Except.ok.inj (hread.symm.trans (queueOp_makeMatchFoundCommand result))
      · refine (queues_setService nodes (by rw [hservices]; rfl) u).trans ?_
        exact congrArg MatchService.queues (congrFun hservices u)
  | _ => exact .still rfl fun _ => rfl

end MatchCluster

/-! ## The queues of a node -/

def MatchSetup.operationsOf (setup : MatchSetup) (entries : List LogEntry) : List QueueOp :=
  entries.filterMap fun entry => (entryOp setup.lib setup.proto entry).toOption

namespace MatchCluster

/-- The operations that a node has applied since it came up. -/
def appliedOps (setup : MatchSetup) (m : MatchCluster) (v : NodeId) : List QueueOp :=
  setup.operationsOf ((entriesSince m.nodes.raft.history v).map Prod.snd)

def Follows (setup : MatchSetup) (m : MatchCluster) : Prop :=
  ∀ v, (m.service v).queues = queuesAfter (m.appliedOps setup v)

variable {setup : MatchSetup} {m m' : MatchCluster} {event : MatchEvent}

def followEntry (setup : MatchSetup) (queues : Queues) (record : Nat × LogEntry) : Queues :=
  match entryOp setup.lib setup.proto record.2 with
  | .ok op => op.apply queues
  | .error _ => queues

theorem queuesAfter_appliedOps (v : NodeId) : queuesAfter (m.appliedOps setup v) =
    (entriesSince m.nodes.raft.history v).foldl (followEntry setup) fun _ => [] := by
  rw [queuesAfter, appliedOps, MatchSetup.operationsOf, foldl_filterMap, foldl_map]
  congr 1
  funext queues record
  unfold followEntry
  cases entryOp setup.lib setup.proto record.2 <;> rfl

theorem Follows.moves (h : m.Follows setup) (hmoves : Moves setup m event m') :
    m'.Follows setup := by
  cases hmoves with
  | still hraft hqueues =>
    intro v
    rw [hqueues, h, appliedOps, appliedOps, hraft]
  | node raftEvent _ hsteps =>
    intro v
    rw [queuesAfter_appliedOps]
    refine hsteps.follows MatchService.queues (fun _ => rfl) (fun index entry svc => ?_)
      (fun u => ?_) v
    · show (applyRaftEntry setup.lib setup.proto entry svc).1.queues = _
      unfold applyRaftEntry followEntry
      cases entryOp setup.lib setup.proto entry with
      | error => rfl
      | ok op => cases op <;> rfl
    · exact (h u).trans (queuesAfter_appliedOps u)
  | append _ _ hstep hqueues =>
    intro v
    rw [hqueues, h, appliedOps, appliedOps, entriesSince_of_silent hstep]
    · intro hbooted
      obtain ⟨_, hboot⟩ := booted_of_mem_newOutputs hstep hbooted
      cases hboot
    · intro index entry hmem
      obtain ⟨_, _, hadv, hout, _⟩ := advances_of_mem_newOutputs hstep hmem
      cases Process.emits_of_mem hadv hout

end MatchCluster

/-! ## Scripts -/

/-- A service on a cluster with the reference libraries. -/
def matchOn (cluster : ClusterConfig) : MatchSetup where
  lib := reference
  proto := Proto.commandReference
  cluster := cluster
  order := stableSort

theorem step_matchOn (cluster : ClusterConfig) : MatchCluster.step (matchOn cluster) =
    MatchCluster.step { matchOn cluster with lib := quick } := by
  have hserialize : serializeRaftCommand (matchOn cluster).lib = serializeRaftCommand quick := rfl
  have hmatch : matchOf (matchOn cluster).lib = matchOf quick := rfl
  have hmachine : machine (matchOn cluster).lib = machine quick := rfl
  have hstep : ServiceCluster.step (matchOn cluster).lib =
      ServiceCluster.step (S := MatchService) quick := step_quick
  have happend : append (matchOn cluster).lib = append (S := MatchService) quick := append_quick
  funext m event
  cases event <;> simp only [MatchCluster.step, MatchCluster.advance, MatchCluster.submit,
    hserialize, hmatch, hmachine, hstep, happend]

def entryFor (command : RaftCommand) : LogEntry where
  term := 1
  command :=
    ((serializeRaftCommand quick Proto.commandReference command .legacyJson).toOption).getD []

def messageFor (index : Nat) (entries : List LogEntry) : AppendEntriesArgs where
  term := 1
  leaderId := nodeA
  prevLogIndex := index
  prevLogTerm := if index = 0 then 0 else 1
  entries := entries
  leaderCommit := index

def delivered (v : NodeId) : List Event :=
  [on v .callback, on v (.callbackReturned .accepted), on v .finishDelivery]

/-- The next entry of `a` goes to `b`, both commit and apply it, and the call ends. -/
def replicateFor (index : Nat) (command : RaftCommand) : List Event :=
  [on nodeA .sendEntries, on nodeB (.appendEntries (messageFor index [entryFor command])),
      on nodeB .finishDelivery, on nodeA (.entriesReplied (accepted 1 (index + 1))),
      on nodeA .sendEntries, on nodeA (.entriesReplied .empty), on nodeA .closeReplication] ++
    delivered nodeA ++
    [on nodeA (.sendHeartbeat .pipeline), on nodeB (.appendEntries (messageFor (index + 1) []))] ++
    delivered nodeB ++
    [on nodeA (.heartbeatReplied .pipeline .empty), on nodeA (.sendHeartbeat .pipeline),
      on nodeA (.heartbeatReplied .pipeline .empty), on nodeA (.sendHeartbeat .pipeline)]

end BoostGateway.Match
