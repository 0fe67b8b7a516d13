import BoostGateway.Consensus.Quorum
import BoostGateway.Raft.StateCodec
import Mathlib.Data.List.AList

/-!
# The lock sections of `RaftNode`

Each definition is what a member function of `raft.cpp` does while it holds `mutex_`. A function
that releases the lock to send an RPC or to call back is cut there, and `Process` puts the pieces
together. Audit lines, the election deadline and the leader callbacks are left out.
-/

namespace BoostGateway.Raft

/-- The members of `RaftNode` that its operations read. -/
structure RaftNode where
  currentTerm : Nat := 0
  votedFor : Option NodeId := none
  state : RaftState := .follower
  leaderId : NodeId := []
  log : List LogEntry := []
  healthy : Bool := true
  lastError : Bytes := []
  failedApplyIndex : Option Nat := none
  running : Bool := false
  votesReceived : Nat := 0
  commitIndex : Nat := 0
  lastApplied : Nat := 0
  nextIndex : AList (fun _ : NodeId => Nat) := ∅
  matchIndex : AList (fun _ : NodeId => Nat) := ∅
  /-- Whether an apply callback is registered. -/
  applyCb : Bool := false

/-- The outcome of a write, which may fail after installing. -/
inductive IoOutcome where
  | written
  | failed (error : RaftStateException)
  | installedThenFailed (error : RaftStateException)

/-- A node, its state file, the next writes' outcomes (none: fine), and the states given to the
store. -/
structure Host where
  node : RaftNode := {}
  disk : Option RaftPersistentState := none
  io : List IoOutcome := []
  saves : List RaftPersistentState := []

def Host.durable (host : Host) : RaftPersistentState := host.disk.getD {}

/-- The part of a node that `persist_state_locked` saves. -/
def RaftNode.persistent (node : RaftNode) : RaftPersistentState where
  currentTerm := node.currentTerm
  votedFor := node.votedFor
  log := node.log
  commitIndex := node.commitIndex
  lastApplied := node.lastApplied

/-! ## Argument checks -/

def isValidPeerId (nodeId : NodeId) : Bool := isOpaqueNodeId nodeId defaultLimits

def isValidRequestVote (args : RequestVoteArgs) : Bool :=
  if args.term = 0 ∨ !isValidPeerId args.candidateId ∨ args.term < args.lastLogTerm then false
  else decide (args.lastLogIndex = 0) == decide (args.lastLogTerm = 0)

def isValidEntry (term : Nat) (entry : LogEntry) : Bool :=
  0 < entry.term && entry.term ≤ term && entry.command.length ≤ defaultLimits.maxCommandBytes

def isValidAppendEntries (args : AppendEntriesArgs) : Bool :=
  if args.term = 0 ∨ !isValidPeerId args.leaderId ∨
      decide (args.prevLogIndex = 0) ≠ decide (args.prevLogTerm = 0) ∨
      args.term < args.prevLogTerm ∨ defaultLimits.maxLogEntries < args.prevLogIndex ∨
      defaultLimits.maxLogEntries - args.prevLogIndex < args.entries.length then false
  else args.entries.all (isValidEntry args.term)

/-! ## Persistence -/

def RaftStateException.what (error : RaftStateException) : Bytes :=
  ascii "Raft state error at " ++ error.path ++ ascii (": " ++ error.detail)

/-- `state_path`, the empty path for a node without storage. -/
def statePath (cfg : RaftConfig) : Bytes :=
  if cfg.storageDir.isEmpty then []
  else
    let separator := if cfg.storageDir.getLast? = some 47 then [] else [47]
    cfg.storageDir ++ separator ++ cfg.nodeId ++ ascii ".raft.json"

def markUnhealthyLocked (reason : Bytes) (node : RaftNode) : RaftNode :=
  if !node.healthy then node
  else
    { node with
      healthy := false
      lastError := reason
      running := false
      state := .follower
      leaderId := []
      votesReceived := 0
      nextIndex := ∅
      matchIndex := ∅ }

section Sections

variable (lib : Libraries) (cfg : RaftConfig)

def encodeSave (state : RaftPersistentState) : Except RaftStateException Bytes := do
  validateStorageNodeId cfg.nodeId defaultLimits (statePath cfg)
  encodeV1 lib state cfg.nodeId defaultLimits (statePath cfg)

/-- `RaftStateStore::save`: encode and replace. -/
def save (state : RaftPersistentState) (host : Host) : Host × Option RaftStateException :=
  let host := { host with saves := host.saves ++ [state] }
  match encodeSave lib cfg state with
  | .error error => (host, some error)
  | .ok _ =>
    match host.io with
    | [] => ({ host with disk := some state }, none)
    | .written :: rest => ({ host with disk := some state, io := rest }, none)
    | .failed error :: rest => ({ host with io := rest }, some error)
    | .installedThenFailed error :: rest =>
      ({ host with disk := some state, io := rest }, some error)

def persistStateLocked (host : Host) : Host × Bool :=
  if !host.node.healthy then (host, false)
  else if cfg.storageDir.isEmpty then (host, true)
  else
    match save lib cfg host.node.persistent host with
    | (host, none) => (host, true)
    | (host, some error) =>
      ({ host with node := markUnhealthyLocked error.what host.node }, false)

/-! ## Roles -/

def asFollower (term : Nat) (node : RaftNode) : RaftNode :=
  { node with
    state := .follower
    currentTerm := term
    votedFor := none
    votesReceived := 0
    nextIndex := ∅
    matchIndex := ∅
    leaderId := [] }

def becomeFollower (term : Nat) (host : Host) : Host × Bool :=
  persistStateLocked lib cfg { host with node := asFollower term host.node }

def asLeader (node : RaftNode) : RaftNode :=
  { node with
    state := .leader
    leaderId := cfg.nodeId
    nextIndex := cfg.targets.foldl (fun map peer => map.insert peer (node.log.length + 1)) ∅
    matchIndex := cfg.targets.foldl (fun map peer => map.insert peer 0) ∅ }

def becomeLeader (host : Host) : Host × Bool :=
  persistStateLocked lib cfg { host with node := asLeader cfg host.node }

/-! ## Elections -/

def asCandidate (node : RaftNode) : RaftNode :=
  { node with
    currentTerm := wrap64 (node.currentTerm + 1)
    votedFor := some cfg.nodeId
    votesReceived := 1
    state := .candidate
    leaderId := [] }

def voteRequest (node : RaftNode) : RequestVoteArgs where
  term := node.currentTerm
  candidateId := cfg.nodeId
  lastLogIndex := node.log.length
  lastLogTerm := lastLogTermOf node.log

def startElection (host : Host) : Host × Option RequestVoteArgs :=
  if !host.node.healthy then (host, none)
  else
    let node := asCandidate cfg host.node
    match persistStateLocked lib cfg { host with node } with
    | (host, true) => (host, some (voteRequest cfg node))
    | (host, false) => (host, none)

/-- `start_election` after a reply: whether it goes on. -/
def countVote (args : RequestVoteArgs) (reply : RequestVoteReply) (host : Host) : Host × Bool :=
  if !host.node.healthy ∨ host.node.state ≠ .candidate ∨ host.node.currentTerm ≠ args.term then
    (host, false)
  else if host.node.currentTerm < reply.term then
    ((becomeFollower lib cfg reply.term host).1, false)
  else if reply.voteGranted then
    ({ host with node := { host.node with votesReceived := host.node.votesReceived + 1 } }, true)
  else (host, true)

def winsElection (node : RaftNode) : Bool :=
  node.state = .candidate && cfg.quorumSize ≤ node.votesReceived

def closeElection (host : Host) : Host :=
  if winsElection cfg host.node then (becomeLeader lib cfg host).1 else host

def isLogUpToDate (node : RaftNode) (lastLogTerm lastLogIndex : Nat) : Bool :=
  if lastLogTerm ≠ lastLogTermOf node.log then lastLogTermOf node.log < lastLogTerm
  else node.log.length ≤ lastLogIndex

/-- The vote of `handle_request_vote` once the terms agree. -/
def castVote (args : RequestVoteArgs) (host : Host) : Host × RequestVoteReply :=
  let reply : RequestVoteReply := { term := host.node.currentTerm }
  if (host.node.votedFor = none ∨ host.node.votedFor = some args.candidateId) ∧
      isLogUpToDate host.node args.lastLogTerm args.lastLogIndex then
    let host := { host with node := { host.node with votedFor := some args.candidateId } }
    let (host, granted) := persistStateLocked lib cfg host
    (host, { reply with voteGranted := granted })
  else (host, reply)

def handleRequestVote (args : RequestVoteArgs) (host : Host) : Host × RequestVoteReply :=
  let reply : RequestVoteReply := { term := host.node.currentTerm }
  if !host.node.healthy ∨ !isValidRequestVote args then (host, reply)
  else if args.term < host.node.currentTerm then (host, reply)
  else if host.node.currentTerm < args.term then
    match becomeFollower lib cfg args.term host with
    | (host, true) => castVote lib cfg args host
    | (host, false) => (host, { reply with term := host.node.currentTerm })
  else castVote lib cfg args host

/-! ## Replication -/

def termAt (log : List LogEntry) (i : Nat) : Nat := (log.getD i {}).term

def makeAppendEntriesFor (node : RaftNode) (peer : NodeId) : AppendEntriesArgs :=
  let next := (node.nextIndex.lookup peer).getD (node.log.length + 1)
  let probes : Bool := 1 < next && next - 1 ≤ node.log.length
  { term := node.currentTerm
    leaderId := cfg.nodeId
    leaderCommit := node.commitIndex
    prevLogIndex := if probes then next - 1 else 0
    prevLogTerm := if probes then termAt node.log (next - 2) else 0
    entries := if 1 ≤ next ∧ next ≤ node.log.length then node.log.drop (next - 1) else [] }

def replicated (node : RaftNode) : List Nat :=
  node.log.length :: node.matchIndex.entries.map (fun entry => entry.2)

def updateCommitIndexLocked (node : RaftNode) : RaftNode :=
  let candidate := Consensus.ranked (replicated node) cfg.quorumSize
  if node.commitIndex < candidate ∧ candidate ≤ node.log.length ∧
      termAt node.log (candidate - 1) = node.currentTerm then
    { node with commitIndex := candidate }
  else node

def drainLoop (commitIndex : Nat) (log : List LogEntry) : Nat → Nat → List (Nat × LogEntry)
  | 0, _ => []
  | fuel + 1, next =>
    if next < commitIndex ∧ next < log.length then
      (next + 1, log.getD next {}) :: drainLoop commitIndex log fuel (next + 1)
    else []

def drainCommittedEntriesLocked (node : RaftNode) : List (Nat × LogEntry) :=
  drainLoop node.commitIndex node.log (node.commitIndex - node.lastApplied) node.lastApplied

/-- The loop of `handle_append_entries`. -/
def mergeEntries : List LogEntry → Nat → List LogEntry → List LogEntry
  | log, _, [] => log
  | log, localIndex, entry :: rest =>
    let log :=
      if localIndex < log.length ∧ log.getD localIndex {} ≠ entry then log.take localIndex
      else log
    let log := if log.length ≤ localIndex then log ++ [entry] else log
    mergeEntries log (localIndex + 1) rest

def truncateLog (prevLogIndex : Nat) (node : RaftNode) : RaftNode :=
  let log := node.log.take (prevLogIndex - 1)
  let commitIndex := min node.commitIndex log.length
  { node with log, commitIndex, lastApplied := min node.lastApplied commitIndex }

def mergeLog (args : AppendEntriesArgs) (node : RaftNode) : RaftNode :=
  let log := mergeEntries node.log args.prevLogIndex args.entries
  { node with
    log
    commitIndex :=
      if node.commitIndex < args.leaderCommit then min args.leaderCommit log.length
      else node.commitIndex }

/-- The reply once the terms agree, and the entries to deliver. -/
def acceptEntries (args : AppendEntriesArgs) (reply : AppendEntriesReply) (host : Host) :
    Host × AppendEntriesReply × Option (List (Nat × LogEntry)) :=
  let host := { host with node := { host.node with leaderId := args.leaderId } }
  let reply := { reply with term := host.node.currentTerm }
  if host.node.log.length < args.prevLogIndex then (host, reply, none)
  else if 0 < args.prevLogIndex ∧
      termAt host.node.log (args.prevLogIndex - 1) ≠ args.prevLogTerm then
    let node := truncateLog args.prevLogIndex host.node
    let host := (persistStateLocked lib cfg { host with node }).1
    (host, { reply with matchIndex := node.log.length }, none)
  else
    let node := mergeLog args host.node
    let applied := drainCommittedEntriesLocked node
    match persistStateLocked lib cfg { host with node } with
    | (host, false) => (host, reply, none)
    | (host, true) =>
      (host, { reply with success := true, matchIndex := node.log.length }, some applied)

/-- `handle_append_entries` before the delivery. -/
def handleAppendEntries (args : AppendEntriesArgs) (host : Host) :
    Host × AppendEntriesReply × Option (List (Nat × LogEntry)) :=
  let reply : AppendEntriesReply :=
    { term := host.node.currentTerm, matchIndex := host.node.log.length }
  if !host.node.healthy ∨ !isValidAppendEntries args then (host, reply, none)
  else if args.term < host.node.currentTerm then (host, reply, none)
  else if host.node.currentTerm < args.term ∨ host.node.state = .candidate then
    match becomeFollower lib cfg args.term host with
    | (host, true) => acceptEntries lib cfg args reply host
    | (host, false) => (host, { reply with term := host.node.currentTerm }, none)
  else acceptEntries lib cfg args reply host

def backOff (peer : NodeId) (node : RaftNode) : RaftNode :=
  let next := (node.nextIndex.lookup peer).getD 0
  { node with nextIndex := node.nextIndex.insert peer (if 1 < next then next - 1 else 1) }

def recordMatch (peer : NodeId) (index : Nat) (node : RaftNode) : RaftNode :=
  { node with
    matchIndex := node.matchIndex.insert peer index
    nextIndex := node.nextIndex.insert peer (wrap64 (index + 1)) }

inductive ReplyOutcome where
  | abandoned
  | rejected
  | accepted
  deriving DecidableEq

/-- A sender gives up if it no longer leads, or for a later term. -/
def receiveReply (peer : NodeId) (args : AppendEntriesArgs) (reply : AppendEntriesReply)
    (host : Host) : Host × ReplyOutcome :=
  if !host.node.healthy ∨ host.node.state ≠ .leader ∨ args.term ≠ host.node.currentTerm then
    (host, .abandoned)
  else if host.node.currentTerm < reply.term then
    ((becomeFollower lib cfg reply.term host).1, .abandoned)
  else if reply.success then
    ({ host with node := recordMatch peer reply.matchIndex host.node }, .accepted)
  else ({ host with node := backOff peer host.node }, .rejected)

/-- `send_heartbeat` after a reply: whether it goes on. -/
def heartbeatReply (peer : NodeId) (args : AppendEntriesArgs) (reply : AppendEntriesReply)
    (host : Host) : Host × Bool :=
  match receiveReply lib cfg peer args reply host with
  | (host, .abandoned) => (host, false)
  | (host, .rejected) => (host, true)
  | (host, .accepted) =>
    persistStateLocked lib cfg { host with node := updateCommitIndexLocked cfg host.node }

/-- The entry and own match index of `append_command`. -/
def pushCommand (command : Bytes) (node : RaftNode) : RaftNode :=
  { node with
    log := node.log ++ [{ term := node.currentTerm, command }]
    matchIndex := node.matchIndex.insert cfg.nodeId (node.log.length + 1) }

/-- `append_command` first: whether the entry was saved. -/
def appendCommand (command : Bytes) (host : Host) : Host × Bool :=
  if !host.node.healthy ∨ host.node.state ≠ .leader ∨
      defaultLimits.maxCommandBytes < command.length ∨
      defaultLimits.maxLogEntries ≤ host.node.log.length then (host, false)
  else
    persistStateLocked lib cfg { host with node := pushCommand cfg command host.node }

/-- What to deliver after the loop, unless the call fails. -/
def commitAppended (successes : Nat) (host : Host) : Host × Option (List (Nat × LogEntry)) :=
  if !host.node.healthy ∨ host.node.state ≠ .leader ∨ successes < cfg.quorumSize then
    (host, none)
  else
    let node := updateCommitIndexLocked cfg host.node
    let applied := drainCommittedEntriesLocked node
    match persistStateLocked lib cfg { host with node } with
    | (host, true) => (host, some applied)
    | (host, false) => (host, none)

/-! ## Applying -/

def isNextToApply (node : RaftNode) (index : Nat) : Bool :=
  node.healthy && index = node.lastApplied + 1

/-- An accepted entry: whether the loop goes on. -/
def markApplied (index : Nat) (host : Host) : Host × Bool :=
  if !isNextToApply host.node index then (host, false)
  else
    let previous := host.node.lastApplied
    match persistStateLocked lib cfg
        { host with node := { host.node with lastApplied := index } } with
    | (host, true) => (host, true)
    | (host, false) =>
      ({ host with node := { host.node with lastApplied := previous } }, false)

inductive Verdict where
  | accepted
  | rejected
  | threw (what : Option Bytes)
  deriving DecidableEq

/-- A refused entry; `action` is `apply`, or `replay` in `on_apply`. -/
def failApply (action : String) (index : Nat) (verdict : Verdict) (node : RaftNode) : RaftNode :=
  let reason :=
    match verdict with
    | .threw what =>
      ascii ("state machine " ++ action ++ " failed at index ") ++ decimal index ++
        (what.map (ascii ": " ++ ·)).getD []
    | _ => ascii "state machine rejected committed entry at index " ++ decimal index
  markUnhealthyLocked reason { node with failedApplyIndex := some index }

/-! ## Starting -/

/-- The constructor with `load_persistent_state`. -/
def load (disk : Option RaftPersistentState) : RaftNode :=
  match disk with
  | none => {}
  | some state =>
    { currentTerm := state.currentTerm
      votedFor := state.votedFor
      commitIndex := state.commitIndex
      lastApplied := state.lastApplied
      log := state.log }

def replayed (node : RaftNode) : List (Nat × LogEntry) :=
  drainLoop node.lastApplied node.log node.lastApplied 0

def startTerm (node : RaftNode) : Nat :=
  if node.currentTerm = 0 then 1 else node.currentTerm

def initialPersistence (host : Host) : Host × Bool :=
  if cfg.allPeers = [cfg.nodeId] then
    becomeLeader lib cfg
      { host with node := { host.node with currentTerm := startTerm host.node } }
  else persistStateLocked lib cfg host

/-- `start`, where a thrown exception leaves the node as it is. -/
def start (host : Host) : Host :=
  if host.node.running ∨ !host.node.healthy then host
  else
    match initialPersistence lib cfg host with
    | (host, true) => { host with node := { host.node with running := true } }
    | (host, false) => host

end Sections

end BoostGateway.Raft
