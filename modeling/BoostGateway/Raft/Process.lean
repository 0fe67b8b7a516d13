import BoostGateway.Raft.Node

/-!
# A running node

The worker thread of `run` holds elections and sends heartbeats. The calls of
`handle_append_entries` and `append_command`, and those that bring a node up, are serialized by
`apply_pipeline_mutex_`. `Process.step` lets one thread do its next section of `Node`, with the
replies, the verdicts of the callback and the outcomes of file writes as inputs.
-/

namespace BoostGateway.Raft

open List

inductive Beat where
  | ready (targets : List NodeId)
  | awaiting (peer : NodeId) (args : AppendEntriesArgs) (rest : List NodeId)

inductive Worker where
  | idle
  | electing (args : RequestVoteArgs) (targets : List NodeId)
  | awaitingVote (args : RequestVoteArgs) (peer : NodeId) (rest : List NodeId)
  | beating (beat : Beat)

inductive Purpose where
  /-- `on_apply` replays the entries applied before the node went down. -/
  | replay
  /-- `on_apply` delivers the entries committed but not applied before. -/
  | catchUp
  /-- `handle_append_entries` delivers before it replies. -/
  | reply (args : AppendEntriesArgs) (reply : AppendEntriesReply)
  /-- `append_command` delivers what it committed. -/
  | append (index : Nat) (command : Bytes)

/-- Where the holder of `apply_pipeline_mutex_` stands. -/
inductive Pipeline where
  | free
  /-- The next call is for the first pending entry; `inFlight` says that it is under way. -/
  | delivering (purpose : Purpose) (pending : List (Nat × LogEntry)) (inFlight : Bool)
  /-- `on_apply` is done or was not called, and `start` comes next. -/
  | starting
  | replicating (index : Nat) (command : Bytes) (successes : Nat) (targets : List NodeId)
  | awaiting (index : Nat) (command : Bytes) (successes : Nat) (peer : NodeId)
      (args : AppendEntriesArgs) (rest : List NodeId)
  | beating (index : Nat) (command : Bytes) (beat : Beat)

/-- What a node does that others see or a property names. -/
inductive Output where
  | requestVote (peer : NodeId) (args : RequestVoteArgs)
  | requestVoteReply (args : RequestVoteArgs) (reply : RequestVoteReply)
  | appendEntries (peer : NodeId) (args : AppendEntriesArgs)
  /-- The reply, with the log of the node that replies. -/
  | appendEntriesReply (args : AppendEntriesArgs) (reply : AppendEntriesReply) (log : List LogEntry)
  /-- The node was brought up from its state file. -/
  | booted
  /-- The node became a candidate in a term. -/
  | candidate (term : Nat)
  /-- The node became the leader of a term. -/
  | leader (term : Nat)
  /-- `match_index_` of a peer was set from a successful reply in a term. -/
  | matched (term : Nat) (peer : NodeId) (index : Nat)
  /-- `update_commit_index_locked` raised the commit index. -/
  | committed (index : Nat)
  /-- The apply callback was called. -/
  | applied (index : Nat) (entry : LogEntry)
  /-- `append_command` returned true for the command it stored at an index. -/
  | appended (index : Nat) (command : Bytes)
  deriving DecidableEq

structure Process where
  host : Host := {}
  worker : Worker := .idle
  pipeline : Pipeline := .free

inductive RpcResult (α : Type) where
  | empty
  | reply (value : α)
  | threw (what : Bytes)

inductive Thread where
  | worker
  | pipeline

/-- The next section of some thread, with its inputs. -/
inductive Action where
  /-- The process comes up again, and registers an apply callback or not. -/
  | boot (callback : Bool)
  | start
  | startElection
  | sendRequestVote
  | voteReplied (result : RpcResult RequestVoteReply)
  | closeElection
  | startHeartbeat
  | sendHeartbeat (thread : Thread)
  | heartbeatReplied (thread : Thread) (result : RpcResult AppendEntriesReply)
  | requestVote (args : RequestVoteArgs)
  | appendEntries (args : AppendEntriesArgs)
  | callback
  | callbackReturned (verdict : Verdict)
  | finishDelivery
  | appendCommand (command : Bytes)
  | sendEntries
  | entriesReplied (result : RpcResult AppendEntriesReply)
  | closeReplication

namespace Process

variable (lib : Libraries) (cfg : RaftConfig)

def committedOutput (before after : Host) : List Output :=
  if before.node.commitIndex < after.node.commitIndex then [.committed after.node.commitIndex]
  else []

/-! ## Coming up -/

def boot (callback : Bool) (host : Host) : Process :=
  let node := { load host.disk with applyCb := callback }
  { host := { host with node }
    worker := .idle
    pipeline := if callback then .delivering .replay (replayed node) false else .starting }

def startNode (p : Process) : Process × List Output :=
  let host := start lib cfg p.host
  let outputs :=
    if !p.host.node.running ∧ p.host.node.healthy ∧ cfg.allPeers = [cfg.nodeId] then
      [.leader host.node.currentTerm]
    else []
  ({ p with host, pipeline := .free }, outputs)

/-! ## Elections -/

/-- `run` starts an election once the deadline has passed. -/
def beginElection (p : Process) : Process × List Output :=
  let (host, request) := startElection lib cfg p.host
  let outputs := if p.host.node.healthy then [.candidate host.node.currentTerm] else []
  match request with
  | some args => ({ p with host, worker := .electing args cfg.targets }, outputs)
  | none => ({ p with host, worker := .idle }, outputs)

def failWorker (what : Bytes) (p : Process) : Process :=
  let node := markUnhealthyLocked (ascii "Raft worker failure: " ++ what) p.host.node
  { p with host := { p.host with node }, worker := .idle }

/-- A reply to a vote request, or the default one. -/
def receiveVote (args : RequestVoteArgs) (rest : List NodeId)
    (result : RpcResult RequestVoteReply) (p : Process) : Process :=
  let count (reply : RequestVoteReply) : Process :=
    let (host, continues) := countVote lib cfg args reply p.host
    { p with host, worker := if continues then .electing args rest else .idle }
  match result with
  | .empty => count {}
  | .reply reply => count reply
  | .threw what => failWorker what p

def endElection (p : Process) : Process × List Output :=
  let outputs := if winsElection cfg p.host.node then [.leader p.host.node.currentTerm] else []
  ({ p with host := closeElection lib cfg p.host, worker := .idle }, outputs)

/-! ## Heartbeats -/

def beat (thread : Thread) (p : Process) : Option Beat :=
  match thread with
  | .worker => match p.worker with
      | .beating beat => some beat
      | _ => none
  | .pipeline => match p.pipeline with
      | .beating _ _ beat => some beat
      | _ => none

def setBeat (thread : Thread) (beat : Beat) (p : Process) : Process :=
  match thread with
  | .worker => { p with worker := .beating beat }
  | .pipeline => match p.pipeline with
      | .beating index command _ => { p with pipeline := .beating index command beat }
      | _ => p

def endBeat (thread : Thread) (p : Process) : Process × List Output :=
  match thread with
  | .worker => ({ p with worker := .idle }, [])
  | .pipeline => match p.pipeline with
      | .beating index command _ => ({ p with pipeline := .free }, [.appended index command])
      | _ => (p, [])

/-- The next peer of a call of `send_heartbeat`. -/
def sendBeat (thread : Thread) (targets : List NodeId) (p : Process) : Process × List Output :=
  match targets with
  | [] => endBeat thread p
  | peer :: rest =>
    if !p.host.node.healthy ∨ p.host.node.state ≠ .leader then endBeat thread p
    else
      let args := makeAppendEntriesFor cfg p.host.node peer
      (setBeat thread (.awaiting peer args rest) p, [.appendEntries peer args])

def matchedOutput (peer : NodeId) (args : AppendEntriesArgs) (reply : AppendEntriesReply)
    (outcome : ReplyOutcome) : List Output :=
  if outcome = .accepted then [.matched args.term peer reply.matchIndex] else []

def failBeat (thread : Thread) (what : Bytes) (p : Process) : Process :=
  match thread with
  | .worker => failWorker what p
  | .pipeline => { p with pipeline := .free }

def receiveBeat (thread : Thread) (peer : NodeId) (args : AppendEntriesArgs)
    (rest : List NodeId) (result : RpcResult AppendEntriesReply) (p : Process) :
    Process × List Output :=
  match result with
  | .empty => (setBeat thread (.ready rest) p, [])
  | .threw what => (failBeat thread what p, [])
  | .reply reply =>
    let (host, continues) := heartbeatReply lib cfg peer args reply p.host
    let outputs := matchedOutput peer args reply (receiveReply lib cfg peer args reply p.host).2 ++
        committedOutput p.host host
    if continues then (setBeat thread (.ready rest) { p with host }, outputs)
    else
      let (p, returned) := endBeat thread { p with host }
      (p, outputs ++ returned)

/-! ## Calls under the pipeline lock -/

/-- `handle_append_entries` up to the delivery. -/
def receiveEntries (args : AppendEntriesArgs) (p : Process) : Process × List Output :=
  match handleAppendEntries lib cfg args p.host with
  | (host, reply, none) => ({ p with host }, [.appendEntriesReply args reply host.node.log])
  | (host, reply, some applied) =>
    ({ p with host, pipeline := .delivering (.reply args reply) applied false }, [])

/-- `append_command` up to the replication loop. -/
def beginAppend (command : Bytes) (p : Process) : Process :=
  match appendCommand lib cfg command p.host with
  | (host, true) =>
    { p with host, pipeline := .replicating host.node.log.length command 1 cfg.targets }
  | (host, false) => { p with host }

def sendNextEntries (index : Nat) (command : Bytes) (successes : Nat) (peer : NodeId)
    (rest : List NodeId) (p : Process) : Process × List Output :=
  if !p.host.node.healthy ∨ p.host.node.state ≠ .leader then ({ p with pipeline := .free }, [])
  else
    let args := makeAppendEntriesFor cfg p.host.node peer
    ({ p with pipeline := .awaiting index command successes peer args rest },
      [.appendEntries peer args])

/-- A peer's reply in the loop, or the default one. -/
def receiveEntriesReply (index : Nat) (command : Bytes) (successes : Nat) (peer : NodeId)
    (args : AppendEntriesArgs) (rest : List NodeId) (result : RpcResult AppendEntriesReply)
    (p : Process) : Process × List Output :=
  let receive (reply : AppendEntriesReply) : Process × List Output :=
    let (host, outcome) := receiveReply lib cfg peer args reply p.host
    let pipeline : Pipeline :=
      match outcome with
      | .abandoned => .free
      | .rejected => .replicating index command successes rest
      | .accepted => .replicating index command (successes + 1) rest
    ({ p with host, pipeline }, matchedOutput peer args reply outcome)
  match result with
  | .empty => receive {}
  | .reply reply => receive reply
  | .threw _ => ({ p with pipeline := .free }, [])

def endReplication (index : Nat) (command : Bytes) (successes : Nat) (p : Process) :
    Process × List Output :=
  let (host, applied) := commitAppended lib cfg successes p.host
  let pipeline : Pipeline :=
    match applied with
    | some applied => .delivering (.append index command) applied false
    | none => .free
  ({ p with host, pipeline }, committedOutput p.host host)

/-! ## Deliveries -/

/-- A delivery that stops early returns false. -/
def abandonDelivery (purpose : Purpose) (p : Process) : Process × List Output :=
  match purpose with
  | .replay | .catchUp => ({ p with pipeline := .starting }, [])
  | .reply args reply =>
    ({ p with pipeline := .free },
      [.appendEntriesReply args { reply with success := false } p.host.node.log])
  | .append _ _ => ({ p with pipeline := .free }, [])

def completeDelivery (purpose : Purpose) (p : Process) : Process × List Output :=
  match purpose with
  | .replay =>
    if p.host.node.healthy then
      let pending := drainCommittedEntriesLocked p.host.node
      ({ p with pipeline := .delivering .catchUp pending false }, [])
    else ({ p with pipeline := .starting }, [])
  | .catchUp => ({ p with pipeline := .starting }, [])
  | .reply args reply =>
    ({ p with pipeline := .free }, [.appendEntriesReply args reply p.host.node.log])
  | .append index command =>
    ({ p with pipeline := .beating index command (.ready cfg.targets) }, [])

/-- The first pending callback; a replay does not check `last_applied_`. -/
def callBack (purpose : Purpose) (index : Nat) (entry : LogEntry)
    (rest : List (Nat × LogEntry)) (p : Process) : Process × List Output :=
  let isReplay := match purpose with
    | .replay => true
    | _ => false
  if !isReplay ∧ !isNextToApply p.host.node index then abandonDelivery purpose p
  else
    ({ p with pipeline := .delivering purpose ((index, entry) :: rest) true },
      if p.host.node.applyCb then [.applied index entry] else [])

/-- The callback returned, or there is none. -/
def callbackDone (purpose : Purpose) (index : Nat) (rest : List (Nat × LogEntry))
    (verdict : Verdict) (p : Process) : Process × List Output :=
  let verdict := if p.host.node.applyCb then verdict else .accepted
  match verdict, purpose with
  | .accepted, .replay => ({ p with pipeline := .delivering .replay rest false }, [])
  | .accepted, purpose =>
    match markApplied lib cfg index p.host with
    | (host, true) => ({ p with host, pipeline := .delivering purpose rest false }, [])
    | (host, false) => abandonDelivery purpose { p with host }
  | verdict, purpose =>
    let action := match purpose with
      | .replay => "replay"
      | _ => "apply"
    let node := failApply action index verdict p.host.node
    abandonDelivery purpose { p with host := { p.host with node } }

/-! ## Steps -/

/-- The next section of a thread and its outputs, if any. -/
def advance (action : Action) (p : Process) : Option (Process × List Output) :=
  match action, p.worker, p.pipeline with
  | .boot callback, _, _ => some (boot callback p.host, [.booted])
  | .start, _, .starting => some (startNode lib cfg p)
  | .startElection, .idle, _ =>
    if p.host.node.running ∧ p.host.node.healthy ∧ p.host.node.state ≠ .leader then
      some (beginElection lib cfg p)
    else none
  | .sendRequestVote, .electing args (peer :: rest), _ =>
    some ({ p with worker := .awaitingVote args peer rest }, [.requestVote peer args])
  | .voteReplied result, .awaitingVote args _ rest, _ =>
    some (receiveVote lib cfg args rest result p, [])
  | .closeElection, .electing _ [], _ => some (endElection lib cfg p)
  | .startHeartbeat, .idle, _ =>
    if p.host.node.running ∧ p.host.node.healthy ∧ p.host.node.state = .leader then
      some ({ p with worker := .beating (.ready cfg.targets) }, [])
    else none
  | .sendHeartbeat thread, _, _ =>
    match beat thread p with
    | some (.ready targets) => some (sendBeat cfg thread targets p)
    | _ => none
  | .heartbeatReplied thread result, _, _ =>
    match beat thread p with
    | some (.awaiting peer args rest) =>
      some (receiveBeat lib cfg thread peer args rest result p)
    | _ => none
  | .requestVote args, _, _ =>
    let (host, reply) := handleRequestVote lib cfg args p.host
    some ({ p with host }, [.requestVoteReply args reply])
  | .appendEntries args, _, .free => some (receiveEntries lib cfg args p)
  | .callback, _, .delivering purpose ((index, entry) :: rest) false =>
    some (callBack purpose index entry rest p)
  | .callbackReturned verdict, _, .delivering purpose ((index, _) :: rest) true =>
    some (callbackDone lib cfg purpose index rest verdict p)
  | .finishDelivery, _, .delivering purpose [] _ => some (completeDelivery cfg purpose p)
  | .appendCommand command, _, .free => some (beginAppend lib cfg command p, [])
  | .sendEntries, _, .replicating index command successes (peer :: rest) =>
    some (sendNextEntries cfg index command successes peer rest p)
  | .entriesReplied result, _, .awaiting index command successes peer args rest =>
    some (receiveEntriesReply lib cfg index command successes peer args rest result p)
  | .closeReplication, _, .replicating index command successes [] =>
    some (endReplication lib cfg index command successes p)
  | _, _, _ => none

/-- A process whose next file writes meet the given outcomes. -/
def withIo (io : List IoOutcome) (p : Process) : Process :=
  { p with host := { p.host with io, saves := [] } }

/-- One step, with the outcomes of its writes. -/
def step (action : Action) (io : List IoOutcome) (p : Process) : Option (Process × List Output) :=
  advance lib cfg action (p.withIo io)

/-- The steps a process can take, one case for each section. -/
inductive Advances (p : Process) : Action → Process × List Output → Prop where
  | boot (callback : Bool) : Advances p (.boot callback) (boot callback p.host, [.booted])
  | start : p.pipeline = .starting → Advances p .start (startNode lib cfg p)
  | startElection : p.worker = .idle → p.host.node.running = true → p.host.node.healthy = true →
      p.host.node.state ≠ .leader → Advances p .startElection (beginElection lib cfg p)
  | sendRequestVote {args : RequestVoteArgs} {peer : NodeId} {rest : List NodeId} :
      p.worker = .electing args (peer :: rest) →
      Advances p .sendRequestVote
        ({ p with worker := .awaitingVote args peer rest }, [.requestVote peer args])
  | voteReplied {args : RequestVoteArgs} {peer : NodeId} {rest : List NodeId}
      (result : RpcResult RequestVoteReply) :
      p.worker = .awaitingVote args peer rest →
      Advances p (.voteReplied result) (receiveVote lib cfg args rest result p, [])
  | closeElection {args : RequestVoteArgs} :
      p.worker = .electing args [] → Advances p .closeElection (endElection lib cfg p)
  | startHeartbeat : p.worker = .idle → p.host.node.running = true → p.host.node.healthy = true →
      p.host.node.state = .leader →
      Advances p .startHeartbeat ({ p with worker := .beating (.ready cfg.targets) }, [])
  | sendHeartbeat {thread : Thread} {targets : List NodeId} :
      beat thread p = some (.ready targets) →
      Advances p (.sendHeartbeat thread) (sendBeat cfg thread targets p)
  | heartbeatReplied {thread : Thread} {peer : NodeId} {args : AppendEntriesArgs}
      {rest : List NodeId} (result : RpcResult AppendEntriesReply) :
      beat thread p = some (.awaiting peer args rest) →
      Advances p (.heartbeatReplied thread result)
        (receiveBeat lib cfg thread peer args rest result p)
  | requestVote (args : RequestVoteArgs) : Advances p (.requestVote args)
        ({ p with host := (handleRequestVote lib cfg args p.host).1 },
          [.requestVoteReply args (handleRequestVote lib cfg args p.host).2])
  | appendEntries (args : AppendEntriesArgs) :
      p.pipeline = .free → Advances p (.appendEntries args) (receiveEntries lib cfg args p)
  | callback {purpose : Purpose} {index : Nat} {entry : LogEntry}
      {rest : List (Nat × LogEntry)} :
      p.pipeline = .delivering purpose ((index, entry) :: rest) false →
      Advances p .callback (callBack purpose index entry rest p)
  | callbackReturned {purpose : Purpose} {index : Nat} {entry : LogEntry}
      {rest : List (Nat × LogEntry)} (verdict : Verdict) :
      p.pipeline = .delivering purpose ((index, entry) :: rest) true →
      Advances p (.callbackReturned verdict) (callbackDone lib cfg purpose index rest verdict p)
  | finishDelivery {purpose : Purpose} {inFlight : Bool} :
      p.pipeline = .delivering purpose [] inFlight →
      Advances p .finishDelivery (completeDelivery cfg purpose p)
  | appendCommand (command : Bytes) :
      p.pipeline = .free → Advances p (.appendCommand command) (beginAppend lib cfg command p, [])
  | sendEntries {index successes : Nat} {command : Bytes} {peer : NodeId} {rest : List NodeId} :
      p.pipeline = .replicating index command successes (peer :: rest) →
      Advances p .sendEntries (sendNextEntries cfg index command successes peer rest p)
  | entriesReplied {index successes : Nat} {command : Bytes} {peer : NodeId}
      {args : AppendEntriesArgs} {rest : List NodeId} (result : RpcResult AppendEntriesReply) :
      p.pipeline = .awaiting index command successes peer args rest →
      Advances p (.entriesReplied result)
        (receiveEntriesReply lib cfg index command successes peer args rest result p)
  | closeReplication {index successes : Nat} {command : Bytes} :
      p.pipeline = .replicating index command successes [] →
      Advances p .closeReplication (endReplication lib cfg index command successes p)

variable {lib cfg} in
theorem advances_of_advance {action : Action} {p : Process} {next : Process × List Output}
    (h : advance lib cfg action p = some next) : Advances lib cfg p action next := by
  unfold advance at h
  split at h <;> try obtain rfl := Option.some.inj h
  · exact .boot _
  next heq => exact .start heq
  next heq =>
    split at h
    next hguard => exact Option.some.inj h ▸ .startElection heq hguard.1 hguard.2.1 hguard.2.2
    · cases h
  next heq => exact .sendRequestVote heq
  next heq => exact .voteReplied _ heq
  next heq => exact .closeElection heq
  next heq =>
    split at h
    next hguard => exact Option.some.inj h ▸ .startHeartbeat heq hguard.1 hguard.2.1 hguard.2.2
    · cases h
  · split at h
    next heq => exact Option.some.inj h ▸ .sendHeartbeat heq
    · cases h
  · split at h
    next heq => exact Option.some.inj h ▸ .heartbeatReplied _ heq
    · cases h
  · exact .requestVote _
  next heq => exact .appendEntries _ heq
  next heq => exact .callback heq
  next heq => exact .callbackReturned _ heq
  next heq => exact .finishDelivery heq
  next heq => exact .appendCommand _ heq
  next heq => exact .sendEntries heq
  next heq => exact .entriesReplied _ heq
  next heq => exact .closeReplication heq
  · cases h

/-! ## Threads -/

@[simp] theorem setBeat_host (thr : Thread) (beat : Beat) (p : Process) :
    (setBeat thr beat p).host = p.host := by
  cases thr with
  | worker => rfl
  | pipeline =>
    dsimp only [setBeat]
    split <;> rfl

@[simp] theorem endBeat_host (thr : Thread) (p : Process) : (endBeat thr p).1.host = p.host := by
  cases thr with
  | worker => rfl
  | pipeline =>
    dsimp only [endBeat]
    split <;> rfl

theorem beating_of_beat {p : Process} {b : Beat} (h : p.beat .pipeline = some b) :
    ∃ index cmd, p.pipeline = .beating index cmd b := by
  dsimp only [beat] at h
  split at h
  next index cmd _ hpipe =>
    cases h
    exact ⟨index, cmd, hpipe⟩
  · cases h

@[simp] theorem abandonDelivery_host (purpose : Purpose) (p : Process) :
    (abandonDelivery purpose p).1.host = p.host := by cases purpose <;> rfl

/-! ## Outputs -/

def emits : Action → Output → Bool
  | .boot _, .booted => true
  | .start, .leader _ => true
  | .startElection, .candidate _ => true
  | .sendRequestVote, .requestVote _ _ => true
  | .closeElection, .leader _ => true
  | .sendHeartbeat _, .appendEntries _ _ => true
  | .sendHeartbeat .pipeline, .appended _ _ => true
  | .heartbeatReplied _ _, .matched _ _ _ => true
  | .heartbeatReplied _ _, .committed _ => true
  | .heartbeatReplied .pipeline _, .appended _ _ => true
  | .requestVote _, .requestVoteReply _ _ => true
  | .appendEntries _, .appendEntriesReply _ _ _ => true
  | .callback, .applied _ _ => true
  | .callback, .appendEntriesReply _ _ _ => true
  | .callbackReturned _, .appendEntriesReply _ _ _ => true
  | .finishDelivery, .appendEntriesReply _ _ _ => true
  | .sendEntries, .appendEntries _ _ => true
  | .entriesReplied _, .matched _ _ _ => true
  | .closeReplication, .committed _ => true
  | _, _ => false

section Outputs

variable {lib cfg} {p : Process} {output : Output}

theorem mem_endBeat {thread : Thread} {p' : Process} {outputs : List Output}
    (h : endBeat thread p = (p', outputs)) (hout : output ∈ outputs) :
    thread = .pipeline ∧ ∃ index command beat, p.pipeline = .beating index command beat ∧
        output = .appended index command := by
  cases thread with
  | worker =>
    cases h
    cases hout
  | pipeline =>
    dsimp only [endBeat] at h
    split at h
    next heq =>
      cases h
      exact ⟨rfl, _, _, _, heq, mem_singleton.mp hout⟩
    · cases h
      cases hout

theorem mem_matchedOutput {peer : NodeId} {args : AppendEntriesArgs} {reply : AppendEntriesReply}
    {outcome : ReplyOutcome} (h : output ∈ matchedOutput peer args reply outcome) :
    outcome = .accepted ∧ output = .matched args.term peer reply.matchIndex := by
  unfold matchedOutput at h
  split at h
  next houtcome => exact ⟨houtcome, mem_singleton.mp h⟩
  · cases h

theorem mem_committedOutput {before after : Host} (h : output ∈ committedOutput before after) :
    before.node.commitIndex < after.node.commitIndex ∧
      output = .committed after.node.commitIndex := by
  rw [committedOutput, mem_ite_nil_right] at h
  exact h.imp_right mem_singleton.mp

theorem mem_abandonDelivery {purpose : Purpose} (h : output ∈ (abandonDelivery purpose p).2) :
    ∃ args reply log, output = .appendEntriesReply args reply log := by
  cases purpose with
  | reply => exact ⟨_, _, _, mem_singleton.mp h⟩
  | replay | catchUp | append => cases h

theorem callBack_cases (purpose : Purpose) (index : Nat) (entry : LogEntry)
    (rest : List (Nat × LogEntry)) (p : Process) :
    (purpose ≠ .replay ∧ callBack purpose index entry rest p = abandonDelivery purpose p) ∨
      ((purpose = .replay ∨ isNextToApply p.host.node index = true) ∧
        callBack purpose index entry rest p =
          ({ p with pipeline := .delivering purpose ((index, entry) :: rest) true },
            if p.host.node.applyCb then [.applied index entry] else [])) := by
  cases purpose with
  | replay => exact .inr ⟨.inl rfl, rfl⟩
  | _ =>
    cases hnext : isNextToApply p.host.node index with
    | false => exact .inl ⟨by simp, by simp [callBack, hnext]⟩
    | true => exact .inr ⟨.inr rfl, by simp [callBack, hnext]⟩

theorem mem_callBack {purpose : Purpose} {index : Nat} {entry : LogEntry}
    {rest : List (Nat × LogEntry)} (h : output ∈ (callBack purpose index entry rest p).2) :
    (∃ args reply log, output = .appendEntriesReply args reply log) ∨
      output = .applied index entry := by
  rcases callBack_cases purpose index entry rest p with ⟨_, hcase⟩ | ⟨_, hcase⟩ <;> rw [hcase] at h
  · exact .inl (mem_abandonDelivery h)
  · split at h
    · exact .inr (mem_singleton.mp h)
    · cases h

theorem mem_receiveBeat {thr : Thread} {peer : NodeId} {args : AppendEntriesArgs}
    {rest : List NodeId} {res : RpcResult AppendEntriesReply}
    (h : output ∈ (receiveBeat lib cfg thr peer args rest res p).2) :
    ∃ reply, res = .reply reply ∧
      (output ∈ matchedOutput peer args reply (receiveReply lib cfg peer args reply p.host).2 ∨
        output ∈ committedOutput p.host (heartbeatReply lib cfg peer args reply p.host).1 ∨
        (heartbeatReply lib cfg peer args reply p.host).2 = false ∧ output ∈ (endBeat thr
            { p with host := (heartbeatReply lib cfg peer args reply p.host).1 }).2) := by
  cases res with
  | empty | threw => cases h
  | reply reply =>
    refine ⟨reply, rfl, ?_⟩
    dsimp only [receiveBeat] at h
    split at h
    · exact (mem_append.mp h).imp_right .inl
    next hstop =>
      rcases mem_append.mp h with h | h
      · exact (mem_append.mp h).imp_right .inl
      · exact .inr (.inr ⟨by simpa using hstop, h⟩)

theorem emits_of_mem {action : Action} {next : Process × List Output}
    (h : Advances lib cfg p action next) (hout : output ∈ next.2) : emits action output = true := by
  cases h with
  | boot | sendRequestVote | requestVote => exact mem_singleton.mp hout ▸ rfl
  | start =>
    dsimp only [startNode] at hout
    split at hout
    · exact mem_singleton.mp hout ▸ rfl
    · cases hout
  | startElection hwork hrun hup =>
    have hcand :
        output ∈ [Output.candidate (startElection lib cfg p.host).1.node.currentTerm] := by
      unfold beginElection at hout
      generalize startElection lib cfg p.host = result at hout ⊢
      obtain ⟨host, request⟩ := result
      simp only [hup, if_true] at hout
      cases request <;> exact hout
    exact mem_singleton.mp hcand ▸ rfl
  | voteReplied | startHeartbeat | appendCommand => cases hout
  | closeElection =>
    dsimp only [endElection] at hout
    split at hout
    · exact mem_singleton.mp hout ▸ rfl
    · cases hout
  | sendHeartbeat =>
    unfold sendBeat at hout
    split at hout
    · obtain ⟨rfl, _, _, _, _, rfl⟩ := mem_endBeat rfl hout
      rfl
    · split at hout
      · obtain ⟨rfl, _, _, _, _, rfl⟩ := mem_endBeat rfl hout
        rfl
      · exact mem_singleton.mp hout ▸ rfl
  | heartbeatReplied =>
    obtain ⟨reply, _, hout | hout | ⟨_, hout⟩⟩ := mem_receiveBeat hout
    · obtain ⟨_, rfl⟩ := mem_matchedOutput hout
      rfl
    · obtain ⟨_, rfl⟩ := mem_committedOutput hout
      rfl
    · obtain ⟨rfl, _, _, _, _, rfl⟩ := mem_endBeat rfl hout
      rfl
  | appendEntries =>
    unfold receiveEntries at hout
    split at hout
    · exact mem_singleton.mp hout ▸ rfl
    · cases hout
  | callback => obtain ⟨_, _, _, rfl⟩ | rfl := mem_callBack hout <;> rfl
  | callbackReturned =>
    dsimp only [callbackDone] at hout
    split at hout
    · cases hout
    · split at hout
      · cases hout
      · obtain ⟨_, _, _, rfl⟩ := mem_abandonDelivery hout
        rfl
    · obtain ⟨_, _, _, rfl⟩ := mem_abandonDelivery hout
      rfl
  | @finishDelivery purpose inFlight hpipe =>
    cases purpose with
    | replay =>
      dsimp only [completeDelivery] at hout
      split at hout <;> cases hout
    | catchUp | append => cases hout
    | reply => exact mem_singleton.mp hout ▸ rfl
  | sendEntries =>
    unfold sendNextEntries at hout
    split at hout
    · cases hout
    · exact mem_singleton.mp hout ▸ rfl
  | entriesReplied result =>
    cases result with
    | empty | reply =>
      obtain ⟨_, rfl⟩ := mem_matchedOutput hout
      rfl
    | threw => cases hout
  | closeReplication =>
    obtain ⟨_, rfl⟩ := mem_committedOutput hout
    rfl

end Outputs

end Process

end BoostGateway.Raft
