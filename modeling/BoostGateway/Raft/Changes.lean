import BoostGateway.Raft.Sections
import BoostGateway.Raft.Process

/-!
# What a section can do to a node

Every section is made of a few kinds of change of the node, each with or without a save
(`HostStep`, `Process.hostSteps_of_advances`), and the local invariants look at these only. A change
names the inputs of its section (`Scope`), so that conditions on the inputs bear on it.
-/

namespace BoostGateway.Raft

/-- The node before a section and the inputs of the section. -/
structure Scope where
  before : RaftNode
  request : Option RequestVoteArgs := none
  message : Option AppendEntriesArgs := none
  command : Option Bytes := none
  report : Option (NodeId × AppendEntriesArgs × AppendEntriesReply) := none
  /-- The node starts. -/
  starts : Bool := false
  /-- An election starts. -/
  elects : Bool := false
  /-- The callback has returned. -/
  delivers : Bool := false
  /-- An RPC threw, or the callback did not accept an entry. -/
  fails : Bool := false

/-- A node about to take a message's entries, up to role and ballot. -/
structure Accepting (before : RaftNode) (args : AppendEntriesArgs) (node : RaftNode) : Prop where
  valid : isValidAppendEntries args = true
  healthy : node.healthy = true
  term : node.currentTerm = args.term
  later : before.currentTerm ≤ args.term
  log : node.log = before.log
  commitIndex : node.commitIndex = before.commitIndex
  lastApplied : node.lastApplied = before.lastApplied
  prevLogIndex : args.prevLogIndex ≤ node.log.length

/-- The changes that only a holder of the pipeline lock makes. -/
inductive LogChange (cfg : RaftConfig) (scope : Scope) (node : RaftNode) : RaftNode → Prop where
  | push {command : Bytes} :
      node = scope.before → scope.command = some command → node.healthy = true →
      node.state = .leader → command.length ≤ defaultLimits.maxCommandBytes →
      node.log.length < defaultLimits.maxLogEntries →
      LogChange cfg scope node (pushCommand cfg command node)
  | truncate {args : AppendEntriesArgs} :
      scope.message = some args → Accepting scope.before args node →
      0 < args.prevLogIndex → termAt node.log (args.prevLogIndex - 1) ≠ args.prevLogTerm →
      LogChange cfg scope node (truncateLog args.prevLogIndex node)
  | merge {args : AppendEntriesArgs} :
      scope.message = some args → Accepting scope.before args node →
      (0 < args.prevLogIndex → termAt node.log (args.prevLogIndex - 1) = args.prevLogTerm) →
      LogChange cfg scope node (mergeLog args node)
  | applied {index : Nat} :
      node = scope.before → scope.delivers = true → isNextToApply node index = true →
      LogChange cfg scope node { node with lastApplied := index }

inductive Change (cfg : RaftConfig) (scope : Scope) (node : RaftNode) : RaftNode → Prop where
  /-- Nothing changes that is saved or that an operation decides by. -/
  | note {node' : RaftNode} : node'.persistent = node.persistent → node'.healthy = node.healthy →
      node'.state = node.state → node'.nextIndex = node.nextIndex →
      node'.matchIndex = node.matchIndex → node'.applyCb = node.applyCb →
      Change cfg scope node node'
  | unhealthy (reason : Bytes) :
      scope.fails = true → Change cfg scope node (markUnhealthyLocked reason node)
  | later {term : Nat} : node = scope.before → node.healthy = true → node.currentTerm < term →
      Change cfg scope node (asFollower term node)
  /-- A candidate steps down for the leader of its own term. -/
  | follower {args : AppendEntriesArgs} :
      node = scope.before → scope.message = some args → isValidAppendEntries args = true →
      node.healthy = true → node.state = .candidate → node.currentTerm = args.term →
      Change cfg scope node (asFollower args.term node)
  | candidate : node = scope.before → node.healthy = true → scope.elects = true →
      Change cfg scope node (asCandidate cfg node)
  | vote {args : RequestVoteArgs} :
      scope.request = some args → isValidRequestVote args = true → node.healthy = true →
      node.currentTerm = args.term →
      (node.votedFor = none ∨ node.votedFor = some args.candidateId) →
      Change cfg scope node { node with votedFor := some args.candidateId }
  | leader :
      node = scope.before → node.state = .candidate → Change cfg scope node (asLeader cfg node)
  | lone : node = scope.before → scope.starts = true → node.healthy = true →
      cfg.allPeers = [cfg.nodeId] →
      Change cfg scope node (asLeader cfg { node with currentTerm := startTerm node })
  | backOff {peer : NodeId} :
      node = scope.before → node.state = .leader → Change cfg scope node (backOff peer node)
  | recordMatch {peer : NodeId} {args : AppendEntriesArgs} {reply : AppendEntriesReply} :
      node = scope.before → scope.report = some (peer, args, reply) →
      acceptsReply node args reply = true →
      Change cfg scope node (recordMatch peer reply.matchIndex node)
  | commit : node.state = .leader → Change cfg scope node (updateCommitIndexLocked cfg node)
  | log {node' : RaftNode} : LogChange cfg scope node node' → Change cfg scope node node'

/-- A saved change, an unsaved one, or a failed save. -/
inductive HostStep (lib : Libraries) (cfg : RaftConfig) (scope : Scope) : Host → Host → Prop where
  | write {host after : Host} {node : RaftNode} {ok : Bool} : Change cfg scope host.node node →
      persistStateLocked lib cfg { host with node } = (after, ok) →
      HostStep lib cfg scope host after
  | set {host : Host} {node : RaftNode} :
      Change cfg scope host.node node → node.persistent = host.node.persistent →
      HostStep lib cfg scope host { host with node }
  | takeBack {host : Host} : scope.delivers = true → host.node.healthy = false →
      HostStep lib cfg scope host
        { host with node := { host.node with lastApplied := scope.before.lastApplied } }

abbrev HostSteps (lib : Libraries) (cfg : RaftConfig) (scope : Scope) : Host → Host → Prop :=
  Relation.ReflTransGen (HostStep lib cfg scope)

/-! ## Invariants of sections -/

section Invariants

variable {lib : Libraries} {cfg : RaftConfig} {scope : Scope} {host after : Host}
variable {motive : RaftNode → Prop}

section

variable (hchange : ∀ node node', Change cfg scope node node' → motive node → motive node')
  (hunhealthy : ∀ reason node, motive node → motive (markUnhealthyLocked reason node))
  (htakeBack : scope.delivers = true → ∀ node, node.healthy = false → motive node →
    motive { node with lastApplied := scope.before.lastApplied })

include hchange hunhealthy htakeBack

/-- What changes and failed saves keep holds after a section, and of the file where it implies so.
-/
theorem HostSteps.invariant_stored (stored : RaftPersistentState → Prop)
    (hsaved : ∀ node, node.healthy = true → motive node → stored node.persistent)
    (h : HostSteps lib cfg scope host after) (hhost : motive host.node)
    (hdur : stored host.durable) : motive after.node ∧ stored after.durable := by
  induction h with
  | refl => exact ⟨hhost, hdur⟩
  | @tail mid after _ hstep ih =>
    cases hstep with
    | @write _ node ok hnode hsave =>
      have hnode := hchange _ _ hnode ih.1
      refine ⟨?_, ?_⟩
      · rcases persistStateLocked_node hsave with hsame | ⟨reason, hfail⟩
        · rwa [hsame]
        · rw [hfail]
          exact hunhealthy reason node hnode
      · rcases persistStateLocked_durable hsave with hsame | ⟨hup, hwrite⟩
        · rw [hsame]
          exact ih.2
        · rw [hwrite]
          exact hsaved node hup hnode
    | set hnode => exact ⟨hchange _ _ hnode ih.1, ih.2⟩
    | takeBack hdeliv hfail => exact ⟨htakeBack hdeliv _ hfail ih.1, ih.2⟩

theorem HostSteps.invariant (h : HostSteps lib cfg scope host after) (hhost : motive host.node) :
    motive after.node :=
  (h.invariant_stored hchange hunhealthy htakeBack (fun _ => True) (fun _ _ _ => trivial) hhost
    trivial).1

end

structure Framed (before after : RaftNode) : Prop where
  log : after.log = before.log
  lastApplied : after.lastApplied = before.lastApplied
  commitIndex : before.commitIndex ≤ after.commitIndex

theorem Framed.of_persistent {before after : RaftNode}
    (h : after.persistent = before.persistent) : Framed before after where
  log := congrArg RaftPersistentState.log h
  lastApplied := congrArg RaftPersistentState.lastApplied h
  commitIndex := Nat.le_of_eq (congrArg RaftPersistentState.commitIndex h).symm

theorem Framed.markUnhealthy (reason : Bytes) (node : RaftNode) :
    Framed node (markUnhealthyLocked reason node) :=
  .of_persistent (markUnhealthyLocked_persistent reason node)

theorem Change.framed_or_log {node node' : RaftNode} (h : Change cfg scope node node') :
    Framed node node' ∨ LogChange cfg scope node node' := by
  cases h with
  | note hpers => exact .inl (.of_persistent hpers)
  | unhealthy reason => exact .inl (.markUnhealthy reason node)
  | commit =>
    exact .inl ⟨updateCommitIndexLocked_log cfg node,
      updateCommitIndexLocked_lastApplied cfg node, le_updateCommitIndexLocked cfg node⟩
  | log hlog => exact .inr hlog
  | _ => exact .inl ⟨rfl, rfl, le_rfl⟩

theorem Change.healthy_before {node node' : RaftNode} (h : Change cfg scope node node')
    (hup : node'.healthy = true) : node.healthy = true := by
  cases h with
  | note _ hsame => exact hsame ▸ hup
  | unhealthy =>
    rw [markUnhealthyLocked_healthy] at hup
    cases hup
  | commit => exact updateCommitIndexLocked_healthy cfg node ▸ hup
  | log hlog => cases hlog <;> exact hup
  | _ => exact hup

section

variable (h : HostSteps lib cfg scope host after)

include h

/-- Only messages and commands change the log. -/
theorem HostSteps.log (hmsg : scope.message = none) (hcmd : scope.command = none) :
    after.node.log = host.node.log ∧ host.node.commitIndex ≤ after.node.commitIndex := by
  refine h.invariant (motive := fun node => node.log = host.node.log ∧
    host.node.commitIndex ≤ node.commitIndex) ?_ ?_ ?_ ⟨rfl, le_rfl⟩
  · intro node node' hchange hnode
    rcases hchange.framed_or_log with hframe | hlog
    · exact ⟨hframe.log.trans hnode.1, hnode.2.trans hframe.commitIndex⟩
    cases hlog with
    | push _ hsome => simp [hcmd] at hsome
    | truncate hsome | merge hsome => simp [hmsg] at hsome
    | applied => exact hnode
  · intro reason node hnode
    have hframe := Framed.markUnhealthy reason node
    exact ⟨hframe.log.trans hnode.1, hnode.2.trans hframe.commitIndex⟩
  · exact fun _ _ _ hnode => hnode

theorem HostSteps.lastApplied (hmsg : scope.message = none) (hdeliv : scope.delivers = false) :
    after.node.lastApplied = host.node.lastApplied := by
  refine h.invariant (motive := fun node => node.lastApplied = host.node.lastApplied) ?_ ?_ ?_ rfl
  · intro node node' hchange hnode
    rcases hchange.framed_or_log with hframe | hlog
    · exact hframe.lastApplied.trans hnode
    cases hlog with
    | push => exact hnode
    | truncate hsome | merge hsome => simp [hmsg] at hsome
    | applied _ htrue => simp [hdeliv] at htrue
  · exact fun reason node hnode => (Framed.markUnhealthy reason node).lastApplied.trans hnode
  · intro htrue
    simp [hdeliv] at htrue

theorem HostSteps.applyCb : after.node.applyCb = host.node.applyCb := by
  refine h.invariant (motive := fun node => node.applyCb = host.node.applyCb) ?_ ?_ ?_ rfl
  · intro node node' hchange hnode
    rw [← hnode]
    cases hchange with
    | note _ _ _ _ _ hcallback => exact hcallback
    | unhealthy reason => exact markUnhealthyLocked_applyCb reason node
    | commit => exact updateCommitIndexLocked_applyCb cfg node
    | log hlog => cases hlog <;> rfl
    | _ => rfl
  · intro reason node hnode
    rw [markUnhealthyLocked_applyCb, hnode]
  · exact fun _ _ _ hnode => hnode

theorem HostSteps.healthy_of (hafter : after.node.healthy = true) : host.node.healthy = true := by
  refine h.invariant (motive := fun node => node.healthy = true → host.node.healthy = true)
    ?_ ?_ ?_ id hafter
  · exact fun node node' hchange hnode hafter => hnode (hchange.healthy_before hafter)
  · intro reason node _ hafter
    rw [markUnhealthyLocked_healthy] at hafter
    cases hafter
  · exact fun _ _ _ hnode => hnode

end

end Invariants

section Sections

variable {lib : Libraries} {cfg : RaftConfig} {scope : Scope} {host after : Host} {ok : Bool}

theorem HostSteps.note {node : RaftNode} (hpers : node.persistent = host.node.persistent)
    (hup : node.healthy = host.node.healthy) (hst : node.state = host.node.state)
    (hnext : node.nextIndex = host.node.nextIndex) (hmatch : node.matchIndex = host.node.matchIndex)
    (hcallback : node.applyCb = host.node.applyCb) :
    HostSteps lib cfg scope host { host with node } :=
  .single (.set (.note hpers hup hst hnext hmatch hcallback) hpers)

theorem HostSteps.later {term : Nat} (hpre : host.node = scope.before)
    (hup : host.node.healthy = true) (hlt : host.node.currentTerm < term)
    (h : becomeFollower lib cfg term host = (after, ok)) : HostSteps lib cfg scope host after :=
  .single (.write (.later hpre hup hlt) h)

theorem HostSteps.unhealthy (reason : Bytes) (hfails : scope.fails = true) :
    HostSteps lib cfg scope host { host with node := markUnhealthyLocked reason host.node } :=
  .single (.set (.unhealthy reason hfails) (markUnhealthyLocked_persistent _ _))

/-! ## Elections -/

variable (lib cfg)

theorem startElection_hostSteps (host : Host) :
    HostSteps lib cfg { before := host.node, elects := true } host
      (startElection lib cfg host).1 := by
  fun_cases startElection lib cfg host with
  | case1 => exact .refl
  | case2 hup node saved hsave | case3 hup node saved hsave =>
    exact .single (.write (.candidate rfl (by simpa using hup) rfl) hsave)

theorem countVote_hostSteps (args : RequestVoteArgs) (reply : RequestVoteReply) (host : Host) :
    HostSteps lib cfg { before := host.node } host (countVote lib cfg args reply host).1 := by
  fun_cases countVote lib cfg args reply host with
  | case1 | case4 => exact .refl
  | case2 hguard hlt =>
    simp only [not_or, Decidable.not_not] at hguard
    exact .later rfl (by simpa using hguard.1) hlt rfl
  | case3 => exact .note rfl rfl rfl rfl rfl rfl

theorem closeElection_hostSteps (host : Host) :
    HostSteps lib cfg { before := host.node } host (closeElection lib cfg host) := by
  fun_cases closeElection lib cfg host with
  | case1 hwins =>
    simp only [winsElection, Bool.and_eq_true, decide_eq_true_eq] at hwins
    exact .single (.write (.leader rfl hwins.1) rfl)
  | case2 => exact .refl

theorem castVote_hostSteps {args : RequestVoteArgs}
    (hreq : scope.request = some args) (hval : isValidRequestVote args = true)
    (hup : host.node.healthy = true) (hterm : host.node.currentTerm = args.term) :
    HostSteps lib cfg scope host (castVote lib cfg args host).1 := by
  dsimp only [castVote]
  split
  next hvotes => exact .single (.write (.vote hreq hval hup hterm hvotes.1) rfl)
  · exact .refl

theorem handleRequestVote_hostSteps (args : RequestVoteArgs) (host : Host) :
    HostSteps lib cfg { before := host.node, request := some args } host
      (handleRequestVote lib cfg args host).1 := by
  fun_cases handleRequestVote lib cfg args host with
  | case1 | case2 => exact .refl
  | case3 hguard _ hlt mid hdown =>
    obtain ⟨hup, hval⟩ : host.node.healthy = true ∧ isValidRequestVote args = true := by
      simpa [not_or] using hguard
    have hkept := persistStateLocked_kept hdown hup
    exact (HostSteps.later rfl hup hlt hdown).trans
      (castVote_hostSteps lib cfg rfl hval (hkept.healthy hup) hkept.currentTerm)
  | case4 _ hguard _ hlt mid hdown =>
    simp only [not_or] at hguard
    exact .later rfl (by simpa using hguard.1) hlt hdown
  | case5 hguard =>
    obtain ⟨hup, hval⟩ : host.node.healthy = true ∧ isValidRequestVote args = true := by
      simpa [not_or] using hguard
    exact castVote_hostSteps lib cfg rfl hval hup (by omega)

/-! ## Replication -/

variable {args : AppendEntriesArgs}

theorem receiveReply_hostSteps {peer : NodeId}
    {reply : AppendEntriesReply} (hpre : host.node = scope.before)
    (hreport : acceptsReply host.node args reply = true → scope.report = some (peer, args, reply)) :
    HostSteps lib cfg scope host (receiveReply lib cfg peer args reply host).1 := by
  fun_cases receiveReply lib cfg peer args reply host with
  | case1 => exact .refl
  | case2 hguard hlt =>
    simp only [not_or, Decidable.not_not] at hguard
    exact .later hpre (by simpa using hguard.1) hlt rfl
  | case3 hguard hle hsucc =>
    have hacc : acceptsReply host.node args reply = true := by
      simp only [not_or, Decidable.not_not, Bool.not_eq_true'] at hguard
      simp [acceptsReply, hguard, hsucc, Nat.not_lt.mp hle]
    exact .single (.set (.recordMatch hpre (hreport hacc) hacc) rfl)
  | case4 hguard =>
    simp only [not_or, Decidable.not_not] at hguard
    exact .single (.set (.backOff hpre hguard.2.1) rfl)

theorem heartbeatReply_hostSteps (peer : NodeId) (args : AppendEntriesArgs)
    (reply : AppendEntriesReply) (host : Host) :
    HostSteps lib cfg { before := host.node, report := some (peer, args, reply) } host
      (heartbeatReply lib cfg peer args reply host).1 := by
  have hreceived : HostSteps lib cfg { before := host.node, report := some (peer, args, reply) }
      host (receiveReply lib cfg peer args reply host).1 :=
    receiveReply_hostSteps lib cfg rfl (fun _ => rfl)
  fun_cases heartbeatReply lib cfg peer args reply host with
  | case1 mid hres | case2 mid hres =>
    rw [hres] at hreceived
    exact hreceived
  | case3 mid hres =>
    obtain ⟨hacc, hmid⟩ := receiveReply_of_accepted (congrArg Prod.snd hres)
    rw [hres] at hmid hreceived
    subst hmid
    simp only [acceptsReply, Bool.and_eq_true, decide_eq_true_eq] at hacc
    exact hreceived.tail (.write (.commit hacc.1.1.1.2) rfl)

def storesCommand (node : RaftNode) (command : Bytes) : Bool :=
  node.healthy && node.state = .leader && command.length ≤ defaultLimits.maxCommandBytes &&
    node.log.length < defaultLimits.maxLogEntries

theorem appendCommand_hostSteps (cmd : Bytes) (host : Host) :
    HostSteps lib cfg { before := host.node, command := some cmd } host
      (appendCommand lib cfg cmd host).1 := by
  fun_cases appendCommand lib cfg cmd host with
  | case1 => exact .refl
  | case2 hguard =>
    simp only [not_or, Decidable.not_not, Nat.not_lt, Nat.not_le] at hguard
    have hup : host.node.healthy = true := by simpa using hguard.1
    exact .single (.write (.log (.push rfl rfl hup hguard.2.1 hguard.2.2.1 hguard.2.2.2)) rfl)

theorem commitAppended_hostSteps (succ : Nat) (host : Host) :
    HostSteps lib cfg { before := host.node } host (commitAppended lib cfg succ host).1 := by
  fun_cases commitAppended lib cfg succ host with
  | case1 => exact .refl
  | case2 hguard node _ saved hsave | case3 hguard node saved hsave =>
    simp only [not_or, Decidable.not_not] at hguard
    exact .single (.write (.commit hguard.2.1) hsave)

theorem acceptEntries_hostSteps (reply : AppendEntriesReply) (hmsg : scope.message = some args)
    (hacc : args.prevLogIndex ≤ host.node.log.length → Accepting scope.before args host.node) :
    HostSteps lib cfg scope host (acceptEntries lib cfg args reply host).1 := by
  have hnote : HostSteps lib cfg scope host
      { host with node := { host.node with leaderId := args.leaderId } } :=
    .note rfl rfl rfl rfl rfl rfl
  dsimp only [acceptEntries]
  split
  · exact hnote
  next hlong =>
  have hacc : Accepting scope.before args
      { host.node with leaderId := args.leaderId } :=
    { hacc (Nat.not_lt.mp hlong) with }
  split
  next hmismatch =>
    exact hnote.tail (.write (.log (.truncate hmsg hacc hmismatch.1 hmismatch.2)) rfl)
  next hmatch =>
  split
  all_goals
    next saved hsave =>
      exact hnote.tail (.write (.log (.merge hmsg hacc (by simpa using hmatch))) hsave)

theorem handleAppendEntries_hostSteps (args : AppendEntriesArgs) (host : Host) :
    HostSteps lib cfg { before := host.node, message := some args } host
      (handleAppendEntries lib cfg args host).1 := by
  have hcheck (h : ¬(!host.node.healthy ∨ !isValidAppendEntries args)) :
      host.node.healthy = true ∧ isValidAppendEntries args = true := by simpa [not_or] using h
  have hfollower {middle : Host} {ok : Bool} (hle : ¬args.term < host.node.currentTerm)
      (hguard : ¬(!host.node.healthy ∨ !isValidAppendEntries args))
      (hstep : host.node.currentTerm < args.term ∨ host.node.state = .candidate)
      (hdown : becomeFollower lib cfg args.term host = (middle, ok)) :
      HostSteps lib cfg { before := host.node, message := some args } host middle := by
    obtain ⟨hup, hval⟩ := hcheck hguard
    rcases Nat.lt_or_ge host.node.currentTerm args.term with hlt | hge
    · exact .later rfl hup hlt hdown
    · exact .single (.write (.follower rfl rfl hval hup
        (hstep.resolve_left (by omega)) (by omega)) hdown)
  fun_cases handleAppendEntries lib cfg args host with
  | case1 | case2 => exact .refl
  | case3 reply hguard hle hstep middle hdown =>
    obtain ⟨hup, hval⟩ := hcheck hguard
    have hkept := persistStateLocked_kept hdown hup
    refine (hfollower hle hguard hstep hdown).trans
      (acceptEntries_hostSteps lib cfg reply rfl fun hprev => ?_)
    exact
      { valid := hval
        healthy := hkept.healthy hup
        term := hkept.currentTerm
        later := Nat.not_lt.mp hle
        log := hkept.log
        commitIndex := hkept.commitIndex
        lastApplied := congrArg RaftPersistentState.lastApplied hkept.persistent
        prevLogIndex := hprev }
  | case4 reply hguard hle hstep middle hdown => exact hfollower hle hguard hstep hdown
  | case5 reply hguard hle hstep =>
    obtain ⟨hup, hval⟩ := hcheck hguard
    have hterm : host.node.currentTerm = args.term := by omega
    exact acceptEntries_hostSteps lib cfg reply rfl fun hprev =>
      ⟨hval, hup, hterm, Nat.not_lt.mp hle, rfl, rfl, rfl, hprev⟩

/-! ## Applying and starting -/

theorem markApplied_hostSteps {index : Nat}
    (hpre : host.node = scope.before) (hdeliv : scope.delivers = true) :
    HostSteps lib cfg scope host (markApplied lib cfg index host).1 := by
  have hwrite {saved : Host} {ok : Bool} (hnext : ¬(!isNextToApply host.node index) = true)
      (hsave : persistStateLocked lib cfg
        { host with node := { host.node with lastApplied := index } } = (saved, ok)) :
      HostStep lib cfg scope host saved :=
    .write (.log (.applied hpre hdeliv (by simpa using hnext))) hsave
  fun_cases markApplied lib cfg index host with
  | case1 => exact .refl
  | case2 hnext saved hsave => exact .single (hwrite hnext hsave)
  | case3 hnext previous saved hsave =>
    have hup := healthy_of_isNextToApply hnext
    have hunhealthy : saved.node.healthy = false := (persistStateLocked_kept hsave hup).healthy hup
    have hprevious : previous = scope.before.lastApplied := congrArg RaftNode.lastApplied hpre
    rw [hprevious]
    exact (Relation.ReflTransGen.single (hwrite hnext hsave)).tail (.takeBack hdeliv hunhealthy)

theorem failApply_hostSteps (action : String) (index : Nat)
    (verd : Verdict) (hfails : scope.fails = true) :
    HostSteps lib cfg scope host { host with node := failApply action index verd host.node } := by
  have hnote : HostSteps lib cfg scope host
      { host with node := { host.node with failedApplyIndex := some index } } :=
    .note rfl rfl rfl rfl rfl rfl
  exact hnote.trans (HostSteps.unhealthy _ hfails)

theorem start_hostSteps (host : Host) :
    HostSteps lib cfg { before := host.node, starts := true } host (start lib cfg host) := by
  unfold start
  split
  · exact .refl
  next hguard =>
  simp only [not_or] at hguard
  have hup : host.node.healthy = true := by simpa using hguard.2
  generalize hsave : initialPersistence lib cfg host = result
  obtain ⟨saved, ok⟩ := result
  have hwrite : HostSteps lib cfg { before := host.node, starts := true } host saved := by
    unfold initialPersistence at hsave
    split at hsave
    next hone => exact .single (.write (.lone rfl rfl hup hone) hsave)
    · exact .single (.write (.note rfl rfl rfl rfl rfl rfl) hsave)
  cases ok with
  | true => exact hwrite.trans (HostSteps.note rfl rfl rfl rfl rfl rfl)
  | false => exact hwrite

end Sections

/-! ## Steps -/

namespace Process

/-- The reply that counts, with its message. -/
def report (p : Process) : Action → Option (NodeId × AppendEntriesArgs × AppendEntriesReply)
  | .heartbeatReplied thread (.reply reply) =>
    match p.beat thread with
    | some (.awaiting peer args _) => some (peer, args, reply)
    | _ => none
  | .entriesReplied (.reply reply) =>
    match p.pipeline with
    | .awaiting _ _ _ peer args _ => some (peer, args, reply)
    | _ => none
  | _ => none

def scope (p : Process) (action : Action) : Scope :=
  let scope : Scope := { before := p.host.node, report := p.report action }
  match action with
  | .start => { scope with starts := true }
  | .startElection => { scope with elects := true }
  | .voteReplied (.threw _) => { scope with fails := true }
  | .heartbeatReplied _ (.threw _) => { scope with fails := true }
  | .requestVote args => { scope with request := some args }
  | .appendEntries args => { scope with message := some args }
  | .callbackReturned verdict =>
    { scope with delivers := true, fails := verdict ≠ .accepted }
  | .appendCommand command => { scope with command := some command }
  | _ => scope

/-- What a scope says comes from the action. -/
structure Scoped (p : Process) (action : Action) (scope : Scope) : Prop where
  before : scope.before = p.host.node
  report : scope.report = p.report action
  message {args : AppendEntriesArgs} : scope.message = some args → action = .appendEntries args
  command {command : Bytes} : scope.command = some command → action = .appendCommand command
  request {args : RequestVoteArgs} : scope.request = some args → action = .requestVote args
  starts : scope.starts = true → action = .start
  elects : scope.elects = true → action = .startElection
  delivers : scope.delivers = true → ∃ verdict, action = .callbackReturned verdict

theorem scope_spec (p : Process) (action : Action) : Scoped p action (p.scope action) := by
  dsimp only [scope]
  split <;> constructor <;> simp

section Scoped

variable (p : Process) {action : Action}

theorem scope_message (h : ∀ args, action ≠ .appendEntries args) :
    (p.scope action).message = none :=
  Option.eq_none_iff_forall_ne_some.mpr fun args hsome =>
    h args ((p.scope_spec action).message hsome)

theorem scope_command (h : ∀ cmd, action ≠ .appendCommand cmd) : (p.scope action).command = none :=
  Option.eq_none_iff_forall_ne_some.mpr fun cmd hsome =>
    h cmd ((p.scope_spec action).command hsome)

theorem scope_request (h : ∀ args, action ≠ .requestVote args) : (p.scope action).request = none :=
  Option.eq_none_iff_forall_ne_some.mpr fun args hsome =>
    h args ((p.scope_spec action).request hsome)

theorem scope_starts (h : action ≠ .start) : (p.scope action).starts = false :=
  Bool.eq_false_iff.mpr (mt (p.scope_spec action).starts h)

theorem scope_elects (h : action ≠ .startElection) : (p.scope action).elects = false :=
  Bool.eq_false_iff.mpr (mt (p.scope_spec action).elects h)

theorem scope_delivers (h : ∀ verd, action ≠ .callbackReturned verd) :
    (p.scope action).delivers = false :=
  Bool.eq_false_iff.mpr (mt (p.scope_spec action).delivers (not_exists.mpr h))

end Scoped

variable {action : Action}

variable {lib : Libraries} {cfg : RaftConfig} {p : Process}

/-- Every section but the first is made of these changes. -/
theorem hostSteps_of_advances {next : Process × List Output} (h : Advances lib cfg p action next)
    (hboot : ∀ callback, action ≠ .boot callback) :
    HostSteps lib cfg (p.scope action) p.host next.1.host := by
  cases h with
  | boot callback => exact absurd rfl (hboot callback)
  | start => exact start_hostSteps lib cfg p.host
  | startElection =>
    have hsteps := startElection_hostSteps lib cfg p.host
    fun_cases beginElection lib cfg p with
    | case1 host _ args hres | case2 host _ hres =>
      rw [hres] at hsteps
      exact hsteps
  | sendRequestVote | startHeartbeat => exact .refl
  | voteReplied result =>
    cases result with
    | empty | reply => exact countVote_hostSteps lib cfg _ _ p.host
    | threw => exact .unhealthy _ rfl
  | closeElection => exact closeElection_hostSteps lib cfg p.host
  | @sendHeartbeat thread targets hbeat =>
    fun_cases sendBeat cfg thread targets p with
    | case1 | case2 => rw [endBeat_host]
    | case3 => rw [setBeat_host]
  | @heartbeatReplied thread peer args rest result hbeat =>
    cases result with
    | empty =>
      dsimp only [receiveBeat]
      rw [setBeat_host]
    | threw =>
      cases thread with
      | worker => exact .unhealthy _ rfl
      | pipeline => exact .refl
    | reply reply =>
      have hsteps := heartbeatReply_hostSteps lib cfg peer args reply p.host
      have hscope : p.scope (.heartbeatReplied thread (.reply reply)) =
          { before := p.host.node, report := some (peer, args, reply) } := by
        simp [scope, report, hbeat]
      rw [hscope]
      dsimp only [receiveBeat]
      split
      · rwa [setBeat_host]
      · rwa [endBeat_host]
  | requestVote args => exact handleRequestVote_hostSteps lib cfg args p.host
  | appendEntries args =>
    have hsteps := handleAppendEntries_hostSteps lib cfg args p.host
    fun_cases receiveEntries lib cfg args p with
    | case1 host reply hres | case2 host reply applied hres =>
      rw [hres] at hsteps
      exact hsteps
  | @callback purpose index entry rest hpipe =>
    rcases callBack_cases purpose index entry rest p with ⟨_, hcase⟩ | ⟨_, hcase⟩
    · rw [hcase, abandonDelivery_host]
    · rw [hcase]
  | @callbackReturned purpose index entry rest verdict hpipe =>
    dsimp only [callbackDone]
    split
    · exact .refl
    · have hsteps : HostSteps lib cfg (p.scope (.callbackReturned verdict)) p.host
          (markApplied lib cfg index p.host).1 := markApplied_hostSteps lib cfg rfl rfl
      split
      next hres =>
        rw [hres] at hsteps
        exact hsteps
      next hres =>
        rw [hres] at hsteps
        rwa [abandonDelivery_host]
    next hrefused _ =>
      rw [abandonDelivery_host]
      have hverdict : verdict ≠ .accepted := by
        rintro rfl
        exact hrefused (ite_self _)
      exact failApply_hostSteps lib cfg _ _ _ (decide_eq_true hverdict)
  | @finishDelivery purpose inFlight hpipe =>
    cases purpose with
    | replay =>
      dsimp only [completeDelivery]
      split <;> exact .refl
    | catchUp | reply | append => exact .refl
  | appendCommand command =>
    have hsteps := appendCommand_hostSteps lib cfg command p.host
    fun_cases beginAppend lib cfg command p with
    | case1 host hres | case2 host hres =>
      rw [hres] at hsteps
      exact hsteps
  | sendEntries =>
    unfold sendNextEntries
    split <;> exact .refl
  | @entriesReplied index successes command peer args rest result hpipe =>
    cases result with
    | empty =>
      refine receiveReply_hostSteps lib cfg rfl fun hacc => ?_
      simp [acceptsReply] at hacc
    | reply =>
      refine receiveReply_hostSteps lib cfg rfl fun _ => ?_
      simp [scope, report, hpipe]
    | threw => exact .refl
  | @closeReplication index successes command hpipe =>
    exact commitAppended_hostSteps lib cfg successes p.host

end Process

end BoostGateway.Raft
