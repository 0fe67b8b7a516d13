import BoostGateway.Raft.Leading

/-!
# Threads refine the record

`ProcRel` adds to `HostRel` what the threads of a node rely on between two sections, and `Sent` is
what the record says of an output. Each section of each thread keeps both (`Refines`): those of
elections here, the other ones in `Pipeline`.
-/

namespace BoostGateway.Raft

open List Consensus Consensus.Replicas

def putOut (v : NodeId) (outputs : List Output) (history : List (NodeId × Output)) :
    List (NodeId × Output) :=
  history ++ outputs.map (fun output => (v, output))

theorem mem_putOut {u v : NodeId} {output : Output} {outputs : List Output}
    {history : List (NodeId × Output)} :
    (u, output) ∈ putOut v outputs history ↔ (u, output) ∈ history ∨ u = v ∧ output ∈ outputs := by
  simp only [putOut, mem_append, mem_map, Prod.mk.injEq]
  constructor
  · rintro (hold | ⟨_, hout, rfl, rfl⟩)
    · exact .inl hold
    · exact .inr ⟨rfl, hout⟩
  · rintro (hold | ⟨rfl, hout⟩)
    · exact .inl hold
    · exact .inr ⟨output, hout, rfl, rfl⟩

theorem subset_putOut (v : NodeId) (outputs : List Output) (history : List (NodeId × Output)) :
    history ⊆ putOut v outputs history :=
  subset_append_left _ _

def matchedBy (history : List (NodeId × Output)) (v : NodeId) (t : Nat) (p : NodeId) (i : Nat) :
    Prop :=
  (v, Output.matched t p i) ∈ history

section Definitions

variable (level : Level) (setup : ClusterConfig) (history : List (NodeId × Output)) (a : Record)
  (v : NodeId)

def Targets (targets : List NodeId) : Prop := ∀ p ∈ targets, p ∈ setup.peers ∧ p ≠ v

/-- A candidate's votes are of different nodes, not asked again. -/
structure Campaign (node : RaftNode) (args : RequestVoteArgs) (targets : List NodeId) : Prop where
  candidate : args.candidateId = v
  bound : args.term < 2 ^ 64
  reachable : Targets setup v targets
  nodup : targets.Nodup
  voters : node.state = .candidate →
    args.term = node.currentTerm ∧ args.lastLogTerm = lastTerm LogEntry.term node.log ∧
      args.lastLogIndex = node.log.length ∧
      ∃ voters : Finset NodeId, voters ⊆ setup.members ∧ node.votesReceived ≤ voters.card ∧
        (∀ p ∈ targets, p ∉ voters) ∧
        ∀ u ∈ voters, a.vote u args.term v args.lastLogTerm args.lastLogIndex

def BeatOk : Beat → Prop
  | .ready targets => Targets setup v targets
  | .awaiting peer _ rest => Targets setup v (peer :: rest)

def WorkerOk (node : RaftNode) : Worker → Prop
  | .idle => True
  | .electing args targets => Campaign setup a v node args targets
  | .awaitingVote args peer rest => Campaign setup a v node args (peer :: rest)
  | .beating beat => BeatOk setup v beat

def PurposeOk (log : List LogEntry) : Purpose → Prop
  | .reply args reply => reply.term < 2 ^ 64 ∧ ReplyOk level a v args reply log
  | _ => True

def PendingOk (pending : List (Nat × LogEntry)) : Prop :=
  level.commits → ∀ index entry, (index, entry) ∈ pending → CommittedEntry setup a index entry

/-- What the holder of the pipeline lock relies on. -/
def PipelineOk (log : List LogEntry) : Pipeline → Prop
  | .free => True
  | .starting => True
  | .delivering purpose pending _ =>
    PendingOk level setup a pending ∧ PurposeOk level a v log purpose
  | .replicating _ _ _ targets => Targets setup v targets
  | .awaiting _ _ _ peer _ rest => Targets setup v (peer :: rest)
  | .beating _ _ beat => BeatOk setup v beat

structure ProcRel (p : Process) : Prop where
  host : HostRel level setup (matchedBy history v) a v p.host
  worker : WorkerOk setup a v p.host.node p.worker
  pipeline : PipelineOk level setup a v p.host.node.log p.pipeline

def Sent : Output → Prop
  | .requestVote peer args => args.candidateId = v ∧ v ≠ peer ∧ args.term < 2 ^ 64
  | .requestVoteReply args reply =>
    reply.term < 2 ^ 64 ∧ (reply.voteGranted = true →
        a.vote v args.term args.candidateId args.lastLogTerm args.lastLogIndex)
  | .appendEntries peer args => Genuine level setup a peer args ∧ args.term < 2 ^ 64
  | .appendEntriesReply args reply log =>
    reply.term < 2 ^ 64 ∧ ReplyOk level a v args reply log
  | .leader term => a.leader term = some v ∨ setup.peers = [v]
  | .matched term peer index =>
    a.leader term = some v ∧ peer ∈ setup.peers ∧ peer ≠ v ∧
      ∃ args reply log, (peer, Output.appendEntriesReply args reply log) ∈ history ∧
        reply.success = true ∧ args.term = term ∧ reply.matchIndex = index
  | .applied index entry => level.commits → CommittedEntry setup a index entry
  | .booted | .candidate _ | .committed _ | .appended _ _ => True

def Network : Prop := ∀ src output, (src, output) ∈ history →
    src ∈ setup.peers ∧ Sent level setup history a src output

structure Refines (p : Process) (outputs : List Output) (a' : Record) : Prop where
  steps : StepsBy setup.members LogEntry.term v a a'
  proc : ProcRel level setup (putOut v outputs history) a' v p
  sent : ∀ output ∈ outputs, Sent level setup (putOut v outputs history) a' v output

end Definitions

section Frames

variable {level : Level} {setup : ClusterConfig} {history : List (NodeId × Output)}
  {a a' : Record} {v : NodeId}

/-! ## Frames -/

theorem matchedBy_putOut (outputs : List Output) (t : Nat) (p : NodeId) (i : Nat) :
    matchedBy (putOut v outputs history) v t p i ↔
      matchedBy history v t p i ∨ Output.matched t p i ∈ outputs := by simp [matchedBy, putOut]

variable {u : NodeId} {outputs : List Output} {node node' : RaftNode} {log : List LogEntry}

theorem matchedBy_putOut_of_ne (h : u ≠ v) (outputs : List Output) :
    matchedBy (putOut v outputs history) u = matchedBy history u := by
  funext t p i
  simp [matchedBy, putOut, h.symm]

theorem matchedBy_putOut_of_unmatched (h : ∀ t p i, Output.matched t p i ∉ outputs) :
    matchedBy (putOut v outputs history) v = matchedBy history v := by
  funext t p i
  simp [matchedBy_putOut, h]

theorem Campaign.standing {args : RequestVoteArgs} {targets : List NodeId}
    (h : Campaign setup a v node args targets) (hext : Extends a a') (hnode : Standing node node') :
    Campaign setup a' v node' args targets where
  candidate := h.candidate
  bound := h.bound
  reachable := h.reachable
  nodup := h.nodup
  voters hst := by
    obtain ⟨hold, hterm, hlog, hvotes⟩ := hnode hst
    obtain ⟨hargs, hlast, hlen, voters, hmems, hcard, hpend, hcast⟩ := h.voters hold
    rw [hterm, hlog, hvotes]
    exact ⟨hargs, hlast, hlen, voters, hmems, hcard, hpend,
      fun u hu => hext.vote _ _ _ _ _ (hcast u hu)⟩

theorem WorkerOk.standing {worker : Worker} (h : WorkerOk setup a v node worker)
    (hext : Extends a a') (hnode : Standing node node') : WorkerOk setup a' v node' worker := by
  cases worker with
  | idle => trivial
  | electing | awaitingVote => exact Campaign.standing h hext hnode
  | beating => exact h

variable (hinv : setup.Invariant a)

include hinv

theorem PendingOk.extends {pending : List (Nat × LogEntry)} (h : PendingOk level setup a pending)
    (hext : Extends a a') : PendingOk level setup a' pending :=
  fun hs index entry hentry => (h hs index entry hentry).extends hinv hext

theorem PurposeOk.extends {purpose : Purpose} (h : PurposeOk level a v log purpose)
    (hext : Extends a a') : PurposeOk level a' v log purpose := by
  cases purpose with
  | reply => exact ⟨h.1, h.2.extends hinv hext⟩
  | replay | catchUp | append => trivial

theorem PipelineOk.extends {pipeline : Pipeline} {log' : List LogEntry}
    (h : PipelineOk level setup a v log pipeline) (hext : Extends a a') (hlog : log' = log) :
    PipelineOk level setup a' v log' pipeline := by
  subst hlog
  cases pipeline with
  | delivering => exact ⟨h.1.extends hinv hext, h.2.extends hinv hext⟩
  | free | starting => trivial
  | replicating | awaiting | beating => exact h

/-- What is said of an output stays true. -/
theorem Sent.extends {src : NodeId} {output : Output} {history' : List (NodeId × Output)}
    (h : Sent level setup history a src output) (hext : Extends a a') (hhist : history ⊆ history') :
    Sent level setup history' a' src output := by
  cases output with
  | requestVote => exact h
  | requestVoteReply => exact ⟨h.1, fun hg => hext.vote _ _ _ _ _ (h.2 hg)⟩
  | appendEntries => exact ⟨h.1.extends hinv hext, h.2⟩
  | appendEntriesReply => exact ⟨h.1, h.2.extends hinv hext⟩
  | leader => exact h.imp_left (hext.leader _ _)
  | matched =>
    obtain ⟨hlead, hmember, hne, args, reply, log, hrep, hrest⟩ := h
    exact ⟨hext.leader _ _ hlead, hmember, hne, args, reply, log, hhist hrep, hrest⟩
  | applied => exact fun hs => (h hs).extends hinv hext
  | booted | candidate | committed | appended => trivial

variable {p : Process}

theorem ProcRel.acted
    (h : ProcRel level setup history a u p) (hacted : ActedBy v a a') (hne : u ≠ v)
    (outputs : List Output) : ProcRel level setup (putOut v outputs history) a' u p where
  host := by
    rw [matchedBy_putOut_of_ne hne]
    exact h.host.acted hinv hacted hne
  worker := h.worker.standing hacted.ext (.refl _)
  pipeline := h.pipeline.extends hinv hacted.ext rfl

omit hinv

section Refining

variable {output : Output} (hsteps : setup.StepsBy v a a')
  (hhost : HostRel level setup (matchedBy history v) a' v p.host)
  (hworker : WorkerOk setup a' v p.host.node p.worker)
  (hpipeline : PipelineOk level setup a' v p.host.node.log p.pipeline)

include hsteps hhost hworker hpipeline

theorem Refines.of_unmatched (hnone : ∀ t p i, Output.matched t p i ∉ outputs)
    (hsent : ∀ output ∈ outputs, Sent level setup (putOut v outputs history) a' v output) :
    Refines level setup history a v p outputs a' where
  steps := hsteps
  proc := ⟨by rwa [matchedBy_putOut_of_unmatched hnone], hworker, hpipeline⟩
  sent := hsent

theorem Refines.silent : Refines level setup history a v p [] a' :=
  .of_unmatched hsteps hhost hworker hpipeline (by simp) (by simp)

theorem Refines.single (hnone : ∀ t p i, output ≠ .matched t p i)
    (hsent : Sent level setup (putOut v [output] history) a' v output) :
    Refines level setup history a v p [output] a' :=
  .of_unmatched hsteps hhost hworker hpipeline
    (fun t p i hmem => hnone t p i (mem_singleton.mp hmem).symm) (by simpa using hsent)

end Refining

theorem ProcRel.goesOn {pipeline : Pipeline} (h : ProcRel level setup history a v p)
    (hpipeline : PipelineOk level setup a v p.host.node.log pipeline) :
    Refines level setup history a v { p with pipeline } [] a :=
  .silent (.refl v a) h.host h.worker hpipeline

end Frames

section Elections

variable {lib : Libraries} {level : Level} {setup : ClusterConfig}
  {history : List (NodeId × Output)} {a : Record} {v : NodeId} {p : Process}

/-! ## Coming up -/

theorem boot_refines (cb : Bool) (hproc : ProcRel level setup history a v p) :
    Refines level setup history a v (Process.boot cb p.host) [.booted] a := by
  have hhost := load_rel hproc.host cb
  refine .single (.refl v a) hhost trivial ?_ (by simp) trivial
  dsimp only [Process.boot]
  split
  · refine ⟨fun hs index entry hentry => ?_, trivial⟩
    refine committedEntry_of_replayed (hhost.commitSafe hs) ?_ hentry
    have happ := hproc.host.stored.wellFormed.applied
    rwa [← load_persistent] at happ
  · trivial

variable {peer : NodeId} {outputs : List Output} {p' : Process} {args : RequestVoteArgs}
  {rest : List NodeId}

theorem Network.matched {t : Nat} {i : Nat} (h : Network level setup history a)
    (hmatched : matchedBy history v t peer i) : a.leader t = some v ∧ peer ∈ setup.peers := by
  obtain ⟨hlead, hmember, _⟩ := (h v _ hmatched).2
  exact ⟨hlead, hmember⟩

variable (hinv : setup.Invariant a)

include hinv

section

variable (hproc : ProcRel level setup history a v p)

include hproc

theorem startNode_refines (hnet : Network level setup history a)
    (hv : v ∈ setup.peers) (h : Process.startNode lib (setup.node v) p = (p', outputs)) :
    ∃ a', Refines level setup history a v p' outputs a' := by
  cases h
  obtain ⟨a', hsteps, hrel, hlog, hstand⟩ :=
    start_rel hinv hproc.host hv (fun t p i hm => (hnet.matched hm).2) rfl
  refine ⟨a', .of_unmatched hsteps hrel (hproc.worker.standing hsteps.acted.ext hstand) trivial
    (fun t p i => by split <;> simp) (fun output houtput => ?_)⟩
  split at houtput
  next hlone =>
    obtain rfl := mem_singleton.mp houtput
    have hone := hlone.2.2
    rw [ClusterConfig.allPeers_node hv] at hone
    exact .inr hone
  · cases houtput

/-! ## Elections -/

/-- The worker starts an election with its own vote. -/
theorem beginElection_refines (hv : v ∈ setup.peers) (hup : p.host.node.healthy = true)
    (h : Process.beginElection lib (setup.node v) p = (p', outputs)) :
    ∃ a', Refines level setup history a v p' outputs a' := by
  unfold Process.beginElection at h
  generalize hstart : startElection lib (setup.node v) p.host = result at h
  obtain ⟨host, request⟩ := result
  obtain ⟨a', hsteps, hrel, hlog, hargs⟩ := startElection_rel hinv hproc.host hup hv hstart
  have hpipeline := hproc.pipeline.extends hinv hsteps.acted.ext hlog
  simp only [hup, if_true] at h
  cases request with
  | none =>
    cases h
    exact ⟨a', .single hsteps hrel trivial hpipeline (by simp) trivial⟩
  | some args =>
    cases h
    obtain ⟨hnode, rfl, hvote⟩ := hargs args rfl
    refine ⟨a', .single hsteps hrel ?_ hpipeline (by simp) trivial⟩
    refine ⟨rfl, hrel.bound, fun p hp => (ClusterConfig.mem_targets hv).mp hp,
      ClusterConfig.targets_nodup hv, fun _ => ⟨rfl, lastLogTermOf_eq _, rfl, {v}, ?_⟩⟩
    refine ⟨by simpa [ClusterConfig.members] using hv, ?_, ?_, ?_⟩
    · simp [hnode, asCandidate]
    · intro p hp hmem
      exact ((ClusterConfig.mem_targets hv).mp hp).2 (Finset.mem_singleton.mp hmem)
    · intro u hu
      obtain rfl := Finset.mem_singleton.mp hu
      exact hvote

omit hinv in
theorem sendRequestVote_refines (hworker : p.worker = .electing args (peer :: rest)) :
    Refines level setup history a v { p with worker := .awaitingVote args peer rest }
      [.requestVote peer args] a := by
  have hcampaign := hproc.worker
  rw [hworker] at hcampaign
  refine .single (.refl v a) hproc.host hcampaign hproc.pipeline (by simp) ?_
  have hne := (hcampaign.reachable peer mem_cons_self).2
  exact ⟨hcampaign.candidate, hne.symm, hcampaign.bound⟩

variable {reply : RequestVoteReply}

omit hinv hproc in
theorem Campaign.count {node : RaftNode} (h : Campaign setup a v node args (peer :: rest))
    (hvote : reply.voteGranted = true →
      a.vote peer args.term args.candidateId args.lastLogTerm args.lastLogIndex) :
    Campaign setup a v
      { node with votesReceived := node.votesReceived + if reply.voteGranted then 1 else 0 }
      args rest where
  candidate := h.candidate
  bound := h.bound
  reachable p hp := h.reachable p (mem_cons_of_mem _ hp)
  nodup := (nodup_cons.mp h.nodup).2
  voters hstate := by
    obtain ⟨hterm, hlast, hlength, voters, hmembers, hcard, hpending, hcast⟩ := h.voters hstate
    refine ⟨hterm, hlast, hlength, ?_⟩
    cases hgranted : reply.voteGranted with
    | false => exact ⟨voters, hmembers, hcard, fun p hp => hpending p (mem_cons_of_mem _ hp), hcast⟩
    | true =>
      have hpeer : peer ∉ voters := hpending peer mem_cons_self
      refine ⟨insert peer voters, ?_, ?_, ?_, ?_⟩
      · refine Finset.insert_subset ?_ hmembers
        exact mem_toFinset.mpr (h.reachable peer mem_cons_self).1
      · rw [Finset.card_insert_of_notMem hpeer]
        exact Nat.succ_le_succ hcard
      · intro p hp hmem
        rcases Finset.mem_insert.mp hmem with rfl | hmem
        · exact (nodup_cons.mp h.nodup).1 hp
        · exact hpending p (mem_cons_of_mem _ hp) hmem
      · intro u hu
        rcases Finset.mem_insert.mp hu with rfl | hu
        · have := hvote hgranted
          rwa [h.candidate] at this
        · exact hcast u hu

omit hproc in
theorem failWorker_refines (what : Bytes) (hproc : ProcRel level setup history a v p) :
    Refines level setup history a v (Process.failWorker what p) [] a := by
  refine .silent (.refl v a) (hproc.host.markUnhealthy hinv p.host.node _ rfl rfl rfl) trivial ?_
  have hlog : (Process.failWorker what p).host.node.log = p.host.node.log :=
    markUnhealthyLocked_log _ _
  rw [hlog]
  exact hproc.pipeline

/-- The worker thread goes on with a reply to its vote request. -/
theorem receiveVote_refines {res : RpcResult RequestVoteReply}
    (hworker : p.worker = .awaitingVote args peer rest) (hres : ∀ reply, res = .reply reply →
      Sent level setup history a peer (.requestVoteReply args reply)) :
    ∃ a', Refines level setup history a v
      (Process.receiveVote lib (setup.node v) args rest res p) [] a' := by
  have hcampaign := hproc.worker
  rw [hworker] at hcampaign
  have hcount : ∀ reply : RequestVoteReply, reply.term < 2 ^ 64 → (reply.voteGranted = true →
        a.vote peer args.term args.candidateId args.lastLogTerm args.lastLogIndex) →
      ∃ a', Refines level setup history a v
        { p with
          host := (countVote lib (setup.node v) args reply p.host).1
          worker :=
            if (countVote lib (setup.node v) args reply p.host).2 then .electing args rest
            else .idle } [] a' := by
    intro reply hbound hvote
    generalize hstep : countVote lib (setup.node v) args reply p.host = counted
    obtain ⟨host, continues⟩ := counted
    obtain ⟨a', hsteps, hrel, hlog, hcontinues⟩ := countVote_rel hinv hproc.host hstep hbound
    refine ⟨a', .silent hsteps hrel ?_ (hproc.pipeline.extends hinv hsteps.acted.ext hlog)⟩
    cases continues with
    | false => trivial
    | true =>
      obtain ⟨rfl, _, _, hnode⟩ := hcontinues rfl
      rw [hnode]
      exact hcampaign.count hvote
  cases res with
  | empty => exact hcount {} (by decide) (by simp)
  | reply reply =>
    obtain ⟨hbound, hvote⟩ := hres reply rfl
    exact hcount reply hbound hvote
  | threw what => exact ⟨a, failWorker_refines hinv what hproc⟩

theorem endElection_refines (hnet : Network level setup history a)
    (hv : v ∈ setup.peers) (hworker : p.worker = .electing args [])
    (h : Process.endElection lib (setup.node v) p = (p', outputs)) :
    ∃ a', Refines level setup history a v p' outputs a' := by
  have hcampaign := hproc.worker
  rw [hworker] at hcampaign
  obtain ⟨a', hsteps, hrel, hlog, hlead⟩ := closeElection_rel hinv hproc.host hv
    (fun t p i hm => (hnet.matched hm).1)
    (fun hst => by
      obtain ⟨hterm, hlast, hlen, voters, hmems, hcard, _, hcast⟩ := hcampaign.voters hst
      rw [hterm, hlast, hlen] at hcast
      exact ⟨voters, hmems, hcard, hcast⟩)
    (rfl : closeElection lib (setup.node v) p.host = closeElection lib (setup.node v) p.host)
  cases h
  refine ⟨a', .of_unmatched hsteps hrel trivial
    (hproc.pipeline.extends hinv hsteps.acted.ext hlog) (fun t p i => by split <;> simp)
    (fun output houtput => ?_)⟩
  split at houtput
  next hwins =>
    obtain rfl := mem_singleton.mp houtput
    exact .inl (hlead hwins)
  · cases houtput

theorem requestVote_refines {host : Host} (hmember : args.candidateId ∈ setup.peers)
    (hne : args.candidateId ≠ v) (hbound : args.term < 2 ^ 64)
    (h : handleRequestVote lib (setup.node v) args p.host = (host, reply)) :
    ∃ a', Refines level setup history a v { p with host } [.requestVoteReply args reply] a' := by
  obtain ⟨a', hsteps, hrel, hlog, hstand, hrep, hvote⟩ :=
    handleRequestVote_rel hinv hproc.host h hmember hne hbound
  exact ⟨a', .single hsteps hrel (hproc.worker.standing hsteps.acted.ext hstand)
    (hproc.pipeline.extends hinv hsteps.acted.ext hlog) (by simp) ⟨hrep, hvote⟩⟩

end

end Elections

end BoostGateway.Raft
