import BoostGateway.Raft.Threads

/-!
# Heartbeats, appends and deliveries refine the record

The sections of `send_heartbeat` and of the calls that hold `apply_pipeline_mutex_`. The entries
these calls deliver are committed in the record as long as commit indices are.
-/

namespace BoostGateway.Raft

open List Consensus Consensus.Replicas Process

section Replication

variable {lib : Libraries} {level : Level} {setup : ClusterConfig}
  {history : List (NodeId × Output)} {a : Record} {v : NodeId} {p : Process}

/-! ## Messages of a leader -/

variable {peer : NodeId} {thread : Thread} {a' : Record} {outputs : List Output} {p' : Process}
  {args : AppendEntriesArgs} {reply : AppendEntriesReply} {rest : List NodeId}
  {index successes : Nat} {command : Bytes} {purpose : Purpose} {inFlight : Bool}
variable {matched : Nat → NodeId → Nat → Prop} {outcome : ReplyOutcome}
  {result : RpcResult AppendEntriesReply} {entry : LogEntry}

variable (hinv : setup.Invariant a)

include hinv

theorem makeAppendEntriesFor_genuine {host : Host} (hrel : HostRel level setup matched a v host)
    (hst : host.node.state = .leader) (hne : peer ≠ v) :
    Genuine level setup a peer (makeAppendEntriesFor (setup.node v) host.node peer) := by
  have hup := hrel.healthy_of_state (by simp [hst])
  have hdesc := hrel.describes hup
  have hlog := hrel.leaderLog hinv hst
  refine ⟨⟨v, hrel.role.leader hst, hne.symm⟩, ?_, fun hs => ?_, fun _ => ?_⟩
  · rw [show (makeAppendEntriesFor (setup.node v) host.node peer).term =
      host.node.currentTerm from rfl, hlog]
    exact makeAppendEntriesFor_slice _ _ _
  · show setup.CommittedPrefix a host.node.currentTerm
      ((a.leaderLog host.node.currentTerm).take host.node.commitIndex)
    rw [hlog]
    exact hrel.committed hup hs
  · show host.node.commitIndex ≤ (a.leaderLog host.node.currentTerm).length
    rw [hlog]
    exact hdesc.wellFormed.commit

section

variable (hproc : ProcRel level setup history a v p)

include hproc

theorem sent_makeAppendEntriesFor {history' : List (NodeId × Output)}
    (hst : p.host.node.state = .leader) (hne : peer ≠ v) :
    Sent level setup history' a v
      (.appendEntries peer (makeAppendEntriesFor (setup.node v) p.host.node peer)) :=
  ⟨makeAppendEntriesFor_genuine hinv hproc.host hst hne, hproc.host.bound⟩

/-! ## Heartbeats -/

omit hinv in
theorem ProcRel.beat {beat : Beat} (h : p.beat thread = some beat) : BeatOk setup v beat := by
  unfold Process.beat at h
  cases thread with
  | worker =>
    cases hworker : p.worker with
    | beating =>
      simp only [hworker, Option.some.injEq] at h
      have := hproc.worker
      rw [hworker] at this
      exact h ▸ this
    | idle | electing | awaitingVote => simp [hworker] at h
  | pipeline =>
    cases hpipeline : p.pipeline with
    | beating =>
      simp only [hpipeline, Option.some.injEq] at h
      have := hproc.pipeline
      rw [hpipeline] at this
      exact h ▸ this
    | free | starting | delivering | replicating | awaiting => simp [hpipeline] at h

omit hproc in
def ThreadsOk (level : Level) (setup : ClusterConfig) (a : Record) (v : NodeId) (p : Process) :
    Prop :=
  WorkerOk setup a v p.host.node p.worker ∧ PipelineOk level setup a v p.host.node.log p.pipeline

omit hinv in
theorem ProcRel.threads : ThreadsOk level setup a v p := ⟨hproc.worker, hproc.pipeline⟩

omit hproc in
theorem ThreadsOk.host {host : Host}
    (h : ThreadsOk level setup a v p) (hext : Extends a a') (hlog : host.node.log = p.host.node.log)
    (hstanding : Standing p.host.node host.node) : ThreadsOk level setup a' v { p with host } :=
  ⟨h.1.standing hext hstanding, h.2.extends hinv hext hlog⟩

omit hinv hproc in
theorem ThreadsOk.setBeat (thread : Thread) {beat : Beat} (h : ThreadsOk level setup a v p)
    (hbeat : BeatOk setup v beat) : ThreadsOk level setup a v (p.setBeat thread beat) := by
  cases thread with
  | worker => exact ⟨hbeat, h.2⟩
  | pipeline =>
    dsimp only [Process.setBeat]
    split
    · exact ⟨h.1, hbeat⟩
    · exact h

omit hinv hproc in
theorem ThreadsOk.endBeat (thread : Thread) (h : ThreadsOk level setup a v p) :
    ThreadsOk level setup a v (p.endBeat thread).1 := by
  cases thread with
  | worker => exact ⟨trivial, h.2⟩
  | pipeline =>
    dsimp only [Process.endBeat]
    split
    · exact ⟨h.1, trivial⟩
    · exact h

/-- The next message of a call of `send_heartbeat`, or its end. -/
theorem sendBeat_refines {targets : List NodeId} (hbeat : BeatOk setup v (.ready targets))
    (h : sendBeat (setup.node v) thread targets p = (p', outputs)) :
    Refines level setup history a v p' outputs a := by
  have hend : ∀ {p' outputs}, p.endBeat thread = (p', outputs) →
      Refines level setup history a v p' outputs a := by
    intro p' outputs hend
    have hthreads := hproc.threads.endBeat thread
    have hhost := endBeat_host thread p
    rw [hend] at hthreads hhost
    refine .of_unmatched (.refl v a) (hhost ▸ hproc.host) hthreads.1 hthreads.2 ?_ ?_
    · intro t q i hmem
      obtain ⟨_, _, _, _, _, heq⟩ := mem_endBeat hend hmem
      cases heq
    · intro output houtput
      obtain ⟨_, _, _, _, _, rfl⟩ := mem_endBeat hend houtput
      trivial
  unfold sendBeat at h
  cases targets with
  | nil => exact hend h
  | cons peer rest =>
    dsimp only at h
    split at h
    · exact hend h
    next hguard =>
      simp only [not_or, Decidable.not_not] at hguard
      cases h
      have hthreads := hproc.threads.setBeat thread (show BeatOk setup v
        (.awaiting peer (makeAppendEntriesFor (setup.node v) p.host.node peer) rest) from hbeat)
      refine .single (.refl v a) (by simpa using hproc.host) hthreads.1 hthreads.2 (by simp) ?_
      exact sent_makeAppendEntriesFor hinv hproc hguard.2 (hbeat peer mem_cons_self).2

/-! ## Replies -/

omit hinv hproc in
theorem matchedBy_putOut_reply {rest : List Output} (hrest : ∀ t q i, Output.matched t q i ∉ rest) :
    matchedBy (putOut v (matchedOutput peer args reply outcome ++ rest) history) v =
      withMatch (matchedBy history v) peer args reply outcome := by
  funext t q i
  have hmem : Output.matched t q i ∈ matchedOutput peer args reply outcome ++ rest ↔
      outcome = .accepted ∧ t = args.term ∧ q = peer ∧ i = reply.matchIndex := by
    rw [mem_append, or_iff_left (hrest t q i), matchedOutput]
    split
    next h => simp [h]
    next h => simp [h]
  rw [matchedBy_putOut, hmem]
  rfl

omit hproc in
def Replied (history : List (NodeId × Output)) (peer : NodeId) (args : AppendEntriesArgs)
    (reply : AppendEntriesReply) : Prop :=
  ∃ log, (peer, Output.appendEntriesReply args reply log) ∈ history

omit hinv hproc in
theorem Network.replied (h : Network level setup history a)
    (hreply : Replied history peer args reply) :
    reply.term < 2 ^ 64 ∧
      (level.acks → reply.success = true → a.ack peer args.term reply.matchIndex) := by
  obtain ⟨log, hlog⟩ := hreply
  obtain ⟨hbound, hok⟩ := (h peer _ hlog).2
  exact ⟨hbound, fun hs hsuccess => ((hok hsuccess).2.2 hs).1⟩

omit hinv hproc in
theorem sent_matchedOutput {output : Output} (hmember : peer ∈ setup.peers) (hne : peer ≠ v)
    (haccepted : outcome = .accepted →
      a'.leader args.term = some v ∧ reply.success = true ∧ Replied history peer args reply)
    (houtput : output ∈ matchedOutput peer args reply outcome) :
    Sent level setup (putOut v outputs history) a' v output := by
  obtain ⟨houtcome, rfl⟩ := mem_matchedOutput houtput
  obtain ⟨hleader, hsuccess, log, hlog⟩ := haccepted houtcome
  exact ⟨hleader, hmember, hne, args, reply, log, mem_append_left _ hlog, hsuccess, rfl, rfl⟩

omit hinv hproc in
theorem leader_of_acceptsReply {host : Host} (hrel : HostRel level setup matched a v host)
    (h : acceptsReply host.node args reply = true) :
    a.leader args.term = some v ∧ reply.success = true := by
  simp only [acceptsReply, Bool.and_eq_true, decide_eq_true_eq] at h
  obtain ⟨⟨⟨⟨_, hstate⟩, hterm⟩, _⟩, hsuccess⟩ := h
  exact ⟨hterm ▸ hrel.role.leader hstate, hsuccess⟩

theorem receiveBeat_refines (hnet : Network level setup history a)
    (hv : v ∈ setup.peers) (hbeat : BeatOk setup v (.awaiting peer args rest))
    (hres : ∀ reply, result = .reply reply → Replied history peer args reply)
    (hcounts : ∀ reply, result = .reply reply → level.commits →
      acceptsReply p.host.node args reply = true →
      CountsOnce (setup.node v) (recordMatch peer reply.matchIndex p.host.node))
    (h : receiveBeat lib (setup.node v) thread peer args rest result p = (p', outputs)) :
    ∃ a', Refines level setup history a v p' outputs a' := by
  have hready : BeatOk setup v (.ready rest) := fun q hq => hbeat q (mem_cons_of_mem _ hq)
  obtain ⟨hmember, hne⟩ := hbeat peer mem_cons_self
  unfold receiveBeat at h
  cases result with
  | empty =>
    cases h
    have hthreads := hproc.threads.setBeat thread hready
    exact ⟨a, .silent (.refl v a) (by simpa using hproc.host) hthreads.1 hthreads.2⟩
  | threw what =>
    cases h
    cases thread with
    | worker => exact ⟨a, failWorker_refines hinv what hproc⟩
    | pipeline => exact ⟨a, hproc.goesOn trivial⟩
  | reply reply =>
    have hreplied := hres reply rfl
    obtain ⟨hbound, hack⟩ := hnet.replied hreplied
    dsimp only at h
    generalize hrep : heartbeatReply lib (setup.node v) peer args reply p.host = received at h
    obtain ⟨host, continues⟩ := received
    obtain ⟨a', hsteps, hrel, hlog, hstand⟩ := heartbeatReply_rel hinv hproc.host hv hmember
      hne hbound hack (hcounts reply rfl) hrep
    have hthreads : ThreadsOk level setup a' v { p with host } :=
      hproc.threads.host hinv hsteps.acted.ext hlog hstand
    -- the call goes on, or returns and puts out at most the return of `append_command`
    have hfinish : ∀ {q : Process} {returned : List Output}, ThreadsOk level setup a' v q →
        q.host = host → (∀ output ∈ returned, ∃ index command, output = .appended index command) →
        Refines level setup history a v q (matchedOutput peer args reply
          (receiveReply lib (setup.node v) peer args reply p.host).2 ++
            (committedOutput p.host host ++ returned)) a' := by
      intro q returned hthreads hhost hreturned
      refine ⟨hsteps, ⟨?_, hthreads.1, hthreads.2⟩, fun output houtput => ?_⟩
      · rw [matchedBy_putOut_reply, hhost]
        · exact hrel
        · intro t q i hmem
          rcases mem_append.mp hmem with hmem | hmem
          · obtain ⟨_, heq⟩ := mem_committedOutput hmem
            cases heq
          · obtain ⟨_, _, heq⟩ := hreturned _ hmem
            cases heq
      · rcases mem_append.mp houtput with hout | hout
        · refine sent_matchedOutput hmember hne (fun hout => ?_) hout
          obtain ⟨hlead, hsucc⟩ :=
            leader_of_acceptsReply hproc.host (receiveReply_of_accepted hout).1
          exact ⟨hsteps.acted.ext.leader _ _ hlead, hsucc, hreplied⟩
        rcases mem_append.mp hout with hout | hout
        · obtain ⟨_, rfl⟩ := mem_committedOutput hout
          trivial
        · obtain ⟨_, _, rfl⟩ := hreturned _ hout
          trivial
    cases continues with
    | true =>
      cases h
      rw [← append_nil (committedOutput p.host host)]
      exact ⟨a', hfinish (hthreads.setBeat thread hready) (by simp) (by simp)⟩
    | false =>
      generalize hend : Process.endBeat thread { p with host } = ended at h
      cases h
      have hset := hthreads.endBeat thread
      have hhost := endBeat_host thread { p with host }
      rw [hend] at hset hhost
      rw [append_assoc]
      refine ⟨a', hfinish hset hhost fun output hout => ?_⟩
      obtain ⟨_, index, command, _, _, heq⟩ := mem_endBeat hend hout
      exact ⟨index, command, heq⟩

/-- A reply in the replication loop of `append_command`. -/
theorem receiveEntriesReply_refines (hnet : Network level setup history a)
    (hpipe : p.pipeline = .awaiting index command successes peer args rest)
    (hres : ∀ reply, result = .reply reply → Replied history peer args reply)
    (h : receiveEntriesReply lib (setup.node v) index command successes peer args rest
      result p = (p', outputs)) : ∃ a', Refines level setup history a v p' outputs a' := by
  have htargets := hproc.pipeline
  rw [hpipe] at htargets
  have hrest : Targets setup v rest := fun q hq => htargets q (mem_cons_of_mem _ hq)
  obtain ⟨hmember, hne⟩ := htargets peer mem_cons_self
  -- a reply, or the default one, which reports no success
  have hreceived : ∀ reply : AppendEntriesReply, reply.term < 2 ^ 64 →
      (level.acks → reply.success = true → a.ack peer args.term reply.matchIndex) →
      (reply.success = true → Replied history peer args reply) →
      ∀ {host : Host} {outcome : ReplyOutcome} {pipeline : Pipeline},
        receiveReply lib (setup.node v) peer args reply p.host = (host, outcome) →
        (∀ log, PipelineOk level setup a v log pipeline) →
        ∃ a', Refines level setup history a v { p with host, pipeline }
          (matchedOutput peer args reply outcome) a' := by
    intro reply hbound hack hreplied host outcome pipeline hstep hok
    obtain ⟨a', hsteps, hrel, hlog, hstand, _⟩ :=
      receiveReply_rel hinv hproc.host hmember hne hbound hack hstep
    refine ⟨a', hsteps, ⟨?_, hproc.worker.standing hsteps.acted.ext hstand, ?_⟩, ?_⟩
    · rw [← append_nil (matchedOutput peer args reply outcome), matchedBy_putOut_reply (by simp)]
      exact hrel
    · exact (hok _).extends hinv hsteps.acted.ext rfl
    · intro output houtput
      refine sent_matchedOutput hmember hne (fun hout => ?_) houtput
      have hacc := (receiveReply_of_accepted ((congrArg Prod.snd hstep).trans hout)).1
      obtain ⟨hlead, hsucc⟩ := leader_of_acceptsReply hproc.host hacc
      exact ⟨hsteps.acted.ext.leader _ _ hlead, hsucc, hreplied hsucc⟩
  cases result with
  | empty =>
    cases h
    refine hreceived {} (by decide) (by simp) (by simp) rfl fun log => ?_
    split <;> trivial
  | reply reply =>
    cases h
    have hreplied := hres reply rfl
    obtain ⟨hbound, hack⟩ := hnet.replied hreplied
    refine hreceived reply hbound hack (fun _ => hreplied) rfl fun log => ?_
    split <;> trivial
  | threw =>
    cases h
    exact ⟨a, hproc.goesOn trivial⟩

/-! ## Calls under the pipeline lock -/

/-- `handle_append_entries` up to the delivery. -/
theorem receiveEntries_refines (hmsg : Genuine level setup a v args)
    (hbound : args.term < 2 ^ 64) (hpipe : p.pipeline = .free)
    (hcovered : level.acks → acceptsEntries p.host.node args = true → Covered p.host.node args)
    (h : receiveEntries lib (setup.node v) args p = (p', outputs)) :
    ∃ a', Refines level setup history a v p' outputs a' := by
  unfold receiveEntries at h
  generalize hhandle : handleAppendEntries lib (setup.node v) args p.host = handled at h
  obtain ⟨host, reply, applied⟩ := handled
  obtain ⟨a', hsteps, hhand, hstand⟩ :=
    handleAppendEntries_rel hinv hproc.host hmsg hbound hcovered hhandle
  have hwork := hproc.worker.standing hsteps.acted.ext hstand
  cases applied with
  | none =>
    cases h
    refine ⟨a', .single hsteps hhand.rel hwork ?_ (by simp) ⟨hhand.bound, hhand.reply⟩⟩
    rw [hpipe]
    trivial
  | some pending =>
    cases h
    exact ⟨a', .silent hsteps hhand.rel hwork ⟨hhand.applied pending rfl, hhand.bound, hhand.reply⟩⟩

omit hproc in
theorem beginAppend_refines (command : Bytes) (hproc : ProcRel level setup history a v p)
    (hv : v ∈ setup.peers) (hpipeline : p.pipeline = .free) :
    ∃ a', Refines level setup history a v (beginAppend lib (setup.node v) command p) [] a' := by
  unfold beginAppend
  generalize happend : appendCommand lib (setup.node v) command p.host = result
  obtain ⟨host, ok⟩ := result
  obtain ⟨a', hsteps, hrel, hstanding⟩ := appendCommand_rel hinv hproc.host hv happend
  have hworker := hproc.worker.standing hsteps.acted.ext hstanding
  cases ok with
  | true =>
    exact ⟨a', .silent hsteps hrel hworker (fun q hq => (ClusterConfig.mem_targets hv).mp hq)⟩
  | false =>
    refine ⟨a', .silent hsteps hrel hworker ?_⟩
    rw [hpipeline]
    trivial

theorem sendNextEntries_refines
    (hpipe : p.pipeline = .replicating index command successes (peer :: rest))
    (h : sendNextEntries (setup.node v) index command successes peer rest p = (p', outputs)) :
    Refines level setup history a v p' outputs a := by
  have htargets := hproc.pipeline
  rw [hpipe] at htargets
  unfold sendNextEntries at h
  split at h
  · cases h
    exact hproc.goesOn trivial
  next hguard =>
    simp only [not_or, Decidable.not_not] at hguard
    cases h
    refine .single (.refl v a) hproc.host hproc.worker htargets (by simp) ?_
    exact sent_makeAppendEntriesFor hinv hproc hguard.2 (htargets peer mem_cons_self).2

theorem endReplication_refines (hv : v ∈ setup.peers)
    (hcounts : level.commits → p.host.node.state = .leader →
      (setup.node v).quorumSize ≤ successes → CountsOnce (setup.node v) p.host.node)
    (h : endReplication lib (setup.node v) index command successes p = (p', outputs)) :
    ∃ a', Refines level setup history a v p' outputs a' := by
  unfold endReplication at h
  generalize hcom : commitAppended lib (setup.node v) successes p.host = result at h
  obtain ⟨host, applied⟩ := result
  obtain ⟨a', hsteps, hrel, hlog, hstand, happ⟩ :=
    commitAppended_rel hinv hproc.host hv hcounts hcom
  cases h
  refine ⟨a', .of_unmatched hsteps hrel (hproc.worker.standing hsteps.acted.ext hstand) ?_ ?_ ?_⟩
  · cases applied with
    | none => trivial
    | some pending => exact ⟨happ pending rfl, trivial⟩
  · intro t q i hmem
    obtain ⟨_, heq⟩ := mem_committedOutput hmem
    cases heq
  · intro output houtput
    obtain ⟨_, rfl⟩ := mem_committedOutput houtput
    trivial

/-! ## Deliveries -/

omit hinv hproc in
theorem abandonDelivery_refines (hsteps : setup.StepsBy v a a')
    (hhost : HostRel level setup (matchedBy history v) a' v p.host)
    (hworker : WorkerOk setup a' v p.host.node p.worker)
    (hpurpose : PurposeOk level a' v p.host.node.log purpose)
    (h : abandonDelivery purpose p = (p', outputs)) :
    Refines level setup history a v p' outputs a' := by
  cases purpose with
  | replay | catchUp | append =>
    cases h
    exact .silent hsteps hhost hworker trivial
  | reply =>
    cases h
    exact .single hsteps hhost hworker trivial (by simp) ⟨hpurpose.1, nofun⟩

omit hinv in
theorem ProcRel.delivering {pending : List (Nat × LogEntry)}
    (hpipeline : p.pipeline = .delivering purpose pending inFlight) :
    PendingOk level setup a pending ∧ PurposeOk level a v p.host.node.log purpose := by
  have := hproc.pipeline
  rwa [hpipeline] at this

omit hinv in
theorem completeDelivery_refines (hv : v ∈ setup.peers)
    (hpipeline : p.pipeline = .delivering purpose [] inFlight)
    (h : completeDelivery (setup.node v) purpose p = (p', outputs)) :
    Refines level setup history a v p' outputs a := by
  obtain ⟨_, hpurpose⟩ := hproc.delivering hpipeline
  cases purpose with
  | replay =>
    dsimp only [completeDelivery] at h
    split at h
    · cases h
      exact hproc.goesOn ⟨fun hs index entry hentry =>
        committedEntry_of_drain (hproc.host.commitSafe hs) hentry, trivial⟩
    · cases h
      exact hproc.goesOn trivial
  | catchUp =>
    cases h
    exact hproc.goesOn trivial
  | append =>
    cases h
    exact hproc.goesOn fun q hq => (ClusterConfig.mem_targets hv).mp hq
  | reply =>
    cases h
    exact .single (.refl v a) hproc.host hproc.worker trivial (by simp) hpurpose

omit hinv in
/-- The call of the apply callback passes a committed entry. -/
theorem callBack_refines {rest : List (Nat × LogEntry)}
    (hpipeline : p.pipeline = .delivering purpose ((index, entry) :: rest) inFlight)
    (h : callBack purpose index entry rest p = (p', outputs)) :
    Refines level setup history a v p' outputs a := by
  obtain ⟨hpending, hpurpose⟩ := hproc.delivering hpipeline
  rcases callBack_cases purpose index entry rest p with ⟨_, hcase⟩ | ⟨_, hcase⟩
  · rw [hcase] at h
    exact abandonDelivery_refines (.refl v a) hproc.host hproc.worker hpurpose h
  · rw [hcase] at h
    cases h
    refine .of_unmatched (.refl v a) hproc.host hproc.worker ⟨hpending, hpurpose⟩
      (fun t q i => by split <;> simp) (fun output houtput => ?_)
    split at houtput
    · obtain rfl := mem_singleton.mp houtput
      exact fun hs => hpending hs index entry mem_cons_self
    · cases houtput

theorem callbackDone_refines {rest : List (Nat × LogEntry)} {verd : Verdict}
    (hpipe : p.pipeline = .delivering purpose ((index, entry) :: rest) inFlight)
    (h : callbackDone lib (setup.node v) purpose index rest verd p = (p', outputs)) :
    Refines level setup history a v p' outputs a := by
  obtain ⟨hpend, hpurpose⟩ := hproc.delivering hpipe
  have hrest : PendingOk level setup a rest := fun hs i e he => hpend hs i e (mem_cons_of_mem _ he)
  dsimp only [callbackDone] at h
  split at h
  · cases h
    exact hproc.goesOn ⟨hrest, trivial⟩
  · generalize hmark : markApplied lib (setup.node v) index p.host = result at h
    obtain ⟨host, ok⟩ := result
    obtain ⟨hrel, hlog, hstand⟩ := markApplied_rel hinv hproc.host hmark
    have hwork : WorkerOk setup a v host.node p.worker :=
      hproc.worker.standing (ActedBy.refl v a).ext hstand
    rw [← hlog] at hpurpose
    cases ok with
    | true =>
      cases h
      exact .silent (.refl v a) hrel hwork ⟨hrest, hpurpose⟩
    | false => exact abandonDelivery_refines (.refl v a) hrel hwork hpurpose h
  · refine abandonDelivery_refines (.refl v a)
      (failApply_rel hinv hproc.host _ index _) ?_ ?_ h
    · refine hproc.worker.standing (ActedBy.refl v a).ext fun hcand => ?_
      rw [failApply_state _ _ _ fun hup => (hproc.host.unhealthy hup).1] at hcand
      cases hcand
    · rw [failApply_log]
      exact hpurpose

end

end Replication

end BoostGateway.Raft
