import BoostGateway.Raft.Pipeline

/-!
# The cluster refines the record

Every step of a node is made of steps of the record (`ClusterRel.step`), so every run of a cluster
is a run of the record (`run_rel`). The lowest level of the relation asks nothing of the run, the
one with match indices that nodes accept only messages that cover their log (`CoveredStep`), and the
one with commit indices that leaders also count themselves once (`CountedStep`).
-/

namespace BoostGateway.Raft

open List Consensus Consensus.Replicas

/-! ## Conditions on steps -/

def CoveredStep (p : Process) : Action → Prop
  | .appendEntries args => acceptsEntries p.host.node args = true → Covered p.host.node args
  | _ => True

/-- The commit index would also rise if the leader counted itself once. -/
def CountedStep (cfg : RaftConfig) (p : Process) : Action → Prop
  | .heartbeatReplied thread (.reply reply) =>
    match p.beat thread with
    | some (.awaiting peer args _) =>
      acceptsReply p.host.node args reply = true →
        CountsOnce cfg (recordMatch peer reply.matchIndex p.host.node)
    | _ => True
  | .closeReplication =>
    match p.pipeline with
    | .replicating _ _ successes [] =>
      p.host.node.state = .leader → cfg.quorumSize ≤ successes → CountsOnce cfg p.host.node
    | _ => True
  | _ => True

instance (p : Process) (action : Action) : Decidable (CoveredStep p action) := by
  unfold CoveredStep
  split <;> infer_instance

instance (cfg : RaftConfig) (p : Process) (action : Action) :
    Decidable (CountedStep cfg p action) := by
  unfold CountedStep
  split
  · split <;> infer_instance
  · split <;> infer_instance
  · infer_instance

def Meets (level : Level) (setup : ClusterConfig) (c : Cluster) (event : Event) : Prop :=
  (level.acks → CoveredStep (c.procs event.node) event.action) ∧
    (level.commits → CountedStep (setup.node event.node) (c.procs event.node) event.action)

/-! ## Steps of a node -/

/-- What an action takes from the network is in the history. -/
def Delivered (history : List (NodeId × Output)) (v : NodeId) (p : Process) : Action → Prop
  | .requestVote args => ∃ src, (src, Output.requestVote v args) ∈ history
  | .appendEntries args => ∃ src, (src, Output.appendEntries v args) ∈ history
  | .voteReplied (.reply reply) =>
    ∀ args peer rest, p.worker = .awaitingVote args peer rest →
      (peer, Output.requestVoteReply args reply) ∈ history
  | .heartbeatReplied thread (.reply reply) =>
    ∀ peer args rest, p.beat thread = some (.awaiting peer args rest) →
      Replied history peer args reply
  | .entriesReplied (.reply reply) =>
    ∀ index command successes peer args rest,
      p.pipeline = .awaiting index command successes peer args rest →
      Replied history peer args reply
  | _ => True

section Steps

variable {lib : Libraries} {level : Level} {setup : ClusterConfig}
  {history : List (NodeId × Output)} {a : Record} {v : NodeId} {p p' : Process}

theorem advance_refines {action : Action} {outputs : List Output} (hinv : setup.Invariant a)
    (hproc : ProcRel level setup history a v p) (hnet : Network level setup history a)
    (hv : v ∈ setup.peers) (hdelivered : Delivered history v p action)
    (hcovered : level.acks → CoveredStep p action)
    (hcounted : level.commits → CountedStep (setup.node v) p action)
    (h : Process.advance lib (setup.node v) action p = some (p', outputs)) :
    ∃ a', Refines level setup history a v p' outputs a' := by
  generalize hnext : (p', outputs) = next at h
  cases Process.advances_of_advance h with
  | boot callback =>
    cases hnext
    exact ⟨a, boot_refines callback hproc⟩
  | start => exact startNode_refines hinv hproc hnet hv hnext.symm
  | startElection hwork _ hup => exact beginElection_refines hinv hproc hv hup hnext.symm
  | sendRequestVote hwork =>
    cases hnext
    exact ⟨a, sendRequestVote_refines hproc hwork⟩
  | voteReplied result hwork =>
    cases hnext
    refine receiveVote_refines hinv hproc hwork ?_
    rintro reply rfl
    exact (hnet _ _ (hdelivered _ _ _ hwork)).2
  | closeElection hwork => exact endElection_refines hinv hproc hnet hv hwork hnext.symm
  | startHeartbeat =>
    cases hnext
    exact ⟨a, .silent (.refl v a) hproc.host
      (fun q hq => (ClusterConfig.mem_targets hv).mp hq) hproc.pipeline⟩
  | sendHeartbeat hbeat => exact ⟨a, sendBeat_refines hinv hproc (hproc.beat hbeat) hnext.symm⟩
  | heartbeatReplied result hbeat =>
    refine receiveBeat_refines hinv hproc hnet hv (hproc.beat hbeat) ?_ ?_ hnext.symm
    · rintro reply rfl
      exact hdelivered _ _ _ hbeat
    · rintro reply rfl hs
      simpa [CountedStep, hbeat] using hcounted hs
  | requestVote =>
    cases hnext
    obtain ⟨src, hsrc⟩ := hdelivered
    obtain ⟨hmember, hcand, hne, hbound⟩ := hnet _ _ hsrc
    subst hcand
    exact requestVote_refines hinv hproc hmember hne hbound rfl
  | appendEntries args hpipe =>
    obtain ⟨src, hsrc⟩ := hdelivered
    obtain ⟨_, hmsg, hbound⟩ := hnet _ _ hsrc
    exact receiveEntries_refines hinv hproc hmsg hbound hpipe hcovered hnext.symm
  | callback hpipe => exact ⟨a, callBack_refines hproc hpipe hnext.symm⟩
  | callbackReturned verdict hpipe => exact ⟨a, callbackDone_refines hinv hproc hpipe hnext.symm⟩
  | finishDelivery hpipe => exact ⟨a, completeDelivery_refines hproc hv hpipe hnext.symm⟩
  | appendCommand command hpipe =>
    cases hnext
    exact beginAppend_refines hinv command hproc hv hpipe
  | sendEntries hpipe => exact ⟨a, sendNextEntries_refines hinv hproc hpipe hnext.symm⟩
  | entriesReplied result hpipe =>
    refine receiveEntriesReply_refines hinv hproc hnet hpipe ?_ hnext.symm
    rintro reply rfl
    exact hdelivered _ _ _ _ _ _ hpipe
  | closeReplication hpipe =>
    exact endReplication_refines hinv hproc hv
      (fun hs => by simpa [CountedStep, hpipe] using hcounted hs) hnext.symm

end Steps

/-! ## Steps of the cluster -/

structure ClusterRel (level : Level) (setup : ClusterConfig) (c : Cluster) (a : Record) : Prop where
  inv : Invariant setup.members LogEntry.term a
  procs : ∀ v, v ∈ setup.peers → ProcRel level setup c.history a v (c.procs v)
  network : Network level setup c.history a

section Runs

variable {lib : Libraries} {level : Level} {setup : ClusterConfig} {c c' : Cluster}
  {event : Event}

theorem replied_of_hasReply {peer : NodeId} {args : AppendEntriesArgs} {reply : AppendEntriesReply}
    (h : c.hasReply peer args reply = true) : Replied c.history peer args reply := by
  obtain ⟨⟨src, output⟩, hmem, hmatch⟩ := any_eq_true.mp h
  cases output with
  | appendEntriesReply args' reply' log =>
    simp only [Bool.and_eq_true, decide_eq_true_eq] at hmatch
    obtain ⟨⟨rfl, rfl⟩, rfl⟩ := hmatch
    exact ⟨log, hmem⟩
  | _ => cases hmatch

variable {v : NodeId} {a : Record} {condition : Cluster → Event → Prop}

theorem delivered_of_delivers {action : Action} (h : c.delivers v action = true) :
    Delivered c.history v (c.procs v) action := by
  unfold Cluster.delivers at h
  split at h
  · obtain ⟨⟨src, output⟩, hmem, hout⟩ := any_eq_true.mp h
    exact ⟨src, of_decide_eq_true hout ▸ hmem⟩
  · obtain ⟨⟨src, output⟩, hmem, hout⟩ := any_eq_true.mp h
    exact ⟨src, of_decide_eq_true hout ▸ hmem⟩
  · intro args peer rest hwork
    simpa [hwork] using h
  · intro peer args rest hbeat
    exact replied_of_hasReply (by simpa [hbeat] using h)
  · intro index command successes peer args rest hpipe
    exact replied_of_hasReply (by simpa [hpipe] using h)
  next hvote happend hvoteReply hbeat hentries =>
    unfold Delivered
    split
    · exact absurd rfl (hvote _)
    · exact absurd rfl (happend _)
    · exact absurd rfl (hvoteReply _)
    · exact absurd rfl (hbeat _ _)
    · exact absurd rfl (hentries _)
    · trivial

theorem ProcRel.withIo {history : List (NodeId × Output)} {p : Process}
    (h : ProcRel level setup history a v p) (io : List IoOutcome) :
    ProcRel level setup history a v (p.withIo io) :=
  ⟨h.host.congr rfl rfl rfl rfl rfl rfl, h.worker, h.pipeline⟩

theorem step_eq_some (h : Cluster.step lib setup event c = some c') :
    event.node ∈ setup.peers ∧ c.delivers event.node event.action = true ∧
      ∃ p outs, (c.procs event.node).step lib (setup.node event.node) event.action event.io =
          some (p, outs) ∧
        c' = { procs := Function.update c.procs event.node p
               history := putOut event.node outs c.history } := by
  unfold Cluster.step at h
  split at h
  next hguard =>
    refine ⟨hguard.1, hguard.2, ?_⟩
    split at h
    next p outs hstep => exact ⟨p, outs, hstep, (Option.some.inj h).symm⟩
    · cases h
  · cases h

def newOutputs (c c' : Cluster) : List (NodeId × Output) := c'.history.drop c.history.length

theorem newOutputs_putOut (c : Cluster) (procs : NodeId → Process) (v : NodeId)
    (outs : List Output) :
    newOutputs c { procs, history := putOut v outs c.history } =
      outs.map fun output => (v, output) := by simp [newOutputs, putOut]

theorem mem_history_of_newOutputs {rec : NodeId × Output}
    (h : rec ∈ newOutputs c c') : rec ∈ c'.history :=
  mem_of_mem_drop h

theorem advances_of_mem_newOutputs {output : Output} (h : Cluster.step lib setup event c = some c')
    (hout : (v, output) ∈ newOutputs c c') :
    v = event.node ∧ ∃ next,
      Process.Advances lib (setup.node v) ((c.procs v).withIo event.io) event.action next ∧
        output ∈ next.2 ∧ c'.procs v = next.1 := by
  obtain ⟨_, _, p, outputs, hadv, rfl⟩ := step_eq_some h
  simp only [newOutputs, putOut, drop_left, mem_map, Prod.mk.injEq] at hout
  obtain ⟨_, hmem, rfl, rfl⟩ := hout
  exact ⟨rfl, (p, outputs), Process.advances_of_advance hadv, hmem, by simp⟩

theorem ClusterRel.initial : ClusterRel level setup {} Replicas.initial where
  inv := Invariant.initial
  procs v hv := by
    have hstored : Describes level setup Replicas.initial v {} :=
      { term := rfl
        log := rfl
        bound := by decide
        votes := fun _ _ _ hvote => hvote.elim
        wellFormed := by constructor <;> simp
        commit := fun _ => .inl (by simp) }
    refine ⟨⟨hstored, fun _ => rfl, hstored.bound, fun h => ?_, .follower rfl⟩, trivial, trivial⟩
    cases h
  network src output h := by cases h

theorem ClusterRel.step (h : ClusterRel level setup c a) (hmeets : Meets level setup c event)
    (hstep : Cluster.step lib setup event c = some c') :
    ∃ a', Extends a a' ∧ ClusterRel level setup c' a' := by
  obtain ⟨hv, hdeliv, p, outputs, hadv, rfl⟩ := step_eq_some hstep
  obtain ⟨a', hrefines⟩ := advance_refines h.inv ((h.procs _ hv).withIo event.io) h.network hv
    (delivered_of_delivers hdeliv) hmeets.1 hmeets.2 hadv
  have hext := hrefines.steps.acted.ext
  refine ⟨a', hext, hrefines.steps.invariant h.inv, fun u hu => ?_, fun src output hmem => ?_⟩
  · by_cases hne : u = event.node
    · subst hne
      simpa using hrefines.proc
    · simpa [Function.update_of_ne hne] using
        (h.procs u hu).acted h.inv hrefines.steps.acted hne outputs
  · rcases mem_append.mp hmem with hold | hnew
    · obtain ⟨hsrc, hsent⟩ := h.network src output hold
      exact ⟨hsrc, hsent.extends h.inv hext (subset_append_left _ _)⟩
    · obtain ⟨out, hout, heq⟩ := mem_map.mp hnew
      cases heq
      exact ⟨hv, hrefines.sent _ hout⟩

theorem run_rel (hcond : ∀ c event, condition c event → Meets level setup c event)
    (h : Cluster.Run lib setup condition c) : ∃ a, ClusterRel level setup c a := by
  induction h with
  | init => exact ⟨_, ClusterRel.initial⟩
  | step _ hmeets hstep ih =>
    obtain ⟨a, hrel⟩ := ih
    obtain ⟨a', _, hrel'⟩ := hrel.step (hcond _ _ hmeets) hstep
    exact ⟨a', hrel'⟩

/-- What nodes keep in all steps holds along every run. -/
theorem run_nodes {motive : List (NodeId × Output) → NodeId → Process → Prop}
    (hinit : ∀ v, motive [] v {})
    (hother : ∀ history u v p outs, u ≠ v → motive history u p → motive (putOut v outs history) u p)
    (hstep : ∀ c event next, Cluster.Run lib setup condition c → condition c event →
      event.node ∈ setup.peers → c.delivers event.node event.action = true →
      Process.Advances lib (setup.node event.node)
        ((c.procs event.node).withIo event.io) event.action next →
      motive c.history event.node (c.procs event.node) →
      motive (putOut event.node next.2 c.history) event.node next.1)
    (hrun : Cluster.Run lib setup condition c) (hv : v ∈ setup.peers) :
    motive c.history v (c.procs v) := by
  induction hrun generalizing v with
  | init => exact hinit v
  | @step c c' event hrun hcond htaken ih =>
    obtain ⟨hnode, hdeliv, p, outs, hadv, rfl⟩ := step_eq_some htaken
    by_cases hne : v = event.node
    · subst hne
      simpa using hstep c event _ hrun hcond hnode hdeliv
        (Process.advances_of_advance hadv) (ih hnode)
    · simpa [Function.update_of_ne hne] using hother c.history v event.node _ outs hne (ih hv)

end Runs

end BoostGateway.Raft
