import BoostGateway.Raft.Commitment
import BoostGateway.Raft.Deliveries

/-!
# What a node has committed and applied

In orderly runs `handle_append_entries` leaves the committed part of a log alone, although its
truncations do not look at the commit index (`handleAppendEntries_keeps`). So the callback sees the
indices in order, each once (`committed_prefix_immutable`).
-/

namespace BoostGateway.Raft

open List Consensus Consensus.Replicas Process

/-! ## The committed part of a log -/

structure Keeps (before after : RaftNode) : Prop where
  commitIndex : before.commitIndex ≤ after.commitIndex
  lastApplied : after.lastApplied = before.lastApplied
  log : after.log.take before.commitIndex = before.log.take before.commitIndex

theorem Keeps.of_framed {before node after : RaftNode} (h : Keeps before node)
    (hframe : Framed node after) : Keeps before after where
  commitIndex := h.commitIndex.trans hframe.commitIndex
  lastApplied := hframe.lastApplied.trans h.lastApplied
  log := by rw [hframe.log, h.log]

theorem take_eq_of_isPrefix {log log' : List LogEntry} {commitIndex : Nat}
    (hle : commitIndex ≤ log.length) (h : log.take commitIndex <+: log') :
    commitIndex ≤ log'.length ∧ log'.take commitIndex = log.take commitIndex := by
  have hlen : (log.take commitIndex).length = commitIndex := by simp [hle]
  refine ⟨hlen ▸ h.length_le, ?_⟩
  have heq := prefix_iff_eq_take.mp h
  rwa [hlen, eq_comm] at heq

section Handling

variable {lib : Libraries} {setup : ClusterConfig} {matched : Nat → NodeId → Nat → Prop}
  {a : Record} {v : NodeId} {host : Host} {args : AppendEntriesArgs}

/-- `handle_append_entries` does not touch what is committed. -/
theorem handleAppendEntries_keeps (cfg : RaftConfig) (hinv : setup.Invariant a)
    (hrel : HostRel commitLevel setup matched a v host)
    (hmsg : Genuine commitLevel setup a v args) :
    Keeps host.node (handleAppendEntries lib cfg args host).1.node := by
  have hsame : Keeps host.node host.node := ⟨le_rfl, rfl, rfl⟩
  cases hup : host.node.healthy with
  | false =>
    have hrefused : (handleAppendEntries lib cfg args host).1 = host := by
      simp [handleAppendEntries, hup]
    rw [hrefused]
    exact hsame
  | true =>
  obtain ⟨l, hl, _⟩ := hmsg.leader
  have hlead : a.leader args.term ≠ none := by simp [hl]
  have hdesc := hrel.describes hup
  have hcom : host.node.commitIndex ≤ host.node.log.length := hdesc.wellFormed.commit
  have happ : host.node.lastApplied ≤ host.node.commitIndex := hdesc.wellFormed.applied
  have hback : Backed LogEntry.term a host.node.log := by
    have hlog : a.log v = host.node.log := hdesc.log
    exact hlog ▸ hinv.backed v
  have hshared : host.node.log.take host.node.commitIndex <+: a.leaderLog args.term ∨
      args.term < host.node.currentTerm := by
    rcases Nat.lt_or_ge args.term host.node.currentTerm with hlt | hge
    · exact .inr hlt
    · exact .inl ((hrel.committed hup trivial).prefix_leaderLog hinv hge hlead)
  refine (handleAppendEntries_hostSteps lib cfg args host).invariant
    (motive := Keeps host.node) ?_ ?_ ?_ hsame
  · intro node node' hchange hnode
    rcases hchange.framed_or_log with hframe | hlog
    · exact hnode.of_framed hframe
    cases hlog with
    | push _ hcmd => cases hcmd
    | applied _ hdeliv => cases hdeliv
    | truncate hmessage hacc hpos hterm =>
      cases hmessage
      have hshared := hshared.resolve_right (Nat.not_lt.mpr hacc.later)
      rw [hacc.log, hmsg.slice.prevLogTerm hpos] at hterm
      obtain ⟨hle, htake⟩ := take_eq_of_isPrefix hcom
        (truncate_keeps hterm (List.take_prefix _ _) hshared)
      rw [truncateLog, hacc.log, hacc.commitIndex, hacc.lastApplied]
      refine ⟨?_, ?_, htake⟩
      · exact Nat.le_min.mpr ⟨le_rfl, hle⟩
      · exact Nat.min_eq_left (happ.trans (Nat.le_min.mpr ⟨le_rfl, hle⟩))
    | merge hmessage hacc hterm =>
      cases hmessage
      have hshared := hshared.resolve_right (Nat.not_lt.mpr hacc.later)
      have hprev := hacc.prevLogIndex
      rw [hacc.log] at hterm hprev
      have hagree : host.node.log.take args.prevLogIndex =
          (a.leaderLog args.term).take args.prevLogIndex :=
        take_eq_take_of_termAt hback (hinv.leaderBacked _ hlead) hprev hmsg.slice.prevLogIndex
          (fun hpos => (hterm hpos).trans (hmsg.slice.prevLogTerm hpos))
      obtain ⟨hle, htake⟩ := take_eq_of_isPrefix hcom
        (merge_keeps hprev hagree hmsg.slice.entries (List.take_prefix _ _) hshared)
      rw [mergeLog, hacc.log, hacc.commitIndex]
      refine ⟨?_, hacc.lastApplied, htake⟩
      split
      next hraise => exact Nat.le_min.mpr ⟨Nat.le_of_lt hraise, hle⟩
      · exact le_rfl
  · exact fun reason node hnode => hnode.of_framed (.markUnhealthy reason node)
  · intro hdeliv
    cases hdeliv

end Handling

/-! ## Callbacks -/

def noteEntry (entries : List (Nat × LogEntry)) : Output → List (Nat × LogEntry)
  | .booted => []
  | .applied index entry => entries ++ [(index, entry)]
  | _ => entries

/-- The entries called back since the node came up. -/
def entriesSince (history : List (NodeId × Output)) (v : NodeId) : List (Nat × LogEntry) :=
  ((history.filter fun record => record.1 = v).map Prod.snd).foldl noteEntry []

/-- The indices called back since the node came up. -/
def appliedSince (history : List (NodeId × Output)) (v : NodeId) : List Nat :=
  (entriesSince history v).map Prod.fst

theorem entriesSince_putOut (v : NodeId) (outs : List Output) (history : List (NodeId × Output)) :
    entriesSince (putOut v outs history) v = outs.foldl noteEntry (entriesSince history v) := by
  simp [entriesSince, putOut, filter_map, Function.comp_def]

theorem entriesSince_putOut_of_ne {u v : NodeId} (hne : u ≠ v) (outs : List Output)
    (history : List (NodeId × Output)) :
    entriesSince (putOut v outs history) u = entriesSince history u := by
  simp [entriesSince, putOut, filter_map, Function.comp_def, hne.symm]

inductive Phase where
  | resting
  /-- These entries are still to be replayed. -/
  | replaying (pending : List (Nat × LogEntry))
  /-- The callback is under way for a new entry. -/
  | calling (index : Nat)

def Pipeline.phase : Pipeline → Phase
  | .delivering .replay pending inFlight =>
    .replaying (if inFlight then pending.tail else pending)
  | .delivering _ ((index, _) :: _) true => .calling index
  | _ => .resting

/-- The apply position after callbacks up to `n`. -/
def Progress (node : RaftNode) (n : Nat) : Phase → Prop
  | .resting => node.healthy = true → n = node.lastApplied
  | .replaying pending =>
    n ≤ node.lastApplied ∧ pending.map Prod.fst = List.range' (n + 1) (node.lastApplied - n)
  | .calling index => node.healthy = true → index = n ∧ n = node.lastApplied + 1

structure InOrder (p : Process) (entries : List (Nat × LogEntry)) : Prop where
  consecutive : entries.map Prod.fst = List.range' 1 entries.length
  silent : p.host.node.applyCb = false → entries = []
  progress : p.host.node.applyCb = true → Progress p.host.node entries.length p.pipeline.phase

section Callbacks

variable {lib : Libraries} {cfg : RaftConfig} {p p' : Process} {action : Action}
  {next : Process × List Output} {entries : List (Nat × LogEntry)}

theorem Progress.framed {node node' : RaftNode} {n : Nat} {phase : Phase}
    (h : Progress node n phase) (happ : node'.lastApplied = node.lastApplied)
    (hup : node'.healthy = true → node.healthy = true) : Progress node' n phase := by
  cases phase with
  | resting => exact fun hnode' => (h (hup hnode')).trans happ.symm
  | replaying =>
    simp only [Progress, happ] at h ⊢
    exact h
  | calling => exact fun hnode' => happ ▸ h (hup hnode')

variable {purpose : Purpose} {pipeline : Pipeline} {index : Nat} {entry : LogEntry}
  {rest : List (Nat × LogEntry)}

@[simp] theorem phase_delivering_false (pending : List (Nat × LogEntry))
    (hpurpose : purpose ≠ .replay) :
    (Pipeline.delivering purpose pending false).phase = .resting := by
  cases purpose with
  | replay => exact absurd rfl hpurpose
  | _ => cases pending <;> rfl

theorem phase_delivering_true (index : Nat) (entry : LogEntry) (rest : List (Nat × LogEntry))
    (hpurpose : purpose ≠ .replay) :
    (Pipeline.delivering purpose ((index, entry) :: rest) true).phase = .calling index := by
  cases purpose with
  | replay => exact absurd rfl hpurpose
  | _ => rfl

theorem phase_of_delivery {pipeline' : Pipeline} (h : pipeline'.delivery = pipeline.delivery) :
    pipeline'.phase = pipeline.phase := by
  cases pipeline <;> cases pipeline' <;> simp_all [Pipeline.delivery, Pipeline.phase]

theorem foldl_eq_self {α β : Type} {f : α → β → α} {a : α} {l : List β}
    (h : ∀ b ∈ l, f a b = a) : l.foldl f a = a := by
  induction l with
  | nil => rfl
  | cons b rest ih =>
    rw [foldl_cons, h b mem_cons_self]
    exact ih fun b' hb' => h b' (mem_cons_of_mem _ hb')

theorem silent_of_advances (h : Advances lib cfg p action next)
    (hboot : ∀ callback, action ≠ .boot callback) (hcallback : action ≠ .callback) :
    .booted ∉ next.2 ∧ ∀ index entry, .applied index entry ∉ next.2 := by
  refine ⟨fun hout => ?_, fun index entry hout => ?_⟩
  · have hemits := emits_of_mem h hout
    cases action with
    | boot callback => exact absurd rfl (hboot callback)
    | _ => cases hemits
  · have hemits := emits_of_mem h hout
    cases action with
    | callback => exact absurd rfl hcallback
    | _ => cases hemits

theorem foldl_noteEntry (h : Advances lib cfg p action next) (hboot : ∀ cb, action ≠ .boot cb)
    (hcallback : action ≠ .callback) : next.2.foldl noteEntry entries = entries := by
  obtain ⟨hbooted, happ⟩ := silent_of_advances h hboot hcallback
  refine foldl_eq_self fun output hout => ?_
  cases output with
  | booted => exact absurd hout hbooted
  | applied index entry => exact absurd hout (happ index entry)
  | _ => rfl

theorem InOrder.moved {scope : Scope} (h : InOrder p entries)
    (hsteps : HostSteps lib cfg scope p.host p'.host)
    (hprog : Progress p.host.node entries.length p.pipeline.phase →
      Progress p'.host.node entries.length p'.pipeline.phase) : InOrder p' entries where
  consecutive := h.consecutive
  silent hcallback := h.silent (hsteps.applyCb ▸ hcallback)
  progress hcallback := hprog (h.progress (hsteps.applyCb ▸ hcallback))

theorem boot_inOrder (cb : Bool) (host : Host)
    (hstored : host.durable.lastApplied ≤ host.durable.log.length) : InOrder (boot cb host) [] where
  consecutive := rfl
  silent _ := rfl
  progress hcallback := by
    obtain rfl : cb = true := hcallback
    obtain ⟨_, _, hlog, _, happ⟩ := RaftPersistentState.mk.inj (load_persistent host)
    refine ⟨Nat.zero_le _, ?_⟩
    exact map_fst_drainLoop (by rw [happ, hlog]; exact hstored) (Nat.le_of_eq (Nat.zero_add _))

theorem progress_abandonDelivery (purpose : Purpose) {n : Nat}
    (h : p.host.node.healthy = true → n = p.host.node.lastApplied) :
    Progress (p.abandonDelivery purpose).1.host.node n
      (p.abandonDelivery purpose).1.pipeline.phase := by cases purpose <;> exact h

theorem InOrder.called (h : InOrder p entries) (hcallback : p.host.node.applyCb = true)
    (hidx : index = entries.length + 1)
    (hprog : Progress p.host.node (entries.length + 1) pipeline.phase) :
    InOrder { p with pipeline } (entries ++ [(index, entry)]) where
  consecutive := by
    rw [length_append, length_singleton, List.range'_1_concat, ← h.consecutive, map_append, hidx,
      Nat.add_comm]
    rfl
  silent hnone := by simp [hcallback] at hnone
  progress _ := by simpa using hprog

theorem callBack_inOrder (h : InOrder p entries)
    (hpipe : p.pipeline = .delivering purpose ((index, entry) :: rest) false) :
    InOrder (p.callBack purpose index entry rest).1
      ((p.callBack purpose index entry rest).2.foldl noteEntry entries) := by
  rcases callBack_cases purpose index entry rest p with
    ⟨hpurpose, hcase⟩ | ⟨hnext, hcase⟩
  · have hsilent : (p.abandonDelivery purpose).2.foldl noteEntry entries = entries := by
      cases purpose <;> rfl
    rw [hcase, hsilent]
    refine ⟨h.consecutive, ?_, fun hcallback => ?_⟩
    · rw [abandonDelivery_host]
      exact h.silent
    · rw [abandonDelivery_host] at hcallback
      have hprog := h.progress hcallback
      rw [hpipe, phase_delivering_false _ hpurpose] at hprog
      exact progress_abandonDelivery purpose hprog
  · rw [hcase]
    cases hcallback : p.host.node.applyCb with
    | false =>
      refine ⟨h.consecutive, h.silent, fun hsome => ?_⟩
      simp [hcallback] at hsome
    | true =>
      have hprog := h.progress hcallback
      rw [hpipe] at hprog
      by_cases hpurpose : purpose = .replay
      · subst hpurpose
        obtain ⟨hle, hpend⟩ := hprog
        obtain ⟨k, hk⟩ : ∃ k, p.host.node.lastApplied - entries.length = k + 1 := by
          refine Nat.exists_eq_succ_of_ne_zero fun hzero => ?_
          simp [hzero] at hpend
        rw [hk, List.range'_succ] at hpend
        obtain ⟨hidx, hrest⟩ := List.cons.inj hpend
        refine h.called hcallback hidx ⟨by omega, ?_⟩
        have hk' : p.host.node.lastApplied - (entries.length + 1) = k := by omega
        rw [hk']
        exact hrest
      · rw [phase_delivering_false _ hpurpose] at hprog
        have hnext := hnext.resolve_left hpurpose
        simp only [isNextToApply, Bool.and_eq_true, decide_eq_true_eq] at hnext
        have hpos := hprog hnext.1
        refine h.called hcallback (by omega) ?_
        cases purpose with
        | replay => exact absurd rfl hpurpose
        | _ => exact fun _ => ⟨by omega, by omega⟩

theorem callbackDone_inOrder {verd : Verdict} (h : InOrder p entries)
    (hpipe : p.pipeline = .delivering purpose ((index, entry) :: rest) true) :
    InOrder (p.callbackDone lib cfg purpose index rest verd).1 entries := by
  have hadv : Advances lib cfg p (.callbackReturned verd)
      (p.callbackDone lib cfg purpose index rest verd) := .callbackReturned verd hpipe
  refine h.moved (hostSteps_of_advances hadv (by simp)) fun hprog => ?_
  rw [hpipe] at hprog
  dsimp only [callbackDone]
  split
  · exact hprog
  next hpurpose =>
    generalize hmark : markApplied lib cfg index p.host = result
    obtain ⟨host, ok⟩ := result
    rw [phase_delivering_true _ _ _ hpurpose] at hprog
    rcases markApplied_cases hmark with ⟨rfl, hnext, happ⟩ | ⟨rfl, hnext, rfl⟩ | ⟨rfl, hnot⟩
    · dsimp only
      rw [phase_delivering_false _ hpurpose]
      intro _
      simp only [isNextToApply, Bool.and_eq_true, decide_eq_true_eq] at hnext
      obtain ⟨hidx, _⟩ := hprog hnext.1
      omega
    · refine progress_abandonDelivery _ fun hup => ?_
      obtain ⟨hidx, hpos⟩ := hprog hup
      have hup : p.host.node.healthy = true := hup
      simp [isNextToApply, hidx, hpos, hup] at hnext
    · exact progress_abandonDelivery _ fun hup => by simp [hnot] at hup
  · exact progress_abandonDelivery _ fun hup => by simp [failApply] at hup

/-- A complete delivery has passed all its indices. -/
theorem completeDelivery_inOrder (lib : Libraries) {inFlight : Bool} (h : InOrder p entries)
    (hpipe : p.pipeline = .delivering purpose [] inFlight) :
    InOrder (p.completeDelivery cfg purpose).1 entries := by
  have hadv : Advances lib cfg p .finishDelivery (p.completeDelivery cfg purpose) :=
    .finishDelivery hpipe
  refine h.moved (hostSteps_of_advances hadv (by simp)) fun hprog => ?_
  rw [hpipe] at hprog
  cases purpose with
  | replay =>
    obtain ⟨hle, hpend⟩ := hprog
    have hdone : entries.length = p.host.node.lastApplied := by
      have hlen := congrArg List.length hpend
      have hnone : p.host.node.lastApplied - entries.length = 0 := by
        cases inFlight <;> simpa using hlen.symm
      omega
    dsimp only [completeDelivery]
    split
    · rw [phase_delivering_false _ (by simp)]
      exact fun _ => hdone
    · exact fun _ => hdone
  | catchUp | reply | append => cases inFlight <;> exact hprog

/-- Callbacks stay in order if messages leave the position. -/
theorem InOrder.advance (h : InOrder p entries) (hadv : Advances lib cfg p action next)
    (hstored : p.host.durable.lastApplied ≤ p.host.durable.log.length)
    (hmsg : ∀ args, action = .appendEntries args →
      next.1.host.node.lastApplied = p.host.node.lastApplied) :
    InOrder next.1 (next.2.foldl noteEntry entries) := by
  cases hdeliv : action.delivers with
  | false =>
    have hboot : ∀ callback, action ≠ .boot callback := by
      rintro callback rfl
      cases hdeliv
    have hsteps := hostSteps_of_advances hadv hboot
    rw [foldl_noteEntry hadv hboot (by rintro rfl; cases hdeliv)]
    refine h.moved hsteps fun hprog => ?_
    rw [(moves_of_advances hadv hdeliv).congr phase_of_delivery
      fun _ pending => phase_delivering_false pending]
    obtain ⟨hup, happ⟩ := settled_of_advances hadv hdeliv
    refine hprog.framed ?_ hup
    by_cases hargs : ∃ args, action = .appendEntries args
    · obtain ⟨args, hargs⟩ := hargs
      exact hmsg args hargs
    · exact happ fun args heq => hargs ⟨args, heq⟩
  | true =>
    have hnote : (∀ callback, action ≠ .boot callback) → action ≠ .callback →
        next.2.foldl noteEntry entries = entries := foldl_noteEntry hadv
    cases hadv with
    | boot callback => exact boot_inOrder callback p.host hstored
    | callback hpipe => exact callBack_inOrder h hpipe
    | callbackReturned verdict hpipe =>
      rw [hnote (by simp) (by simp)]
      exact callbackDone_inOrder h hpipe
    | finishDelivery hpipe =>
      rw [hnote (by simp) (by simp)]
      exact completeDelivery_inOrder lib h hpipe
    | _ => cases hdeliv

end Callbacks

/-! ## Runs -/

section Runs

variable {lib : Libraries} {setup : ClusterConfig} {c c' : Cluster} {event : Event}

/-- A message leaves the committed part alone. -/
theorem run_keeps (hrun : Cluster.Run lib setup (orderlyStep setup) c) {args : AppendEntriesArgs}
    {next : Process × List Output} (hv : event.node ∈ setup.peers)
    (hdeliv : c.delivers event.node event.action = true) (hact : event.action = .appendEntries args)
    (hadv : Advances lib (setup.node event.node)
      ((c.procs event.node).withIo event.io) event.action next) :
    Keeps (c.procs event.node).host.node next.1.host.node := by
  obtain ⟨a, hrel⟩ := run_orderly hrun
  have hhost := ((hrel.procs _ hv).withIo event.io).host
  have hdelivered := delivered_of_delivers hdeliv
  rw [hact] at hadv hdelivered
  obtain ⟨src, hsrc⟩ := hdelivered
  obtain ⟨_, hmsg, _⟩ := hrel.network _ _ hsrc
  cases hadv with
  | appendEntries args =>
    have hkeeps : Keeps (c.procs event.node).host.node
        (handleAppendEntries lib (setup.node event.node) args
          ((c.procs event.node).withIo event.io).host).1.node :=
      handleAppendEntries_keeps _ hrel.inv hhost hmsg
    unfold receiveEntries
    generalize handleAppendEntries _ _ _ _ = result at hkeeps ⊢
    obtain ⟨host, reply, applied⟩ := result
    cases applied <;> exact hkeeps

theorem run_inOrder (hrun : Cluster.Run lib setup (orderlyStep setup) c) {v : NodeId}
    (hv : v ∈ setup.peers) : InOrder (c.procs v) (entriesSince c.history v) := by
  refine run_nodes (motive := fun history v p => InOrder p (entriesSince history v)) ?_ ?_ ?_
    hrun hv
  · exact fun v => ⟨rfl, fun _ => rfl, nofun⟩
  · intro history u v p outs hne h
    rwa [entriesSince_putOut_of_ne hne]
  · intro c event next hrun _ hv hdeliv hadv h
    obtain ⟨a, hrel⟩ := run_orderly hrun
    have hstored := (hrel.procs _ hv).host.stored.wellFormed
    have h : InOrder ((c.procs event.node).withIo event.io) (entriesSince c.history event.node) :=
      ⟨h.consecutive, h.silent, h.progress⟩
    rw [entriesSince_putOut]
    exact h.advance hadv (hstored.applied.trans hstored.commit)
      (fun args hact => (run_keeps hrun hv hdeliv hact hadv).lastApplied)

/-- `handle_append_entries` never takes back what is committed or applied, and between two restarts
the callback sees the indices from one on, each once. -/
theorem committed_prefix_immutable (hrun : Cluster.Run lib setup (orderlyStep setup) c) :
    (∀ event c' args, event.action = .appendEntries args →
        Cluster.step lib setup event c = some c' →
        (c.procs event.node).host.node.commitIndex ≤ (c'.procs event.node).host.node.commitIndex ∧
          (c.procs event.node).host.node.lastApplied ≤ (c'.procs event.node).host.node.lastApplied ∧
          (c'.procs event.node).host.node.log.take (c.procs event.node).host.node.commitIndex =
            (c.procs event.node).host.node.log.take (c.procs event.node).host.node.commitIndex) ∧
      ∀ v ∈ setup.peers, ∃ n, appliedSince c.history v = List.range' 1 n := by
  refine ⟨fun event c' args hact hstep => ?_, fun v hv => ⟨_, (run_inOrder hrun hv).consecutive⟩⟩
  obtain ⟨hv, hdeliv, p, outputs, hadv, rfl⟩ := step_eq_some hstep
  have hkeeps := run_keeps hrun hv hdeliv hact (advances_of_advance hadv)
  dsimp only
  rw [Function.update_self]
  exact ⟨hkeeps.commitIndex, Nat.le_of_eq hkeeps.lastApplied.symm, hkeeps.log⟩

/-- `a` applies another command, which `b` only holds. -/
def applyTwoX : List Event := shareX ++
    [on nodeA (.heartbeatReplied .pipeline (accepted 1 1)), on nodeA (.sendHeartbeat .pipeline),
      on nodeA (.heartbeatReplied .pipeline .empty), on nodeA (.sendHeartbeat .pipeline),
      on nodeA (.appendCommand entryX.command), on nodeA .sendEntries,
      on nodeB (.appendEntries { beatX with entries := [entryX] }), on nodeB .finishDelivery,
      on nodeA (.entriesReplied (accepted 1 2)), on nodeA .sendEntries,
      on nodeA (.entriesReplied .empty), on nodeA .closeReplication, on nodeA .callback]

/-- The theorem where `b` gets a heartbeat a second time, and where `a` has called back twice. -/
theorem committed_prefix_immutable_applyTwoX : ∃ c',
    Cluster.step reference trio (on nodeB (.appendEntries beatX))
        (reached (orderlyStep trio) applyTwoX) = some c' ∧
      1 ≤ (c'.procs nodeB).host.node.commitIndex ∧
      (c'.procs nodeB).host.node.log.take 1 = [entryX] ∧
      appliedSince (reached (orderlyStep trio) applyTwoX).history nodeA = [1, 2] ∧
      ∃ n, appliedSince (reached (orderlyStep trio) applyTwoX).history nodeA = List.range' 1 n := by
  obtain ⟨hrun, c', hstep, hcommit, hlog, hcalls⟩ := reached_step (orderlyStep trio) applyTwoX
    (on nodeB (.appendEntries beatX)) (fun c _ => (c.procs nodeB).host.node.commitIndex = 1 ∧
      (c.procs nodeB).host.node.log.take 1 = [entryX] ∧ appliedSince c.history nodeA = [1, 2])
    (by decide +kernel)
  obtain ⟨hkeeps, hindices⟩ := committed_prefix_immutable hrun
  obtain ⟨hle, -, htake⟩ := hkeeps _ c' beatX rfl hstep
  rw [show (on nodeB (.appendEntries beatX)).node = nodeB from rfl, hcommit] at hle htake
  exact ⟨c', hstep, hle, htake.trans hlog, hcalls, hindices nodeA (by decide)⟩

/-- `a` commits alone, and `b` leads the next term. -/
def overwriteX : List Event := commitAlone ++ [replyToBeat] ++ replicationLost nodeA ++ electB ++
    [on nodeB (.appendCommand entryY.command), on nodeB .sendEntries]

def messageY : Event :=
  on nodeA (.appendEntries { term := 2, leaderId := nodeB, entries := [entryY] })

/-- With this message `a` replaces an entry below its commit index. -/
theorem committed_prefix_immutable_overwriteX : ∃ c',
    Cluster.Run reference trio anyStep (reached anyStep overwriteX) ∧
      Cluster.step reference trio messageY (reached anyStep overwriteX) = some c' ∧
      ((reached anyStep overwriteX).procs nodeA).host.node.commitIndex = 1 ∧
      ((reached anyStep overwriteX).procs nodeA).host.node.log.take 1 = [entryX] ∧
      (c'.procs nodeA).host.node.log.take 1 = [entryY] := by
  obtain ⟨hrun, c', hstep, hcheck⟩ := reached_step anyStep overwriteX messageY
    (fun c c' => (c.procs nodeA).host.node.commitIndex = 1 ∧
      (c.procs nodeA).host.node.log.take 1 = [entryX] ∧
      (c'.procs nodeA).host.node.log.take 1 = [entryY]) (by decide +kernel)
  exact ⟨c', hrun, hstep, hcheck⟩

end Runs

end BoostGateway.Raft
