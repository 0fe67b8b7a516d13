import BoostGateway.Raft.Changes
import BoostGateway.Raft.Commitment

/-!
# What `append_command` acknowledges

`append_command` returns true once a quorum of peers accepts its messages. That the entry is then
committed does not follow: a late reply can take a match index back, the node can have won a later
term, and a peer can accept a message without holding the entry. In the runs without these
(`appendStep`) it is committed, applied and held by a quorum (`append_command_acknowledged`).
-/

namespace BoostGateway.Raft

open List Consensus Consensus.Replicas Process

/-! ## Conditions on runs -/

def Pipeline.replicates : Pipeline → Option Nat
  | .replicating index _ _ _ => some index
  | .awaiting index _ _ _ _ _ => some index
  | _ => none

def SteadyStep (p : Process) (action : Action) : Prop :=
  match p.pipeline.replicates, p.report action with
  | some index, some (peer, args, reply) =>
    acceptsReply p.host.node args reply = true →
      index ≤ (p.host.node.matchIndex.lookup peer).getD 0 → index ≤ reply.matchIndex
  | _, _ => True

def SameTermStep (p : Process) (action : Action) : Prop :=
  match action, p.pipeline with
  | .closeReplication, .replicating index _ _ _ =>
    p.host.node.state = .leader → index ≤ p.host.node.commitIndex ∨
        termAt p.host.node.log (index - 1) = p.host.node.currentTerm
  | _, _ => True

/-- Orderly, and what `append_command` needs. -/
def appendStep (setup : ClusterConfig) (c : Cluster) (event : Event) : Prop :=
  orderlyStep setup c event ∧ SteadyStep (c.procs event.node) event.action ∧
    SameTermStep (c.procs event.node) event.action

instance (p : Process) (action : Action) : Decidable (SteadyStep p action) := by
  unfold SteadyStep
  split <;> infer_instance

instance (p : Process) (action : Action) : Decidable (SameTermStep p action) := by
  unfold SameTermStep
  generalize p.pipeline = pipeline
  induction action using Action.casesOn with
  | closeReplication => induction pipeline using Pipeline.casesOn <;> infer_instance
  | _ => infer_instance

instance (setup : ClusterConfig) (c : Cluster) (event : Event) :
    Decidable (appendStep setup c event) := by
  unfold appendStep
  infer_instance

/-! ## A call under way -/

structure Pushed (node : RaftNode) (index : Nat) (command : Bytes) : Prop where
  pos : 1 ≤ index
  length : node.log.length = index
  entry : (node.log[index - 1]?).map LogEntry.command = some command

/-- While the node leads its last entry's term, the successes are itself and different peers that
hold the entry. -/
structure Tally (node : RaftNode) (index successes : Nat) (remaining : List NodeId) : Prop where
  candidate : node.state = .candidate → node.currentTerm ≠ termAt node.log (index - 1)
  counted : node.state = .leader → node.currentTerm = termAt node.log (index - 1) →
    ∃ counted : List NodeId, counted.Nodup ∧ successes = counted.length + 1 ∧
      ∀ u ∈ counted, u ∉ remaining ∧ index ≤ (node.matchIndex.lookup u).getD 0

def AppendOk (node : RaftNode) : Pipeline → Prop
  | .replicating index command successes targets =>
    Pushed node index command ∧ targets.Nodup ∧ Tally node index successes targets
  | .awaiting index command successes peer args rest =>
    Pushed node index command ∧ (peer :: rest).Nodup ∧ Tally node index successes (peer :: rest) ∧
      index ≤ args.prevLogIndex + args.entries.length
  | .delivering (.append index command) pending _ =>
    Pushed node index command ∧ index ≤ node.commitIndex ∧ index ≤ node.lastApplied + pending.length
  | .beating index command _ =>
    Pushed node index command ∧ index ≤ node.commitIndex ∧ index ≤ node.lastApplied
  | _ => True

abbrev Process.AppendOk (p : Process) : Prop := Raft.AppendOk p.host.node p.pipeline

section Frames

variable {lib : Libraries} {cfg : RaftConfig} {scope : Scope} {host after : Host}
  {node node' : RaftNode} {index successes : Nat} {remaining : List NodeId} {command : Bytes}

theorem Pushed.of_log (h : Pushed node index command) (hlog : node'.log = node.log) :
    Pushed node' index command :=
  ⟨h.pos, hlog ▸ h.length, hlog ▸ h.entry⟩

theorem Tally.congr (h : Tally node index successes remaining) (hlog : node'.log = node.log)
    (hterm : node'.currentTerm = node.currentTerm) (hst : node'.state = node.state)
    (hmatch : node'.matchIndex = node.matchIndex) : Tally node' index successes remaining where
  candidate := by
    rw [hlog, hterm, hst]
    exact h.candidate
  counted := by
    rw [hlog, hterm, hst, hmatch]
    exact h.counted

theorem Tally.follower (hst : node.state = .follower) : Tally node index successes remaining where
  candidate hcand := by simp [hst] at hcand
  counted hlead := by simp [hst] at hlead

theorem Tally.markUnhealthy (h : Tally node index successes remaining) (reason : Bytes) :
    Tally (markUnhealthyLocked reason node) index successes remaining := by
  cases hup : node.healthy with
  | true => exact .follower (markUnhealthyLocked_state reason (by simp [hup]))
  | false => simpa [markUnhealthyLocked, hup] using h

variable {peer : NodeId}

theorem Tally.weaken (h : Tally node index successes (peer :: remaining)) :
    Tally node index successes remaining where
  candidate := h.candidate
  counted hlead hterm := by
    obtain ⟨counted, hnodup, hsuccesses, hreach⟩ := h.counted hlead hterm
    refine ⟨counted, hnodup, hsuccesses, fun u hu => ⟨fun hmem => ?_, (hreach u hu).2⟩⟩
    exact (hreach u hu).1 (mem_cons_of_mem _ hmem)

theorem Tally.add (h : Tally node index successes (peer :: remaining)) (hnot : peer ∉ remaining)
    (hmatched : index ≤ (node.matchIndex.lookup peer).getD 0) :
    Tally node index (successes + 1) remaining where
  candidate := h.candidate
  counted hlead hterm := by
    obtain ⟨counted, hnodup, hsuccesses, hreach⟩ := h.counted hlead hterm
    refine ⟨peer :: counted, nodup_cons.mpr ⟨fun hmem => ?_, hnodup⟩, ?_, fun u hu => ?_⟩
    · exact (hreach peer hmem).1 mem_cons_self
    · rw [length_cons, hsuccesses]
    · rcases mem_cons.mp hu with rfl | hu
      · exact ⟨hnot, hmatched⟩
      · exact ⟨fun hmem => (hreach u hu).1 (mem_cons_of_mem _ hmem), (hreach u hu).2⟩

section

variable (hstarts : scope.starts = false) (hmessage : scope.message = none)
  (hcommand : scope.command = none)
  (helects : scope.before.healthy = true →
    wrap64 (scope.before.currentTerm + 1) ≠ termAt scope.before.log (index - 1))
  (hreport : ∀ peer args reply, scope.report = some (peer, args, reply) →
    acceptsReply scope.before args reply = true →
    index ≤ (scope.before.matchIndex.lookup peer).getD 0 → index ≤ reply.matchIndex)

include hstarts hmessage hcommand helects hreport

/-- The count stays with the log, as match indices do not go back. -/
theorem Tally.change (h : Tally node index successes remaining)
    (hchange : Change cfg scope node node') :
    Tally node' index successes remaining := by
  cases hchange with
  | note hpers _ hst _ hmatch =>
    obtain ⟨hterm, _, hlog, _⟩ := RaftPersistentState.mk.inj hpers
    exact h.congr hlog hterm hst hmatch
  | unhealthy reason => exact h.markUnhealthy reason
  | later | follower => exact .follower rfl
  | candidate hpre hup =>
    rw [← hpre] at helects
    exact ⟨fun _ => helects hup, nofun⟩
  | vote => exact h.congr rfl rfl rfl rfl
  | leader _ hst => exact ⟨nofun, fun _ hterm => absurd hterm (h.candidate hst)⟩
  | lone _ htrue => simp [hstarts] at htrue
  | backOff => exact h.congr rfl rfl rfl rfl
  | @recordMatch peer args reply hpre hsome hacc =>
    refine ⟨h.candidate, fun hlead hterm => ?_⟩
    obtain ⟨counted, hnodup, hsuccesses, hreach⟩ := h.counted hlead hterm
    refine ⟨counted, hnodup, hsuccesses, fun u hu => ⟨(hreach u hu).1, ?_⟩⟩
    have hold := (hreach u hu).2
    dsimp only [recordMatch]
    by_cases hpeer : u = peer
    · subst hpeer
      rw [AList.lookup_insert]
      rw [← hpre] at hreport
      exact hreport u args reply hsome hacc hold
    · rwa [AList.lookup_insert_ne hpeer]
  | commit => fun_cases updateCommitIndexLocked cfg node <;> exact h.congr rfl rfl rfl rfl
  | log hlog =>
    cases hlog with
    | push _ hsome => simp [hcommand] at hsome
    | truncate hsome | merge hsome => simp [hmessage] at hsome
    | applied => exact h.congr rfl rfl rfl rfl

theorem Tally.hostSteps (h : Tally host.node index successes remaining)
    (hsteps : HostSteps lib cfg scope host after) : Tally after.node index successes remaining :=
  hsteps.invariant (motive := fun node => Tally node index successes remaining)
    (fun _ _ hchange hnode => hnode.change hstarts hmessage hcommand helects hreport hchange)
    (fun reason _ hnode => hnode.markUnhealthy reason)
    (fun _ _ _ hnode => hnode.congr rfl rfl rfl rfl) h

end

end Frames

/-! ## Sections -/

section Sections

variable {lib : Libraries} {setup : ClusterConfig} {history : List (NodeId × Output)} {a : Record}
  {v : NodeId} {p : Process} {action : Action} {next : Process × List Output}
variable {matched : Nat → NodeId → Nat → Prop} {host : Host} {level : Level} {index successes : Nat}
  {command : Bytes} {cfg : RaftConfig}

/-- The next term of a healthy node is none of its entries'. -/
theorem HostRel.wrap64_ne (hrel : HostRel level setup matched a v host)
    (hpush : Pushed host.node index command) (hup : host.node.healthy = true) :
    wrap64 (host.node.currentTerm + 1) ≠ termAt host.node.log (index - 1) := by
  have hi : index - 1 < host.node.log.length := by
    have := hpush.pos
    have := hpush.length
    omega
  have hentry : host.node.log[index - 1]? = some host.node.log[index - 1] :=
    List.getElem?_eq_getElem hi
  obtain ⟨hpos, hle, _⟩ := (hrel.describes hup).wellFormed.entries _ (getElem_mem hi)
  have hle : host.node.log[index - 1].term ≤ host.node.currentTerm := hle
  have hbound := hrel.bound
  rw [termAt_eq hentry, wrap64]
  rcases Nat.lt_or_ge (host.node.currentTerm + 1) (2 ^ 64) with hlt | hge
  · omega
  · have hwrap : host.node.currentTerm + 1 = 2 ^ 64 := by omega
    omega

section

variable (hrel : HostRel level setup matched a v p.host)
  (hsteps : HostSteps lib cfg (p.scope action) p.host host) (hsteady : SteadyStep p action)
  (hstarts : (p.scope action).starts = false) (hmessage : (p.scope action).message = none)
  (hcommand : (p.scope action).command = none)

include hrel hsteps hsteady hstarts hmessage hcommand

theorem Tally.framed {remaining : List NodeId} (h : Tally p.host.node index successes remaining)
    (hpush : Pushed p.host.node index command) (hreplicates : p.pipeline.replicates = some index) :
    Tally host.node index successes remaining := by
  refine h.hostSteps hstarts hmessage hcommand ?_ ?_ hsteps
  · rw [(scope_spec _ _).before]
    exact hrel.wrap64_ne hpush
  · rw [(scope_spec _ _).before, (scope_spec _ _).report]
    intro peer args reply hreport
    simpa only [SteadyStep, hreplicates, hreport] using hsteady

/-- Other threads keep what the pipeline relies on. -/
theorem AppendOk.framed (h : AppendOk p.host.node p.pipeline)
    (hdeliv : (p.scope action).delivers = false) : AppendOk host.node p.pipeline := by
  obtain ⟨hlog, hcom⟩ := hsteps.log hmessage hcommand
  have happ := hsteps.lastApplied hmessage hdeliv
  generalize hpipe : p.pipeline = pipeline at h ⊢
  cases pipeline with
  | free | starting => trivial
  | delivering purpose =>
    cases purpose with
    | append =>
      obtain ⟨hpush, hle, hpend⟩ := h
      exact ⟨hpush.of_log hlog, hle.trans hcom, happ ▸ hpend⟩
    | _ => trivial
  | replicating =>
    obtain ⟨hpush, hnodup, htally⟩ := h
    exact ⟨hpush.of_log hlog, hnodup, htally.framed hrel hsteps hsteady hstarts hmessage
      hcommand hpush (by rw [hpipe]; rfl)⟩
  | awaiting =>
    obtain ⟨hpush, hnodup, htally, hcovers⟩ := h
    exact ⟨hpush.of_log hlog, hnodup, htally.framed hrel hsteps hsteady hstarts hmessage
      hcommand hpush (by rw [hpipe]; rfl), hcovers⟩
  | beating =>
    obtain ⟨hpush, hle, hdone⟩ := h
    exact ⟨hpush.of_log hlog, hle.trans hcom, happ ▸ hdone⟩

end

variable {peer : NodeId} {rest : List NodeId} {after : Host} {node : RaftNode}

theorem appendCommand_true (h : appendCommand lib cfg command host = (after, true)) :
    storesCommand host.node command = true ∧ after.node = pushCommand cfg command host.node := by
  unfold appendCommand at h
  split at h
  · cases (Prod.mk.inj h).2
  next hguard =>
  simp only [not_or, Decidable.not_not, Nat.not_lt, Nat.not_le] at hguard
  obtain ⟨hup, hst, hbytes, hentries⟩ := hguard
  have hup : host.node.healthy = true := by simpa using hup
  refine ⟨by simp [storesCommand, hup, hst, hbytes, hentries], ?_⟩
  have hkept := persistStateLocked_kept h (by simpa [pushCommand] using hup)
  generalize after.node = node at hkept
  cases hkept
  rfl

/-- The first entry of `append_command` is the one it stores. -/
theorem beginAppend_appendOk (command : Bytes) (hv : v ∈ setup.peers)
    (hpipe : p.pipeline = .free) : (p.beginAppend lib (setup.node v) command).AppendOk := by
  unfold beginAppend
  generalize hres : appendCommand lib (setup.node v) command p.host = result
  obtain ⟨host, ok⟩ := result
  cases ok with
  | false =>
    rw [hpipe]
    trivial
  | true =>
    obtain ⟨hstores, hnode⟩ := appendCommand_true hres
    simp only [storesCommand, Bool.and_eq_true, decide_eq_true_eq] at hstores
    have hst : p.host.node.state = .leader := hstores.1.1.2
    have hlen : host.node.log.length = p.host.node.log.length + 1 := by simp [hnode, pushCommand]
    refine ⟨⟨by omega, rfl, by simp [hnode, pushCommand]⟩, ClusterConfig.targets_nodup hv, ?_, ?_⟩
    · intro hcand
      simp [hnode, pushCommand, hst] at hcand
    · exact fun _ _ => ⟨[], .nil, rfl, by simp⟩

/-- What `append_command` delivers after the replication loop. -/
theorem commitAppended_some {applied : List (Nat × LogEntry)}
    (h : commitAppended lib cfg successes host = (after, some applied)) :
    host.node.healthy = true ∧ host.node.state = .leader ∧ cfg.quorumSize ≤ successes ∧
      after.node = updateCommitIndexLocked cfg host.node ∧
      applied = drainCommittedEntriesLocked (updateCommitIndexLocked cfg host.node) := by
  unfold commitAppended at h
  split at h
  · cases (Prod.mk.inj h).2
  next hguard =>
  simp only [not_or, Decidable.not_not] at hguard
  obtain ⟨hup, hst, hquorum⟩ := hguard
  have hup : host.node.healthy = true := by simpa using hup
  dsimp only at h
  generalize hsave : persistStateLocked lib cfg _ = saved at h
  obtain ⟨host', ok⟩ := saved
  cases ok with
  | false => cases (Prod.mk.inj h).2
  | true =>
    obtain ⟨rfl, happ⟩ := Prod.mk.inj h
    have hkept := persistStateLocked_kept hsave (by rwa [updateCommitIndexLocked_healthy])
    refine ⟨hup, hst, Nat.not_lt.mp hquorum, ?_, (Option.some.inj happ).symm⟩
    generalize host'.node = node at hkept
    cases hkept
    rfl

theorem abandonDelivery_appendOk (purpose : Purpose) (p : Process) :
    (p.abandonDelivery purpose).1.AppendOk := by cases purpose <;> trivial

/-- A quorum of successes makes the commit index cover the entry. -/
theorem le_commitIndex_of_tally (hinv : setup.Invariant a)
    (hproc : ProcRel commitLevel setup history a v p) (hv : v ∈ setup.peers)
    (hpush : Pushed p.host.node index command) (htally : Tally p.host.node index successes [])
    (hst : p.host.node.state = .leader) (hquorum : (setup.node v).quorumSize ≤ successes)
    (hsame : index ≤ p.host.node.commitIndex ∨
      termAt p.host.node.log (index - 1) = p.host.node.currentTerm) :
    index ≤ (updateCommitIndexLocked (setup.node v) p.host.node).commitIndex := by
  rcases hsame with hdone | hterm
  · exact hdone.trans (le_updateCommitIndexLocked _ _)
  obtain ⟨counted, hnodup, rfl, hreach⟩ := htally.counted hst hterm.symm
  have hpeers := hproc.host.role.peers trivial hst
  have hranked : index ≤ ranked (replicated p.host.node) (setup.node v).quorumSize := by
    refine (le_ranked_iff (by simp [RaftConfig.quorumSize]) (hpeers.quorumSize_le hv)).mpr ?_
    have hcount := length_le_countP hpush.pos hnodup fun u hu => (hreach u hu).2
    rw [replicated, countP_cons_of_pos (by simp [hpush.length])]
    omega
  have hle : ranked (replicated p.host.node) (setup.node v).quorumSize = index := by
    refine Nat.le_antisymm (Nat.not_lt.mp fun hlt => ?_) hranked
    have hcount := (le_ranked_iff (by simp [RaftConfig.quorumSize])
      (hpeers.quorumSize_le hv)).mp (Nat.succ_le_of_lt hlt)
    obtain ⟨x, hx, hreaches⟩ := countP_pos_iff.mp
      (Nat.lt_of_lt_of_le (by simp [RaftConfig.quorumSize]) hcount)
    have hbound := hproc.host.replicated_le hinv hst trivial hx
    have hlen := hpush.length
    have hreaches := of_decide_eq_true hreaches
    omega
  dsimp only [updateCommitIndexLocked]
  rw [hle]
  split
  · exact le_rfl
  next hnot =>
  rcases Nat.lt_or_ge p.host.node.commitIndex index with hlt | hge
  · exact absurd ⟨hlt, hpush.length.ge, hterm⟩ hnot
  · exact hge

def afterReply (index : Nat) (command : Bytes) (successes : Nat) (rest : List NodeId) :
    ReplyOutcome → Pipeline
  | .abandoned => .free
  | .rejected => .replicating index command successes rest
  | .accepted => .replicating index command (successes + 1) rest

section

variable (h : AppendOk p.host.node p.pipeline)

include h

/-- A delivery moves the apply position by one entry at a time. -/
theorem callbackDone_appendOk {purpose : Purpose} {entry : LogEntry} {rest : List (Nat × LogEntry)}
    {verd : Verdict} (hpipe : p.pipeline = .delivering purpose ((index, entry) :: rest) true) :
    (p.callbackDone lib cfg purpose index rest verd).1.AppendOk := by
  have hsteps : HostSteps lib cfg (p.scope (.callbackReturned verd)) p.host
      (markApplied lib cfg index p.host).1 := markApplied_hostSteps lib cfg rfl rfl
  obtain ⟨hlog, hcom⟩ := hsteps.log (p.scope_message (by simp)) (p.scope_command (by simp))
  rw [hpipe] at h
  dsimp only [callbackDone]
  split
  · trivial
  next purpose _ _ _ _ =>
    generalize hmark : markApplied lib cfg index p.host = marked at hlog hcom ⊢
    obtain ⟨host, ok⟩ := marked
    cases ok with
    | false => exact abandonDelivery_appendOk _ _
    | true =>
      cases purpose with
      | append =>
        obtain ⟨hpush, hle, hpend⟩ := h
        rcases markApplied_cases hmark with ⟨_, hnext, happ⟩ | ⟨hfalse, _⟩ | ⟨hfalse, _⟩
        · refine ⟨hpush.of_log hlog, hle.trans hcom, ?_⟩
          simp only [isNextToApply, Bool.and_eq_true, decide_eq_true_eq] at hnext
          rw [happ]
          simp only [length_cons] at hpend
          omega
        · cases hfalse
        · cases hfalse
      | _ => trivial
  · exact abandonDelivery_appendOk _ _

theorem setBeat_appendOk (thr : Thread) (beat : Beat) : (p.setBeat thr beat).AppendOk := by
  cases thr with
  | worker => exact h
  | pipeline =>
    dsimp only [setBeat]
    split
    next hpipe =>
      rw [hpipe] at h
      exact h
    · exact h

theorem endBeat_appendOk (thr : Thread) : (p.endBeat thr).1.AppendOk := by
  cases thr with
  | worker => exact h
  | pipeline =>
    dsimp only [endBeat]
    split
    · trivial
    · exact h

variable (hproc : ProcRel commitLevel setup history a v p)

include hproc

theorem receiveEntriesReply_appendOk {args : AppendEntriesArgs}
    {res : RpcResult AppendEntriesReply} (hnet : Network commitLevel setup history a)
    (hdelivered : Delivered history v p (.entriesReplied res))
    (hpipe : p.pipeline = .awaiting index command successes peer args rest)
    (hsteady : SteadyStep p (.entriesReplied res)) :
    (p.receiveEntriesReply lib (setup.node v) index command successes peer args rest
      res).1.AppendOk := by
  have hadv : Advances lib (setup.node v) p (.entriesReplied res)
      (p.receiveEntriesReply lib (setup.node v) index command successes peer args rest res) :=
    .entriesReplied res hpipe
  have hsteps := hostSteps_of_advances hadv (by simp)
  rw [hpipe] at h
  obtain ⟨hpush, hnodup, htally, hcovers⟩ := h
  have htally := htally.framed hproc.host hsteps hsteady (p.scope_starts (by simp))
    (p.scope_message (by simp)) (p.scope_command (by simp)) hpush (by rw [hpipe]; rfl)
  have hpush := hpush.of_log (hsteps.log (p.scope_message (by simp)) (p.scope_command (by simp))).1
  obtain ⟨hnot, hrest⟩ := nodup_cons.mp hnodup
  -- a reply, or the default one, which reports no success
  have hreceived : ∀ reply : AppendEntriesReply, (reply.success = true → index ≤ reply.matchIndex) →
      ∀ {host : Host} {outcome : ReplyOutcome},
        receiveReply lib (setup.node v) peer args reply p.host = (host, outcome) →
        Pushed host.node index command → Tally host.node index successes (peer :: rest) →
        AppendOk host.node (afterReply index command successes rest outcome) := by
    intro reply hreaches host outcome hrep hpush htally
    cases outcome with
    | abandoned => trivial
    | rejected => exact ⟨hpush, hrest, htally.weaken⟩
    | accepted =>
      obtain ⟨hacc, hhost⟩ := receiveReply_of_accepted (congrArg Prod.snd hrep)
      rw [hrep] at hhost
      dsimp only at hhost
      simp only [acceptsReply, Bool.and_eq_true] at hacc
      refine ⟨hpush, hrest, htally.add hnot ?_⟩
      rw [hhost]
      simpa [recordMatch] using hreaches hacc.2
  cases res with
  | empty => exact hreceived {} (by simp) rfl hpush htally
  | reply reply =>
    refine hreceived reply (fun hsucc => ?_) rfl hpush htally
    obtain ⟨log, hlog⟩ := hdelivered _ _ _ _ _ _ hpipe
    exact hcovers.trans ((hnet _ _ hlog).2.2 hsucc).2.1
  | threw => trivial

variable (hinv : setup.Invariant a)

include hinv

/-- The next message reaches to the end of the log. -/
theorem sendNextEntries_appendOk
    (hpipe : p.pipeline = .replicating index command successes (peer :: rest)) :
    (p.sendNextEntries (setup.node v) index command successes peer rest).1.AppendOk := by
  have htargets := hproc.pipeline
  rw [hpipe] at h htargets
  obtain ⟨hpush, hnodup, htally⟩ := h
  obtain ⟨hmember, hne⟩ := htargets peer mem_cons_self
  unfold sendNextEntries
  split
  · trivial
  next hguard =>
  simp only [not_or, Decidable.not_not] at hguard
  refine ⟨hpush, hnodup, htally, ?_⟩
  obtain ⟨m, n, hm, hn, hpos, hcase⟩ :=
    (hproc.host.role.peers trivial hguard.2).peer peer hmember hne
  have hle : n ≤ p.host.node.log.length + 1 := by
    rcases hcase with ⟨_, hle, _⟩ | ⟨_, hack, hle⟩
    · exact hle
    · have := hproc.host.ack_le hinv hguard.2 hack
      omega
  obtain ⟨hprev, hentries⟩ := makeAppendEntriesFor_complete (setup.node v) hn hpos hle
  have hlen := hpush.length
  rw [hprev, hentries, length_drop]
  omega

theorem endReplication_appendOk (hv : v ∈ setup.peers)
    (hpipe : p.pipeline = .replicating index command successes [])
    (hsame : SameTermStep p .closeReplication) :
    (p.endReplication lib (setup.node v) index command successes).1.AppendOk := by
  rw [hpipe] at h
  obtain ⟨hpush, _, htally⟩ := h
  unfold endReplication
  generalize hcom : commitAppended lib (setup.node v) successes p.host = result
  obtain ⟨host, applied⟩ := result
  cases applied with
  | none => trivial
  | some =>
    obtain ⟨hup, hst, hquorum, hnode, rfl⟩ := commitAppended_some hcom
    have hcovered := le_commitIndex_of_tally hinv hproc hv hpush htally hst hquorum
      (by simp only [SameTermStep, hpipe] at hsame; exact hsame hst)
    have hlog : (updateCommitIndexLocked (setup.node v) p.host.node).commitIndex ≤
        p.host.node.log.length := by
      rcases updateCommitIndexLocked_cases (setup.node v) p.host.node with
        hkeep | ⟨_, _, hle, _, _, hraised⟩
      · rw [hkeep]
        exact (hproc.host.describes hup).wellFormed.commit
      · rw [hraised]
        exact hle
    refine ⟨hpush.of_log (by rw [hnode, updateCommitIndexLocked_log]), ?_, ?_⟩
    · rwa [hnode]
    · rw [hnode, drainCommittedEntriesLocked, updateCommitIndexLocked_lastApplied,
        updateCommitIndexLocked_log]
      rcases Nat.le_total index p.host.node.lastApplied with happ | happ
      · omega
      · have hindices := congrArg List.length
          (map_fst_drainLoop hlog (Nat.add_sub_of_le (happ.trans hcovered)).le)
        rw [length_map, length_range'] at hindices
        omega

theorem AppendOk.advance (hadv : Advances lib (setup.node v) p action next)
    (hnet : Network commitLevel setup history a) (hv : v ∈ setup.peers)
    (hdelivered : Delivered history v p action) (hsteady : SteadyStep p action)
    (hsame : SameTermStep p action) : next.1.AppendOk := by
  -- the sections of other threads
  have hframe : (∀ callback, action ≠ .boot callback) ∧ action ≠ .start ∧
      (∀ args, action ≠ .appendEntries args) ∧ (∀ command, action ≠ .appendCommand command) ∧
      (∀ verdict, action ≠ .callbackReturned verdict) → AppendOk next.1.host.node p.pipeline := by
    rintro ⟨hboot, hstart, hmessage, hcommand, hdeliv⟩
    exact AppendOk.framed hproc.host (hostSteps_of_advances hadv hboot) hsteady
      (p.scope_starts hstart) (p.scope_message hmessage) (p.scope_command hcommand) h
      (p.scope_delivers hdeliv)
  cases hadv with
  | boot callback => cases callback <;> trivial
  | start => trivial
  | startElection =>
    have hframe := hframe (by simp)
    unfold beginElection at hframe ⊢
    generalize startElection lib (setup.node v) p.host = result at hframe ⊢
    obtain ⟨host, request⟩ := result
    cases request <;> exact hframe
  | sendRequestVote | startHeartbeat => exact h
  | voteReplied result =>
    have hframe := hframe (by simp)
    cases result <;> exact hframe
  | closeElection | requestVote => exact hframe (by simp)
  | sendHeartbeat =>
    unfold sendBeat
    split
    · exact endBeat_appendOk h _
    split
    · exact endBeat_appendOk h _
    · exact setBeat_appendOk h _ _
  | @heartbeatReplied thread peer args rest result hbeat =>
    have hframe := hframe (by simp)
    unfold receiveBeat at hframe ⊢
    cases result with
    | empty => exact setBeat_appendOk h _ _
    | threw =>
      cases thread with
      | worker => exact hframe
      | pipeline => trivial
    | reply reply =>
      dsimp only at hframe ⊢
      split
      next hcontinues =>
        rw [if_pos hcontinues, setBeat_host] at hframe
        exact setBeat_appendOk hframe _ _
      next hstops =>
        rw [if_neg hstops, endBeat_host] at hframe
        exact endBeat_appendOk hframe _
  | appendEntries args hpipe =>
    unfold receiveEntries
    split
    · rw [hpipe]
      trivial
    · trivial
  | @callback purpose index entry rest hpipe =>
    rcases callBack_cases purpose index entry rest p with ⟨_, hcase⟩ | ⟨_, hcase⟩
    · rw [hcase]
      exact abandonDelivery_appendOk purpose p
    · rw [hcase]
      rw [hpipe] at h
      cases purpose <;> exact h
  | callbackReturned verdict hpipe => exact callbackDone_appendOk h hpipe
  | @finishDelivery purpose inFlight hpipe =>
    rw [hpipe] at h
    cases purpose with
    | replay =>
      dsimp only [completeDelivery]
      split <;> trivial
    | catchUp | reply => trivial
    | append => exact h
  | appendCommand command hpipe => exact beginAppend_appendOk command hv hpipe
  | sendEntries hpipe => exact sendNextEntries_appendOk h hproc hinv hpipe
  | entriesReplied result hpipe =>
    exact receiveEntriesReply_appendOk h hproc hnet hdelivered hpipe hsteady
  | closeReplication hpipe => exact endReplication_appendOk h hproc hinv hv hpipe hsame

end

theorem appended_of_endBeat {thr : Thread} (h : Output.appended index command ∈ (p.endBeat thr).2) :
    ∃ beat, p.pipeline = .beating index command beat := by
  obtain ⟨_, _, _, beat, hpipe, heq⟩ := mem_endBeat rfl h
  obtain ⟨rfl, rfl⟩ := Output.appended.inj heq
  exact ⟨beat, hpipe⟩

theorem appended_output (hadv : Advances lib cfg p action next)
    (hout : Output.appended index command ∈ next.2) :
    ∃ beat, p.pipeline = .beating index command beat := by
  have hemits := emits_of_mem hadv hout
  cases hadv with
  | sendHeartbeat =>
    unfold sendBeat at hout
    split at hout
    · exact appended_of_endBeat hout
    split at hout
    · exact appended_of_endBeat hout
    · cases mem_singleton.mp hout
  | heartbeatReplied =>
    obtain ⟨reply, _, hout | hout | ⟨_, hout⟩⟩ := mem_receiveBeat hout
    · obtain ⟨_, heq⟩ := mem_matchedOutput hout
      cases heq
    · obtain ⟨_, heq⟩ := mem_committedOutput hout
      cases heq
    · obtain ⟨beat, hpipe⟩ := appended_of_endBeat hout
      exact ⟨beat, hpipe⟩
  | _ => cases hemits

theorem appended_frame (hadv : Advances lib cfg p action next)
    (hout : Output.appended index command ∈ next.2) :
    next.1.host.node.log = p.host.node.log ∧
      p.host.node.commitIndex ≤ next.1.host.node.commitIndex ∧
      next.1.host.node.lastApplied = p.host.node.lastApplied := by
  have hemits := emits_of_mem hadv hout
  have hsteps := hostSteps_of_advances hadv (by rintro _ rfl; cases hemits)
  have hmessage : (p.scope action).message = none := p.scope_message (by rintro _ rfl; cases hemits)
  obtain ⟨hlog, hcom⟩ := hsteps.log hmessage (p.scope_command (by rintro _ rfl; cases hemits))
  exact ⟨hlog, hcom, hsteps.lastApplied hmessage (p.scope_delivers (by rintro _ rfl; cases hemits))⟩

end Sections

/-! ## Runs -/

section Runs

variable {lib : Libraries} {setup : ClusterConfig} {c c' : Cluster} {event : Event}

theorem run_append_orderly (h : Cluster.Run lib setup (appendStep setup) c) :
    ∃ a, ClusterRel commitLevel setup c a :=
  run_rel (fun _ _ hcond => ⟨fun _ => hcond.1.1, fun _ => hcond.1.2⟩) h

variable {v : NodeId}

theorem run_appendOk (hrun : Cluster.Run lib setup (appendStep setup) c) (hv : v ∈ setup.peers) :
    AppendOk (c.procs v).host.node (c.procs v).pipeline := by
  refine run_nodes (motive := fun _ _ p => AppendOk p.host.node p.pipeline) ?_ ?_ ?_ hrun hv
  · exact fun _ => trivial
  · exact fun _ _ _ _ _ _ h => h
  · intro c event next hrun hcond hv hdeliv hadv h
    obtain ⟨a, hrel⟩ := run_append_orderly hrun
    have h : AppendOk ((c.procs event.node).withIo event.io).host.node
        ((c.procs event.node).withIo event.io).pipeline := h
    exact h.advance ((hrel.procs _ hv).withIo event.io) hrel.inv hadv hrel.network hv
      (delivered_of_delivers hdeliv) hcond.2.1 hcond.2.2

/-- The nodes that have a command at an index of their log. -/
def storers (setup : ClusterConfig) (c : Cluster) (index : Nat) (command : Bytes) : List NodeId :=
  setup.peers.filter fun u =>
    ((c.procs u).host.node.log[index - 1]?).map LogEntry.command = some command

/-- Before success the last entry is committed and applied. -/
theorem beating_of_appended (hrun : Cluster.Run lib setup (appendStep setup) c)
    (hstep : Cluster.step lib setup event c = some c') {index : Nat} {command : Bytes}
    (hout : (v, Output.appended index command) ∈ newOutputs c c') :
    (∃ beat, (c.procs v).pipeline = .beating index command beat) ∧
      Pushed (c.procs v).host.node index command ∧
      index ≤ (c.procs v).host.node.commitIndex ∧ index ≤ (c.procs v).host.node.lastApplied := by
  obtain ⟨rfl, next, hadv, hmem, hproc⟩ := advances_of_mem_newOutputs hstep hout
  obtain ⟨hv, _⟩ := step_eq_some hstep
  obtain ⟨beat, hpipe⟩ := appended_output hadv hmem
  have hpipe : (c.procs event.node).pipeline = .beating index command beat := hpipe
  have hok := run_appendOk hrun hv
  rw [hpipe] at hok
  exact ⟨⟨beat, hpipe⟩, hok⟩

/-- When `append_command` returns true, its entry is committed and applied, and a quorum of the
nodes has the command at its index. -/
theorem append_command_acknowledged (hrun : Cluster.Run lib setup (appendStep setup) c)
    (hcondition : appendStep setup c event) (hstep : Cluster.step lib setup event c = some c')
    {v : NodeId} {index : Nat} {command : Bytes}
    (hout : (v, Output.appended index command) ∈ newOutputs c c') :
    1 ≤ index ∧ index ≤ (c'.procs v).host.node.commitIndex ∧
      index ≤ (c'.procs v).host.node.lastApplied ∧
      (setup.node v).quorumSize ≤ (storers setup c' index command).length := by
  obtain ⟨_, hpush, hcommit, happ⟩ := beating_of_appended hrun hstep hout
  obtain ⟨rfl, next, hadv, hmem, hproc⟩ := advances_of_mem_newOutputs hstep hout
  obtain ⟨hv, _⟩ := step_eq_some hstep
  obtain ⟨hlog, hcom, hposition⟩ := appended_frame hadv hmem
  rw [← hproc] at hlog hcom hposition
  have hcommit : index ≤ (c'.procs event.node).host.node.commitIndex := hcommit.trans hcom
  have hpush : Pushed (c'.procs event.node).host.node index command := hpush.of_log hlog
  refine ⟨hpush.pos, hcommit, happ.trans hposition.ge, ?_⟩
  obtain ⟨a, hrel⟩ := run_append_orderly (hrun.step hcondition hstep)
  obtain ⟨t, hsafe⟩ := (hrel.procs _ hv).host.commitSafe trivial
  have hidx : index ≤ ((c'.procs event.node).host.node.log.take
      (c'.procs event.node).host.node.commitIndex).length := by
    rw [length_take, hpush.length]
    omega
  rw [ClusterConfig.quorumSize_node hv]
  refine (quorum_le_holders hrel hsafe ?_).trans ?_
  · rintro hnil
    rw [hnil, length_nil] at hidx
    exact absurd hpush.pos (by omega)
  · refine (monotone_filter_right _ fun u hu => ?_).length_le
    obtain ⟨rest, hrest⟩ := of_decide_eq_true hu
    have hpos := hpush.pos
    rw [decide_eq_true_eq, ← hrest, List.getElem?_append_left (by omega),
      List.getElem?_take_of_lt (by omega)]
    exact hpush.entry

/-- Up to the last heartbeat of `a` after its command. -/
def acknowledgeX : List Event := beforeCommitX ++ [on nodeA .closeReplication, on nodeA .callback,
    on nodeA (.callbackReturned .accepted), on nodeA .finishDelivery,
    on nodeA (.sendHeartbeat .pipeline), on nodeA (.heartbeatReplied .pipeline .empty),
    on nodeA (.sendHeartbeat .pipeline), on nodeA (.heartbeatReplied .pipeline .empty)]

/-- The theorem at the step in which `append_command` returns true to the client of `a`. -/
theorem append_command_acknowledged_x : ∃ c',
    Cluster.step reference trio (on nodeA (.sendHeartbeat .pipeline))
        (reached (appendStep trio) acknowledgeX) = some c' ∧
      1 ≤ (c'.procs nodeA).host.node.lastApplied ∧
      (trio.node nodeA).quorumSize ≤ (storers trio c' 1 entryX.command).length := by
  obtain ⟨hrun, c', hstep, hcond, hout⟩ := reached_step (appendStep trio) acknowledgeX
    (on nodeA (.sendHeartbeat .pipeline))
    (fun c c' => appendStep trio c (on nodeA (.sendHeartbeat .pipeline)) ∧
      (nodeA, Output.appended 1 entryX.command) ∈ newOutputs c c') (by decide +kernel)
  exact ⟨c', hstep, (append_command_acknowledged hrun hcond hstep hout).2.2⟩

/-- `b` leads term 2 and sends no entries, as `a` answers with the size of its log. -/
def acknowledgeY : List Event :=
  electA ++ [on nodeA (.appendCommand entryX.command)] ++ replicationLost nodeA ++
    [on nodeA (.appendCommand entryX.command)] ++ replicationLost nodeA ++ electB ++
    [on nodeB .startHeartbeat, on nodeB (.sendHeartbeat .worker),
      on nodeA (.appendEntries (emptyBeat 2 nodeB)), on nodeA .finishDelivery,
      on nodeB (.heartbeatReplied .worker (accepted 2 2)),
      on nodeB (.appendCommand entryY.command), on nodeB .sendEntries,
      on nodeA (.appendEntries (emptyBeat 2 nodeB)), on nodeA .finishDelivery,
      on nodeB (.entriesReplied (accepted 2 2)), on nodeB .sendEntries,
      on nodeB (.entriesReplied .empty), on nodeB .closeReplication, on nodeB .callback,
      on nodeB (.callbackReturned .accepted), on nodeB .finishDelivery,
      on nodeB (.sendHeartbeat .pipeline), on nodeB (.heartbeatReplied .pipeline .empty),
      on nodeB (.sendHeartbeat .pipeline), on nodeB (.heartbeatReplied .pipeline .empty)]

/-- The client of `b` is told that its command is stored, and only `b` has it. -/
theorem append_command_acknowledged_y : ∃ c',
    Cluster.Run reference trio anyStep (reached anyStep acknowledgeY) ∧
      Cluster.step reference trio (on nodeB (.sendHeartbeat .pipeline))
        (reached anyStep acknowledgeY) = some c' ∧
      (nodeB, Output.appended 1 entryY.command) ∈ newOutputs (reached anyStep acknowledgeY) c' ∧
      storers trio c' 1 entryY.command = [nodeB] ∧ (trio.node nodeB).quorumSize = 2 := by
  obtain ⟨hrun, c', hstep, hcheck⟩ := reached_step anyStep acknowledgeY
    (on nodeB (.sendHeartbeat .pipeline))
    (fun c c' => (nodeB, Output.appended 1 entryY.command) ∈ newOutputs c c' ∧
      storers trio c' 1 entryY.command = [nodeB] ∧ (trio.node nodeB).quorumSize = 2)
    (by decide +kernel)
  exact ⟨c', hrun, hstep, hcheck⟩

end Runs

end BoostGateway.Raft
