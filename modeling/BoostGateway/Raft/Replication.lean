import BoostGateway.Raft.Voting

/-!
# Replication refines the record

`handle_append_entries` is a change of term and the acceptance of a log, which keeps what the node
shares with the leader (`truncate_keeps`, `merge_keeps`). The code replies as if its whole log were
a prefix of the leader's. It is so if a node accepts a message that ends before its own log does
only if its last entry is of the message's term.
-/

namespace BoostGateway.Raft

open List Consensus Consensus.Replicas

/-! ## Logs of a follower -/

section Logs

variable {log leaderLog p entries : List LogEntry} {prev : Nat}

theorem termAt_of_isPrefix {i : Nat} (hp : p <+: log) (hi : i < p.length) :
    termAt log i = termAt p i := by
  obtain ⟨rest, rfl⟩ := hp
  simp [termAt, List.getD, List.getElem?_append_left hi]

theorem truncate_keeps (hterm : termAt log (prev - 1) ≠ termAt leaderLog (prev - 1))
    (hp : p <+: log) (hp' : p <+: leaderLog) : p <+: log.take (prev - 1) := by
  rw [prefix_take_iff]
  refine ⟨hp, ?_⟩
  by_contra hlong
  have hi : prev - 1 < p.length := by omega
  exact hterm ((termAt_of_isPrefix hp hi).trans (termAt_of_isPrefix hp' hi).symm)

theorem merge_isPrefix (hshared : log.take prev = leaderLog.take prev)
    (hentries : entries <+: leaderLog.drop prev) : log.take prev ++ entries <+: leaderLog := by
  rw [hshared]
  nth_rewrite 2 [← take_append_drop prev leaderLog]
  exact (prefix_append_right_inj _).mpr hentries

theorem merge_keeps (hprev : prev ≤ log.length) (hshared : log.take prev = leaderLog.take prev)
    (hentries : entries <+: leaderLog.drop prev) (hp : p <+: log) (hp' : p <+: leaderLog) :
    p <+: mergeEntries log prev entries := by
  rw [mergeEntries_eq hprev]
  split
  · exact hp
  next hconf =>
    rcases List.prefix_or_prefix_of_prefix hp' (merge_isPrefix hshared hentries) with h | h
    · exact h
    · -- a longer shared part would hold the entries already
      refine absurd ?_ hconf
      have hlog : log.take prev ++ entries <+: log := h.trans hp
      nth_rewrite 2 [← take_append_drop prev log] at hlog
      exact (prefix_append_right_inj _).mp hlog

theorem le_length_mergeEntries (hprev : prev ≤ log.length) :
    prev + entries.length ≤ (mergeEntries log prev entries).length := by
  rw [mergeEntries_eq hprev]
  split
  next h =>
    have := h.length_le
    rw [length_drop] at this
    omega
  · simp [Nat.min_eq_left hprev]

theorem take_eq_take_of_termAt {a : Record} (hlog : Backed LogEntry.term a log)
    (hleaderLog : Backed LogEntry.term a leaderLog) (hprev : prev ≤ log.length)
    (hprev' : prev ≤ leaderLog.length)
    (hterm : 0 < prev → termAt log (prev - 1) = termAt leaderLog (prev - 1)) :
    log.take prev = leaderLog.take prev := by
  cases prev with
  | zero => simp
  | succ i =>
    have hi : log[i]? = some log[i] := List.getElem?_eq_getElem hprev
    have hi' : leaderLog[i]? = some leaderLog[i] := List.getElem?_eq_getElem hprev'
    refine backed_matching hlog hleaderLog hi hi' ?_
    rw [← termAt_eq hi, ← termAt_eq hi']
    exact hterm (Nat.succ_pos i)

end Logs

/-! ## Messages of a leader -/

section Follower

variable {lib : Libraries} {level : Level} {setup : ClusterConfig}
  {matched : Nat → NodeId → Nat → Prop} {a a' : Record} {v : NodeId} {host after : Host}
  {args : AppendEntriesArgs}

/-- A slice of the log of another node that leads, with a safe commit index. -/
structure Genuine (level : Level) (setup : ClusterConfig) (a : Record) (v : NodeId)
    (args : AppendEntriesArgs) : Prop where
  leader : ∃ l, a.leader args.term = some l ∧ l ≠ v
  slice : Slice (a.leaderLog args.term) args
  commit : level.commits → CommittedPrefix setup.members LogEntry.term a args.term
    ((a.leaderLog args.term).take args.leaderCommit)
  bound : level.commits → args.leaderCommit ≤ (a.leaderLog args.term).length

theorem Genuine.extends (hinv : setup.Invariant a) (h : Genuine level setup a v args)
    (hext : Extends a a') : Genuine level setup a' v args := by
  obtain ⟨l, hl, hlv⟩ := h.leader
  have hlead : a.leader args.term ≠ none := by simp [hl]
  have hpre := hext.leaderLog _ hlead
  refine ⟨⟨l, hext.leader _ _ hl, hlv⟩, h.slice.mono hpre, fun hs => ?_, fun hs => ?_⟩
  · rw [hext.take_leaderLog hlead (h.bound hs)]
    exact (h.commit hs).extends hinv hext
  · exact (h.bound hs).trans hpre.length_le

def AppendEntriesArgs.MatchesLog (args : AppendEntriesArgs) (node : RaftNode) : Prop :=
  args.prevLogIndex ≤ node.log.length ∧
    (0 < args.prevLogIndex → termAt node.log (args.prevLogIndex - 1) = args.prevLogTerm)

def Covered (node : RaftNode) (args : AppendEntriesArgs) : Prop :=
  args.entries <+: node.log.drop args.prevLogIndex →
    args.prevLogIndex + args.entries.length < node.log.length →
    lastLogTermOf node.log = args.term

instance (node : RaftNode) (args : AppendEntriesArgs) : Decidable (Covered node args) := by
  unfold Covered
  infer_instance

def CommittedEntry (setup : ClusterConfig) (a : Record) (index : Nat) (entry : LogEntry) : Prop :=
  ∃ t entries, CommittedPrefix setup.members LogEntry.term a t entries ∧ 1 ≤ index ∧
    entries[index - 1]? = some entry

variable {index : Nat} {entry : LogEntry} {node : RaftNode} {ok : Bool} {reply : AppendEntriesReply}

theorem CommittedEntry.extends (hinv : setup.Invariant a) (h : CommittedEntry setup a index entry)
    (hext : Extends a a') : CommittedEntry setup a' index entry := by
  obtain ⟨t, entries, hcommit, hpos, hentry⟩ := h
  exact ⟨t, entries, hcommit.extends hinv hext, hpos, hentry⟩

variable {log : List LogEntry} {applied : Option (List (Nat × LogEntry))}

theorem CommitSafe.committedEntry {commitIndex : Nat} (h : CommitSafe setup a log commitIndex)
    (hpos : 1 ≤ index) (hle : index ≤ commitIndex) (hentry : log[index - 1]? = some entry) :
    CommittedEntry setup a index entry := by
  obtain ⟨t, ht⟩ := h
  refine ⟨t, _, ht, hpos, ?_⟩
  rw [List.getElem?_take, if_pos (by omega), hentry]

theorem committedEntry_of_drain (hcom : CommitSafe setup a node.log node.commitIndex)
    (h : (index, entry) ∈ drainCommittedEntriesLocked node) :
    CommittedEntry setup a index entry := by
  obtain ⟨hlt, hle, hentry⟩ := mem_drainCommittedEntriesLocked h
  exact hcom.committedEntry (by omega) hle hentry

theorem committedEntry_of_replayed (hcom : CommitSafe setup a node.log node.commitIndex)
    (happ : node.lastApplied ≤ node.commitIndex) (h : (index, entry) ∈ replayed node) :
    CommittedEntry setup a index entry := by
  obtain ⟨hlt, hle, hentry⟩ := mem_drainLoop h
  exact hcom.committedEntry hlt (hle.trans happ) hentry

/-- A covered log is a prefix of the leader's after the merge. -/
theorem merge_prefix_of_covered (hlog : Backed LogEntry.term a node.log)
    (hprev : args.prevLogIndex ≤ node.log.length)
    (hshared : node.log.take args.prevLogIndex = (a.leaderLog args.term).take args.prevLogIndex)
    (hslice : Slice (a.leaderLog args.term) args) (hcovered : Covered node args) :
    mergeEntries node.log args.prevLogIndex args.entries <+: a.leaderLog args.term := by
  have hmerged := merge_isPrefix hshared hslice.entries
  rw [mergeEntries_eq hprev]
  split
  next hheld =>
    rcases Nat.lt_or_ge (args.prevLogIndex + args.entries.length) node.log.length with
      hlong | hshort
    · -- the last entry is of this term, so the leader of the term has the whole log
      have hlast := hcovered hheld hlong
      have hne : node.log ≠ [] := by
        intro hnil
        simp [hnil] at hlong
      obtain ⟨entry, hentry, hterm⟩ : ∃ entry, node.log.getLast? = some entry ∧
          lastTerm LogEntry.term node.log = entry.term := exists_getLast _ hne
      rw [← lastLogTermOf_eq, hlast] at hterm
      rw [hterm]
      exact (hlog.prefix_of_getLast hentry).2
    · have hentries : args.entries = node.log.drop args.prevLogIndex := by
        refine hheld.eq_of_length_le ?_
        rw [length_drop]
        omega
      rwa [hentries, take_append_drop] at hmerged
  · exact hmerged

variable (hinv : setup.Invariant a)

include hinv

/-- Saving such a log is an acceptance, and an acknowledgement of a prefix. -/
theorem HostRel.accept (node : RaftNode) {l : NodeId} (hrel : HostRel level setup matched a v host)
    (hhealthy : host.node.healthy = true) (hlead : a.leader host.node.currentTerm = some l)
    (hne : l ≠ v) (hterm : node.currentTerm = host.node.currentTerm)
    (hvoted : node.votedFor = host.node.votedFor) (hnode : node.healthy = true)
    (hstate : node.state = .follower) (hback : Backed LogEntry.term a node.log)
    (hterms : ∀ e ∈ node.log, e.term ≤ host.node.currentTerm)
    (hkeeps : ∀ p, p <+: host.node.log → p <+: a.leaderLog host.node.currentTerm → p <+: node.log)
    (hcom : level.commits → setup.CommittedPrefix a host.node.currentTerm
      (node.log.take node.commitIndex))
    (h : persistStateLocked lib (setup.node v) { host with node } = (after, ok)) :
    ∃ a', setup.StepsBy v a a' ∧
      HostRel level setup matched a' v after ∧ Kept node after.node ok ∧
      a'.leaderLog = a.leaderLog ∧
      (ok = true → node.log <+: a.leaderLog host.node.currentTerm →
        a'.ack v host.node.currentTerm node.log.length) := by
  have hdesc := hrel.describes hhealthy
  have hterm' : a.term v = host.node.currentTerm := hdesc.term
  have haccept : setup.StepsBy v a (a.accept v node.log) := by
    refine StepsBy.accept (l := l) ?_ hne hback ?_ ?_
    · rwa [hterm']
    · rwa [hterm']
    · rwa [hterm', hdesc.log]
  have hholds : Holds a v node.log := by
    have := (haccept.invariant hinv).ackHeld v
    rwa [accept_log_self] at this
  -- the record after the save
  obtain ⟨a₁, hsteps, hlog₁, hsame, hlead₁, hvote₁, hack⟩ : ∃ a₁,
      setup.StepsBy v a a₁ ∧ a₁.log v = node.log ∧ a₁.term v = a.term v ∧
        a₁.leaderLog = a.leaderLog ∧ a₁.vote = a.vote ∧
        (node.log <+: a.leaderLog host.node.currentTerm →
          a₁.ack v host.node.currentTerm node.log.length) := by
    by_cases hpre : node.log <+: a.leaderLog host.node.currentTerm
    · have hack : setup.StepsBy v a
          ((a.accept v node.log).acknowledge v node.log.length) := by
        refine haccept.trans (StepsBy.acknowledge ?_ ?_ ?_)
        · simp [Replicas.accept, hterm', hlead]
        · simpa [Replicas.accept, hterm'] using hpre.length_le
        · rw [accept_log_self]
          simp only [Replicas.accept, hterm']
          rw [← prefix_iff_eq_take.mp hpre]
      exact ⟨_, hack, accept_log_self a v node.log, rfl, rfl, rfl,
        fun _ => .inr ⟨rfl, hterm'.symm, le_rfl⟩⟩
    · exact ⟨_, haccept, accept_log_self a v node.log, rfl, rfl, rfl, fun h => absurd h hpre⟩
  obtain ⟨a', hsteps', hrel', hkept, hsaved, hcase⟩ := HostRel.persist matched h hnode hinv
    (.refl v a) hsteps hrel.stored (hterm ▸ hrel.bound) ⟨hholds, .inl hback⟩
    (fun hs => ⟨_, hcom hs⟩) (fun hwell => ⟨hdesc.update hsteps.acted.ext hsame hlog₁
      (fun c lt li hvote => hvote₁ ▸ hvote) hterm hvoted
      (fun hs => (hcom hs).extends hinv hsteps.acted.ext) hwell, Role.follower hstate⟩)
  refine ⟨a', hsteps', hrel', hkept, ?_, fun hok hpre => hsaved hok ▸ hack hpre⟩
  rcases hcase with rfl | rfl
  · rfl
  · exact hlead₁

/-- The node holds the message, and if covered has acknowledged its log. -/
def ReplyOk (level : Level) (a : Record) (v : NodeId) (args : AppendEntriesArgs)
    (reply : AppendEntriesReply) (log : List LogEntry) : Prop :=
  reply.success = true → reply.matchIndex = log.length ∧
      args.prevLogIndex + args.entries.length ≤ reply.matchIndex ∧
      (level.acks → a.ack v args.term reply.matchIndex ∧ log <+: a.leaderLog args.term)

theorem ReplyOk.extends (h : ReplyOk level a v args reply log) (hext : Extends a a') :
    ReplyOk level a' v args reply log := by
  intro hsucc
  obtain ⟨hidx, hle, hack⟩ := h hsucc
  refine ⟨hidx, hle, fun hs => ?_⟩
  obtain ⟨hack, hpre⟩ := hack hs
  exact ⟨hext.ack _ _ _ hack, hpre.trans (hext.leaderLog _ (hinv.ackLeader _ _ _ hack).1)⟩

/-- A follower, a sound reply, and committed entries to deliver. -/
structure Handled (level : Level) (setup : ClusterConfig)
    (matched : Nat → NodeId → Nat → Prop) (a : Record) (v : NodeId) (args : AppendEntriesArgs)
    (after : Host) (reply : AppendEntriesReply) (applied : Option (List (Nat × LogEntry))) :
    Prop where
  rel : HostRel level setup matched a v after
  bound : reply.term < 2 ^ 64
  reply : ReplyOk level a v args reply after.node.log
  applied : ∀ pending, applied = some pending → level.commits →
    ∀ index entry, (index, entry) ∈ pending → CommittedEntry setup a index entry

omit hinv in
theorem Handled.refused (hrel : HostRel level setup matched a v after)
    (hbound : reply.term < 2 ^ 64) (hreply : reply.success = false) :
    Handled level setup matched a v args after reply none where
  rel := hrel
  bound := hbound
  reply hsuccess := by simp [hreply] at hsuccess
  applied _ h := by cases h

section Accepting

variable (hrel : HostRel level setup matched a v host) (hhealthy : host.node.healthy = true)
  (hstate : host.node.state = .follower) (hmsg : Genuine level setup a v args)
  (hterm : host.node.currentTerm = args.term)

include hrel hhealthy hstate hmsg hterm

/-- The truncation of `handle_append_entries` is an acceptance. -/
theorem truncate_rel (hprev : 0 < args.prevLogIndex)
    (hmismatch : termAt host.node.log (args.prevLogIndex - 1) ≠ args.prevLogTerm)
    (h : persistStateLocked lib (setup.node v)
      { host with node := truncateLog args.prevLogIndex host.node } = (after, ok)) :
    ∃ a', setup.StepsBy v a a' ∧
      HostRel level setup matched a' v after ∧ after.node.state = .follower := by
  obtain ⟨l, hl, hlv⟩ := hmsg.leader
  have hdesc := hrel.describes hhealthy
  have hlog : a.log v = host.node.log := hdesc.log
  have hback : Backed LogEntry.term a host.node.log := hlog ▸ hinv.backed v
  rw [hmsg.slice.prevLogTerm hprev] at hmismatch
  rw [← hterm] at hl hmismatch
  obtain ⟨a', hsteps, hrel', hkept, _, _⟩ := hrel.accept hinv
    (truncateLog args.prevLogIndex host.node) hhealthy hl hlv rfl rfl hhealthy hstate
    (hback.take (args.prevLogIndex - 1))
    (fun e he => by
      have := hinv.logTerm v e (hlog ▸ mem_of_mem_take he)
      rwa [hdesc.term] at this)
    (fun p hp hp' => truncate_keeps hmismatch hp hp')
    (fun hs => (hrel.committed hhealthy hs).of_isPrefix (by
      simp only [truncateLog, take_take]
      exact take_prefix_take_left (by omega))) h
  exact ⟨a', hsteps, hrel', hkept.follower hhealthy hstate⟩

/-- The merge is an acceptance, and if covered an acknowledgement. -/
theorem merge_rel (hmatches : args.MatchesLog host.node)
    (hcovered : level.acks → Covered host.node args) (h : persistStateLocked lib (setup.node v)
      { host with node := mergeLog args host.node } = (after, ok)) :
    ∃ a', setup.StepsBy v a a' ∧
      HostRel level setup matched a' v after ∧ Kept (mergeLog args host.node) after.node ok ∧
      (ok = true → level.acks → a'.ack v args.term (mergeLog args host.node).log.length ∧
          (mergeLog args host.node).log <+: a'.leaderLog args.term) := by
  obtain ⟨hprev, hmatch⟩ := hmatches
  obtain ⟨l, hl, hlv⟩ := hmsg.leader
  have hlead : a.leader args.term ≠ none := by simp [hl]
  have hdesc := hrel.describes hhealthy
  have hlog : a.log v = host.node.log := hdesc.log
  have hback : Backed LogEntry.term a host.node.log := hlog ▸ hinv.backed v
  have hshared : host.node.log.take args.prevLogIndex =
      (a.leaderLog args.term).take args.prevLogIndex :=
    take_eq_take_of_termAt hback (hinv.leaderBacked _ hlead) hprev hmsg.slice.prevLogIndex
      (fun hpos => (hmatch hpos).trans (hmsg.slice.prevLogTerm hpos))
  have hkeeps : ∀ p, p <+: host.node.log → p <+: a.leaderLog args.term →
      p <+: (mergeLog args host.node).log :=
    fun p hp hp' => merge_keeps hprev hshared hmsg.slice.entries hp hp'
  have hcase : (mergeLog args host.node).log = host.node.log ∨
      (mergeLog args host.node).log <+: a.leaderLog args.term := by
    simp only [mergeLog, mergeEntries_eq hprev]
    split
    · exact .inl rfl
    · exact .inr (merge_isPrefix hshared hmsg.slice.entries)
  have hpre : level.acks → (mergeLog args host.node).log <+: a.leaderLog args.term :=
    fun hs => merge_prefix_of_covered hback hprev hshared hmsg.slice (hcovered hs)
  have hnewBacked : Backed LogEntry.term a (mergeLog args host.node).log := by
    rcases hcase with hsame | hpre
    · rwa [hsame]
    · exact (hinv.leaderBacked _ hlead).of_isPrefix hpre
  have hterms : ∀ e ∈ (mergeLog args host.node).log, e.term ≤ host.node.currentTerm := by
    intro e he
    rcases hcase with hsame | hpre
    · have := hinv.logTerm v e (by rwa [hlog, ← hsame])
      rwa [hdesc.term] at this
    · rw [hterm]
      exact hinv.leaderLogTerm _ hlead e (hpre.subset he)
  have hcom : level.commits → setup.CommittedPrefix a host.node.currentTerm
      ((mergeLog args host.node).log.take (mergeLog args host.node).commitIndex) := by
    intro hs
    have hold := hrel.committed hhealthy hs
    by_cases hraise : host.node.commitIndex < args.leaderCommit
    · -- the new commit index is the leader's, within a prefix of its log
      rw [hterm]
      refine (hmsg.commit hs).of_isPrefix ?_
      have hidx : (mergeLog args host.node).commitIndex =
          min args.leaderCommit (mergeLog args host.node).log.length := by simp [mergeLog, hraise]
      rw [hidx, prefix_take_iff]
      exact ⟨(List.take_prefix _ _).trans (hpre (level.acks_of_commits hs)), by simp⟩
    · -- the committed part is shared with the leader, so the merge keeps it
      have hidx : (mergeLog args host.node).commitIndex = host.node.commitIndex := by
        simp [mergeLog, hraise]
      have hkept := hkeeps _ (List.take_prefix _ _)
        (hold.prefix_leaderLog hinv (Nat.le_of_eq hterm) hlead)
      have hlen : host.node.commitIndex ≤ host.node.log.length := hdesc.wellFormed.commit
      have htake := prefix_iff_eq_take.mp hkept
      rw [length_take, Nat.min_eq_left hlen] at htake
      rwa [hidx, ← htake]
  rw [← hterm] at hl
  obtain ⟨a', hsteps, hrel', hkept, hsame, hack⟩ := hrel.accept hinv (mergeLog args host.node)
    hhealthy hl hlv rfl rfl hhealthy hstate hnewBacked hterms (hterm ▸ hkeeps) hcom h
  refine ⟨a', hsteps, hrel', hkept, fun hok hs => ⟨?_, ?_⟩⟩
  · rw [← hterm]
    exact hack hok (hterm ▸ hpre hs)
  · rw [hsame]
    exact hpre hs

/-- `handle_append_entries` refines the record once terms agree. -/
theorem acceptEntries_rel {reply' : AppendEntriesReply} (hrep : reply.success = false)
    (hcovered : level.acks → args.MatchesLog host.node → Covered host.node args)
    (h : acceptEntries lib (setup.node v) args reply host = (after, reply', applied)) :
    ∃ a', setup.StepsBy v a a' ∧
      Handled level setup matched a' v args after reply' applied ∧
      after.node.state = .follower := by
  have hrel' : HostRel level setup matched a v
      { host with node := { host.node with leaderId := args.leaderId } } :=
    hrel.congr rfl rfl rfl rfl rfl rfl
  dsimp only [acceptEntries] at h
  split at h
  · cases h
    exact ⟨a, .refl v a, .refused hrel' hrel.bound hrep, hstate⟩
  next hlong =>
  have hprev : args.prevLogIndex ≤ host.node.log.length := by omega
  split at h
  next hmismatch =>
    generalize hsave : persistStateLocked lib (setup.node v) _ = result at h
    cases h
    obtain ⟨a', hsteps, hsaved, hst'⟩ := truncate_rel hinv hrel' hhealthy hstate hmsg hterm
      hmismatch.1 hmismatch.2 hsave
    exact ⟨a', hsteps, .refused hsaved hrel.bound hrep, hst'⟩
  next hmatch =>
  have hmatches : args.MatchesLog host.node := ⟨hprev, by simpa using hmatch⟩
  generalize hsave : persistStateLocked lib (setup.node v) _ = result at h
  obtain ⟨saved, ok⟩ := result
  obtain ⟨a', hsteps, hsaved, hkept, hack⟩ := merge_rel hinv hrel' hhealthy hstate hmsg hterm
    hmatches (fun hs => hcovered hs hmatches) hsave
  have hst' : saved.node.state = .follower := hkept.follower hhealthy hstate
  cases ok with
  | false =>
    cases h
    exact ⟨a', hsteps, .refused hsaved hrel.bound hrep, hst'⟩
  | true =>
    cases h
    refine ⟨a', hsteps, ⟨hsaved, hrel.bound, fun _ => ⟨?_, ?_, fun hs => ?_⟩, ?_⟩, hst'⟩
    · exact (congrArg List.length hkept.log).symm
    · exact le_length_mergeEntries hprev
    · rw [hkept.log]
      exact hack rfl hs
    · intro pending hpend hs index entry hentry
      cases hpend
      refine committedEntry_of_drain ?_ hentry
      have hcom := hsaved.commitSafe hs
      rwa [hkept.log, hkept.commitIndex] at hcom

end Accepting

def acceptsEntries (node : RaftNode) (args : AppendEntriesArgs) : Bool :=
  node.healthy && isValidAppendEntries args && node.currentTerm ≤ args.term &&
    args.prevLogIndex ≤ node.log.length &&
    (args.prevLogIndex = 0 || termAt node.log (args.prevLogIndex - 1) = args.prevLogTerm)

/-- `handle_append_entries` refines the record. -/
theorem handleAppendEntries_rel (hrel : HostRel level setup matched a v host)
    (hmsg : Genuine level setup a v args) (hbound : args.term < 2 ^ 64)
    (hcovered : level.acks → acceptsEntries host.node args = true → Covered host.node args)
    (h : handleAppendEntries lib (setup.node v) args host = (after, reply, applied)) :
    ∃ a', setup.StepsBy v a a' ∧
      Handled level setup matched a' v args after reply applied ∧
      Standing host.node after.node := by
  have hfollower : ∀ {node : RaftNode}, node.state = .follower → Standing host.node node :=
    fun hstate hcand => by simp [hstate] at hcand
  dsimp only [handleAppendEntries] at h
  split at h
  · cases h
    exact ⟨a, .refl v a, .refused hrel hrel.bound rfl, .refl _⟩
  next hval =>
  obtain ⟨hhealthy, hval⟩ : host.node.healthy = true ∧ isValidAppendEntries args = true := by
    simpa [not_or] using hval
  split at h
  · cases h
    exact ⟨a, .refl v a, .refused hrel hrel.bound rfl, .refl _⟩
  next hle =>
  have hcov' : level.acks → args.MatchesLog host.node → Covered host.node args := by
    rintro hs ⟨hprev, hmatch⟩
    refine hcovered hs ?_
    simp only [acceptsEntries, hhealthy, hval, Bool.true_and, Bool.and_eq_true,
      decide_eq_true_eq, Bool.or_eq_true]
    refine ⟨⟨by omega, hprev⟩, ?_⟩
    rcases Nat.eq_zero_or_pos args.prevLogIndex with hzero | hpos
    · exact .inl hzero
    · exact .inr (hmatch hpos)
  split at h
  next hstep =>
    generalize hdown : becomeFollower lib (setup.node v) args.term host = result at h
    obtain ⟨middle, ok⟩ := result
    have hterm : host.node.currentTerm < args.term ∨
        host.node.currentTerm = args.term ∧ host.node.state = .candidate ∧
          ∃ l, a.leader args.term = some l ∧ l ≠ v := by
      rcases Nat.lt_or_ge host.node.currentTerm args.term with hlt | hge
      · exact .inl hlt
      · refine .inr ⟨by omega, ?_, hmsg.leader⟩
        exact hstep.resolve_left (by omega)
    obtain ⟨a₁, hsteps₁, hrel₁, hkept⟩ := becomeFollower_rel hinv hrel hhealthy hdown hbound hterm
    have hinv₁ := hsteps₁.invariant hinv
    have hstate : middle.node.state = .follower := hkept.follower hhealthy rfl
    have hlog : middle.node.log = host.node.log := hkept.log
    cases ok with
    | false =>
      cases h
      exact ⟨a₁, hsteps₁, .refused hrel₁ hrel₁.bound rfl, hfollower hstate⟩
    | true =>
      obtain ⟨a₂, hsteps₂, hhand, hst₂⟩ := acceptEntries_rel hinv₁ hrel₁
        (hkept.healthy hhealthy) hstate (hmsg.extends hinv hsteps₁.acted.ext)
        hkept.currentTerm rfl (by
          intro hs hmatches
          rw [AppendEntriesArgs.MatchesLog, hlog] at hmatches
          have := hcov' hs hmatches
          rwa [Covered, ← hlog] at this) h
      exact ⟨a₂, hsteps₁.trans hsteps₂, hhand, hfollower hst₂⟩
  next hstep =>
    have hterm : host.node.currentTerm = args.term := by omega
    have hstate : host.node.state = .follower := by
      obtain ⟨l, hl, hlv⟩ := hmsg.leader
      cases hstate : host.node.state with
      | follower => rfl
      | candidate => exact absurd (.inr hstate) hstep
      | leader =>
        have := hrel.role.leader hstate
        rw [hterm, hl] at this
        exact absurd (Option.some.inj this) hlv
    obtain ⟨a', hsteps, hhand, hst'⟩ :=
      acceptEntries_rel hinv hrel hhealthy hstate hmsg hterm rfl hcov' h
    exact ⟨a', hsteps, hhand, hfollower hst'⟩

end Follower

end BoostGateway.Raft
