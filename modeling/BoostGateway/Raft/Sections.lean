import BoostGateway.Consensus.Replicas
import BoostGateway.Raft.Node

/-!
# What the lock sections do

One statement for each helper of `Node`, such as the outcomes of a save
(`persistStateLocked_persisted`) and what the merge loop of `handle_append_entries` computes
(`mergeEntries_eq`).
-/

namespace BoostGateway.Raft

open List Consensus

/-! ## Saving -/

section Saving

variable (lib : Libraries) (cfg : RaftConfig)

def Savable (state : RaftPersistentState) : Prop := ∃ bytes, encodeSave lib cfg state = .ok bytes

variable {lib cfg} in
theorem Savable.wellFormed {state : RaftPersistentState} (h : Savable lib cfg state) :
    WellFormed defaultLimits state := by
  obtain ⟨bytes, hbytes⟩ := h
  obtain ⟨_, _, hencode⟩ := bind_ok_iff.mp hbytes
  exact encodeV1_wellFormed hencode

/-- The state is on disk, or an unhealthy node has the old or the new one there. -/
inductive Persisted (before after : Host) : Bool → Prop where
  | saved : after.node = before.node → after.disk = some before.node.persistent →
      Savable lib cfg before.node.persistent → Persisted before after true
  | failed (reason : Bytes) : after.node = markUnhealthyLocked reason before.node →
      (after.disk = before.disk ∨
        after.disk = some before.node.persistent ∧ Savable lib cfg before.node.persistent) →
      Persisted before after false

variable {lib cfg} in
theorem save_cases {state : RaftPersistentState} {host after : Host}
    {error : Option RaftStateException} (h : save lib cfg state host = (after, error)) :
    after.node = host.node ∧ match error with
      | none => after.disk = some state ∧ Savable lib cfg state
      | some _ => after.disk = host.disk ∨ after.disk = some state ∧ Savable lib cfg state := by
  dsimp only [save] at h
  split at h
  · cases h
    exact ⟨rfl, .inl rfl⟩
  next bytes hencode =>
    have hsavable : Savable lib cfg state := ⟨bytes, hencode⟩
    split at h <;> cases h
    · exact ⟨rfl, rfl, hsavable⟩
    · exact ⟨rfl, rfl, hsavable⟩
    · exact ⟨rfl, .inl rfl⟩
    · exact ⟨rfl, .inr ⟨rfl, hsavable⟩⟩

theorem persistStateLocked_persisted {host after : Host} {ok : Bool}
    (hstorage : cfg.storageDir ≠ []) (hup : host.node.healthy = true)
    (h : persistStateLocked lib cfg host = (after, ok)) : Persisted lib cfg host after ok := by
  revert h
  fun_cases persistStateLocked lib cfg host with
  | case1 hsick => simp [hup] at hsick
  | case2 _ hempty => exact absurd (isEmpty_iff.mp hempty) hstorage
  | case3 _ _ saved hsave =>
    rintro ⟨⟩
    obtain ⟨hnode, hdisk, hsavable⟩ := save_cases hsave
    exact .saved hnode hdisk hsavable
  | case4 _ _ saved error hsave =>
    rintro ⟨⟩
    obtain ⟨hnode, hdisk⟩ := save_cases hsave
    exact .failed error.what (by rw [hnode]) hdisk

end Saving

/-! ## Unhealthy nodes -/

@[simp] theorem markUnhealthyLocked_persistent (reason : Bytes) (node : RaftNode) :
    (markUnhealthyLocked reason node).persistent = node.persistent := by
  unfold markUnhealthyLocked
  split <;> rfl

@[simp] theorem markUnhealthyLocked_healthy (reason : Bytes) (node : RaftNode) :
    (markUnhealthyLocked reason node).healthy = false := by
  unfold markUnhealthyLocked
  split
  next h => simpa using h
  · rfl

@[simp] theorem markUnhealthyLocked_log (reason : Bytes) (node : RaftNode) :
    (markUnhealthyLocked reason node).log = node.log :=
  congrArg RaftPersistentState.log (markUnhealthyLocked_persistent reason node)

@[simp] theorem markUnhealthyLocked_currentTerm (reason : Bytes) (node : RaftNode) :
    (markUnhealthyLocked reason node).currentTerm = node.currentTerm :=
  congrArg RaftPersistentState.currentTerm (markUnhealthyLocked_persistent reason node)

theorem markUnhealthyLocked_applyCb (reason : Bytes) (node : RaftNode) :
    (markUnhealthyLocked reason node).applyCb = node.applyCb := by
  unfold markUnhealthyLocked
  split <;> rfl

variable {node : RaftNode} {lib : Libraries} {cfg : RaftConfig} {host after : Host} {ok : Bool}
  {entry : LogEntry} {args : AppendEntriesArgs} {peer : NodeId} {next index : Nat}

theorem markUnhealthyLocked_state (reason : Bytes)
    (h : node.healthy = false → node.state = .follower) :
    (markUnhealthyLocked reason node).state = .follower := by
  unfold markUnhealthyLocked
  split
  next hup => exact h (by simpa using hup)
  · rfl

theorem failApply_log (act : String) (index : Nat) (verd : Verdict) (node : RaftNode) :
    (failApply act index verd node).log = node.log :=
  markUnhealthyLocked_log _ _

theorem failApply_state (act : String) (index : Nat) (verd : Verdict)
    (h : node.healthy = false → node.state = .follower) :
    (failApply act index verd node).state = .follower :=
  markUnhealthyLocked_state _ h

def Standing (node node' : RaftNode) : Prop := node'.state = .candidate →
    node.state = .candidate ∧ node'.currentTerm = node.currentTerm ∧ node'.log = node.log ∧
      node'.votesReceived = node.votesReceived

theorem Standing.refl (node : RaftNode) : Standing node node := fun hst => ⟨hst, rfl, rfl, rfl⟩

inductive Kept (node : RaftNode) : RaftNode → Bool → Prop where
  | saved : Kept node node true
  | failed (reason : Bytes) : Kept node (markUnhealthyLocked reason node) false

namespace Kept

variable {node node' : RaftNode} {ok : Bool}

section

variable (h : Kept node node' ok)

include h

theorem persistent : node'.persistent = node.persistent := by
  cases h with
  | saved => rfl
  | failed reason => exact markUnhealthyLocked_persistent reason node

theorem log : node'.log = node.log := congrArg RaftPersistentState.log h.persistent

theorem currentTerm : node'.currentTerm = node.currentTerm :=
  congrArg RaftPersistentState.currentTerm h.persistent

theorem commitIndex : node'.commitIndex = node.commitIndex :=
  congrArg RaftPersistentState.commitIndex h.persistent

theorem healthy (hup : node.healthy = true) : node'.healthy = ok := by
  cases h with
  | saved => exact hup
  | failed reason => exact markUnhealthyLocked_healthy reason node

theorem standing (hup : node.healthy = true) : Standing node node' := by
  intro hst
  cases h with
  | saved => exact ⟨hst, rfl, rfl, rfl⟩
  | failed reason =>
    rw [markUnhealthyLocked_state reason (by simp [hup])] at hst
    cases hst

theorem follower (hup : node.healthy = true)
    (hst : node.state = .follower) : node'.state = .follower := by
  cases h with
  | saved => exact hst
  | failed reason => exact markUnhealthyLocked_state reason (by simp [hup])

theorem unhealthy (hup : node.healthy = true)
    (hnot : node'.healthy = false) : node'.state = .follower := by
  cases h with
  | saved => simp [hup] at hnot
  | failed reason => exact markUnhealthyLocked_state reason (by simp [hup])

end

end Kept

theorem persistStateLocked_kept (h : persistStateLocked lib cfg host = (after, ok))
    (hup : host.node.healthy = true) : Kept host.node after.node ok := by
  revert h
  fun_cases persistStateLocked lib cfg host with
  | case1 hsick => simp [hup] at hsick
  | case2 =>
    rintro ⟨⟩
    exact .saved
  | case3 _ _ saved hsave =>
    rintro ⟨⟩
    exact (save_cases hsave).1 ▸ .saved
  | case4 _ _ saved error hsave =>
    rintro ⟨⟩
    exact (save_cases hsave).1 ▸ .failed _

theorem persistStateLocked_node (h : persistStateLocked lib cfg host = (after, ok)) :
    after.node = host.node ∨ ∃ reason, after.node = markUnhealthyLocked reason host.node := by
  revert h
  fun_cases persistStateLocked lib cfg host with
  | case1 | case2 =>
    rintro ⟨⟩
    exact .inl rfl
  | case3 _ _ saved hsave =>
    rintro ⟨⟩
    exact .inl (save_cases hsave).1
  | case4 _ _ saved error hsave =>
    rintro ⟨⟩
    exact .inr ⟨error.what, by rw [(save_cases hsave).1]⟩

theorem persistStateLocked_durable (h : persistStateLocked lib cfg host = (after, ok)) :
    after.durable = host.durable ∨
      host.node.healthy = true ∧ after.durable = host.node.persistent := by
  revert h
  fun_cases persistStateLocked lib cfg host with
  | case1 | case2 =>
    rintro ⟨⟩
    exact .inl rfl
  | case3 hup _ saved hsave =>
    rintro ⟨⟩
    obtain ⟨_, hdisk, _⟩ := save_cases hsave
    exact .inr ⟨by simpa using hup, by simp [Host.durable, hdisk]⟩
  | case4 hup _ saved error hsave =>
    rintro ⟨⟩
    obtain ⟨_, hdisk | ⟨hdisk, _⟩⟩ := save_cases hsave
    · exact .inl (by simp [Host.durable, hdisk])
    · exact .inr ⟨by simpa using hup, by simp [Host.durable, hdisk]⟩

theorem persistStateLocked_persistent (h : persistStateLocked lib cfg host = (after, ok)) :
    after.node.persistent = host.node.persistent := by
  rcases persistStateLocked_node h with hnode | ⟨reason, hnode⟩ <;> simp [hnode]

/-! ## Logs -/

theorem lastLogTermOf_eq (log : List LogEntry) :
    lastLogTermOf log = Replicas.lastTerm LogEntry.term log := by
  unfold lastLogTermOf Replicas.lastTerm
  cases log.getLast? <;> rfl

theorem isLogUpToDate_iff {lastLogTerm lastLogIndex : Nat} :
    isLogUpToDate node lastLogTerm lastLogIndex = true ↔
      Replicas.UpToDate LogEntry.term lastLogTerm lastLogIndex node.log := by
  unfold isLogUpToDate Replicas.UpToDate
  rw [lastLogTermOf_eq]
  split
  · simp only [decide_eq_true_eq]
    omega
  · simp only [decide_eq_true_eq]
    omega

variable {i fuel : Nat} {reply : AppendEntriesReply}

theorem termAt_eq {log : List LogEntry} (h : log[i]? = some entry) : termAt log i = entry.term := by
  simp [termAt, List.getD, h]

/-- The merge keeps a log that holds the entries, or puts them in their place. -/
theorem mergeEntries_eq {entries : List LogEntry} {log : List LogEntry} (hi : i ≤ log.length) :
    mergeEntries log i entries = if entries <+: log.drop i then log else log.take i ++ entries := by
  induction entries generalizing log i with
  | nil => simp [mergeEntries]
  | cons entry rest ih =>
    rcases Nat.lt_or_eq_of_le hi with hlt | rfl
    · have hdrop : log.drop i = log[i] :: log.drop (i + 1) := drop_eq_getElem_cons hlt
      by_cases hentry : log[i] = entry
      · -- the entry is there already and the loop moves on
        have hloop : mergeEntries log i (entry :: rest) = mergeEntries log (i + 1) rest := by
          simp [mergeEntries, List.getD, hlt, hentry, Nat.not_le.mpr hlt]
        have htake : log.take (i + 1) = log.take i ++ [entry] := by
          rw [take_succ_eq_append_getElem hlt, hentry]
        rw [hloop, ih hlt, hdrop, hentry, Nat.succ_eq_add_one, htake]
        simp
      · -- the log is cut here, and the rest of the loop only appends
        have hloop : mergeEntries log i (entry :: rest) =
            mergeEntries (log.take i ++ [entry]) (i + 1) rest := by
          simp [mergeEntries, List.getD, hlt, hentry, Nat.min_eq_left hi]
        have hlen : (log.take i ++ [entry]).length = i + 1 := by simp [Nat.min_eq_left hi]
        have hconf : ¬ (entry :: rest) <+: log.drop i := by
          rw [hdrop, cons_prefix_cons]
          exact fun h => hentry h.1.symm
        rw [hloop, ih (Nat.le_of_eq hlen.symm), if_neg hconf, ← hlen, drop_length, take_length]
        split
        next h => simp [prefix_nil.mp h]
        · simp
    · have hloop : mergeEntries log log.length (entry :: rest) =
          mergeEntries (log ++ [entry]) (log.length + 1) rest := by simp [mergeEntries]
      have hlen : (log ++ [entry]).length = log.length + 1 := by simp
      rw [hloop, ih (Nat.le_of_eq hlen.symm), ← hlen, drop_length, take_length]
      simp only [drop_length, prefix_nil, reduceCtorEq, if_false, take_length]
      split
      next h => simp [h]
      · simp

/-! ## Messages -/

structure Slice (log : List LogEntry) (args : AppendEntriesArgs) : Prop where
  prevLogIndex : args.prevLogIndex ≤ log.length
  prevLogTerm : 0 < args.prevLogIndex → args.prevLogTerm = termAt log (args.prevLogIndex - 1)
  entries : args.entries <+: log.drop args.prevLogIndex

theorem Slice.mono {log log' : List LogEntry} (h : Slice log args) (hpre : log <+: log') :
    Slice log' args := by
  obtain ⟨rest, rfl⟩ := hpre
  refine ⟨?_, ?_, ?_⟩
  · have := h.prevLogIndex
    rw [length_append]
    omega
  · intro hpos
    have hlt : args.prevLogIndex - 1 < log.length := by
      have := h.prevLogIndex
      omega
    rw [h.prevLogTerm hpos]
    simp [termAt, List.getD, List.getElem?_append_left hlt]
  · rw [drop_append_of_le_length h.prevLogIndex]
    exact h.entries.trans (prefix_append _ _)

/-- A message is a slice of the leader's log. -/
theorem makeAppendEntriesFor_slice (cfg : RaftConfig) (node : RaftNode) (peer : NodeId) :
    Slice node.log (makeAppendEntriesFor cfg node peer) := by
  unfold makeAppendEntriesFor
  generalize (node.nextIndex.lookup peer).getD (node.log.length + 1) = next
  by_cases hprobes : 1 < next ∧ next - 1 ≤ node.log.length
  · refine ⟨?_, ?_, ?_⟩
    · simp [hprobes]
    · have : next - 1 - 1 = next - 2 := by omega
      simp [hprobes, this]
    · by_cases hentries : 1 ≤ next ∧ next ≤ node.log.length
      · simp [hprobes, hentries]
      · simp [hentries]
  · have hprev : (decide (1 < next) && decide (next - 1 ≤ node.log.length)) = false := by
      simpa using hprobes
    refine ⟨?_, ?_, ?_⟩
    · simp only [hprev, Bool.false_eq_true, if_false, Nat.zero_le]
    · simp only [hprev, Bool.false_eq_true, if_false, Nat.lt_irrefl, false_implies]
    · by_cases hentries : 1 ≤ next ∧ next ≤ node.log.length
      · have hone : next = 1 := by omega
        subst hone
        simp [hentries]
      · simp [hentries]

theorem makeAppendEntriesFor_complete (cfg : RaftConfig)
    (hnext : node.nextIndex.lookup peer = some next) (hpos : 1 ≤ next)
    (hle : next ≤ node.log.length + 1) :
    (makeAppendEntriesFor cfg node peer).prevLogIndex = next - 1 ∧
      (makeAppendEntriesFor cfg node peer).entries = node.log.drop (next - 1) := by
  unfold makeAppendEntriesFor
  rw [hnext]
  simp only [Option.getD_some]
  constructor
  · split
    · rfl
    next h =>
      simp only [Bool.and_eq_true, decide_eq_true_eq, not_and] at h
      by_contra hne
      exact h (by omega) (by omega)
  · split
    · rfl
    next h =>
      rw [drop_eq_nil_of_le]
      omega

theorem lookup_foldl_insert (targets : List NodeId) (value : Nat)
    (map : AList (fun _ : NodeId => Nat)) (p : NodeId) :
    (targets.foldl (fun map peer => map.insert peer value) map).lookup p =
      if p ∈ targets then some value else map.lookup p := by
  induction targets generalizing map with
  | nil => simp
  | cons peer rest ih =>
    rw [foldl_cons, ih]
    by_cases hrest : p ∈ rest
    · simp [hrest]
    · by_cases hpeer : p = peer
      · subst hpeer
        simp
      · simp [hrest, hpeer, AList.lookup_insert_ne hpeer]

/-! ## Committing and applying -/

section Committing

variable (cfg : RaftConfig) (node : RaftNode)

theorem updateCommitIndexLocked_cases :
    updateCommitIndexLocked cfg node = node ∨
      ∃ index, node.commitIndex < index ∧ index ≤ node.log.length ∧
        termAt node.log (index - 1) = node.currentTerm ∧
        index = ranked (replicated node) cfg.quorumSize ∧
        updateCommitIndexLocked cfg node = { node with commitIndex := index } := by
  dsimp only [updateCommitIndexLocked]
  split
  next h => exact .inr ⟨_, h.1, h.2.1, h.2.2, rfl, rfl⟩
  · exact .inl rfl

theorem updateCommitIndexLocked_log : (updateCommitIndexLocked cfg node).log = node.log := by
  fun_cases updateCommitIndexLocked cfg node <;> rfl

theorem updateCommitIndexLocked_healthy :
    (updateCommitIndexLocked cfg node).healthy = node.healthy := by
  fun_cases updateCommitIndexLocked cfg node <;> rfl

theorem updateCommitIndexLocked_state : (updateCommitIndexLocked cfg node).state = node.state := by
  fun_cases updateCommitIndexLocked cfg node <;> rfl

theorem updateCommitIndexLocked_applyCb :
    (updateCommitIndexLocked cfg node).applyCb = node.applyCb := by
  fun_cases updateCommitIndexLocked cfg node <;> rfl

theorem updateCommitIndexLocked_lastApplied :
    (updateCommitIndexLocked cfg node).lastApplied = node.lastApplied := by
  fun_cases updateCommitIndexLocked cfg node <;> rfl

theorem le_updateCommitIndexLocked :
    node.commitIndex ≤ (updateCommitIndexLocked cfg node).commitIndex := by
  rcases updateCommitIndexLocked_cases cfg node with hsame | ⟨index, hlt, _, _, _, hraised⟩
  · rw [hsame]
  · rw [hraised]
    exact Nat.le_of_lt hlt

end Committing

theorem updateCommitIndexLocked_le
    (h : node.commitIndex < (updateCommitIndexLocked cfg node).commitIndex) :
    (updateCommitIndexLocked cfg node).commitIndex ≤
      (updateCommitIndexLocked cfg node).log.length := by
  rcases updateCommitIndexLocked_cases cfg node with hsame | ⟨index, _, hle, _, _, hraised⟩
  · rw [hsame] at h
    exact absurd h (Nat.lt_irrefl _)
  · rw [hraised]
    exact hle

def acceptsReply (node : RaftNode) (args : AppendEntriesArgs) (reply : AppendEntriesReply) : Bool :=
  node.healthy && node.state = .leader && args.term = node.currentTerm &&
    reply.term ≤ node.currentTerm && reply.success

theorem receiveReply_of_accepted (h : (receiveReply lib cfg peer args reply host).2 = .accepted) :
    acceptsReply host.node args reply = true ∧ (receiveReply lib cfg peer args reply host).1 =
        { host with node := recordMatch peer reply.matchIndex host.node } := by
  revert h
  fun_cases receiveReply lib cfg peer args reply host with
  | case3 hguard hle hsucc =>
    simp only [not_or, Decidable.not_not, Bool.not_eq_true'] at hguard
    simp [acceptsReply, hguard, hsucc, Nat.not_lt.mp hle]
  | _ => exact nofun

theorem receiveReply_commitIndex (lib : Libraries) (cfg : RaftConfig) (peer : NodeId)
    (args : AppendEntriesArgs) (reply : AppendEntriesReply) (host : Host) :
    (receiveReply lib cfg peer args reply host).1.node.commitIndex = host.node.commitIndex := by
  fun_cases receiveReply lib cfg peer args reply host with
  | case2 => exact congrArg RaftPersistentState.commitIndex (persistStateLocked_persistent rfl)
  | _ => rfl

theorem commitIndex_le_of_persist
    (h : persistStateLocked lib cfg { host with node := updateCommitIndexLocked cfg host.node } =
      (after, ok)) (hlt : host.node.commitIndex < after.node.commitIndex) :
    after.node.commitIndex ≤ after.node.log.length := by
  obtain ⟨_, _, hlog, hcom, _⟩ := RaftPersistentState.mk.inj (persistStateLocked_persistent h)
  rw [hcom, hlog]
  exact updateCommitIndexLocked_le (hlt.trans_eq hcom)

theorem heartbeatReply_commitIndex {continues : Bool}
    (h : heartbeatReply lib cfg peer args reply host = (after, continues))
    (hlt : host.node.commitIndex < after.node.commitIndex) :
    after.node.commitIndex ≤ after.node.log.length := by
  have hreceived := receiveReply_commitIndex lib cfg peer args reply host
  revert h
  fun_cases heartbeatReply lib cfg peer args reply host with
  | case1 mid heq | case2 mid heq =>
    rintro ⟨⟩
    rw [heq] at hreceived
    exact absurd hreceived.symm (Nat.ne_of_lt hlt)
  | case3 mid heq =>
    rw [heq] at hreceived
    exact fun h => commitIndex_le_of_persist h (hreceived.trans_lt hlt)

theorem commitAppended_commitIndex {succ : Nat} {applied : Option (List (Nat × LogEntry))}
    (h : commitAppended lib cfg succ host = (after, applied))
    (hlt : host.node.commitIndex < after.node.commitIndex) :
    after.node.commitIndex ≤ after.node.log.length := by
  revert h
  fun_cases commitAppended lib cfg succ host with
  | case1 =>
    rintro ⟨⟩
    exact absurd hlt (Nat.lt_irrefl _)
  | case2 _ node applied saved hsave | case3 _ node saved hsave =>
    rintro ⟨⟩
    exact commitIndex_le_of_persist hsave hlt

theorem healthy_of_isNextToApply {node : RaftNode} (h : ¬(!isNextToApply node index) = true) :
    node.healthy = true := by
  simp only [isNextToApply, Bool.not_eq_true', Bool.not_eq_false, Bool.and_eq_true] at h
  exact h.1

/-- The apply position moves, or it is not the next, or unhealthy. -/
theorem markApplied_cases (h : markApplied lib cfg index host = (after, ok)) :
    (ok = true ∧ isNextToApply host.node index = true ∧ after.node.lastApplied = index) ∨
      (ok = false ∧ isNextToApply host.node index = false ∧ after = host) ∨
      (ok = false ∧ after.node.healthy = false) := by
  revert h
  fun_cases markApplied lib cfg index host with
  | case1 hnext =>
    rintro ⟨⟩
    exact .inr (.inl ⟨rfl, by simpa using hnext, rfl⟩)
  | case2 hnext saved hsave =>
    rintro ⟨⟩
    have hpers := persistStateLocked_persistent hsave
    exact .inl ⟨rfl, by simpa using hnext, congrArg RaftPersistentState.lastApplied hpers⟩
  | case3 hnext previous saved hsave =>
    rintro ⟨⟩
    have hup := healthy_of_isNextToApply hnext
    exact .inr (.inr ⟨rfl, (persistStateLocked_kept hsave hup).healthy hup⟩)

theorem mem_drainLoop {commitIndex : Nat} {log : List LogEntry}
    (h : (index, entry) ∈ drainLoop commitIndex log fuel next) :
    next < index ∧ index ≤ commitIndex ∧ log[index - 1]? = some entry := by
  induction fuel generalizing next with
  | zero => simp [drainLoop] at h
  | succ fuel ih =>
    unfold drainLoop at h
    split at h
    next hnext =>
      rcases mem_cons.mp h with heq | hrest
      · cases heq
        refine ⟨by omega, by omega, ?_⟩
        simp [List.getD, List.getElem?_eq_getElem hnext.2]
      · obtain ⟨hlt, hle, hentry⟩ := ih hrest
        exact ⟨by omega, hle, hentry⟩
    · cases h

theorem map_fst_drainLoop {commitIndex : Nat} {log : List LogEntry}
    (hlog : commitIndex ≤ log.length) (hfuel : next + fuel ≤ commitIndex) :
    (drainLoop commitIndex log fuel next).map Prod.fst = List.range' (next + 1) fuel := by
  induction fuel generalizing next with
  | zero => rfl
  | succ fuel ih =>
    have hnext : next < commitIndex ∧ next < log.length := by omega
    rw [drainLoop, if_pos hnext, map_cons, ih (by omega), List.range'_succ]

theorem mem_drainCommittedEntriesLocked (h : (index, entry) ∈ drainCommittedEntriesLocked node) :
    node.lastApplied < index ∧ index ≤ node.commitIndex ∧ node.log[index - 1]? = some entry :=
  mem_drainLoop h

end BoostGateway.Raft
