import BoostGateway.Raft.Replication

/-!
# Leaders refine the record

The sections of `append_command` and `send_heartbeat`. The code counts the leader twice after an
`append_command`, so a raised commit index is committed in the record when the quorum is one without
the leader's own entry in `match_index_` (`CountsOnce`).
-/

namespace BoostGateway.Raft

open List Consensus Consensus.Replicas ClusterConfig AList

/-! ## Counting -/

def replicatedOnce (cfg : RaftConfig) (node : RaftNode) : List Nat :=
  node.log.length :: (node.matchIndex.erase cfg.nodeId).entries.map (fun entry => entry.2)

def CountsOnce (cfg : RaftConfig) (node : RaftNode) : Prop :=
  ∀ index, node.commitIndex < index → index ≤ node.log.length →
    cfg.quorumSize ≤ (replicated node).countP (fun x => decide (index ≤ x)) →
    cfg.quorumSize ≤ (replicatedOnce cfg node).countP (fun x => decide (index ≤ x))

instance (cfg : RaftConfig) (node : RaftNode) : Decidable (CountsOnce cfg node) :=
  decidable_of_iff (∀ index < node.log.length + 1, node.commitIndex < index →
      cfg.quorumSize ≤ (replicated node).countP (fun x => decide (index ≤ x)) →
      cfg.quorumSize ≤ (replicatedOnce cfg node).countP (fun x => decide (index ≤ x)))
    ⟨fun h index hlt hle => h index (Nat.lt_succ_of_le hle) hlt,
      fun h index hle hlt => h index hlt (Nat.le_of_lt_succ hle)⟩

/-- Keys that reach a bound are as many as the values. -/
theorem exists_keys_of_countP (map : AList (fun _ : NodeId => Nat)) (bound : Nat) :
    ∃ keys : Finset NodeId,
      keys.card = (map.entries.map (fun entry => entry.2)).countP (fun x => decide (bound ≤ x)) ∧
        ∀ p ∈ keys, ∃ m, map.lookup p = some m ∧ bound ≤ m := by
  have hnodup : ((map.entries.filter (fun entry => decide (bound ≤ entry.2))).map
      (fun entry => entry.1)).Nodup :=
    (filter_sublist.map _).nodup map.nodupKeys
  refine ⟨((map.entries.filter (fun entry => decide (bound ≤ entry.2))).map
    (fun entry => entry.1)).toFinset, ?_, ?_⟩
  · rw [toFinset_card_of_nodup hnodup, length_map, countP_map, countP_eq_length_filter]
    rfl
  · intro p hp
    obtain ⟨⟨q, m⟩, hentry, rfl⟩ := mem_map.mp (mem_toFinset.mp hp)
    obtain ⟨hmem, hle⟩ := mem_filter.mp hentry
    exact ⟨m, mem_lookup_iff.mpr hmem, of_decide_eq_true hle⟩

/-- Distinct keys that reach a bound are no more than values. -/
theorem length_le_countP {map : AList (fun _ : NodeId => Nat)} {keys : List NodeId} {bound : Nat}
    (hpos : 1 ≤ bound) (hnodup : keys.Nodup) (h : ∀ p ∈ keys, bound ≤ (map.lookup p).getD 0) :
    keys.length ≤
      (map.entries.map (fun entry => entry.2)).countP (fun x => decide (bound ≤ x)) := by
  have hsubset : keys ⊆ (map.entries.filter (fun entry => decide (bound ≤ entry.2))).map
      (fun entry => entry.1) := by
    intro p hp
    have hbound := h p hp
    cases hget : map.lookup p with
    | none =>
      rw [hget, Option.getD_none] at hbound
      omega
    | some m =>
      rw [hget, Option.getD_some] at hbound
      have hentry : (⟨p, m⟩ : Sigma fun _ : NodeId => Nat) ∈ map.entries := mem_lookup_iff.mp hget
      exact mem_map.mpr ⟨_, mem_filter.mpr ⟨hentry, decide_eq_true hbound⟩, rfl⟩
  have hlen := (subperm_of_subset hnodup hsubset).length_le
  rw [length_map] at hlen
  rw [countP_map, countP_eq_length_filter]
  exact hlen

section Leader

variable {lib : Libraries} {level : Level} {setup : ClusterConfig}
  {matched : Nat → NodeId → Nat → Prop} {a : Record} {v : NodeId} {host after : Host}
variable {node : RaftNode} {peer : NodeId} {args : AppendEntriesArgs} {reply : AppendEntriesReply}

/-- A leader has an index for every peer to rank. -/
theorem Matches.quorumSize_le (h : Matches setup matched a v node) (hv : v ∈ setup.peers) :
    (setup.node v).quorumSize ≤ (replicated node).length := by
  have htargets : (setup.node v).targets ⊆ node.matchIndex.keys := by
    intro p hp
    obtain ⟨hmem, hne⟩ := (mem_targets hv).mp hp
    obtain ⟨m, _, hm, _⟩ := h.peer p hmem hne
    rw [← AList.mem_keys, ← lookup_isSome, hm]
    rfl
  have hle : (setup.node v).targets.length ≤ node.matchIndex.keys.length :=
    (subperm_of_subset (targets_nodup hv) htargets).length_le
  have hlen : setup.peers.length ≤ (setup.node v).targets.length + 1 := by
    have herase : (setup.node v).targets = setup.peers.erase v := by
      rw [setup.nodup.erase_eq_filter, RaftConfig.targets, allPeers_node hv]
      rfl
    rw [herase, length_erase_of_mem hv]
    omega
  have hkeys : node.matchIndex.keys.length = node.matchIndex.entries.length := by
    simp [AList.keys, List.keys]
  rw [RaftConfig.quorumSize, allPeers_node hv, replicated, length_cons, length_map]
  omega

def withMatch (matched : Nat → NodeId → Nat → Prop) (peer : NodeId) (args : AppendEntriesArgs)
    (reply : AppendEntriesReply) (outcome : ReplyOutcome) (t : Nat) (p : NodeId) (i : Nat) :
    Prop :=
  matched t p i ∨ (outcome = .accepted ∧ t = args.term ∧ p = peer ∧ i = reply.matchIndex)

theorem withMatch_of_ne {outcome : ReplyOutcome} (h : outcome ≠ .accepted) :
    withMatch matched peer args reply outcome = matched := by
  funext t p i
  simp [withMatch, h]

/-- A rejected message moves the next index of the peer back. -/
theorem Matches.backOff (h : Matches setup matched a v node) :
    Matches setup matched a v (backOff peer node) where
  own := h.own
  member := h.member
  peer p hp hpv := by
    obtain ⟨m, n, hm, hn, hpos, hcase⟩ := h.peer p hp hpv
    by_cases hpeer : p = peer
    · subst hpeer
      have hn' : (BoostGateway.Raft.backOff p node).nextIndex.lookup p =
          some (if 1 < n then n - 1 else 1) := by simp [BoostGateway.Raft.backOff, hn]
      have hle : (if 1 < n then n - 1 else 1) ≤ n := by split <;> omega
      refine ⟨m, _, hm, hn', by split <;> omega, ?_⟩
      exact hcase.imp (fun ⟨hm, hn, hf⟩ => ⟨hm, hle.trans hn, hf⟩)
        (fun ⟨hm, hack, hn⟩ => ⟨hm, hack, hle.trans hn⟩)
    · refine ⟨m, n, hm, ?_, hpos, hcase⟩
      simp [BoostGateway.Raft.backOff, lookup_insert_ne hpeer, hn]

theorem Matches.recordMatch (h : Matches setup matched a v node) (hmember : peer ∈ setup.peers)
    (hne : peer ≠ v) (hterm : args.term = node.currentTerm)
    (hack : a.ack peer args.term reply.matchIndex) (hbound : reply.matchIndex + 1 < 2 ^ 64) :
    Matches setup (withMatch matched peer args reply .accepted) a v
      (recordMatch peer reply.matchIndex node) where
  own m hm := by
    refine h.own m ?_
    simpa [BoostGateway.Raft.recordMatch, lookup_insert_ne hne.symm] using hm
  member p hp := by
    rcases (mem_insert _).mp hp with rfl | hp
    · exact hmember
    · exact h.member p hp
  peer p hp hpv := by
    by_cases hpeer : p = peer
    · subst hpeer
      refine ⟨reply.matchIndex, wrap64 (reply.matchIndex + 1), ?_, ?_, ?_, .inr ⟨?_, ?_, ?_⟩⟩
      · simp [BoostGateway.Raft.recordMatch]
      · simp [BoostGateway.Raft.recordMatch]
      · rw [wrap64, Nat.mod_eq_of_lt hbound]
        omega
      · exact .inr ⟨rfl, hterm.symm, rfl, rfl⟩
      · exact hterm ▸ hack
      · exact Nat.mod_le _ _
    · obtain ⟨m, n, hm, hn, hpos, hcase⟩ := h.peer p hp hpv
      refine ⟨m, n, ?_, ?_, hpos, ?_⟩
      · simp [BoostGateway.Raft.recordMatch, lookup_insert_ne hpeer, hm]
      · simp [BoostGateway.Raft.recordMatch, lookup_insert_ne hpeer, hn]
      · refine hcase.imp (fun ⟨hm, hn, hf⟩ => ⟨hm, hn, ?_⟩)
          (fun ⟨hm, hack, hn⟩ => ⟨.inl hm, hack, hn⟩)
        rintro i (hi | ⟨_, _, hi, _⟩)
        · exact hf i hi
        · exact hpeer hi

/-- A leader that stores a command adds its own index. -/
theorem Matches.pushCommand {a' : Record} (cmd : Bytes) (h : Matches setup matched a v node)
    (hv : v ∈ setup.peers) (hext : Extends a a') :
    Matches setup matched a' v (pushCommand (setup.node v) cmd node) where
  own m hm := by
    have hget : (BoostGateway.Raft.pushCommand (setup.node v) cmd node).matchIndex.lookup v =
          some (node.log.length + 1) := by simp [BoostGateway.Raft.pushCommand, ClusterConfig.node]
    cases hget.symm.trans hm
    simp [BoostGateway.Raft.pushCommand]
  member p hp := by
    rcases (mem_insert _).mp hp with rfl | hp
    · exact hv
    · exact h.member p hp
  peer p hp hpv := by
    obtain ⟨m, n, hm, hn, hpos, hcase⟩ := h.peer p hp hpv
    refine ⟨m, n, ?_, hn, hpos, ?_⟩
    · simpa [BoostGateway.Raft.pushCommand, ClusterConfig.node, lookup_insert_ne hpv] using hm
    · rcases hcase with ⟨hm, hn, hfresh⟩ | ⟨hm, hack, hn⟩
      · refine .inl ⟨hm, ?_, hfresh⟩
        simp only [BoostGateway.Raft.pushCommand, length_append, length_singleton]
        omega
      · exact .inr ⟨hm, hext.ack _ _ _ hack, hn⟩

variable (hinv : setup.Invariant a) (hrel : HostRel level setup matched a v host)

include hinv hrel

section

variable (hstate : host.node.state = .leader)

include hstate

theorem HostRel.leaderLog : a.leaderLog host.node.currentTerm = host.node.log := by
  have hdesc := hrel.describes (hrel.healthy_of_state (by simp [hstate]))
  have hterm : a.term v = host.node.currentTerm := hdesc.term
  rw [← hterm, ← hinv.leaderLog v (by rw [hterm]; exact hrel.role.leader hstate)]
  exact hdesc.log

theorem HostRel.ack_le {p : NodeId} {i : Nat} (hack : a.ack p host.node.currentTerm i) :
    i ≤ host.node.log.length := by
  rw [← hrel.leaderLog hinv hstate]
  exact (hinv.ackLeader _ _ _ hack).2

theorem HostRel.replicated_le (hacks : level.acks) {x : Nat} (hx : x ∈ replicated host.node) :
    x ≤ host.node.log.length := by
  have hpeers := hrel.role.peers hacks hstate
  rcases mem_cons.mp hx with rfl | hx
  · exact le_rfl
  obtain ⟨⟨p, m⟩, hentry, rfl⟩ := mem_map.mp hx
  have hm : host.node.matchIndex.lookup p = some m := mem_lookup_iff.mpr hentry
  by_cases hpv : p = v
  · subst hpv
    exact hpeers.own m hm
  · have hmem := hpeers.member p (lookup_isSome.mp (by rw [hm]; rfl))
    obtain ⟨m', n, hm', _, _, hcase⟩ := hpeers.peer p hmem hpv
    cases hm.symm.trans hm'
    rcases hcase with ⟨rfl, _⟩ | ⟨_, hack, _⟩
    · exact Nat.zero_le _
    · exact hrel.ack_le hinv hstate hack

/-- A counted index is committed once acknowledged. -/
theorem committed_of_count (hacks : level.acks) (hv : v ∈ setup.peers) {index : Nat}
    (hpos : 1 ≤ index) (hle : index ≤ host.node.log.length)
    (hterm : termAt host.node.log (index - 1) = host.node.currentTerm)
    (hcount : (setup.node v).quorumSize ≤
      (replicatedOnce (setup.node v) host.node).countP (fun x => decide (index ≤ x))) :
    Committed setup.members LogEntry.term (a.acknowledge v index) host.node.currentTerm index := by
  have hup := hrel.healthy_of_state (by simp [hstate])
  have hdesc := hrel.describes hup
  have hterm' : a.term v = host.node.currentTerm := hdesc.term
  have hlog := hrel.leaderLog hinv hstate
  have hpeers := hrel.role.peers hacks hstate
  have hi : index - 1 < host.node.log.length := by omega
  have hentry : host.node.log[index - 1]? = some host.node.log[index - 1] :=
    List.getElem?_eq_getElem hi
  refine ⟨⟨host.node.log[index - 1], hpos, ?_, ?_⟩, ?_⟩
  · show (a.leaderLog host.node.currentTerm)[index - 1]? = _
    rw [hlog, hentry]
  · rw [← termAt_eq hentry, hterm]
  · -- the leader and the peers whose match index reaches the index
    obtain ⟨keys, hcard, hkeys⟩ := exists_keys_of_countP (host.node.matchIndex.erase v) index
    have hreach : ∀ p ∈ keys, p ≠ v ∧ p ∈ setup.peers ∧ a.ack p host.node.currentTerm index := by
      intro p hp
      obtain ⟨m, hm, hbelow⟩ := hkeys p hp
      have hpv : p ≠ v := by
        rintro rfl
        simp at hm
      rw [lookup_erase_ne hpv] at hm
      have hmem : p ∈ setup.peers := hpeers.member p (lookup_isSome.mp (by rw [hm]; rfl))
      obtain ⟨m', n, hm', _, _, hcase⟩ := hpeers.peer p hmem hpv
      cases hm.symm.trans hm'
      rcases hcase with ⟨hzero, _⟩ | ⟨_, hack, _⟩
      · omega
      · exact ⟨hpv, hmem, hinv.ackMono _ _ _ _ hack hbelow⟩
    have hnot : v ∉ keys := fun hmem => (hreach v hmem).1 rfl
    refine ⟨insert v keys, ⟨?_, ?_⟩, ?_⟩
    · intro p hp
      rcases Finset.mem_insert.mp hp with rfl | hp
      · exact mem_toFinset.mpr hv
      · exact mem_toFinset.mpr (hreach p hp).2.1
    · rw [Finset.card_insert_of_notMem hnot, hcard, ← quorumSize_node hv]
      simpa [replicatedOnce, countP_cons, hle, ClusterConfig.node] using hcount
    · intro p hp
      rcases Finset.mem_insert.mp hp with rfl | hp
      · exact .inr ⟨rfl, hterm'.symm, le_rfl⟩
      · exact .inl (hreach p hp).2.2

/-- A raised commit index is safe once acknowledged. -/
theorem updateCommitIndexLocked_rel {ok : Bool} (hv : v ∈ setup.peers)
    (hcounts : level.commits → CountsOnce (setup.node v) host.node)
    (h : persistStateLocked lib (setup.node v)
      { host with node := updateCommitIndexLocked (setup.node v) host.node } = (after, ok)) :
    ∃ a', setup.StepsBy v a a' ∧ HostRel level setup matched a' v after ∧
      Kept (updateCommitIndexLocked (setup.node v) host.node) after.node ok := by
  have hup := hrel.healthy_of_state (by simp [hstate])
  have hdesc := hrel.describes hup
  have hterm : a.term v = host.node.currentTerm := hdesc.term
  rcases updateCommitIndexLocked_cases (setup.node v) host.node with
    hsame | ⟨index, hlt, hle, hindexTerm, hranked, hraised⟩
  · rw [hsame] at h ⊢
    obtain ⟨a', hsteps, hrel', hkept, _, _⟩ := HostRel.persist matched h hup hinv
      (.refl v a) (.refl v a) hrel.stored hrel.bound (hrel.recalls hinv)
      hrel.commitSafe (fun _ => ⟨hdesc, hrel.role⟩)
    exact ⟨a', hsteps, hrel', hkept⟩
  · rw [hraised] at h ⊢
    have hlead : a.leader (a.term v) = some v := by
      rw [hterm]
      exact hrel.role.leader hstate
    have hlog : a.leaderLog (a.term v) = host.node.log := hterm ▸ hrel.leaderLog hinv hstate
    have hsteps : setup.StepsBy v a (a.acknowledge v index) := by
      refine StepsBy.acknowledge (by simp [hlead]) ?_ ?_
      · rwa [hlog]
      · rw [hlog, hdesc.log]
        exact List.take_prefix _ _
    have hext := hsteps.acted.ext
    have hcom : level.commits → setup.CommittedPrefix (a.acknowledge v index)
        host.node.currentTerm (host.node.log.take index) := by
      intro hs
      have hacks := level.acks_of_commits hs
      have hquorum := (hrel.role.peers hacks hstate).quorumSize_le hv
      have hcounted := (le_ranked_iff (by simp [RaftConfig.quorumSize]) hquorum).mp
        (Nat.le_of_eq hranked)
      have hcommit := committed_of_count hinv hrel hstate hacks hv (by omega) hle hindexTerm
        (hcounts hs index hlt hle hcounted)
      have hpre := hcommit.committedPrefix
      rwa [show (a.acknowledge v index).leaderLog host.node.currentTerm = host.node.log from
        hterm ▸ hlog] at hpre
    have hstored : Describes level setup (a.acknowledge v index) v host.durable := by
      rw [← hrel.synced hup]
      exact hdesc.update hext rfl hdesc.log (fun _ _ _ h => h) rfl rfl
        (fun hs => (hdesc.commit hs).extends hinv hext) hdesc.wellFormed
    have hrole := hrel.role.extends hext id
    have hholds : Recalls (a.acknowledge v index) v host.node.log := by
      have := hstored.recalls (hsteps.invariant hinv)
      rwa [← hrel.synced hup] at this
    obtain ⟨a', hsteps', hrel', hkept, _, _⟩ := HostRel.persist matched h hup hinv
      hsteps hsteps hstored hrel.bound hholds (fun hs => ⟨_, hcom hs⟩)
      (fun hwell => ⟨hdesc.update hext rfl hdesc.log (fun _ _ _ h => h) rfl rfl hcom
        hwell, hrole.leader, hrole.candidate, fun hs hl => { hrole.peers hs hl with }⟩)
    exact ⟨a', hsteps', hrel', hkept⟩

end

/-! ## Replies -/

/-- A reply refines the record, which stays unless the sender gives up. -/
theorem receiveReply_rel {outcome : ReplyOutcome} (hmember : peer ∈ setup.peers) (hne : peer ≠ v)
    (hbound : reply.term < 2 ^ 64)
    (hack : level.acks → reply.success = true → a.ack peer args.term reply.matchIndex)
    (h : receiveReply lib (setup.node v) peer args reply host = (after, outcome)) :
    ∃ a', setup.StepsBy v a a' ∧
      HostRel level setup (withMatch matched peer args reply outcome) a' v after ∧
      after.node.log = host.node.log ∧ Standing host.node after.node ∧
      (outcome = .accepted → a' = a ∧ host.node.state = .leader ∧
          after = { host with node := recordMatch peer reply.matchIndex host.node }) := by
  unfold receiveReply at h
  split at h
  · cases h
    rw [withMatch_of_ne (by decide)]
    exact ⟨a, .refl v a, hrel, rfl, .refl _, by simp⟩
  next hguard =>
  simp only [not_or, Decidable.not_not] at hguard
  obtain ⟨hup, hstate, hterm⟩ := hguard
  have hup : host.node.healthy = true := by simpa using hup
  have hstay : ∀ {node : RaftNode}, node.state = host.node.state → Standing host.node node := by
    intro node hsame hcand
    simp [hsame, hstate] at hcand
  split at h
  next hlt =>
    generalize hdown : becomeFollower lib (setup.node v) reply.term host = result at h
    obtain ⟨a', hsteps, hrel', hkept⟩ := becomeFollower_rel hinv hrel hup hdown hbound (.inl hlt)
    cases h
    rw [withMatch_of_ne (by decide)]
    refine ⟨a', hsteps, hrel', hkept.log, fun hcand => ?_, by simp⟩
    simp [hkept.follower hup rfl] at hcand
  split at h
  next hsucc =>
    cases h
    refine ⟨a, .refl v a, hrel.of_peers rfl rfl rfl rfl fun hs hl => ?_, rfl, hstay rfl,
      fun _ => ⟨rfl, hstate, rfl⟩⟩
    have hack := hack hs hsucc
    -- an acknowledged index lies in the leader's log, which is short of the largest integer
    have hidx : reply.matchIndex ≤ host.node.log.length := hrel.ack_le hinv hstate (hterm ▸ hack)
    have hsize : host.node.log.length ≤ defaultLimits.maxLogEntries :=
      (hrel.describes hup).wellFormed.logSize
    refine (hrel.role.peers hs hl).recordMatch hmember hne hterm hack ?_
    have : defaultLimits.maxLogEntries + 1 < 2 ^ 64 := by decide
    omega
  · cases h
    rw [withMatch_of_ne (by decide)]
    exact ⟨a, .refl v a,
      hrel.of_peers rfl rfl rfl rfl fun hs hl => (hrel.role.peers hs hl).backOff, rfl, hstay rfl,
      by simp⟩

/-- `send_heartbeat` after a reply refines the record. -/
theorem heartbeatReply_rel {continues : Bool} (hv : v ∈ setup.peers)
    (hmember : peer ∈ setup.peers) (hne : peer ≠ v) (hbound : reply.term < 2 ^ 64)
    (hack : level.acks → reply.success = true → a.ack peer args.term reply.matchIndex)
    (hcounts : level.commits → acceptsReply host.node args reply = true →
      CountsOnce (setup.node v) (recordMatch peer reply.matchIndex host.node))
    (h : heartbeatReply lib (setup.node v) peer args reply host = (after, continues)) :
    ∃ a', setup.StepsBy v a a' ∧ HostRel level setup
        (withMatch matched peer args reply
          (receiveReply lib (setup.node v) peer args reply host).2) a' v after ∧
      after.node.log = host.node.log ∧ Standing host.node after.node := by
  unfold heartbeatReply at h
  generalize hreceived : receiveReply lib (setup.node v) peer args reply host = result at h ⊢
  obtain ⟨middle, outcome⟩ := result
  obtain ⟨a₁, hsteps₁, hrel₁, hlog, hstand, haccepted⟩ :=
    receiveReply_rel hinv hrel hmember hne hbound hack hreceived
  cases outcome with
  | abandoned | rejected =>
    cases h
    exact ⟨a₁, hsteps₁, hrel₁, hlog, hstand⟩
  | accepted =>
    obtain ⟨rfl, hstate, rfl⟩ := haccepted rfl
    have hacc := (receiveReply_of_accepted (congrArg Prod.snd hreceived)).1
    obtain ⟨a₂, hsteps₂, hrel₂, hkept⟩ := updateCommitIndexLocked_rel hinv hrel₁ hstate hv
      (fun hs => hcounts hs hacc) h
    refine ⟨a₂, hsteps₂, hrel₂, hkept.log.trans (updateCommitIndexLocked_log _ _), ?_⟩
    intro hcand
    have hup := hrel₁.healthy_of_state (by simp [recordMatch, hstate])
    have := (hkept.standing (by rwa [updateCommitIndexLocked_healthy]) hcand).1
    rw [updateCommitIndexLocked_state] at this
    simp [recordMatch, hstate] at this

/-! ## Commands -/

/-- `append_command` is an append; after a failed save the entry may be in memory only. -/
theorem appendCommand_rel {command : Bytes} {ok : Bool} (hv : v ∈ setup.peers)
    (h : appendCommand lib (setup.node v) command host = (after, ok)) :
    ∃ a', setup.StepsBy v a a' ∧
      HostRel level setup matched a' v after ∧ Standing host.node after.node := by
  unfold appendCommand at h
  split at h
  · cases h
    exact ⟨a, .refl v a, hrel, .refl _⟩
  next hguard =>
  simp only [not_or, Decidable.not_not] at hguard
  obtain ⟨hup, hstate, _, _⟩ := hguard
  have hup : host.node.healthy = true := by simpa using hup
  have hdesc := hrel.describes hup
  have hterm : a.term v = host.node.currentTerm := hdesc.term
  have hlogv : a.log v = host.node.log := hdesc.log
  have hlead : a.leader (a.term v) = some v := by
    rw [hterm]
    exact hrel.role.leader hstate
  have hleaderLog := hrel.leaderLog hinv hstate
  have hsteps : setup.StepsBy v a
      (a.append v { term := host.node.currentTerm, command }) :=
    StepsBy.append hinv hlead hterm.symm
  have hext := hsteps.acted.ext
  have hcommit : host.node.commitIndex ≤ host.node.log.length := hdesc.wellFormed.commit
  have htake : (pushCommand (setup.node v) command host.node).log.take host.node.commitIndex =
      host.node.log.take host.node.commitIndex :=
    take_append_of_le_length hcommit
  -- before the save the record explains the new entry as one the leader failed to save
  have hrecalls : Recalls a v (pushCommand (setup.node v) command host.node).log := by
    refine ⟨fun t k hack => ?_, .inr ⟨{ term := host.node.currentTerm, command }, ?_, ?_⟩⟩
    · exact ((hrel.recalls hinv).1 t k hack).imp_left (fun hheld => hheld.trans (prefix_append _ _))
    · exact hterm ▸ hlead
    · rw [hleaderLog]
      rfl
  have hrole := hrel.role.extends hext id
  obtain ⟨a', hsteps', hrel', hkept, _, _⟩ := HostRel.persist matched h hup hinv
    (.refl v a) hsteps hrel.stored hrel.bound hrecalls
    (fun hs => by
      rw [CommitSafe, show (pushCommand (setup.node v) command host.node).commitIndex =
        host.node.commitIndex from rfl, htake]
      exact hrel.commitSafe hs)
    (fun hwell => ⟨hdesc.update hext rfl
      (by simp [Replicas.append, pushCommand, hlogv]) (fun _ _ _ hvote => hvote) rfl rfl
      (fun hs => by
        rw [show (pushCommand (setup.node v) command host.node).commitIndex =
          host.node.commitIndex from rfl, htake]
        exact (hdesc.commit hs).extends hinv hext) hwell,
      hrole.leader, by simp [pushCommand, hstate],
      fun hs hl => (hrel.role.peers hs hl).pushCommand command hv hext⟩)
  refine ⟨a', hsteps', hrel', fun hcand => ?_⟩
  have := (hkept.standing hup hcand).1
  simp [pushCommand, hstate] at this

/-- After the loop the record is refined and committed entries delivered. -/
theorem commitAppended_rel {succ : Nat} {applied : Option (List (Nat × LogEntry))}
    (hv : v ∈ setup.peers)
    (hcounts : level.commits → host.node.state = .leader → (setup.node v).quorumSize ≤ succ →
      CountsOnce (setup.node v) host.node)
    (h : commitAppended lib (setup.node v) succ host = (after, applied)) :
    ∃ a', setup.StepsBy v a a' ∧
      HostRel level setup matched a' v after ∧ after.node.log = host.node.log ∧
      Standing host.node after.node ∧
      ∀ pending, applied = some pending → level.commits →
        ∀ index entry, (index, entry) ∈ pending → CommittedEntry setup a' index entry := by
  unfold commitAppended at h
  split at h
  · cases h
    exact ⟨a, .refl v a, hrel, rfl, .refl _, by simp⟩
  next hguard =>
  simp only [not_or, Decidable.not_not, Nat.not_lt] at hguard
  obtain ⟨hup, hstate, hquorum⟩ := hguard
  have hup : host.node.healthy = true := by simpa using hup
  dsimp only at h
  generalize hsave : persistStateLocked lib (setup.node v) _ = result at h
  obtain ⟨saved, ok⟩ := result
  obtain ⟨a', hsteps, hrel', hkept⟩ := updateCommitIndexLocked_rel hinv hrel hstate hv
    (fun hs => hcounts hs hstate hquorum) hsave
  have hlog : saved.node.log = host.node.log := hkept.log.trans (updateCommitIndexLocked_log _ _)
  have hstand : Standing host.node saved.node := by
    intro hcand
    have := (hkept.standing (by rwa [updateCommitIndexLocked_healthy]) hcand).1
    rw [updateCommitIndexLocked_state, hstate] at this
    cases this
  cases ok with
  | false =>
    cases h
    exact ⟨a', hsteps, hrel', hlog, hstand, by simp⟩
  | true =>
    cases h
    refine ⟨a', hsteps, hrel', hlog, hstand, fun pending hpend hs index entry hentry => ?_⟩
    cases hpend
    refine committedEntry_of_drain ?_ hentry
    have hcom := hrel'.commitSafe hs
    rwa [hkept.log, hkept.commitIndex] at hcom

/-! ## Applying and coming up -/

/-- Marking an entry applied leaves the record alone. -/
theorem markApplied_rel {index : Nat} {ok : Bool}
    (h : markApplied lib (setup.node v) index host = (after, ok)) :
    HostRel level setup matched a v after ∧ after.node.log = host.node.log ∧
      Standing host.node after.node := by
  unfold markApplied at h
  split at h
  · cases h
    exact ⟨hrel, rfl, .refl _⟩
  next hnext =>
  have hup := healthy_of_isNextToApply hnext
  generalize hsave : persistStateLocked lib (setup.node v)
    { host with node := { host.node with lastApplied := index } } = result at h
  obtain ⟨saved, saveOk⟩ := result
  have hdesc := hrel.describes hup
  obtain ⟨a', hsteps, hrel', hkept, _, hsame⟩ := HostRel.persist matched hsave hup hinv
    (.refl v a) (.refl v a) hrel.stored hrel.bound (hrel.recalls hinv)
    hrel.commitSafe (fun hwell => ⟨{ hdesc with wellFormed := hwell }, hrel.role.leader,
      hrel.role.candidate, fun hs hl => { hrel.role.peers hs hl with }⟩)
  obtain rfl : a' = a := or_self_iff.mp hsame
  have hstand : Standing host.node saved.node := hkept.standing hup
  cases saveOk with
  | true =>
    cases h
    exact ⟨hrel', hkept.log, hstand⟩
  | false =>
    cases h
    have hdown : saved.node.healthy = false := hkept.healthy hup
    obtain ⟨hstate, hrecl', hcom⟩ := hrel'.unhealthy hdown
    exact ⟨HostRel.of_unhealthy hrel'.stored hrel'.bound hdown hstate hrecl' hcom,
      hkept.log, hstand⟩

theorem failApply_rel (act : String) (index : Nat) (verd : Verdict) :
    HostRel level setup matched a v { host with node := failApply act index verd host.node } :=
  hrel.markUnhealthy hinv { host.node with failedApplyIndex := some index } _ rfl rfl rfl

omit hinv hrel in
theorem load_persistent (host : Host) : (load host.disk).persistent = host.durable := by
  cases hdisk : host.disk <;> simp [load, Host.durable, hdisk, RaftNode.persistent]

omit hinv in
theorem load_rel (callback : Bool) :
    HostRel level setup matched a v
      { host with node := { load host.disk with applyCb := callback } } := by
  have hpersistent : ({ load host.disk with applyCb := callback } : RaftNode).persistent =
      host.durable :=
    load_persistent host
  have hstate : (load host.disk).state = .follower := by cases host.disk <;> rfl
  have hhealthy : (load host.disk).healthy = true := by cases host.disk <;> rfl
  refine ⟨hrel.stored, fun _ => hpersistent, ?_, fun hunhealthy => ?_, Role.follower hstate⟩
  · have hterm := congrArg RaftPersistentState.currentTerm hpersistent
    exact lt_of_eq_of_lt hterm hrel.stored.bound
  · simp [hhealthy] at hunhealthy

end Leader

end BoostGateway.Raft
