import BoostGateway.Raft.Safety

/-!
# Safety of orderly runs

A follower replies with the length of its whole log and commits up to it, also when the message did
not reach that far, and a leader counts itself twice after an `append_command`. In the runs where
neither matters (`orderlyStep`) no two nodes apply different commands at one index
(`state_machine_safety`), and a quorum holds what a leader commits (`commit_rule`), as do later
leaders (`leader_completeness`).
-/

namespace BoostGateway.Raft

open List Consensus Consensus.Replicas Output

/-! ## Conditions on runs -/

def coveredStep (c : Cluster) (event : Event) : Prop :=
  CoveredStep (c.procs event.node) event.action

/-- Messages cover the logs, and leaders count themselves once. -/
def orderlyStep (setup : ClusterConfig) (c : Cluster) (event : Event) : Prop :=
  CoveredStep (c.procs event.node) event.action ∧
    CountedStep (setup.node event.node) (c.procs event.node) event.action

instance (c : Cluster) (event : Event) : Decidable (coveredStep c event) := by
  unfold coveredStep
  infer_instance

instance (setup : ClusterConfig) (c : Cluster) (event : Event) :
    Decidable (orderlyStep setup c event) := by
  unfold orderlyStep
  infer_instance

def ackLevel : Level where
  acks := True
  commits := False
  acks_of_commits := False.elim

def commitLevel : Level where
  acks := True
  commits := True
  acks_of_commits := id

section Commitment

variable {lib : Libraries} {setup : ClusterConfig} {c c' : Cluster} {event : Event}

theorem run_covered (h : Cluster.Run lib setup coveredStep c) :
    ∃ a, ClusterRel ackLevel setup c a :=
  run_rel (fun _ _ hstep => ⟨fun _ => hstep, False.elim⟩) h

theorem run_orderly (h : Cluster.Run lib setup (orderlyStep setup) c) :
    ∃ a, ClusterRel commitLevel setup c a :=
  run_rel (fun _ _ hstep => ⟨fun _ => hstep.1, fun _ => hstep.2⟩) h

/-! ## Applied entries -/

theorem CommittedEntry.unique {a : Record} {index : Nat} {entry entry' : LogEntry}
    (hinv : setup.Invariant a) (h : CommittedEntry setup a index entry)
    (h' : CommittedEntry setup a index entry') : entry = entry' := by
  obtain ⟨t, entries, hcommit, _, hentry⟩ := h
  obtain ⟨t', entries', hcommit', _, hent'⟩ := h'
  rcases hcommit.comparable hinv hcommit' with ⟨rest, rfl⟩ | ⟨rest, rfl⟩
  · rw [List.getElem?_append_left (List.getElem?_eq_some_iff.mp hentry).1, hentry] at hent'
    exact Option.some.inj hent'
  · rw [List.getElem?_append_left (List.getElem?_eq_some_iff.mp hent').1, hent'] at hentry
    exact (Option.some.inj hentry).symm

/-- Entries that nodes apply at one index carry the same command. -/
theorem state_machine_safety (h : Cluster.Run lib setup (orderlyStep setup) c) {u v : NodeId}
    {index : Nat} {entry entry' : LogEntry} (hu : (u, applied index entry) ∈ c.history)
    (hv : (v, applied index entry') ∈ c.history) : entry.command = entry'.command := by
  obtain ⟨a, hrel⟩ := run_orderly h
  have hentry : CommittedEntry setup a index entry := (hrel.network _ _ hu).2 trivial
  have hent' : CommittedEntry setup a index entry' := (hrel.network _ _ hv).2 trivial
  rw [hentry.unique hrel.inv hent']

def entryX : LogEntry where
  term := 1
  command := ascii "x"

def entryY : LogEntry where
  term := 2
  command := ascii "y"

/-- Up to the reply that makes a quorum for the command of `a`. -/
def beforeCommitX : List Event :=
  electA ++ [on nodeA (.appendCommand entryX.command), on nodeA .sendEntries,
    on nodeB (.appendEntries { term := 1, leaderId := nodeA, entries := [entryX] }),
    on nodeB .finishDelivery, on nodeA (.entriesReplied (accepted 1 1)), on nodeA .sendEntries,
    on nodeA (.entriesReplied .empty)]

/-- The heartbeat of `a` after it has committed its command. -/
def beatX : AppendEntriesArgs where
  term := 1
  leaderId := nodeA
  prevLogIndex := 1
  prevLogTerm := 1
  leaderCommit := 1

/-- `a` commits and applies its command, and then `b`. -/
def shareX : List Event := beforeCommitX ++
    [on nodeA .closeReplication, on nodeA .callback, on nodeA (.callbackReturned .accepted),
      on nodeA .finishDelivery, on nodeA (.sendHeartbeat .pipeline),
      on nodeB (.appendEntries beatX), on nodeB .callback, on nodeB (.callbackReturned .accepted),
      on nodeB .finishDelivery]

/-- The theorem at an orderly run in which `a` and `b` apply a command. -/
theorem state_machine_safety_shareX : ∃ entry entry',
    (nodeA, applied 1 entry) ∈ (reached (orderlyStep trio) shareX).history ∧
      (nodeB, applied 1 entry') ∈ (reached (orderlyStep trio) shareX).history ∧
      entry.command = entry'.command := by
  obtain ⟨hrun, ha, hb⟩ := reached_run (orderlyStep trio) shareX
    (fun c => (nodeA, applied 1 entryX) ∈ c.history ∧ (nodeB, applied 1 entryX) ∈ c.history)
    (by decide +kernel)
  exact ⟨entryX, entryX, ha, hb, state_machine_safety hrun ha hb⟩

/-- What a state file records as committed is in the log of every leader from its term on. -/
theorem leader_completeness (h : Cluster.Run lib setup (orderlyStep setup) c) {u v : NodeId}
    (hu : u ∈ setup.peers) (hv : v ∈ setup.peers) (hlead : (c.procs v).host.node.state = .leader)
    (hterm : (c.procs u).host.durable.currentTerm ≤ (c.procs v).host.node.currentTerm) :
    (c.procs u).host.durable.log.take (c.procs u).host.durable.commitIndex <+:
      (c.procs v).host.node.log := by
  obtain ⟨a, hrel⟩ := run_orderly h
  obtain ⟨hown, hlog⟩ := hrel.leaderLog_eq hv hlead
  rw [hlog]
  exact ((hrel.procs u hu).host.stored.commit trivial).prefix_leaderLog hrel.inv hterm
    (by simp [hown])

/-- `b` wins term 2 with one entry and the vote of `c`. -/
def succeedB : List Event := [on nodeB .startElection] ++ askLost nodeB ++
    askGranted nodeB nodeC
      { term := 2, candidateId := nodeB, lastLogIndex := 1, lastLogTerm := 1 } ++
    [on nodeB .closeElection]

example : (Cluster.exec quick trio anyStep (shareX ++ succeedB) {}).isSome := by decide +kernel

/-- The theorem at a run in which `b` leads after `a` has committed a command. -/
theorem leader_completeness_succeedB :
    [entryX] <+: ((reached (orderlyStep trio) (shareX ++ succeedB)).procs nodeB).host.node.log := by
  obtain ⟨hrun, hlead, hterm, hcom⟩ := reached_run (orderlyStep trio) (shareX ++ succeedB)
    (fun c => let a := (c.procs nodeA).host.durable
      let b := (c.procs nodeB).host.node
      b.state = .leader ∧ a.currentTerm ≤ b.currentTerm ∧ a.log.take a.commitIndex = [entryX])
    (by decide +kernel)
  exact hcom ▸ leader_completeness hrun (by decide) (by decide) hlead hterm

/-- The reply to an earlier heartbeat makes `a` commit a command alone. -/
def commitAlone : List Event :=
  electA ++ [on nodeA .startHeartbeat, on nodeA (.sendHeartbeat .worker),
    on nodeB (.appendEntries (emptyBeat 1 nodeA)), on nodeB .finishDelivery,
    on nodeA (.appendCommand entryX.command)]

def replyToBeat : Event := on nodeA (.heartbeatReplied .worker (accepted 1 0))

/-- `a` commits alone, and `b` and `c` another command. -/
def applyTwice : List Event := commitAlone ++ [replyToBeat] ++
    [on nodeA (.boot true), on nodeA .finishDelivery, on nodeA .callback] ++ electB ++
    [on nodeB (.appendCommand entryY.command), on nodeB .sendEntries,
      on nodeB (.entriesReplied .empty), on nodeB .sendEntries,
      on nodeC (.appendEntries { term := 2, leaderId := nodeB, entries := [entryY] }),
      on nodeC .finishDelivery, on nodeB (.entriesReplied (accepted 2 1)),
      on nodeB .closeReplication, on nodeB .callback]

/-- In this run `a` and `b` apply different commands at index 1. -/
theorem state_machine_safety_applyTwice :
    Cluster.Run reference trio anyStep (reached anyStep applyTwice) ∧
      (nodeA, applied 1 entryX) ∈ (reached anyStep applyTwice).history ∧
      (nodeB, applied 1 entryY) ∈ (reached anyStep applyTwice).history ∧
      entryX.command ≠ entryY.command := by
  obtain ⟨hrun, hx, hy⟩ := reached_run anyStep applyTwice
    (fun c => (nodeA, applied 1 entryX) ∈ c.history ∧
      (nodeB, applied 1 entryY) ∈ c.history) (by decide +kernel)
  exact ⟨hrun, hx, hy, by decide⟩

/-! ## Committed entries -/

/-- A commit index that is put out was raised within the log. -/
theorem committed_output {cfg : RaftConfig} {p : Process} {act : Action}
    {next : Process × List Output} {index : Nat}
    (h : Process.Advances lib cfg p act next) (hout : committed index ∈ next.2) :
    p.host.node.commitIndex < index ∧ index = next.1.host.node.commitIndex ∧
      index ≤ next.1.host.node.log.length := by
  have hemits := Process.emits_of_mem h hout
  cases h with
  | @heartbeatReplied thr peer args rest res hbeat =>
    obtain ⟨reply, rfl, hout | hout | ⟨_, hout⟩⟩ := Process.mem_receiveBeat hout
    · obtain ⟨_, heq⟩ := Process.mem_matchedOutput hout
      cases heq
    · obtain ⟨hlt, heq⟩ := Process.mem_committedOutput hout
      obtain rfl := committed.inj heq
      have hhost : (Process.receiveBeat lib cfg thr peer args rest (.reply reply) p).1.host =
          (heartbeatReply lib cfg peer args reply p.host).1 := by
        dsimp only [Process.receiveBeat]
        split
        · exact Process.setBeat_host _ _ _
        · exact Process.endBeat_host _ _
      rw [hhost]
      exact ⟨hlt, rfl, heartbeatReply_commitIndex rfl hlt⟩
    · obtain ⟨_, _, _, _, _, heq⟩ := Process.mem_endBeat rfl hout
      cases heq
  | closeReplication =>
    obtain ⟨hlt, heq⟩ := Process.mem_committedOutput hout
    obtain rfl := committed.inj heq
    exact ⟨hlt, rfl, commitAppended_commitIndex rfl hlt⟩
  | _ => cases hemits

/-- The nodes whose logs start with these entries. -/
def holders (setup : ClusterConfig) (c : Cluster) (entries : List LogEntry) : List NodeId :=
  setup.peers.filter fun u => entries <+: (c.procs u).host.node.log

theorem quorum_le_holders {level : Level} {a : Record} {t : Nat} {ents : List LogEntry}
    (hrel : ClusterRel level setup c a) (hcommit : setup.CommittedPrefix a t ents)
    (hne : ents ≠ []) : setup.members.card / 2 + 1 ≤ (holders setup c ents).length := by
  obtain ⟨quorum, hquorum, hheld⟩ := hcommit.held hrel.inv hne
  have hsubset : quorum ⊆ (holders setup c ents).toFinset := by
    intro u hu
    have hmember : u ∈ setup.peers := mem_toFinset.mp (hquorum.1 hu)
    have hholds := ((hrel.procs u hmember).host.recalls hrel.inv).1
    simpa [holders, hmember] using hheld u hu _ hholds
  calc setup.members.card / 2 + 1 ≤ quorum.card := hquorum.2
    _ ≤ (holders setup c ents).toFinset.card := Finset.card_le_card hsubset
    _ ≤ (holders setup c ents).length := toFinset_card_le _

/-- When a commit index is raised, a quorum of the nodes has the log of the leader up to it. -/
theorem commit_rule (hrun : Cluster.Run lib setup (orderlyStep setup) c)
    (hcondition : orderlyStep setup c event) (hstep : Cluster.step lib setup event c = some c')
    {v : NodeId} {index : Nat} (hout : (v, committed index) ∈ newOutputs c c') :
    1 ≤ index ∧ index ≤ (c'.procs v).host.node.log.length ∧ (setup.node v).quorumSize ≤
        (holders setup c' ((c'.procs v).host.node.log.take index)).length := by
  obtain ⟨rfl, next, hadv, hmem, hproc⟩ := advances_of_mem_newOutputs hstep hout
  obtain ⟨hlt, hidx, hle⟩ := committed_output hadv hmem
  rw [← hproc] at hidx hle
  obtain ⟨hv, _⟩ := step_eq_some hstep
  obtain ⟨a, hrel⟩ := run_orderly (hrun.step hcondition hstep)
  obtain ⟨t, hcommit⟩ := (hrel.procs _ hv).host.commitSafe trivial
  rw [← hidx] at hcommit
  refine ⟨by omega, hle, ?_⟩
  rw [ClusterConfig.quorumSize_node hv]
  refine quorum_le_holders hrel hcommit fun hnil => ?_
  have hlen := congrArg List.length hnil
  rw [length_take, length_nil] at hlen
  omega

/-- The theorem at a step in which `a` commits a command that `b` holds. -/
theorem commit_rule_beforeCommitX : ∃ c', Cluster.step reference trio (on nodeA .closeReplication)
        (reached (orderlyStep trio) beforeCommitX) = some c' ∧
      (trio.node nodeA).quorumSize ≤
        (holders trio c' ((c'.procs nodeA).host.node.log.take 1)).length := by
  obtain ⟨hrun, c', hstep, hcond, hout⟩ := reached_step (orderlyStep trio) beforeCommitX
    (on nodeA .closeReplication) (fun c c' => orderlyStep trio c (on nodeA .closeReplication) ∧
      (nodeA, committed 1) ∈ newOutputs c c') (by decide +kernel)
  exact ⟨c', hstep, (commit_rule hrun hcond hstep hout).2.2⟩

/-- With this reply `a` commits a command that no other node holds. -/
theorem commit_rule_commitAlone : ∃ c',
    Cluster.Run reference trio anyStep (reached anyStep commitAlone) ∧
      Cluster.step reference trio replyToBeat (reached anyStep commitAlone) = some c' ∧
      (nodeA, committed 1) ∈ newOutputs (reached anyStep commitAlone) c' ∧
      holders trio c' ((c'.procs nodeA).host.node.log.take 1) = [nodeA] ∧
      (trio.node nodeA).quorumSize = 2 := by
  obtain ⟨hrun, c', hstep, hout, hholders⟩ := reached_step anyStep commitAlone replyToBeat
    (fun c c' => (nodeA, committed 1) ∈ newOutputs c c' ∧
      holders trio c' ((c'.procs nodeA).host.node.log.take 1) = [nodeA]) (by decide +kernel)
  exact ⟨c', hrun, hstep, hout, hholders, by decide⟩

/-! ## Match indices -/

/-- A match index lies in the leader's log, the peer replied with it, every successful reply in the
term was sent with a log that agrees with the leader's up to the index it reports, and the next
message continues at most there. -/
theorem match_index_sound (h : Cluster.Run lib setup coveredStep c) {v p : NodeId} {m : Nat}
    (hv : v ∈ setup.peers) (hp : p ∈ setup.peers) (hne : p ≠ v)
    (hstate : (c.procs v).host.node.state = .leader)
    (hmatch : (c.procs v).host.node.matchIndex.lookup p = some m)
    (hset : (v, matched (c.procs v).host.node.currentTerm p m) ∈ c.history) :
    m ≤ (c.procs v).host.node.log.length ∧
      (∃ args reply log, (p, appendEntriesReply args reply log) ∈ c.history ∧
        reply.success = true ∧ args.term = (c.procs v).host.node.currentTerm ∧
        reply.matchIndex = m) ∧
      (∀ args reply log, (p, appendEntriesReply args reply log) ∈ c.history →
        reply.success = true → args.term = (c.procs v).host.node.currentTerm →
        reply.matchIndex ≤ log.length ∧
          log.take reply.matchIndex = (c.procs v).host.node.log.take reply.matchIndex) ∧
      (makeAppendEntriesFor (setup.node v) (c.procs v).host.node p).prevLogIndex ≤ m ∧
      (makeAppendEntriesFor (setup.node v) (c.procs v).host.node p).entries =
        (c.procs v).host.node.log.drop
          (makeAppendEntriesFor (setup.node v) (c.procs v).host.node p).prevLogIndex := by
  obtain ⟨a, hrel⟩ := run_covered h
  have hhost := (hrel.procs v hv).host
  have hlog := hhost.leaderLog hrel.inv hstate
  obtain ⟨m', n, hm', hn, hpos, hcase⟩ := (hhost.role.peers trivial hstate).peer p hp hne
  cases hmatch.symm.trans hm'
  rcases hcase with ⟨_, _, hnone⟩ | ⟨_, hack, hle⟩
  · exact absurd hset (hnone m)
  have hm := hhost.ack_le hrel.inv hstate hack
  obtain ⟨hprev, hentries⟩ := makeAppendEntriesFor_complete (setup.node v) hn hpos (by omega)
  obtain ⟨_, _, _, args, reply, log, hrep, hsucc, hargs, hidx⟩ := (hrel.network _ _ hset).2
  refine ⟨hm, ⟨args, reply, log, hrep, hsucc, hargs, hidx⟩, ?_, by omega, by
    rw [hentries, hprev]⟩
  intro args reply log hrep hsucc hargs
  obtain ⟨_, hok⟩ := (hrel.network _ _ hrep).2
  obtain ⟨hlen, _, hacked⟩ := hok hsucc
  obtain ⟨_, hpre⟩ := hacked trivial
  rw [hargs, hlog] at hpre
  refine ⟨Nat.le_of_eq hlen, ?_⟩
  rw [hlen, take_length]
  exact prefix_iff_eq_take.mp hpre

/-- The theorem at a run in which `b` has replied to the message with the command of `a`. -/
theorem match_index_sound_beforeCommitX :
    ((reached coveredStep beforeCommitX).procs nodeA).host.node.matchIndex.lookup nodeB = some 1 ∧
      1 ≤ ((reached coveredStep beforeCommitX).procs nodeA).host.node.log.length := by
  obtain ⟨hrun, hst, hmatch, hset⟩ := reached_run coveredStep beforeCommitX
    (fun c => (c.procs nodeA).host.node.state = .leader ∧
      (c.procs nodeA).host.node.matchIndex.lookup nodeB = some 1 ∧
      (nodeA, matched (c.procs nodeA).host.node.currentTerm nodeB 1) ∈ c.history)
    (by decide +kernel)
  exact ⟨hmatch, (match_index_sound hrun (by decide) (by decide) (by decide) hst hmatch hset).1⟩

/-- `b` wins with an empty log, and `a` replies with its length. -/
def divergentReply : List Event :=
  electA ++ [on nodeA (.appendCommand entryX.command)] ++ replicationLost nodeA ++ electB ++
    [on nodeB .startHeartbeat, on nodeB (.sendHeartbeat .worker),
      on nodeA (.appendEntries (emptyBeat 2 nodeB)), on nodeA .finishDelivery,
      on nodeB (.heartbeatReplied .worker (accepted 2 1))]

/-- In this run the match index of `a` lies past the end of the log of the leader. -/
theorem match_index_sound_divergentReply :
    Cluster.Run reference trio anyStep (reached anyStep divergentReply) ∧
      ((reached anyStep divergentReply).procs nodeB).host.node.state = .leader ∧
      ((reached anyStep divergentReply).procs nodeB).host.node.matchIndex.lookup nodeA = some 1 ∧
      (nodeB, matched ((reached anyStep divergentReply).procs nodeB).host.node.currentTerm
        nodeA 1) ∈ (reached anyStep divergentReply).history ∧
      ((reached anyStep divergentReply).procs nodeB).host.node.log.length < 1 :=
  reached_run anyStep divergentReply (fun c => (c.procs nodeB).host.node.state = .leader ∧
    (c.procs nodeB).host.node.matchIndex.lookup nodeA = some 1 ∧
    (nodeB, matched (c.procs nodeB).host.node.currentTerm nodeA 1) ∈ c.history ∧
    (c.procs nodeB).host.node.log.length < 1) (by decide +kernel)

end Commitment

end BoostGateway.Raft
