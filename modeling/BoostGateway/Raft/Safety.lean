import BoostGateway.Raft.Reference
import BoostGateway.Raft.Simulation

/-!
# Safety of every run

What holds along every run of a cluster, whatever the network, the file system and the scheduler
do. `election_safety` says that a term has one leader, `log_matching` that logs agree up to any
entry they share by index and term, and `leader_append_only` that the log of a leader only grows.
-/

namespace BoostGateway.Raft

open List Consensus Consensus.Replicas

def anyStep : Cluster → Event → Prop := fun _ _ => True

instance (c : Cluster) (event : Event) : Decidable (anyStep c event) := isTrue trivial

def basicLevel : Level where
  acks := False
  commits := False
  acks_of_commits := id

section Safety

variable {lib : Libraries} {setup : ClusterConfig} {c : Cluster}

theorem run_basic {condition : Cluster → Event → Prop} (h : Cluster.Run lib setup condition c) :
    ∃ a, ClusterRel basicLevel setup c a :=
  run_rel (fun _ _ _ => ⟨False.elim, False.elim⟩) h

/-! ## One leader in a term -/

/-- At most one node ever becomes the leader of a term. -/
theorem election_safety (h : Cluster.Run lib setup anyStep c) {u v : NodeId} {term : Nat}
    (hu : (u, Output.leader term) ∈ c.history) (hv : (v, Output.leader term) ∈ c.history) :
    u = v := by
  obtain ⟨a, hrel⟩ := run_basic h
  obtain ⟨hmember, hsent⟩ := hrel.network _ _ hu
  obtain ⟨hmember', hsent'⟩ := hrel.network _ _ hv
  -- the only node of a cluster leads without an election
  rcases hsent with hlead | hone
  · rcases hsent' with hlead' | hone'
    · exact Option.some.inj (hlead.symm.trans hlead')
    · simpa [hone'] using hmember
  · simpa [hone, eq_comm] using hmember'

/-- The theorem at a run in which `a` wins term 1. -/
theorem election_safety_electA :
    (nodeA, Output.leader 1) ∈ (reached anyStep electA).history ∧ nodeA = nodeA := by
  obtain ⟨hrun, hlead⟩ := reached_run anyStep electA
    (fun c => (nodeA, Output.leader 1) ∈ c.history) (by decide +kernel)
  exact ⟨hlead, election_safety hrun hlead hlead⟩

/-! ## Logs that share an entry -/

variable {a : Record} {v : NodeId} {log : List LogEntry} {i : Nat}

/-- An entry in memory is explained, or the last and unsaved. -/
theorem Recalls.entry {entry : LogEntry} (hinv : setup.Invariant a)
    (h : Recalls a v log) (hentry : log[i]? = some entry) :
    (∃ explained, Backed LogEntry.term a explained ∧ explained[i]? = some entry ∧
      log.take (i + 1) = explained.take (i + 1)) ∨
    (a.leader entry.term = some v ∧ log = a.leaderLog entry.term ++ [entry] ∧
      i = (a.leaderLog entry.term).length) := by
  rcases h.2 with hback | ⟨last, hlead, rfl⟩
  · exact .inl ⟨log, hback, hentry, rfl⟩
  · rcases Nat.lt_or_ge i (a.leaderLog last.term).length with hlt | hge
    · refine .inl ⟨a.leaderLog last.term, hinv.leaderBacked _ (by simp [hlead]), ?_, ?_⟩
      · rwa [List.getElem?_append_left hlt] at hentry
      · exact take_append_of_le_length hlt
    · have hi : i = (a.leaderLog last.term).length := by
        have := (List.getElem?_eq_some_iff.mp hentry).1
        rw [length_append, length_singleton] at this
        omega
      subst hi
      simp only [List.getElem?_append_right le_rfl, Nat.sub_self,
        List.getElem?_cons_zero, Option.some.injEq] at hentry
      subst hentry
      exact .inr ⟨hlead, rfl, rfl⟩

theorem lt_length_leaderLog {entry : LogEntry} (h : Backed LogEntry.term a log)
    (hentry : log[i]? = some entry) : i < (a.leaderLog entry.term).length := by
  have hle := (h i entry hentry).2.length_le
  have hi := (List.getElem?_eq_some_iff.mp hentry).1
  rw [length_take] at hle
  omega

/-- Logs with one term at an index agree up to it. -/
theorem Recalls.matching {u : NodeId} {log' : List LogEntry} {entry entry' : LogEntry}
    (hinv : setup.Invariant a) (h : Recalls a u log) (h' : Recalls a v log')
    (hsame : u = v → log = log') (hentry : log[i]? = some entry) (hent' : log'[i]? = some entry')
    (hterm : entry.term = entry'.term) : log.take (i + 1) = log'.take (i + 1) := by
  rcases h.entry hinv hentry with ⟨explained, hback, he, htake⟩ | ⟨hlead, _, hi⟩
  · rcases h'.entry hinv hent' with ⟨explained', hback', he', htake'⟩ | ⟨_, _, hi'⟩
    · rw [htake, htake']
      exact backed_matching hback hback' he he' hterm
    · -- an unsaved entry lies past the log of the leader
      have := lt_length_leaderLog hback he
      rw [hterm] at this
      omega
  · rcases h'.entry hinv hent' with ⟨explained', hback', he', _⟩ | ⟨hlead', _, _⟩
    · have := lt_length_leaderLog hback' he'
      rw [← hterm] at this
      omega
    · rw [← hterm, hlead] at hlead'
      rw [hsame (Option.some.inj hlead')]

/-- Logs with entries of one term at one index are the same up to it. -/
theorem log_matching (h : Cluster.Run lib setup anyStep c) {u v : NodeId}
    (hu : u ∈ setup.peers) (hv : v ∈ setup.peers) {i : Nat} {entry entry' : LogEntry}
    (hentry : (c.procs u).host.node.log[i]? = some entry)
    (hentry' : (c.procs v).host.node.log[i]? = some entry') (hterm : entry.term = entry'.term) :
    (c.procs u).host.node.log.take (i + 1) = (c.procs v).host.node.log.take (i + 1) := by
  obtain ⟨a, hrel⟩ := run_basic h
  exact ((hrel.procs u hu).host.recalls hrel.inv).matching hrel.inv
    ((hrel.procs v hv).host.recalls hrel.inv) (fun heq => by rw [heq]) hentry hentry' hterm

/-- `a` stores a command and sends it to `b`. -/
def replicateToB : List Event :=
  electA ++ [on nodeA (.appendCommand (ascii "x")), on nodeA .sendEntries,
    on nodeB (.appendEntries { term := 1, leaderId := nodeA,
                               entries := [{ term := 1, command := ascii "x" }] })]

/-- The theorem at a run in which two nodes share an entry. -/
theorem log_matching_replicateToB :
    ((reached anyStep replicateToB).procs nodeA).host.node.log.take 1 =
      ((reached anyStep replicateToB).procs nodeB).host.node.log.take 1 := by
  obtain ⟨hrun, hentry, hent'⟩ := reached_run anyStep replicateToB
    (fun c => (c.procs nodeA).host.node.log[0]? = some { term := 1, command := ascii "x" } ∧
      (c.procs nodeB).host.node.log[0]? = some { term := 1, command := ascii "x" })
    (by decide +kernel)
  exact log_matching hrun (by decide) (by decide) hentry hent' rfl

/-! ## Logs of leaders -/

theorem ClusterRel.leaderLog_eq {level : Level} (h : ClusterRel level setup c a)
    (hv : v ∈ setup.peers) (hlead : (c.procs v).host.node.state = .leader) :
    a.leader (c.procs v).host.node.currentTerm = some v ∧
      (c.procs v).host.node.log = a.leaderLog (c.procs v).host.node.currentTerm := by
  have hhost := (h.procs v hv).host
  have hdesc := hhost.describes (hhost.healthy_of_state (by simp [hlead]))
  have hown := hhost.role.leader hlead
  refine ⟨hown, hdesc.log.symm.trans ?_⟩
  rw [h.inv.leaderLog v (hdesc.term ▸ hown), hdesc.term]
  rfl

variable {c' : Cluster} {events : List Event}

theorem ClusterRel.exec (h : ClusterRel basicLevel setup c a)
    (hexec : Cluster.exec lib setup anyStep events c = some c') :
    ∃ a', Extends a a' ∧ ClusterRel basicLevel setup c' a' := by
  induction events generalizing c a with
  | nil => exact ⟨a, .refl a, Option.some.inj hexec ▸ h⟩
  | cons event rest ih =>
    obtain ⟨next, hstep, hrest⟩ := Option.bind_eq_some_iff.mp hexec
    obtain ⟨_, hext, hrel⟩ := h.step ⟨False.elim, False.elim⟩ hstep
    obtain ⟨a', hext', hrel'⟩ := ih hrel hrest
    exact ⟨a', hext.trans hext', hrel'⟩

/-- Between two moments of a run at which a node leads one term, its log has only grown. -/
theorem leader_append_only (h : Cluster.Run lib setup anyStep c) (hv : v ∈ setup.peers)
    (hexec : Cluster.exec lib setup anyStep events c = some c')
    (hlead : (c.procs v).host.node.state = .leader)
    (hlead' : (c'.procs v).host.node.state = .leader)
    (hterm : (c'.procs v).host.node.currentTerm = (c.procs v).host.node.currentTerm) :
    (c.procs v).host.node.log <+: (c'.procs v).host.node.log := by
  obtain ⟨a, hrel⟩ := run_basic h
  obtain ⟨a', hext, hrel'⟩ := hrel.exec hexec
  obtain ⟨hown, hlog⟩ := hrel.leaderLog_eq hv hlead
  rw [hlog, (hrel'.leaderLog_eq hv hlead').2, hterm]
  exact hext.leaderLog _ (by simp [hown])

example : (Cluster.exec quick trio anyStep electA {}).isSome := by decide +kernel

/-- The leader `a` stores a command. -/
theorem leader_append_only_electA : ∃ c c' : Cluster, (c'.procs nodeA).host.node.log.length = 1 ∧
    (c.procs nodeA).host.node.log <+: (c'.procs nodeA).host.node.log := by
  obtain ⟨c, hc, c', hexec, hlead, hlead', hterm, hone⟩ :
    ∃ c ∈ Cluster.exec quick trio anyStep electA {},
    ∃ c' ∈ Cluster.exec quick trio anyStep [on nodeA (.appendCommand [])] c,
      let a := (c.procs nodeA).host.node
      let a' := (c'.procs nodeA).host.node
      a.state = .leader ∧ a'.state = .leader ∧ a'.currentTerm = a.currentTerm ∧ a'.log.length = 1 :=
    by decide +kernel
  exact ⟨c, c', hone, leader_append_only (.exec .init hc) (by decide) hexec hlead hlead' hterm⟩

end Safety

end BoostGateway.Raft
