import BoostGateway.Consensus.LeaderCompleteness
import BoostGateway.Raft.Cluster
import BoostGateway.Raft.Sections

/-!
# Nodes and the record of the protocol

`HostRel` relates one node and its state file to the record of `Consensus.Replicas`. The record
follows the state files: a healthy node has its state on disk, and an unhealthy one does nothing
until it comes up from disk again. The clauses about match and commit indices are guarded by a
`Level`, since they hold only along runs that meet conditions. Every section goes through
`HostRel.persist`.
-/

namespace BoostGateway.Raft

open Consensus Consensus.Replicas

abbrev Record := Replicas NodeId LogEntry

namespace ClusterConfig

variable (setup : ClusterConfig)

abbrev Invariant (a : Record) : Prop := Replicas.Invariant setup.members LogEntry.term a

abbrev StepsBy (v : NodeId) (a a' : Record) : Prop :=
  Replicas.StepsBy setup.members LogEntry.term v a a'

abbrev CommittedPrefix (a : Record) (t : Nat) (entries : List LogEntry) : Prop :=
  Replicas.CommittedPrefix setup.members LogEntry.term a t entries

end ClusterConfig

structure Level where
  acks : Prop
  commits : Prop
  acks_of_commits : commits → acks

section Definitions

variable (level : Level) (setup : ClusterConfig)

def CommitSafe (a : Record) (log : List LogEntry) (commitIndex : Nat) : Prop :=
  ∃ t, CommittedPrefix setup.members LogEntry.term a t (log.take commitIndex)

/-- The record says of a node what this state says; `voted_for_` may have been cleared after a vote
for itself, or in a cluster of one. -/
structure Describes (a : Record) (v : NodeId) (state : RaftPersistentState) : Prop where
  term : a.term v = state.currentTerm
  log : a.log v = state.log
  bound : state.currentTerm < 2 ^ 64
  votes : ∀ c lt li, a.vote v state.currentTerm c lt li → state.votedFor = some c ∨
      (c = v ∧ ∃ l, a.leader state.currentTerm = some l ∧ l ≠ v) ∨ setup.peers = [v]
  wellFormed : WellFormed defaultLimits state
  commit : level.commits → CommittedPrefix setup.members LogEntry.term a state.currentTerm
    (state.log.take state.commitIndex)

def Recalls (a : Record) (v : NodeId) (log : List LogEntry) : Prop := Holds a v log ∧
    (Backed LogEntry.term a log ∨
      ∃ entry, a.leader entry.term = some v ∧ log = a.leaderLog entry.term ++ [entry])

/-- A leader's replication state, with the `matched` indices from replies. -/
structure Matches (matched : Nat → NodeId → Nat → Prop) (a : Record) (v : NodeId)
    (node : RaftNode) : Prop where
  own : ∀ m, node.matchIndex.lookup v = some m → m ≤ node.log.length
  member : ∀ p, p ∈ node.matchIndex → p ∈ setup.peers
  peer : ∀ p, p ∈ setup.peers → p ≠ v → ∃ m n,
    node.matchIndex.lookup p = some m ∧ node.nextIndex.lookup p = some n ∧ 1 ≤ n ∧
      ((m = 0 ∧ n ≤ node.log.length + 1 ∧ ∀ i, ¬ matched node.currentTerm p i) ∨
        (matched node.currentTerm p m ∧ a.ack p node.currentTerm m ∧ n ≤ m + 1))

/-- The record agrees with the role of a node. -/
structure Role (matched : Nat → NodeId → Nat → Prop) (a : Record) (v : NodeId)
    (node : RaftNode) : Prop where
  leader : node.state = .leader → a.leader node.currentTerm = some v
  candidate : node.state = .candidate → node.votedFor = some v ∧
      a.vote v node.currentTerm v (lastTerm LogEntry.term node.log) node.log.length ∧
      a.leader node.currentTerm ≠ some v
  peers : level.acks → node.state = .leader → Matches setup matched a v node

/-- A node and its state file agree with the record. -/
structure HostRel (matched : Nat → NodeId → Nat → Prop) (a : Record) (v : NodeId)
    (host : Host) : Prop where
  stored : Describes level setup a v host.durable
  synced : host.node.healthy = true → host.node.persistent = host.durable
  bound : host.node.currentTerm < 2 ^ 64
  unhealthy : host.node.healthy = false → host.node.state = .follower ∧ Recalls a v host.node.log ∧
      (level.commits → CommitSafe setup a host.node.log host.node.commitIndex)
  role : Role level setup matched a v host.node

end Definitions

section Lemmas

variable {level : Level} {setup : ClusterConfig} {matched : Nat → NodeId → Nat → Prop}
  {a a' : Record} {u v : NodeId}

/-! ## Other nodes act -/

variable {node : RaftNode} {host : Host}

theorem Role.extends (h : Role level setup matched a u node) (hext : Extends a a')
    (hlead : a'.leader node.currentTerm = some u → a.leader node.currentTerm = some u) :
    Role level setup matched a' u node where
  leader hstate := hext.leader _ _ (h.leader hstate)
  candidate hstate := by
    obtain ⟨hvoted, hvote, hnot⟩ := h.candidate hstate
    exact ⟨hvoted, hext.vote _ _ _ _ _ hvote, fun hl => hnot (hlead hl)⟩
  peers hstrict hstate :=
    { h.peers hstrict hstate with
      peer := by
        intro p hp hpu
        obtain ⟨m, n, hm, hn, hpos, hcase⟩ := (h.peers hstrict hstate).peer p hp hpu
        refine ⟨m, n, hm, hn, hpos, hcase.imp_right ?_⟩
        exact fun ⟨hmatched, hack, hle⟩ => ⟨hmatched, hext.ack _ _ _ hack, hle⟩ }

section

variable (hinv : setup.Invariant a) (hacted : ActedBy v a a') (hne : u ≠ v)

include hinv hacted hne

theorem Describes.acted {state : RaftPersistentState} (h : Describes level setup a u state) :
    Describes level setup a' u state where
  term := (hacted.term u hne).trans h.term
  log := (hacted.log u hne).trans h.log
  bound := h.bound
  votes c lt li hvote := by
    rcases h.votes c lt li (hacted.vote u _ c lt li hne hvote) with hc | ⟨hc, l, hl, hlu⟩ | hone
    · exact .inl hc
    · exact .inr (.inl ⟨hc, l, hacted.ext.leader _ _ hl, hlu⟩)
    · exact .inr (.inr hone)
  wellFormed := h.wellFormed
  commit hstrict := (h.commit hstrict).extends hinv hacted.ext

theorem Recalls.acted {log : List LogEntry} (h : Recalls a u log) : Recalls a' u log := by
  obtain ⟨hholds, hlog⟩ := h
  refine ⟨hholds.extends hacted.ext (fun t k hack => hinv.ackLeader u t k hack)
    (fun t k hack => hacted.ack u t k hne hack), ?_⟩
  rcases hlog with hback | ⟨entry, hlead, hlog⟩
  · exact .inl (hback.extends hacted.ext)
  · refine .inr ⟨entry, hacted.ext.leader _ _ hlead, ?_⟩
    rw [hlog, hacted.leaderLog u _ hne hlead]

theorem HostRel.acted (h : HostRel level setup matched a u host) :
    HostRel level setup matched a' u host where
  stored := h.stored.acted hinv hacted hne
  synced := h.synced
  bound := h.bound
  unhealthy hhealthy := by
    obtain ⟨hstate, hrecalls, hcom⟩ := h.unhealthy hhealthy
    refine ⟨hstate, hrecalls.acted hinv hacted hne, fun hstrict => ?_⟩
    obtain ⟨t, ht⟩ := hcom hstrict
    exact ⟨t, ht.extends hinv hacted.ext⟩
  role := h.role.extends hacted.ext (hacted.leader u _ hne)

end

/-! ## Reading the relation -/

theorem Describes.recalls {state : RaftPersistentState} (hinv : setup.Invariant a)
    (h : Describes level setup a v state) : Recalls a v state.log := by
  rw [← h.log]
  exact ⟨hinv.ackHeld v, .inl (hinv.backed v)⟩

section Reading

variable (h : HostRel level setup matched a v host)

include h

theorem HostRel.recalls (hinv : setup.Invariant a) : Recalls a v host.node.log := by
  cases hhealthy : host.node.healthy with
  | true =>
    have hlog : host.node.log = host.durable.log :=
      congrArg RaftPersistentState.log (h.synced hhealthy)
    rw [hlog]
    exact h.stored.recalls hinv
  | false => exact (h.unhealthy hhealthy).2.1

theorem HostRel.commitSafe (hstrict : level.commits) :
    CommitSafe setup a host.node.log host.node.commitIndex := by
  cases hhealthy : host.node.healthy with
  | true =>
    have hcom := h.stored.commit hstrict
    rw [← h.synced hhealthy] at hcom
    exact ⟨_, hcom⟩
  | false => exact (h.unhealthy hhealthy).2.2 hstrict

theorem HostRel.describes (hhealthy : host.node.healthy = true) :
    Describes level setup a v host.node.persistent := by
  rw [h.synced hhealthy]
  exact h.stored

theorem HostRel.committed (hhealthy : host.node.healthy = true) (hstrict : level.commits) :
    setup.CommittedPrefix a host.node.currentTerm (host.node.log.take host.node.commitIndex) :=
  (h.describes hhealthy).commit hstrict

theorem HostRel.healthy_of_state (hstate : host.node.state ≠ .follower) :
    host.node.healthy = true := by
  cases hhealthy : host.node.healthy with
  | true => rfl
  | false => exact absurd (h.unhealthy hhealthy).1 hstate

end Reading

/-- A change of log and indices in a term is described. -/
theorem Describes.update {node' : RaftNode} (h : Describes level setup a v node.persistent)
    (hext : Extends a a') (hterm : a'.term v = a.term v) (hlog : a'.log v = node'.log)
    (hvotes : ∀ c lt li, a'.vote v node.currentTerm c lt li → a.vote v node.currentTerm c lt li)
    (hsameTerm : node'.currentTerm = node.currentTerm) (hsameVote : node'.votedFor = node.votedFor)
    (hcom : level.commits → setup.CommittedPrefix a' node.currentTerm
      (node'.log.take node'.commitIndex)) (hwell : WellFormed defaultLimits node'.persistent) :
    Describes level setup a' v node'.persistent where
  term := (hterm.trans h.term).trans hsameTerm.symm
  log := hlog
  bound := lt_of_eq_of_lt hsameTerm h.bound
  votes c lt li hvote := by
    have hvote' : a'.vote v node.currentTerm c lt li := hsameTerm ▸ hvote
    have hold : node'.persistent.currentTerm = node.persistent.currentTerm := hsameTerm
    have hvoted : node'.persistent.votedFor = node.persistent.votedFor := hsameVote
    rw [hold, hvoted]
    rcases h.votes c lt li (hvotes c lt li hvote') with hc | ⟨hc, l, hl, hlv⟩ | hone
    · exact .inl hc
    · exact .inr (.inl ⟨hc, l, hext.leader _ _ hl, hlv⟩)
    · exact .inr (.inr hone)
  wellFormed := hwell
  commit hstrict := by
    have hold : node'.persistent.currentTerm = node.currentTerm := hsameTerm
    rw [hold]
    exact hcom hstrict

theorem Role.follower (h : node.state = .follower) : Role level setup matched a v node where
  leader hstate := by simp [h] at hstate
  candidate hstate := by simp [h] at hstate
  peers _ hstate := by simp [h] at hstate

theorem HostRel.of_unhealthy (hstored : Describes level setup a v host.durable)
    (hbound : host.node.currentTerm < 2 ^ 64) (hhealthy : host.node.healthy = false)
    (hstate : host.node.state = .follower) (hrecalls : Recalls a v host.node.log)
    (hcom : level.commits → CommitSafe setup a host.node.log host.node.commitIndex) :
    HostRel level setup matched a v host where
  stored := hstored
  synced h := by simp [hhealthy] at h
  bound := hbound
  unhealthy _ := ⟨hstate, hrecalls, hcom⟩
  role := Role.follower hstate

section

variable {matched' : Nat → NodeId → Nat → Prop} {host' : Host}
  (h : HostRel level setup matched a v host) (hdisk : host'.disk = host.disk)
  (hpersistent : host'.node.persistent = host.node.persistent)
  (hhealthy : host'.node.healthy = host.node.healthy)
  (hstate : host'.node.state = host.node.state)

include h hdisk hpersistent hhealthy hstate

theorem HostRel.of_peers
    (hpeers : level.acks → host.node.state = .leader → Matches setup matched' a v host'.node) :
    HostRel level setup matched' a v host' := by
  obtain ⟨hterm, hvoted, hlog, hcom, _⟩ := RaftPersistentState.mk.inj hpersistent
  have hdur : host'.durable = host.durable := by simp [Host.durable, hdisk]
  refine ⟨?_, ?_, ?_, ?_, ?_, ?_, ?_⟩
  · rw [hdur]
    exact h.stored
  · rw [hhealthy, hpersistent, hdur]
    exact h.synced
  · rw [hterm]
    exact h.bound
  · rw [hhealthy, hstate, hlog, hcom]
    exact h.unhealthy
  · rw [hstate, hterm]
    exact h.role.leader
  · rw [hstate, hterm, hvoted, hlog]
    exact h.role.candidate
  · rw [hstate]
    exact hpeers

theorem HostRel.congr (hnext : host'.node.nextIndex = host.node.nextIndex)
    (hmatch : host'.node.matchIndex = host.node.matchIndex) :
    HostRel level setup matched a v host' := by
  refine h.of_peers hdisk hpersistent hhealthy hstate fun hstrict hlead => ?_
  obtain ⟨hterm, _, hlog, _⟩ := RaftPersistentState.mk.inj hpersistent
  have hpeers := h.role.peers hstrict hlead
  refine ⟨?_, ?_, ?_⟩
  · rw [hmatch, hlog]
    exact hpeers.own
  · rw [hmatch]
    exact hpeers.member
  · rw [hmatch, hnext, hlog, hterm]
    exact hpeers.peer

end

theorem HostRel.markUnhealthy (hinv : setup.Invariant a) (h : HostRel level setup matched a v host)
    (node : RaftNode) (reason : Bytes) (hpersistent : node.persistent = host.node.persistent)
    (hhealthy : node.healthy = host.node.healthy) (hstate : node.state = host.node.state) :
    HostRel level setup matched a v { host with node := markUnhealthyLocked reason node } := by
  have hsame : (markUnhealthyLocked reason node).persistent = host.node.persistent :=
    (markUnhealthyLocked_persistent reason node).trans hpersistent
  obtain ⟨hterm, _, hlog, hcom, _⟩ := RaftPersistentState.mk.inj hsame
  refine HostRel.of_unhealthy h.stored ?_ (markUnhealthyLocked_healthy reason node) ?_ ?_ ?_
  · rw [hterm]
    exact h.bound
  · refine markUnhealthyLocked_state reason fun hnode => ?_
    rw [hstate]
    exact (h.unhealthy (hhealthy.symm.trans hnode)).1
  · rw [hlog]
    exact h.recalls hinv
  · rw [hlog, hcom]
    exact h.commitSafe

/-- A save: `a₀` describes the disk and explains the changed log, `a₁` describes the changed node.
-/
theorem HostRel.persist (matched : Nat → NodeId → Nat → Prop) {lib : Libraries} {after : Host}
    {ok : Bool} {a₀ a₁ : Record} (h : persistStateLocked lib (setup.node v) host = (after, ok))
    (hhealthy : host.node.healthy = true) (hinv : setup.Invariant a)
    (hsteps₀ : setup.StepsBy v a a₀) (hsteps₁ : setup.StepsBy v a a₁)
    (hold : Describes level setup a₀ v host.durable) (hbound : host.node.currentTerm < 2 ^ 64)
    (hrecalls : Recalls a₀ v host.node.log)
    (hcom : level.commits → CommitSafe setup a₀ host.node.log host.node.commitIndex)
    (hnew : WellFormed defaultLimits host.node.persistent →
      Describes level setup a₁ v host.node.persistent ∧ Role level setup matched a₁ v host.node) :
    ∃ a', setup.StepsBy v a a' ∧
      HostRel level setup matched a' v after ∧ Kept host.node after.node ok ∧
      (ok = true → a' = a₁) ∧ (a' = a₀ ∨ a' = a₁) := by
  have hcases := persistStateLocked_persisted lib (setup.node v) (setup.storage v) hhealthy h
  cases hcases with
  | saved hnode hdisk hsavable =>
    have hdur : after.durable = host.node.persistent := by simp [Host.durable, hdisk]
    obtain ⟨hdesc, hrole⟩ := hnew hsavable.wellFormed
    refine ⟨a₁, hsteps₁, ⟨?_, ?_, ?_, ?_, ?_⟩, hnode ▸ .saved, fun _ => rfl, .inr rfl⟩
    · rwa [hdur]
    · intro _
      rw [hdur, hnode]
    · rwa [hnode]
    · intro h
      simp [hnode, hhealthy] at h
    · rwa [hnode]
  | failed reason hnode hdisk =>
    have hstate : after.node.state = .follower := by
      rw [hnode]
      exact markUnhealthyLocked_state reason (by simp [hhealthy])
    have hkept : Kept host.node after.node false := hnode ▸ .failed reason
    have hlog : after.node.log = host.node.log := hkept.log
    have hidx : after.node.commitIndex = host.node.commitIndex := hkept.commitIndex
    have hterm : after.node.currentTerm < 2 ^ 64 := by rwa [hkept.currentTerm]
    have hdown : after.node.healthy = false := by simp [hnode]
    rcases hdisk with hdisk | ⟨hdisk, hsavable⟩
    · -- the old state is still on disk
      refine ⟨a₀, hsteps₀, HostRel.of_unhealthy ?_ hterm hdown hstate ?_ ?_, hkept,
        by simp, .inl rfl⟩
      · simpa [Host.durable, hdisk] using hold
      · rwa [hlog]
      · rwa [hlog, hidx]
    · obtain ⟨hdesc, _⟩ := hnew hsavable.wellFormed
      refine ⟨a₁, hsteps₁, HostRel.of_unhealthy ?_ hterm hdown hstate ?_ ?_, hkept,
        by simp, .inr rfl⟩
      · simpa [Host.durable, hdisk] using hdesc
      · rw [hlog]
        exact hdesc.recalls (hsteps₁.invariant hinv)
      · rw [hlog, hidx]
        exact fun hstrict => ⟨_, hdesc.commit hstrict⟩

end Lemmas

end BoostGateway.Raft
