import BoostGateway.Raft.Changes
import BoostGateway.Raft.Safety

/-!
# One vote per term

`voted_for_` keeps a node from voting twice in a term, except that `become_follower` also clears it
when a candidate steps down for the leader of its own term. In the runs where no request reaches a
node after its vote for itself was cleared, no restart loses a term that was never saved, and terms
do not overflow, every node votes once per term (`one_vote_per_term`).
-/

namespace BoostGateway.Raft

open Consensus Consensus.Replicas RaftPersistentState Process

def HasVoted (history : List (NodeId × Output)) (v : NodeId) (t : Nat) (c : NodeId) : Prop :=
  (∃ args reply, (v, Output.requestVoteReply args reply) ∈ history ∧ reply.voteGranted = true ∧
      args.term = t ∧ args.candidateId = c) ∨
    c = v ∧ (v, Output.candidate t) ∈ history

/-- A restart finds the last term on disk, terms rise, and no former candidate that cleared its vote
is asked. -/
def ballotStep (c : Cluster) (event : Event) : Prop :=
  let host := (c.procs event.node).host
  match event.action with
  | .boot _ => host.node.healthy = true ∨ host.durable.currentTerm = host.node.currentTerm
  | .startElection => host.node.currentTerm + 1 < 2 ^ 64
  | .requestVote args =>
    args.term = host.node.currentTerm → (event.node, Output.candidate args.term) ∈ c.history →
      host.node.votedFor ≠ none
  | _ => True

instance (c : Cluster) (event : Event) : Decidable (ballotStep c event) := by
  dsimp only [ballotStep]
  split <;> infer_instance

section Definitions

variable (history : List (NodeId × Output)) (v : NodeId)

def Cast (votedFor : Option NodeId) (t : Nat) (c : NodeId) : Prop :=
  votedFor = some c ∨ votedFor = none ∧ c = v ∧ (v, Output.candidate t) ∈ history

def Stored (state : RaftPersistentState) : Prop :=
  ∀ c, HasVoted history v state.currentTerm c → Cast history v state.votedFor state.currentTerm c

/-- What the memory of a node says about its votes. -/
structure Ballot (node : RaftNode) : Prop where
  bound : ∀ t c, HasVoted history v t c → t ≤ node.currentTerm
  cast : node.healthy = true → Stored history v node.persistent
  candidate : node.state = .candidate →
    node.votedFor = some v ∧ (v, Output.candidate node.currentTerm) ∈ history
  unhealthy : node.healthy = false → node.state = .follower

structure Account (host : Host) : Prop where
  ballot : Ballot history v host.node
  stored : Stored history v host.durable
  once : ∀ t c c', HasVoted history v t c → HasVoted history v t c' → c = c'

end Definitions

section Changes

variable {history : List (NodeId × Output)} {v : NodeId} {lib : Libraries} {cfg : RaftConfig}
  {scope : Scope} {host after : Host} {node node' : RaftNode}

theorem Ballot.congr (h : Ballot history v node) (hterm : node'.currentTerm = node.currentTerm)
    (hvotedFor : node'.votedFor = node.votedFor) (hup : node'.healthy = node.healthy)
    (hst : node'.state = node.state) : Ballot history v node' where
  bound t c hvoted := hterm ▸ h.bound t c hvoted
  cast hnode' := by
    intro c hvoted
    have hvoted : HasVoted history v node.currentTerm c := hterm ▸ hvoted
    have hcast : Cast history v node.votedFor node.currentTerm c := h.cast (hup ▸ hnode') c hvoted
    rwa [← hterm, ← hvotedFor] at hcast
  candidate hcand := by
    rw [hterm, hvotedFor]
    exact h.candidate (hst ▸ hcand)
  unhealthy hnot := hst ▸ h.unhealthy (hup ▸ hnot)

theorem Ballot.markUnhealthy (h : Ballot history v node) (reason : Bytes) :
    Ballot history v (markUnhealthyLocked reason node) where
  bound t c hvoted := by
    rw [markUnhealthyLocked_currentTerm]
    exact h.bound t c hvoted
  cast hup := by simp at hup
  candidate hcand := by
    rw [markUnhealthyLocked_state reason h.unhealthy] at hcand
    cases hcand
  unhealthy _ := markUnhealthyLocked_state reason h.unhealthy

theorem Ballot.later (h : Ballot history v node) (hlt : node.currentTerm < node'.currentTerm)
    (hst : node'.state ≠ .candidate) (hdown : node'.healthy = false → node'.state = .follower) :
    Ballot history v node' where
  bound t c hvoted := (h.bound t c hvoted).trans (Nat.le_of_lt hlt)
  cast _ c hvoted := absurd (h.bound _ c hvoted) (Nat.not_le.mpr hlt)
  candidate hcand := absurd hcand hst
  unhealthy := hdown

/-- Changes but votes and candidacies keep the account. -/
theorem Ballot.change (h : Ballot history v node) (hchange : Change cfg scope node node')
    (helec : scope.elects = false) (hreq : scope.request = none) : Ballot history v node' := by
  cases hchange with
  | note hpers hup hst =>
    obtain ⟨hterm, hvotedFor, _⟩ := RaftPersistentState.mk.inj hpers
    exact h.congr hterm hvotedFor hup hst
  | unhealthy reason => exact h.markUnhealthy reason
  | later _ _ hlt => exact h.later hlt (by simp [asFollower]) (fun _ => rfl)
  | @follower args _ _ _ hup hst hterm =>
    obtain ⟨hvotedFor, hcand⟩ := h.candidate hst
    refine ⟨fun t c hvoted => hterm ▸ h.bound t c hvoted, ?_, ?_, fun _ => rfl⟩
    · intro _ c hvoted
      have hvoted : HasVoted history v node.currentTerm c := hterm ▸ hvoted
      have hself : c = v := by
        rcases h.cast hup c hvoted with hsome | ⟨_, hself, _⟩
        · exact Option.some.inj (hsome.symm.trans hvotedFor)
        · exact hself
      exact .inr ⟨rfl, hself, hterm ▸ hcand⟩
    · intro hcand
      cases hcand
  | candidate _ _ htrue => simp [helec] at htrue
  | vote hsome => simp [hreq] at hsome
  | leader _ hst =>
    refine ⟨h.bound, h.cast, nofun, fun hnot => ?_⟩
    have hfollower := h.unhealthy hnot
    simp [hst] at hfollower
  | lone _ _ hup =>
    have hle : node.currentTerm ≤ startTerm node := by
      unfold startTerm
      split <;> omega
    refine ⟨fun t c hvoted => (h.bound t c hvoted).trans hle, fun _ c hvoted => ?_,
      nofun, fun hnot => ?_⟩
    · have hbound : startTerm node ≤ node.currentTerm := h.bound _ c hvoted
      have hsame : startTerm node = node.currentTerm := Nat.le_antisymm hbound hle
      rw [hsame] at hvoted
      have hcast : Cast history v node.votedFor node.currentTerm c := h.cast hup c hvoted
      rwa [← hsame] at hcast
    · simp [asLeader, hup] at hnot
  | backOff | recordMatch => exact h.congr rfl rfl rfl rfl
  | commit => fun_cases updateCommitIndexLocked cfg node <;> exact h.congr rfl rfl rfl rfl
  | log hlog => cases hlog <;> exact h.congr rfl rfl rfl rfl

theorem Account.hostSteps (h : Account history v host) (hsteps : HostSteps lib cfg scope host after)
    (helec : scope.elects = false) (hreq : scope.request = none) : Account history v after := by
  obtain ⟨hballot, hstored⟩ := hsteps.invariant_stored
    (fun _ _ hchange hnode => hnode.change hchange helec hreq)
    (fun reason _ hnode => hnode.markUnhealthy reason)
    (fun _ _ _ hnode => hnode.congr rfl rfl rfl rfl) (Stored history v)
    (fun _ hup hnode => hnode.cast hup) h.ballot h.stored
  exact ⟨hballot, hstored, h.once⟩

/-- Without overflow no change goes back in term. -/
theorem currentTerm_le_of_hostSteps (hsteps : HostSteps lib cfg scope host after)
    (helec : scope.elects = true → scope.before.currentTerm + 1 < 2 ^ 64) :
    host.node.currentTerm ≤ after.node.currentTerm := by
  refine hsteps.invariant (motive := fun node => host.node.currentTerm ≤ node.currentTerm)
    ?_ ?_ ?_ le_rfl
  · intro node node' hchange hnode
    refine hnode.trans ?_
    cases hchange with
    | note hpers => exact Nat.le_of_eq (congrArg currentTerm hpers).symm
    | unhealthy reason => exact Nat.le_of_eq (markUnhealthyLocked_currentTerm reason node).symm
    | later _ _ hlt => exact Nat.le_of_lt hlt
    | follower _ _ _ _ _ hterm => exact Nat.le_of_eq hterm
    | candidate hpre _ htrue =>
      have hlt := helec htrue
      rw [← hpre] at hlt
      have hwrap : wrap64 (node.currentTerm + 1) = node.currentTerm + 1 := Nat.mod_eq_of_lt hlt
      exact (Nat.le_succ _).trans (Nat.le_of_eq hwrap.symm)
    | lone =>
      dsimp only [asLeader, startTerm]
      split <;> omega
    | commit => fun_cases updateCommitIndexLocked cfg node <;> exact le_rfl
    | log hlog => cases hlog <;> exact le_rfl
    | _ => exact le_rfl
  · intro reason node hnode
    rwa [markUnhealthyLocked_currentTerm]
  · exact fun _ _ _ hnode => hnode

/-! ## Votes -/

variable {history' : List (NodeId × Output)} {t : Nat} {c : NodeId} {args : RequestVoteArgs}
  {reply : RequestVoteReply}

theorem Cast.mono {votedFor : Option NodeId} (h : Cast history v votedFor t c)
    (hsub : history ⊆ history') : Cast history' v votedFor t c :=
  h.imp_right fun ⟨hnone, hself, hcand⟩ => ⟨hnone, hself, hsub hcand⟩

theorem hasVoted_putOut {outputs : List Output} : HasVoted (putOut v outputs history) v t c ↔
      HasVoted history v t c ∨
        (∃ args reply, Output.requestVoteReply args reply ∈ outputs ∧ reply.voteGranted = true ∧
          args.term = t ∧ args.candidateId = c) ∨
        c = v ∧ Output.candidate t ∈ outputs := by
  simp only [HasVoted, mem_putOut, true_and]
  constructor
  · rintro (⟨args, reply, hold | hnew, hvote⟩ | ⟨hc, hold | hnew⟩)
    · exact .inl (.inl ⟨args, reply, hold, hvote⟩)
    · exact .inr (.inl ⟨args, reply, hnew, hvote⟩)
    · exact .inl (.inr ⟨hc, hold⟩)
    · exact .inr (.inr ⟨hc, hnew⟩)
  · rintro ((⟨args, reply, hold, hvote⟩ | ⟨hc, hold⟩) | ⟨args, reply, hnew, hvote⟩ | ⟨hc, hnew⟩)
    · exact .inl ⟨args, reply, .inl hold, hvote⟩
    · exact .inr ⟨hc, .inl hold⟩
    · exact .inl ⟨args, reply, .inr hnew, hvote⟩
    · exact .inr ⟨hc, .inr hnew⟩

theorem hasVoted_reply : HasVoted (putOut v [.requestVoteReply args reply] history) v t c ↔
      HasVoted history v t c ∨ reply.voteGranted = true ∧ t = args.term ∧ c = args.candidateId := by
  rw [hasVoted_putOut]
  refine or_congr_right ⟨?_, fun ⟨hgrant, ht, hc⟩ => ?_⟩
  · rintro (⟨args', reply', hmem, hgrant, rfl, rfl⟩ | ⟨_, hmem⟩)
    · obtain ⟨rfl, rfl⟩ := Output.requestVoteReply.inj (List.mem_singleton.mp hmem)
      exact ⟨hgrant, rfl, rfl⟩
    · cases List.mem_singleton.mp hmem
  · exact .inl ⟨args, reply, List.mem_singleton_self _, hgrant, ht.symm, hc.symm⟩

section

variable (h : Account history v host)

include h

/-- A vote is the only one in its term, and counts if saved or of another term than the file's. -/
theorem Account.vote (counts : Prop) {node : RaftNode} {ok : Bool}
    (hsave : persistStateLocked lib cfg { host with node } = (after, ok))
    (hstorage : cfg.storageDir ≠ []) (hup : node.healthy = true)
    (hterm : host.node.currentTerm ≤ node.currentTerm) (hvotedFor : node.votedFor = some c)
    (honly : ∀ c', HasVoted history v node.currentTerm c' → c' = c)
    (hcand : node.state = .candidate → c = v ∧ (v, Output.candidate node.currentTerm) ∈ history')
    (hcounts : counts → ok = true ∨ host.durable.currentTerm ≠ node.currentTerm)
    (hsub : history ⊆ history') (hnew : ∀ t c', HasVoted history' v t c' ↔
      HasVoted history v t c' ∨ counts ∧ t = node.currentTerm ∧ c' = c) :
    Account history' v after := by
  have hkept := persistStateLocked_kept hsave hup
  have hall : ∀ c', HasVoted history' v node.currentTerm c' → c' = c := by
    intro c' hvoted
    rcases (hnew _ c').mp hvoted with hold | ⟨_, _, hc⟩
    · exact honly c' hold
    · exact hc
  have hpers : Stored history' v node.persistent := by
    intro c' hvoted
    rw [hall c' hvoted]
    exact .inl hvotedFor
  refine ⟨⟨?_, ?_, ?_, ?_⟩, ?_, ?_⟩
  · intro t c' hvoted
    rw [hkept.currentTerm]
    rcases (hnew t c').mp hvoted with hold | ⟨_, rfl, _⟩
    · exact (h.ballot.bound t c' hold).trans hterm
    · exact le_rfl
  · intro _
    rw [hkept.persistent]
    exact hpers
  · intro hst
    obtain ⟨hst, _⟩ := hkept.standing hup hst
    obtain ⟨rfl, hmem⟩ := hcand hst
    rw [hkept.currentTerm]
    exact ⟨(congrArg votedFor hkept.persistent).trans hvotedFor, hmem⟩
  · exact hkept.unhealthy hup
  · cases persistStateLocked_persisted lib cfg hstorage hup hsave with
    | saved _ hdisk =>
      rw [Host.durable, hdisk]
      exact hpers
    | failed reason _ hdisk =>
      rcases hdisk with hdisk | ⟨hdisk, _⟩
      · have hdur : after.durable = host.durable := by simp [Host.durable, hdisk]
        rw [hdur]
        intro c' hvoted
        rcases (hnew _ c').mp hvoted with hold | ⟨hadded, hsame, _⟩
        · exact (h.stored c' hold).mono hsub
        · exact absurd hsame ((hcounts hadded).resolve_left (by simp))
      · rw [Host.durable, hdisk]
        exact hpers
  · intro t c₁ c₂ h₁ h₂
    rcases (hnew t c₁).mp h₁ with hold₁ | ⟨_, rfl, rfl⟩
    · rcases (hnew t c₂).mp h₂ with hold₂ | ⟨_, rfl, rfl⟩
      · exact h.once t c₁ c₂ hold₁ hold₂
      · exact honly c₁ hold₁
    · exact (hall c₂ h₂).symm

theorem Account.mono (hsub : history ⊆ history')
    (hsame : ∀ t c, HasVoted history' v t c → HasVoted history v t c) :
    Account history' v host where
  ballot :=
    { bound := fun t c hvoted => h.ballot.bound t c (hsame t c hvoted)
      cast := fun hup c hvoted => (h.ballot.cast hup c (hsame _ c hvoted)).mono hsub
      candidate := fun hst => (h.ballot.candidate hst).imp_right fun hmem => hsub hmem
      unhealthy := h.ballot.unhealthy }
  stored c hvoted := (h.stored c (hsame _ c hvoted)).mono hsub
  once t c c' hvoted hvoted' := h.once t c c' (hsame t c hvoted) (hsame t c' hvoted')

theorem Account.refuse (hrefused : reply.voteGranted = false) :
    Account (putOut v [.requestVoteReply args reply] history) v host := by
  refine h.mono (subset_putOut _ _ _) fun t c hvoted => ?_
  rcases hasVoted_reply.mp hvoted with hold | ⟨hgrant, _⟩
  · exact hold
  · simp [hrefused] at hgrant

theorem Account.boot (cb : Bool) (hterm : host.durable.currentTerm = host.node.currentTerm) :
    Account history v (Process.boot cb host).host := by
  have hpers : (Process.boot cb host).host.node.persistent = host.durable := load_persistent host
  have hcurrent : (Process.boot cb host).host.node.currentTerm = host.node.currentTerm :=
    (congrArg currentTerm hpers).trans hterm
  have hup : (load host.disk).healthy = true ∧ (load host.disk).state = .follower := by
    cases hdisk : host.disk <;> exact ⟨rfl, rfl⟩
  refine ⟨⟨fun t c hvoted => hcurrent ▸ h.ballot.bound t c hvoted, fun _ => ?_, fun hst => ?_,
    fun _ => hup.2⟩, h.stored, h.once⟩
  · rw [hpers]
    exact h.stored
  · have hfollower : (Process.boot cb host).host.node.state = .follower := hup.2
    simp [hfollower] at hst

variable (hstorage : cfg.storageDir ≠ [])

include hstorage

theorem castVote_account (hup : host.node.healthy = true)
    (hterm : host.node.currentTerm = args.term)
    (hfirst : host.node.votedFor = none → ∀ c, ¬ HasVoted history v args.term c)
    (hres : castVote lib cfg args host = (after, reply)) :
    Account (putOut v [.requestVoteReply args reply] history) v after := by
  dsimp only [castVote] at hres
  split at hres
  next hvotes =>
    generalize hsave : persistStateLocked lib cfg _ = result at hres
    obtain ⟨saved, granted⟩ := result
    cases hres
    refine h.vote (granted = true) hsave hstorage hup le_rfl rfl ?_ ?_ .inl
      (subset_putOut _ _ _) (fun t c => ?_)
    · intro c hvoted
      rcases h.ballot.cast hup c hvoted with hsome | ⟨hnone, _, _⟩
      · have hsome : host.node.votedFor = some c := hsome
        rcases hvotes.1 with hnone | hsame
        · simp [hsome] at hnone
        · exact Option.some.inj (hsome.symm.trans hsame)
      · exact absurd (hterm ▸ hvoted) (hfirst hnone c)
    · intro hst
      obtain ⟨hself, hmem⟩ := h.ballot.candidate hst
      refine ⟨?_, subset_putOut _ _ _ hmem⟩
      rcases hvotes.1 with hnone | hsame
      · simp [hself] at hnone
      · exact Option.some.inj (hsame.symm.trans hself)
    · rw [hasVoted_reply, ← hterm]
  · cases hres
    exact h.refuse rfl

/-- `handle_request_vote` grants one vote in a term. -/
theorem handleRequestVote_account
    (hfirst : args.term = host.node.currentTerm → (v, Output.candidate args.term) ∈ history →
      host.node.votedFor ≠ none) (hres : handleRequestVote lib cfg args host = (after, reply)) :
    Account (putOut v [.requestVoteReply args reply] history) v after := by
  dsimp only [handleRequestVote] at hres
  split at hres
  · cases hres
    exact h.refuse rfl
  next hguard =>
  simp only [not_or] at hguard
  have hup : host.node.healthy = true := by simpa using hguard.1
  split at hres
  · cases hres
    exact h.refuse rfl
  next hle =>
  split at hres
  next hlt =>
    generalize hdown : becomeFollower lib cfg args.term host = result at hres
    obtain ⟨middle, ok⟩ := result
    have hsteps : HostSteps lib cfg { before := host.node } host middle := .later rfl hup hlt hdown
    have hmid : Account history v middle := h.hostSteps hsteps rfl rfl
    have hkept := persistStateLocked_kept hdown hup
    cases ok with
    | false =>
      cases hres
      exact hmid.refuse rfl
    | true =>
      refine castVote_account hmid hstorage (hkept.healthy hup) hkept.currentTerm
        (fun _ c hvoted => ?_) hres
      exact absurd (h.ballot.bound _ c hvoted) (Nat.not_le.mpr hlt)
  · have hterm : host.node.currentTerm = args.term := by omega
    refine castVote_account h hstorage hup hterm (fun hnone c hvoted => ?_) hres
    rw [← hterm] at hvoted
    rcases h.ballot.cast hup c hvoted with hsome | ⟨_, _, hmem⟩
    · have hsome : host.node.votedFor = some c := hsome
      simp [hnone] at hsome
    · exact hfirst hterm.symm (hterm ▸ hmem) hnone

end

theorem Account.other {u : NodeId} (h : Account history u host) (hne : u ≠ v)
    (outs : List Output) : Account (putOut v outs history) u host := by
  refine h.mono (subset_putOut _ _ _) fun t c hvoted => ?_
  simpa [HasVoted, mem_putOut, hne] using hvoted

theorem beginElection_account {p : Process} (h : Account history cfg.nodeId p.host)
    (hstorage : cfg.storageDir ≠ []) (hup : p.host.node.healthy = true)
    (hsynced : p.host.node.persistent = p.host.durable)
    (hbound : p.host.node.currentTerm + 1 < 2 ^ 64) :
    Account (putOut cfg.nodeId (p.beginElection lib cfg).2 history) cfg.nodeId
      (p.beginElection lib cfg).1.host := by
  have hwrap : (asCandidate cfg p.host.node).currentTerm = p.host.node.currentTerm + 1 :=
    Nat.mod_eq_of_lt hbound
  generalize hsave :
    persistStateLocked lib cfg { p.host with node := asCandidate cfg p.host.node } = result
  obtain ⟨saved, ok⟩ := result
  have hterm : saved.node.currentTerm = p.host.node.currentTerm + 1 :=
    (persistStateLocked_kept hsave hup).currentTerm.trans hwrap
  have hnext : (p.beginElection lib cfg).1.host = saved ∧
      (p.beginElection lib cfg).2 = [.candidate (p.host.node.currentTerm + 1)] := by
    cases ok <;> simp [beginElection, startElection, hup, hsave, hterm]
  rw [hnext.1, hnext.2]
  refine h.vote True hsave hstorage hup ?_ rfl (fun c hvoted => ?_) (fun _ => ⟨rfl, ?_⟩)
    (fun _ => .inr ?_) (subset_putOut _ _ _) (fun t c => ?_)
  · rw [hwrap]
    exact Nat.le_succ _
  · have hle := h.ballot.bound _ c hvoted
    omega
  · exact mem_putOut.mpr (.inr ⟨rfl, by simp [hwrap]⟩)
  · rw [← hsynced, hwrap]
    exact (Nat.lt_succ_self _).ne
  · rw [hasVoted_putOut, hwrap]
    simp [and_comm]

end Changes

/-! ## Runs -/

section Runs

variable {lib : Libraries} {setup : ClusterConfig} {c c' : Cluster} {event : Event} {v : NodeId}

theorem hasVoted_of_advances {history : List (NodeId × Output)} {cfg : RaftConfig} {p : Process}
    {action : Action} {next : Process × List Output} {t : Nat} {c : NodeId}
    (h : Advances lib cfg p action next) (helec : action ≠ .startElection)
    (hreq : ∀ args, action ≠ .requestVote args)
    (hvoted : HasVoted (putOut v next.2 history) v t c) : HasVoted history v t c := by
  rcases hasVoted_putOut.mp hvoted with hold | ⟨args, reply, hmem, _⟩ | ⟨_, hmem⟩
  · exact hold
  · have hemits := emits_of_mem h hmem
    cases action with
    | requestVote args => exact absurd rfl (hreq args)
    | _ => cases hemits
  · have hemits := emits_of_mem h hmem
    cases action with
    | startElection => exact absurd rfl helec
    | _ => cases hemits

theorem durable_currentTerm {cb : Bool} {io : List IoOutcome}
    (hrun : Cluster.Run lib setup ballotStep c) (hv : v ∈ setup.peers)
    (hcond : ballotStep c { node := v, action := .boot cb, io }) :
    (c.procs v).host.durable.currentTerm = (c.procs v).host.node.currentTerm := by
  obtain ⟨a, hrel⟩ := run_basic hrun
  rcases hcond with hup | hsame
  · exact congrArg currentTerm ((hrel.procs _ hv).host.synced hup).symm
  · exact hsame

theorem run_account (hrun : Cluster.Run lib setup ballotStep c) (hv : v ∈ setup.peers) :
    Account c.history v (c.procs v).host := by
  refine run_nodes (motive := fun history v p => Account history v p.host) ?_ ?_ ?_ hrun hv
  · have hnone : ∀ v t c, ¬ HasVoted [] v t c := by simp [HasVoted]
    intro v
    exact ⟨⟨fun t c hvoted => absurd hvoted (hnone v t c),
      fun _ c hvoted => absurd hvoted (hnone v _ c), nofun, fun _ => rfl⟩,
      fun c hvoted => absurd hvoted (hnone v _ c),
      fun t c _ hvoted => absurd hvoted (hnone v t c)⟩
  · exact fun history u v p outputs hne h => h.other hne outputs
  · intro c event next hrun hcond hv _ hadv h
    obtain ⟨v, action, io⟩ := event
    dsimp only at hv hadv h ⊢
    have h : Account c.history v ((c.procs v).withIo io).host := ⟨h.ballot, h.stored, h.once⟩
    have hsilent : action ≠ .startElection → (∀ args, action ≠ .requestVote args) →
        ∀ t candidate, HasVoted (putOut v next.2 c.history) v t candidate →
          HasVoted c.history v t candidate :=
      fun helec hreq t candidate => hasVoted_of_advances hadv helec hreq
    have hsteps := fun hboot => hostSteps_of_advances hadv hboot
    cases hadv with
    | boot callback =>
      exact (h.boot callback (durable_currentTerm hrun hv hcond)).mono
        (subset_putOut _ _ _) (hsilent (by simp) (by simp))
    | startElection _ _ hup =>
      obtain ⟨a, hrel⟩ := run_basic hrun
      have hsynced := (hrel.procs _ hv).host.synced hup
      have h : Account c.history (setup.node v).nodeId ((c.procs v).withIo io).host := h
      exact beginElection_account h (setup.storage v) hup hsynced hcond
    | requestVote => exact handleRequestVote_account h (setup.storage v) hcond rfl
    | _ =>
      exact (h.hostSteps (hsteps (by simp)) (scope_elects _ (by simp))
        (scope_request _ (by simp))).mono (subset_putOut _ _ _)
        (hsilent (by simp) (by simp))

/-- No node votes twice in a term or goes back to an earlier one. -/
theorem one_vote_per_term (hrun : Cluster.Run lib setup ballotStep c) :
    (∀ v ∈ setup.peers, ∀ t candidate candidate', HasVoted c.history v t candidate →
        HasVoted c.history v t candidate' → candidate = candidate') ∧
      ∀ event c', ballotStep c event → Cluster.step lib setup event c = some c' →
        ∀ v, (c.procs v).host.node.currentTerm ≤ (c'.procs v).host.node.currentTerm := by
  refine ⟨fun v hv => (run_account hrun hv).once, fun event c' hcond hstep v => ?_⟩
  obtain ⟨hv, _, p, outputs, hadvance, rfl⟩ := step_eq_some hstep
  by_cases hne : v = event.node
  · subst hne
    obtain ⟨v, action, io⟩ := event
    have hadv := advances_of_advance hadvance
    dsimp only at hv hadv ⊢
    rw [Function.update_self]
    by_cases hboot : ∃ callback, action = .boot callback
    · obtain ⟨callback, rfl⟩ := hboot
      cases hadv
      have hterm : (load (c.procs v).host.disk).currentTerm =
          (c.procs v).host.durable.currentTerm :=
        congrArg currentTerm (load_persistent (c.procs v).host)
      exact Nat.le_of_eq ((durable_currentTerm hrun hv hcond).symm.trans hterm.symm)
    · have hsteps := hostSteps_of_advances hadv fun callback heq => hboot ⟨callback, heq⟩
      have helec : (((c.procs v).withIo io).scope action).elects = true →
          (((c.procs v).withIo io).scope action).before.currentTerm + 1 < 2 ^ 64 := by
        intro helec
        by_cases hact : action = .startElection
        · subst hact
          exact hcond
        · simp [scope_elects _ hact] at helec
      have hle := currentTerm_le_of_hostSteps hsteps helec
      exact hle
  · dsimp only
    rw [Function.update_of_ne hne]

def requestA : RequestVoteArgs where
  term := 1
  candidateId := nodeA

def grantA : RequestVoteReply where
  term := 1
  voteGranted := true

/-- The theorem at the run in which `b` votes for `a`. -/
theorem one_vote_per_term_electA : HasVoted (reached ballotStep electA).history nodeB 1 nodeA ∧
      ∀ candidate, HasVoted (reached ballotStep electA).history nodeB 1 candidate →
        candidate = nodeA := by
  obtain ⟨hrun, hgrant⟩ := reached_run ballotStep electA
    (fun c => (nodeB, Output.requestVoteReply requestA grantA) ∈ c.history) (by decide +kernel)
  have hvoted : HasVoted (reached ballotStep electA).history nodeB 1 nodeA :=
    .inl ⟨_, _, hgrant, rfl, rfl, rfl⟩
  exact ⟨hvoted, fun candidate hother =>
    (one_vote_per_term hrun).1 nodeB (by decide) 1 candidate nodeA hother hvoted⟩

/-- `a` wins term 1 with the vote of `c`; the candidate `b` steps down, and then `a` asks it. -/
def voteTwice : List Event := bringUp nodeA ++ bringUp nodeB ++ bringUp nodeC ++
    [on nodeB .startElection, on nodeA .startElection] ++ askLost nodeA ++
    askGranted nodeA nodeC requestA ++
    [on nodeA .closeElection, on nodeA .startHeartbeat, on nodeA (.sendHeartbeat .worker),
      on nodeB (.appendEntries (emptyBeat 1 nodeA)), on nodeB .finishDelivery,
      on nodeB (.requestVote requestA)]

/-- In this run `b` votes for itself and for `a` in term 1. -/
theorem one_vote_per_term_voteTwice :
    Cluster.Run reference trio anyStep (reached anyStep voteTwice) ∧
      HasVoted (reached anyStep voteTwice).history nodeB 1 nodeB ∧
      HasVoted (reached anyStep voteTwice).history nodeB 1 nodeA ∧ nodeB ≠ nodeA := by
  obtain ⟨hrun, hself, hgrant⟩ := reached_run anyStep voteTwice
    (fun c => (nodeB, Output.candidate 1) ∈ c.history ∧
      (nodeB, Output.requestVoteReply requestA grantA) ∈ c.history) (by decide +kernel)
  exact ⟨hrun, .inr ⟨rfl, hself⟩, .inl ⟨_, _, hgrant, rfl, rfl, rfl⟩, by decide⟩

end Runs

end BoostGateway.Raft
