import BoostGateway.Raft.Relation

/-!
# Elections refine the record

The sections of elections and of `handle_request_vote` are steps of the record: a change of term,
a vote, and the election of a leader.
-/

namespace BoostGateway.Raft

open Consensus Consensus.Replicas ClusterConfig

variable {lib : Libraries} {level : Level} {setup : ClusterConfig}
  {matched : Nat → NodeId → Nat → Prop} {a : Record} {v : NodeId} {host after : Host} {ok : Bool}
  {node : RaftNode} {args : RequestVoteArgs} {reply : RequestVoteReply}

/-! ## Ballots of the record -/

theorem Describes.forget (h : Describes level setup a v node.persistent)
    (hvoted : node.votedFor = some v) (hlead : ∃ l, a.leader node.currentTerm = some l ∧ l ≠ v)
    (hwell : WellFormed defaultLimits (asFollower node.currentTerm node).persistent) :
    Describes level setup a v (asFollower node.currentTerm node).persistent where
  term := h.term
  log := h.log
  bound := h.bound
  votes c lt li hvote := by
    rcases h.votes c lt li hvote with hc | hc | hone
    · have hcv : c = v := Option.some.inj (hc.symm.trans hvoted)
      exact .inr (.inl ⟨hcv, hlead⟩)
    · exact .inr (.inl hc)
    · exact .inr (.inr hone)
  wellFormed := hwell
  commit := h.commit

theorem Describes.earlier_vote {c : NodeId} (h : Describes level setup a v node.persistent)
    (hmember : c ∈ setup.peers) (hne : c ≠ v)
    (hfree : node.votedFor = none ∨ node.votedFor = some c) {c' : NodeId} {lt li : Nat}
    (hvote : a.vote v node.currentTerm c' lt li) :
    c' = c ∨ (c' = v ∧ ∃ l, a.leader node.currentTerm = some l ∧ l ≠ v) := by
  rcases h.votes c' lt li hvote with hc' | hc' | hone
  · have hvoted : node.votedFor = some c' := hc'
    rcases hfree with hfree | hfree
    · simp [hfree] at hvoted
    · exact .inl (Option.some.inj (hvoted.symm.trans hfree))
  · exact .inr hc'
  · simp only [hone, List.mem_singleton] at hmember
    exact absurd hmember hne

def stand (a : Record) (v : NodeId) : Record :=
  (a.advance v (a.term v + 1)).castVote v v (lastTerm LogEntry.term (a.log v)) (a.log v).length

theorem stand_vote (a : Record) (v : NodeId) :
    (stand a v).vote v ((stand a v).term v) v (lastTerm LogEntry.term (a.log v)) (a.log v).length :=
  .inr ⟨rfl, rfl, rfl, rfl, rfl⟩

theorem matches_asLeader (hv : v ∈ setup.peers)
    (hfresh : ∀ p i, p ≠ v → ¬ matched node.currentTerm p i) :
    Matches setup matched a v (asLeader (setup.node v) node) where
  own m hm := by simp [asLeader, lookup_foldl_insert, mem_targets hv] at hm
  member p hp := by
    rw [← AList.lookup_isSome] at hp
    by_contra hpeer
    simp [asLeader, lookup_foldl_insert, mem_targets hv, hpeer] at hp
  peer p hp hpv := by
    refine ⟨0, node.log.length + 1, ?_, ?_, by omega, .inl ⟨rfl, le_rfl, ?_⟩⟩
    · simp [asLeader, lookup_foldl_insert, mem_targets hv, hp, hpv]
    · simp [asLeader, lookup_foldl_insert, mem_targets hv, hp, hpv]
    · exact fun i => hfresh p i hpv

variable (hinv : setup.Invariant a)

include hinv

theorem Describes.advance {term : Nat} (h : Describes level setup a v node.persistent)
    (hbound : term < 2 ^ 64) (hlt : node.currentTerm < term)
    (hwell : WellFormed defaultLimits (asFollower term node).persistent) :
    Describes level setup (a.advance v term) v (asFollower term node).persistent where
  term := advance_term_self a v term
  log := h.log
  bound := hbound
  votes c lt li hvote := by
    have hle : term ≤ a.term v := hinv.voteTerm v term c lt li hvote
    have hterm : a.term v = node.currentTerm := h.term
    omega
  wellFormed := hwell
  commit hstrict := by
    have hterm : a.term v = node.currentTerm := h.term
    exact ((h.commit hstrict).mono hlt.le).extends hinv (advance_extends (hterm ▸ hlt))

theorem stand_steps (hv : v ∈ setup.peers) : setup.StepsBy v a (stand a v) := by
  have hadv : setup.StepsBy v a (a.advance v (a.term v + 1)) := StepsBy.advance (Nat.lt_succ_self _)
  refine hadv.trans (StepsBy.castVote (List.mem_toFinset.mpr hv) ?_ ?_)
  · exact .inr ⟨rfl, le_rfl⟩
  · intro c lt li hvote
    rw [advance_term_self] at hvote
    have hle : a.term v + 1 ≤ a.term v := hinv.voteTerm v _ c lt li hvote
    omega

/-- The record describes a candidate, but for the wrap to term zero. -/
theorem Describes.stand (h : Describes level setup a v node.persistent) (hv : v ∈ setup.peers)
    (hwell : WellFormed defaultLimits (asCandidate (setup.node v) node).persistent) :
    Describes level setup (stand a v) v (asCandidate (setup.node v) node).persistent ∧
      Role level setup matched (stand a v) v (asCandidate (setup.node v) node) := by
  have hterm : a.term v = node.currentTerm := h.term
  have hbound : node.currentTerm < 2 ^ 64 := h.bound
  have hnext : wrap64 (node.currentTerm + 1) = a.term v + 1 := by
    have hne : wrap64 (node.currentTerm + 1) ≠ 0 := (hwell.votedFor v rfl).2
    unfold wrap64 at hne ⊢
    omega
  have hstand : (BoostGateway.Raft.stand a v).term v = a.term v + 1 := by
    simp [BoostGateway.Raft.stand, Replicas.castVote]
  have hext := (stand_steps hinv hv).acted.ext
  refine ⟨⟨hstand.trans hnext.symm, h.log, Nat.mod_lt _ (by decide), ?_, hwell, ?_⟩, ?_⟩
  · rintro c lt li (hvote | ⟨_, _, rfl, _⟩)
    · have hle := hinv.voteTerm v _ c lt li hvote
      have hterm' : (asCandidate (setup.node v) node).persistent.currentTerm = a.term v + 1 := hnext
      omega
    · exact .inl rfl
  · intro hstrict
    have hle : node.currentTerm ≤ (asCandidate (setup.node v) node).persistent.currentTerm := by
      rw [show (asCandidate (setup.node v) node).persistent.currentTerm = a.term v + 1 from hnext]
      omega
    exact ((h.commit hstrict).mono hle).extends hinv hext
  · have hlog : a.log v = node.log := h.log
    refine ⟨by simp [asCandidate], fun _ => ⟨rfl, ?_, ?_⟩, by simp [asCandidate]⟩
    · have hvote := stand_vote a v
      rwa [hstand, ← hnext, hlog] at hvote
    · intro hlead
      have hle := hinv.leaderTerm _ v hlead
      have hterm' : (asCandidate (setup.node v) node).currentTerm = a.term v + 1 := hnext
      omega

/-- A sole node can make itself leader. -/
theorem lone_leader (hone : setup.peers = [v]) :
    ∃ a', setup.StepsBy v a a' ∧ a'.leader (a.term v) = some v ∧
      a'.term v = a.term v ∧ a'.log v = a.log v := by
  have hmems : setup.members = {v} := by simp [members, hone]
  have honly : ∀ {t : Nat} {c : NodeId} {lt li : Nat}, a.vote v t c lt li → c = v := by
    intro t c lt li hvote
    simpa [hmems] using hinv.voteMember v t c lt li hvote
  cases hlead : a.leader (a.term v) with
  | some l =>
    obtain ⟨hquorum, hvotes⟩ := hinv.quorum _ l hlead
    obtain ⟨u, hu⟩ := hquorum.nonempty
    have huv : u = v := by simpa [hmems] using hquorum.1 hu
    obtain ⟨lt, li, hvote⟩ := hvotes u hu
    subst huv
    obtain rfl := honly hvote
    exact ⟨a, .refl _ a, hlead, rfl, rfl⟩
  | none =>
    have hvote : setup.StepsBy v a
        (a.castVote v v (lastTerm LogEntry.term (a.log v)) (a.log v).length) :=
      StepsBy.castVote (by simp [hmems]) (.inr ⟨rfl, le_rfl⟩)
        (fun c lt li hvote => .inl (honly hvote))
    have hquorum : IsQuorum setup.members {v} := by simp [IsQuorum, hmems]
    have helect := hvote.trans (StepsBy.elect hquorum (by
        intro u hu
        obtain rfl := Finset.mem_singleton.mp hu
        exact .inr ⟨rfl, rfl, rfl, rfl, rfl⟩) hlead)
    exact ⟨_, helect, elect_leader_self _ v {v}, rfl, rfl⟩

/-! ## Stepping down -/

variable (hrel : HostRel level setup matched a v host)

include hrel

/-- `become_follower` is a later term, or forgets a vote for itself. -/
theorem becomeFollower_rel {term : Nat} (hup : host.node.healthy = true)
    (h : becomeFollower lib (setup.node v) term host = (after, ok)) (hbound : term < 2 ^ 64)
    (hterm : host.node.currentTerm < term ∨
      host.node.currentTerm = term ∧ host.node.state = .candidate ∧
        ∃ l, a.leader term = some l ∧ l ≠ v) :
    ∃ a', setup.StepsBy v a a' ∧ HostRel level setup matched a' v after ∧
      Kept (asFollower term host.node) after.node ok := by
  have hdesc := hrel.describes hup
  have hrecalls : Recalls a v (asFollower term host.node).log := hrel.recalls hinv
  rcases hterm with hlt | ⟨rfl, hst, hlead⟩
  · have hlt' : a.term v < term := by
      have hterm : a.term v = host.node.currentTerm := hdesc.term
      omega
    obtain ⟨a', hsteps, hrel', hkept, _⟩ := HostRel.persist matched h hup hinv
      (.refl v a) (StepsBy.advance hlt') hrel.stored hbound hrecalls hrel.commitSafe
      (fun hwell => ⟨hdesc.advance hinv hbound hlt hwell, Role.follower rfl⟩)
    exact ⟨a', hsteps, hrel', hkept⟩
  · obtain ⟨a', hsteps, hrel', hkept, _⟩ := HostRel.persist matched h hup hinv
      (.refl v a) (.refl v a) hrel.stored hbound hrecalls hrel.commitSafe
      (fun hwell => ⟨hdesc.forget (hrel.role.candidate hst).1 hlead hwell, Role.follower rfl⟩)
    exact ⟨a', hsteps, hrel', hkept⟩

/-! ## Votes -/

/-- The vote of `handle_request_vote` is a vote of the record. -/
theorem castVote_rel (hup : host.node.healthy = true)
    (h : castVote lib (setup.node v) args host = (after, reply))
    (hmember : args.candidateId ∈ setup.peers) (hne : args.candidateId ≠ v) :
    ∃ a', setup.StepsBy v a a' ∧
      HostRel level setup matched a' v after ∧ after.node.log = host.node.log ∧
      Standing host.node after.node ∧ reply.term = host.node.currentTerm ∧
      (reply.voteGranted = true →
        a'.vote v host.node.currentTerm args.candidateId args.lastLogTerm args.lastLogIndex) := by
  have hdesc := hrel.describes hup
  have hterm : a.term v = host.node.currentTerm := hdesc.term
  dsimp only [castVote] at h
  split at h
  next hvotes =>
    obtain ⟨hfree, hupto⟩ := hvotes
    generalize hsave : persistStateLocked lib (setup.node v)
      { host with node := { host.node with votedFor := some args.candidateId } } = result at h
    cases h
    have hsteps : setup.StepsBy v a
        (a.castVote v args.candidateId args.lastLogTerm args.lastLogIndex) := by
      refine StepsBy.castVote (List.mem_toFinset.mpr hmember) ?_ ?_
      · rw [hdesc.log]
        exact isLogUpToDate_iff.mp hupto
      · rw [hterm]
        exact fun _ _ _ hvote => hdesc.earlier_vote hmember hne hfree hvote
    have hext := hsteps.acted.ext
    have hrole : Role level setup matched
        (a.castVote v args.candidateId args.lastLogTerm args.lastLogIndex) v
        { host.node with votedFor := some args.candidateId } := by
      have hkeep := hrel.role.extends hext id
      refine ⟨hkeep.leader, ?_, fun hs hl => { hkeep.peers hs hl with }⟩
      -- a candidate has voted for itself and is not free
      intro hst
      have hvoted := (hkeep.candidate hst).1
      rcases hfree with hfree | hfree
      · simp [hfree] at hvoted
      · exact absurd (Option.some.inj (hfree.symm.trans hvoted)) hne
    have hnew : WellFormed defaultLimits
        ({ host.node with votedFor := some args.candidateId } : RaftNode).persistent →
        Describes level setup (a.castVote v args.candidateId args.lastLogTerm args.lastLogIndex) v
          ({ host.node with votedFor := some args.candidateId } : RaftNode).persistent := by
      refine fun hwell => ⟨hdesc.term, hdesc.log, hdesc.bound, ?_, hwell,
        fun hs => (hdesc.commit hs).extends hinv hext⟩
      rintro c lt li (hvote | ⟨_, _, rfl, _⟩)
      · rcases hdesc.earlier_vote hmember hne hfree hvote with rfl | hc
        · exact .inl rfl
        · exact .inr (.inl hc)
      · exact .inl rfl
    obtain ⟨a', hsteps', hrel', hkept, hsame, _⟩ := HostRel.persist matched hsave hup hinv
      (.refl v a) hsteps hrel.stored hrel.bound (hrel.recalls hinv) hrel.commitSafe
      (fun hwell => ⟨hnew hwell, hrole⟩)
    refine ⟨a', hsteps', hrel', hkept.log, ?_, rfl, ?_⟩
    · exact fun hst => hkept.standing hup hst
    · intro hgrant
      rw [hsame hgrant]
      exact .inr ⟨rfl, hterm.symm, rfl, rfl, rfl⟩
  · cases h
    exact ⟨a, .refl v a, hrel, rfl, .refl _, rfl, by simp⟩

/-- `handle_request_vote` refines the record, with the vote. -/
theorem handleRequestVote_rel (h : handleRequestVote lib (setup.node v) args host = (after, reply))
    (hmember : args.candidateId ∈ setup.peers) (hne : args.candidateId ≠ v)
    (hbound : args.term < 2 ^ 64) :
    ∃ a', setup.StepsBy v a a' ∧
      HostRel level setup matched a' v after ∧ after.node.log = host.node.log ∧
      Standing host.node after.node ∧ reply.term < 2 ^ 64 ∧
      (reply.voteGranted = true →
        a'.vote v args.term args.candidateId args.lastLogTerm args.lastLogIndex) := by
  dsimp only [handleRequestVote] at h
  split at h
  · cases h
    exact ⟨a, .refl v a, hrel, rfl, .refl _, hrel.bound, by simp⟩
  next hval =>
  have hup : host.node.healthy = true := by
    simp only [not_or] at hval
    simpa using hval.1
  split at h
  · cases h
    exact ⟨a, .refl v a, hrel, rfl, .refl _, hrel.bound, by simp⟩
  next hle =>
  split at h
  next hlt =>
    generalize hstep : becomeFollower lib (setup.node v) args.term host = result at h
    obtain ⟨middle, ok⟩ := result
    obtain ⟨a₁, hsteps₁, hrel₁, hkept⟩ := becomeFollower_rel hinv hrel hup hstep hbound (.inl hlt)
    have hst : middle.node.state = .follower := hkept.follower hup rfl
    have hterm : middle.node.currentTerm = args.term := hkept.currentTerm
    cases ok with
    | true =>
      obtain ⟨a₂, hsteps₂, hrel₂, hlog, hstand, hrep, hvote⟩ :=
        castVote_rel (hsteps₁.invariant hinv) hrel₁ (hkept.healthy hup) h hmember hne
      refine ⟨a₂, hsteps₁.trans hsteps₂, hrel₂, hlog.trans hkept.log, ?_, ?_, ?_⟩
      · intro hcand
        have := (hstand hcand).1
        simp [hst] at this
      · omega
      · rwa [← hterm]
    | false =>
      cases h
      refine ⟨a₁, hsteps₁, hrel₁, hkept.log, ?_, ?_, by simp⟩
      · intro hcand
        simp [hst] at hcand
      · simpa [hterm] using hbound
  next hge =>
    have hterm : host.node.currentTerm = args.term := by omega
    obtain ⟨a', hsteps, hrel', hlog, hstand, hrep, hvote⟩ :=
      castVote_rel hinv hrel hup h hmember hne
    refine ⟨a', hsteps, hrel', hlog, hstand, by omega, ?_⟩
    rwa [← hterm]

/-! ## Standing for election -/

/-- `start_election` is a later term with its own vote. -/
theorem startElection_rel {req : Option RequestVoteArgs} (hup : host.node.healthy = true)
    (hv : v ∈ setup.peers) (h : startElection lib (setup.node v) host = (after, req)) :
    ∃ a', setup.StepsBy v a a' ∧
      HostRel level setup matched a' v after ∧ after.node.log = host.node.log ∧
      ∀ args, req = some args → after.node = asCandidate (setup.node v) host.node ∧
          args = voteRequest (setup.node v) after.node ∧
          a'.vote v args.term v args.lastLogTerm args.lastLogIndex := by
  have hdesc := hrel.describes hup
  unfold startElection at h
  rw [if_neg (by simp [hup])] at h
  dsimp only at h
  generalize hsave : persistStateLocked lib (setup.node v)
    { host with node := asCandidate (setup.node v) host.node } = result at h
  obtain ⟨saved, ok⟩ := result
  obtain ⟨a', hsteps, hrel', hkept, hsame, _⟩ := HostRel.persist matched hsave hup hinv
    (.refl v a) (stand_steps hinv hv) hrel.stored (Nat.mod_lt _ (by decide))
    (hrel.recalls hinv) hrel.commitSafe (hdesc.stand hinv hv)
  cases ok with
  | false =>
    cases h
    exact ⟨a', hsteps, hrel', hkept.log, by simp⟩
  | true =>
    obtain ⟨rfl, rfl⟩ := Prod.mk.inj h
    obtain rfl := hsame rfl
    have hnode : saved.node = asCandidate (setup.node v) host.node := by
      generalize saved.node = node at hkept
      cases hkept
      rfl
    refine ⟨stand a v, hsteps, hrel', hkept.log, ?_⟩
    rintro args hargs
    cases hargs
    refine ⟨hnode, by rw [hnode], ?_⟩
    have hvote := (hrel'.role.candidate (by simp [hnode, asCandidate])).2.1
    rw [hnode, ← lastLogTermOf_eq] at hvote
    exact hvote

/-- After a vote reply the term is later, or the vote counts. -/
theorem countVote_rel {continues : Bool}
    (h : countVote lib (setup.node v) args reply host = (after, continues))
    (hbound : reply.term < 2 ^ 64) :
    ∃ a', setup.StepsBy v a a' ∧
      HostRel level setup matched a' v after ∧ after.node.log = host.node.log ∧
      (continues = true →
        a' = a ∧ host.node.state = .candidate ∧ host.node.currentTerm = args.term ∧
          after.node = { host.node with
            votesReceived := host.node.votesReceived + if reply.voteGranted then 1 else 0 }) := by
  unfold countVote at h
  split at h
  · cases h
    exact ⟨a, .refl v a, hrel, rfl, by simp⟩
  next hguard =>
  simp only [not_or, Decidable.not_not] at hguard
  obtain ⟨hup, hst, hterm⟩ := hguard
  have hup : host.node.healthy = true := by simpa using hup
  split at h
  next hlt =>
    generalize hstep : becomeFollower lib (setup.node v) reply.term host = result at h
    obtain ⟨a', hsteps, hrel', hkept⟩ := becomeFollower_rel hinv hrel hup hstep hbound (.inl hlt)
    cases h
    exact ⟨a', hsteps, hrel', hkept.log, by simp⟩
  split at h
  next hgrant =>
    cases h
    refine ⟨a, .refl v a, hrel.congr rfl rfl rfl rfl rfl rfl, rfl, fun _ => ?_⟩
    exact ⟨rfl, hst, hterm, by simp [hgrant]⟩
  next hgrant =>
    cases h
    refine ⟨a, .refl v a, hrel, rfl, fun _ => ?_⟩
    exact ⟨rfl, hst, hterm, by simp [hgrant]⟩

/-! ## Becoming leader -/

/-- A candidate with a quorum wins the election. -/
theorem closeElection_rel (hv : v ∈ setup.peers)
    (hmatched : ∀ t p i, matched t p i → a.leader t = some v)
    (hvotes : host.node.state = .candidate → ∃ voters : Finset NodeId,
      voters ⊆ setup.members ∧ host.node.votesReceived ≤ voters.card ∧
        ∀ u ∈ voters, a.vote u host.node.currentTerm v (lastTerm LogEntry.term host.node.log)
          host.node.log.length) (h : closeElection lib (setup.node v) host = after) :
    ∃ a', setup.StepsBy v a a' ∧
      HostRel level setup matched a' v after ∧ after.node.log = host.node.log ∧
      (winsElection (setup.node v) host.node = true →
        a'.leader host.node.currentTerm = some v) := by
  unfold closeElection at h
  split at h
  next hwins =>
    obtain ⟨hst, hquorum⟩ : host.node.state = .candidate ∧
        (setup.node v).quorumSize ≤ host.node.votesReceived := by simpa [winsElection] using hwins
    have hup := hrel.healthy_of_state (by simp [hst])
    have hdesc := hrel.describes hup
    have hterm : a.term v = host.node.currentTerm := hdesc.term
    have hlog : a.log v = host.node.log := hdesc.log
    obtain ⟨voters, hmems, hcard, hcast⟩ := hvotes hst
    have hisQuorum : IsQuorum setup.members voters := by
      rw [quorumSize_node hv] at hquorum
      exact ⟨hmems, hquorum.trans hcard⟩
    -- nobody has won this term before
    have hnone : a.leader host.node.currentTerm = none := by
      cases hlead : a.leader host.node.currentTerm with
      | none => rfl
      | some =>
        have heq := hinv.elected_unique hisQuorum (fun u hu => ⟨_, _, hcast u hu⟩) hlead
        subst heq
        exact absurd hlead (hrel.role.candidate hst).2.2
    have hsteps : setup.StepsBy v a (a.elect v voters) := by
      refine StepsBy.elect hisQuorum ?_ ?_
      · rwa [hterm, hlog]
      · rwa [hterm]
    have hlead : (a.elect v voters).leader host.node.currentTerm = some v := by
      rw [← hterm]
      exact elect_leader_self a v voters
    have hdesc' : Describes level setup (a.elect v voters) v host.node.persistent :=
      { hdesc with
        votes := by
          intro c lt li hvote
          rcases hdesc.votes c lt li hvote with hc | ⟨_, l, hl, _⟩ | hone
          · exact .inl hc
          · simp [RaftNode.persistent, hnone] at hl
          · exact .inr (.inr hone)
        commit := fun hs => (hdesc.commit hs).extends hinv hsteps.acted.ext }
    have hstored : Describes level setup (a.elect v voters) v host.durable := by
      rw [← hrel.synced hup]
      exact hdesc'
    have hrole : Role level setup matched (a.elect v voters) v
        (asLeader (setup.node v) host.node) := by
      refine ⟨fun _ => hlead, by simp [asLeader], fun _ _ => matches_asLeader hv ?_⟩
      intro p i _ hm
      rw [hmatched _ _ _ hm] at hnone
      cases hnone
    generalize hsave : becomeLeader lib (setup.node v) host = result at h
    obtain ⟨a', hsteps', hrel', hkept, _, hsame⟩ := HostRel.persist matched hsave hup
      hinv hsteps hsteps hstored hrel.bound (hdesc'.recalls (hsteps.invariant hinv))
      (fun hs => ⟨_, hdesc'.commit hs⟩) (fun _ => ⟨hdesc', hrole⟩)
    obtain rfl : a' = a.elect v voters := or_self_iff.mp hsame
    subst h
    exact ⟨a.elect v voters, hsteps, hrel', hkept.log, fun _ => hlead⟩
  next hloses => exact ⟨a, .refl v a, h ▸ hrel, h ▸ rfl, fun hwins => absurd hwins hloses⟩

/-! ## Starting -/

/-- The first save of `start` makes a sole node leader. -/
theorem initialPersistence_rel (hup : host.node.healthy = true)
    (hv : v ∈ setup.peers) (hmatched : ∀ t p i, matched t p i → p ∈ setup.peers)
    (h : initialPersistence lib (setup.node v) host = (after, ok)) :
    ∃ a', setup.StepsBy v a a' ∧
      HostRel level setup matched a' v after ∧ after.node.log = host.node.log ∧
      Standing host.node after.node := by
  have hdesc := hrel.describes hup
  have hterm : a.term v = host.node.currentTerm := hdesc.term
  have hrecalls : Recalls a v host.node.log := hrel.recalls hinv
  unfold initialPersistence at h
  split at h
  next hone =>
    have hone : setup.peers = [v] := by rwa [allPeers_node hv] at hone
    have hbound : startTerm host.node < 2 ^ 64 := by
      have := hrel.bound
      unfold startTerm
      split <;> omega
    -- the node moves to the first term if it has none, and leads it
    obtain ⟨a₁, hsteps₁, hterm₁, hlog₁⟩ : ∃ a₁, setup.StepsBy v a a₁ ∧
        a₁.term v = startTerm host.node ∧ a₁.log v = a.log v := by
      unfold startTerm
      split
      · exact ⟨a.advance v 1, StepsBy.advance (by omega), advance_term_self a v 1, rfl⟩
      · exact ⟨a, .refl v a, hterm, rfl⟩
    obtain ⟨a₂, hsteps₂, hlead, hterm₂, hlog₂⟩ := lone_leader (hsteps₁.invariant hinv) hone
    have hsteps := hsteps₁.trans hsteps₂
    have hle : host.node.currentTerm ≤ startTerm host.node := by
      have := hsteps₁.acted.ext.term v
      omega
    obtain ⟨a', hsteps', hrel', hkept, _, _⟩ := HostRel.persist matched h hup hinv
      (.refl v a) hsteps hrel.stored hbound hrecalls hrel.commitSafe (by
        refine fun hwell => ⟨⟨hterm₂.trans hterm₁, ?_, hbound, ?_, hwell, ?_⟩, ?_, ?_, ?_⟩
        · exact (hlog₂.trans hlog₁).trans hdesc.log
        · exact fun _ _ _ _ => .inr (.inr hone)
        · exact fun hs =>
            ((hdesc.commit hs).mono hle).extends hinv hsteps.acted.ext
        · intro _
          rwa [hterm₁] at hlead
        · simp [asLeader]
        · refine fun _ _ => matches_asLeader hv fun p i hpv hm => hpv ?_
          simpa [hone] using hmatched _ _ _ hm)
    refine ⟨a', hsteps', hrel', hkept.log, fun hst => ?_⟩
    have := (hkept.standing hup hst).1
    simp [asLeader] at this
  · obtain ⟨a', hsteps, hrel', hkept, _, _⟩ := HostRel.persist matched h hup hinv
      (.refl v a) (.refl v a) hrel.stored hrel.bound hrecalls hrel.commitSafe
      (fun _ => ⟨hdesc, hrel.role⟩)
    exact ⟨a', hsteps, hrel', hkept.log, hkept.standing hup⟩

/-- `start` refines the record. -/
theorem start_rel (hv : v ∈ setup.peers) (hmatched : ∀ t p i, matched t p i → p ∈ setup.peers)
    (h : start lib (setup.node v) host = after) :
    ∃ a', setup.StepsBy v a a' ∧
      HostRel level setup matched a' v after ∧ after.node.log = host.node.log ∧
      Standing host.node after.node := by
  unfold start at h
  split at h
  · subst h
    exact ⟨a, .refl v a, hrel, rfl, .refl _⟩
  next hguard =>
  have hup : host.node.healthy = true := by
    simp only [not_or] at hguard
    simpa using hguard.2
  generalize hsave : initialPersistence lib (setup.node v) host = result at h
  obtain ⟨saved, ok⟩ := result
  obtain ⟨a', hsteps, hrel', hlog, hstand⟩ := initialPersistence_rel hinv hrel hup hv hmatched hsave
  cases ok with
  | true =>
    subst h
    exact ⟨a', hsteps, hrel'.congr rfl rfl rfl rfl rfl rfl, hlog, hstand⟩
  | false =>
    subst h
    exact ⟨a', hsteps, hrel', hlog, hstand⟩

end BoostGateway.Raft
