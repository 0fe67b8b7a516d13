import BoostGateway.Consensus.Replicas

/-!
# The invariants of log replication

`Invariant` is what every record reached by `Replicas.Step` satisfies. The clauses about
acknowledgements never say that a replica *still* holds what it acknowledged, but that it does or
has since met a leader that was elected without it (`Missed`).
-/

namespace BoostGateway.Consensus.Replicas

open Function List

variable {N E : Type*} {members : Finset N} {termOf : E → Nat}

structure Invariant (members : Finset N) (termOf : E → Nat) (s : Replicas N E) : Prop where
  /-- Every log is backed by the leaders of its terms. -/
  backed : ∀ v, Backed termOf s (s.log v)
  leaderBacked : ∀ t, s.leader t ≠ none → Backed termOf s (s.leaderLog t)
  /-- No log is ahead of its holder's term. -/
  logTerm : ∀ v e, e ∈ s.log v → termOf e ≤ s.term v
  leaderLogTerm : ∀ t, s.leader t ≠ none → ∀ e ∈ s.leaderLog t, termOf e ≤ t
  startPrefix : ∀ t, s.leader t ≠ none → s.startLog t <+: s.leaderLog t
  leaderTerm : ∀ t c, s.leader t = some c → t ≤ s.term c
  /-- While the leader of a term stays in that term, its log is the leader log. -/
  leaderLog : ∀ v, s.leader (s.term v) = some v → s.log v = s.leaderLog (s.term v)
  voteTerm : ∀ v t c lt li, s.vote v t c lt li → t ≤ s.term v
  voteMember : ∀ v t c lt li, s.vote v t c lt li → c ∈ members
  quorum : ∀ t c, s.leader t = some c →
    IsQuorum members (s.voters t) ∧ ∀ v ∈ s.voters t, ∃ lt li, s.vote v t c lt li
  /-- Before a term has a leader, nobody votes twice in it. -/
  voteOnce : ∀ v t c c' lt li lt' li', s.leader t = none →
    s.vote v t c lt li → s.vote v t c' lt' li' → c = c'
  /-- Those who elected a leader never vote for anybody else in its term. -/
  voteLeader : ∀ v t c c' lt li, s.leader t = some c → v ∈ s.voters t → s.vote v t c' lt li → c' = c
  ackTerm : ∀ v t k, s.ack v t k → t ≤ s.term v
  ackLeader : ∀ v t k, s.ack v t k → s.leader t ≠ none ∧ k ≤ (s.leaderLog t).length
  ackMono : ∀ v t k j, s.ack v t k → j ≤ k → s.ack v t j
  /-- A replica holds what it acknowledged, or a leader has missed it since. -/
  ackHeld : ∀ v, Holds s v (s.log v)
  /-- A candidate that got a replica's vote is up to date with what it had acknowledged. -/
  ackVoted : ∀ v t t' k c lt li, s.leader t' = none → s.vote v t' c lt li → s.ack v t k → t < t' →
    (∃ log, Backed termOf s log ∧ (s.leaderLog t).take k <+: log ∧ UpToDate termOf lt li log) ∨
      Missed s t t' ((s.leaderLog t).take k)
  /-- The leader a replica elected starts with what the replica had acknowledged. -/
  ackElected : ∀ v t t' k e, s.leader t' ≠ none → v ∈ s.voters t' → s.ack v t k → t < t' →
    1 ≤ k → (s.leaderLog t)[k - 1]? = some e → termOf e = t →
    (s.leaderLog t).take k <+: s.startLog t' ∨ Missed s t t' ((s.leaderLog t).take k)

/-! ## Log matching -/

variable {s : Replicas N E} {log : List E} {e : E}

theorem backed_matching {log' : List E} (hlog : Backed termOf s log) (hlog' : Backed termOf s log')
    {i : Nat} {e' : E} (he : log[i]? = some e) (he' : log'[i]? = some e')
    (hterm : termOf e = termOf e') : log.take (i + 1) = log'.take (i + 1) := by
  have hi : i < log.length := (List.getElem?_eq_some_iff.mp he).1
  have hi' : i < log'.length := (List.getElem?_eq_some_iff.mp he').1
  have hpre := (hlog i e he).2
  have hpre' := (hlog' i e' he').2
  rw [← hterm] at hpre'
  refine (prefix_of_prefix_length_le hpre hpre' ?_).eq_of_length ?_
  · simp [length_take]
    omega
  · simp [length_take]
    omega

theorem Backed.prefix_of_getLast (hlog : Backed termOf s log) (he : log.getLast? = some e) :
    s.leader (termOf e) ≠ none ∧ log <+: s.leaderLog (termOf e) := by
  rw [List.getLast?_eq_getElem?] at he
  have hpos : log.length - 1 < log.length := (List.getElem?_eq_some_iff.mp he).1
  obtain ⟨hlead, hpre⟩ := hlog _ _ he
  refine ⟨hlead, ?_⟩
  rwa [show log.length - 1 + 1 = log.length from by omega, take_length] at hpre

theorem exists_getLast (termOf : E → Nat) (hne : log ≠ []) :
    ∃ e, log.getLast? = some e ∧ lastTerm termOf log = termOf e := by
  simp [lastTerm, List.getLast?_eq_getLast_of_ne_nil hne]

/-- An up-to-date log holds a prefix, unless a leader missed it. -/
theorem Invariant.upToDate_holds (hs : Invariant members termOf s) {t t' k : Nat} {log' : List E}
    (hlead : s.leader t ≠ none) (hk : 1 ≤ k) (he : (s.leaderLog t)[k - 1]? = some e)
    (hterm : termOf e = t) (hlog : Backed termOf s log) (hpre : (s.leaderLog t).take k <+: log)
    (hlog' : Backed termOf s log') (hbound : ∀ e ∈ log', termOf e < t')
    (hupto : UpToDate termOf (lastTerm termOf log') log'.length log) :
    (s.leaderLog t).take k <+: log' ∨ Missed s t t' ((s.leaderLog t).take k) := by
  have hklen : k - 1 < (s.leaderLog t).length := (List.getElem?_eq_some_iff.mp he).1
  have hne : log ≠ [] := by
    rintro rfl
    have := hpre.length_le
    rw [length_take, length_nil] at this
    omega
  obtain ⟨x, hx, hxterm⟩ := exists_getLast termOf hne
  obtain ⟨hxleader, hxpre⟩ := hlog.prefix_of_getLast hx
  -- the prefix puts an entry of term `t` into the leader log of the last term of `log`
  have htx : t ≤ termOf x := by
    have hin : e ∈ s.leaderLog (termOf x) := by
      refine (hpre.trans hxpre).subset ?_
      refine mem_iff_getElem?.mpr ⟨k - 1, ?_⟩
      rw [List.getElem?_take, if_pos (by omega), he]
    exact hterm ▸ hs.leaderLogTerm _ hxleader e hin
  have hne' : log' ≠ [] := by
    rintro rfl
    rcases hupto with hlt | ⟨_, hlen⟩
    · simp [lastTerm] at hlt
    · exact hne (length_eq_zero_iff.mp (Nat.le_zero.mp hlen))
  obtain ⟨y, hy, hyterm⟩ := exists_getLast termOf hne'
  obtain ⟨hyleader, hypre⟩ := hlog'.prefix_of_getLast hy
  rw [UpToDate, hxterm, hyterm] at hupto
  rcases hupto with hlt | ⟨heq, hlen⟩
  · -- a later last term: its leader started with the prefix, or missed it
    by_cases hstart : (s.leaderLog t).take k <+: s.startLog (termOf y)
    · refine .inl ?_
      have hfull := hstart.trans (hs.startPrefix _ hyleader)
      rcases List.prefix_or_prefix_of_prefix hfull hypre with h | h
      · exact h
      · -- otherwise the last entry of `log'` would have to be of term at most `t`
        have hyt : termOf y ≤ t := by
          have : y ∈ (s.leaderLog t).take k := h.subset (mem_of_getLast? hy)
          exact hs.leaderLogTerm t hlead y (mem_of_mem_take this)
        omega
    · refine .inr ⟨termOf y, by omega, ?_, hyleader, hstart⟩
      exact hbound y (mem_of_getLast? hy)
  · -- the same last term: both logs are prefixes of one leader log
    refine .inl (hpre.trans ?_)
    rw [← heq] at hypre
    exact prefix_of_prefix_length_le hxpre hypre hlen

/-- The record of a group that has not done anything yet. -/
def initial : Replicas N E where
  term _ := 0
  log _ := []
  leader _ := none
  voters _ := ∅
  startLog _ := []
  leaderLog _ := []
  vote _ _ _ _ _ := False
  ack _ _ _ := False

theorem Invariant.initial : Invariant members termOf (initial : Replicas N E) := by
  constructor <;> intros <;> simp_all [Replicas.initial, Backed.nil, Holds]

/-! ## Preservation -/

theorem Holds.extends {s' : Replicas N E} {v : N} (hlog : Holds s v log) (h : Extends s s')
    (hlen : ∀ t k, s.ack v t k → s.leader t ≠ none ∧ k ≤ (s.leaderLog t).length)
    (hacks : ∀ t k, s'.ack v t k → s.ack v t k) : Holds s' v log := by
  intro t k hack
  obtain ⟨hlead, hk⟩ := hlen t k (hacks t k hack)
  rw [h.take_leaderLog hlead hk]
  exact (hlog t k (hacks t k hack)).imp_right (·.extends h (Nat.succ_le_succ (h.term v)))

section Preservation

variable [DecidableEq N] {s : Replicas N E}
variable {v c : N} {s' : Replicas N E}

section

variable (hs : Invariant members termOf s)

include hs

theorem Invariant.advance {t : Nat} (hlt : s.term v < t) :
    Invariant members termOf (s.advance v t) := by
  have hext : Extends s (s.advance v t) := advance_extends hlt
  exact
    { hs with
      logTerm := fun w e he => (hs.logTerm w e he).trans (hext.term w)
      leaderTerm := fun u c hc => (hs.leaderTerm u c hc).trans (hext.term c)
      leaderLog := by
        intro w hw
        by_cases hwv : w = v
        · -- nobody leads a term it has not reached
          subst hwv
          have hle := hs.leaderTerm _ _ hw
          rw [advance_term_self] at hle
          omega
        · rw [advance_term_of_ne s t hwv] at hw ⊢
          exact hs.leaderLog w hw
      voteTerm := fun w u c lt li h => (hs.voteTerm w u c lt li h).trans (hext.term w)
      ackTerm := fun w u k h => (hs.ackTerm w u k h).trans (hext.term w)
      ackHeld := fun w => (hs.ackHeld w).extends hext (hs.ackLeader w) (fun _ _ h => h) }

omit [DecidableEq N] in
theorem Invariant.castVote {lt li : Nat} (hc : c ∈ members)
    (hupToDate : UpToDate termOf lt li (s.log v))
    (honce : ∀ c' lt' li', s.vote v (s.term v) c' lt' li' →
      c' = c ∨ (c' = v ∧ ∃ l, s.leader (s.term v) = some l ∧ l ≠ v)) :
    Invariant members termOf (s.castVote v c lt li) := by
  -- an earlier vote in a term without a leader was for the same candidate
  have hearlier : ∀ c' lt' li', s.leader (s.term v) = none →
      s.vote v (s.term v) c' lt' li' → c' = c := by
    intro c' lt' li' hnone hvote
    rcases honce c' lt' li' hvote with h | ⟨_, l, hl, _⟩
    · exact h
    · simp [hnone] at hl
  exact
    { hs with
      voteTerm := by
        rintro w u c' lt' li' (h | ⟨rfl, rfl, -, -, -⟩)
        · exact hs.voteTerm w u c' lt' li' h
        · exact le_rfl
      voteMember := by
        rintro w u c' lt' li' (h | ⟨-, -, rfl, -, -⟩)
        · exact hs.voteMember w u c' lt' li' h
        · exact hc
      quorum := by
        intro u l hl
        refine ⟨(hs.quorum u l hl).1, fun w hw => ?_⟩
        obtain ⟨lt', li', h⟩ := (hs.quorum u l hl).2 w hw
        exact ⟨lt', li', .inl h⟩
      voteOnce := by
        rintro w u c₁ c₂ lt₁ li₁ lt₂ li₂ hnone (h₁ | ⟨rfl, rfl, rfl, -, -⟩)
          (h₂ | ⟨hw, hu, hc₂, -, -⟩)
        · exact hs.voteOnce w u c₁ c₂ lt₁ li₁ lt₂ li₂ hnone h₁ h₂
        · subst hw hu hc₂
          exact hearlier c₁ lt₁ li₁ hnone h₁
        · exact (hearlier c₂ lt₂ li₂ hnone h₂).symm
        · exact hc₂.symm
      voteLeader := by
        rintro w u l c' lt' li' hl hw (h | ⟨rfl, rfl, rfl, -, -⟩)
        · exact hs.voteLeader w u l c' lt' li' hl hw h
        · -- an elector's earlier vote was for the leader, so the new one is too
          obtain ⟨lt₀, li₀, h⟩ := (hs.quorum _ l hl).2 w hw
          rcases honce l lt₀ li₀ h with h | ⟨rfl, l', hl', hne⟩
          · exact h.symm
          · exact absurd (Option.some.inj (hl'.symm.trans hl)) hne
      ackVoted := by
        rintro w u u' k c' lt' li' hnone (h | ⟨rfl, rfl, -, rfl, rfl⟩) hack hlt
        · exact hs.ackVoted w u u' k c' lt' li' hnone h hack hlt
        · rcases hs.ackHeld w u k hack with hpre | ⟨t', hafter, hbefore, hleader, hmiss⟩
          · exact .inl ⟨s.log w, hs.backed w, hpre, hupToDate⟩
          · have hne : t' ≠ s.term w := by
              rintro rfl
              exact hleader hnone
            exact .inr ⟨t', hafter, by omega, hleader, hmiss⟩ }

/-- Replacing a log keeps the invariants. -/
theorem Invariant.accept {l : N} {log : List E} (hl : s.leader (s.term v) = some l) (hne : l ≠ v)
    (hlog : Backed termOf s log) (hterms : ∀ e ∈ log, termOf e ≤ s.term v)
    (hkeeps : ∀ p, p <+: s.log v → p <+: s.leaderLog (s.term v) → p <+: log) :
    Invariant members termOf (s.accept v log) := by
  exact
    { hs with
      backed := (forall_update_iff s.log fun _ => Backed termOf (s.accept v log)).mpr
        ⟨hlog.extends (accept_extends s v log),
          fun w _ => (hs.backed w).extends (accept_extends s v log)⟩
      logTerm := (forall_update_iff s.log
        fun w log => ∀ e ∈ log, termOf e ≤ s.term w).mpr ⟨hterms, fun w _ => hs.logTerm w⟩
      leaderLog := (forall_update_iff s.log fun w log =>
        s.leader (s.term w) = some w → log = s.leaderLog (s.term w)).mpr
        ⟨fun hv => absurd (Option.some.inj (hl.symm.trans hv)) hne, fun w _ => hs.leaderLog w⟩
      ackHeld := by
        refine (forall_update_iff s.log (Holds (s.accept v log))).mpr
          ⟨fun t k hack => ?_, fun w _ => hs.ackHeld w⟩
        rcases hs.ackHeld v t k hack with hpre | hmismatch
        · -- what was held survives if the leader of the term has it
          by_cases hlead : (s.leaderLog t).take k <+: s.leaderLog (s.term v)
          · exact .inl (hkeeps _ hpre hlead)
          · refine .inr ⟨s.term v, ?_, Nat.lt_succ_self _, by simp [Replicas.accept, hl], ?_⟩
            · refine lt_of_le_of_ne (hs.ackTerm v t k hack) ?_
              rintro rfl
              exact hlead (List.take_prefix _ _)
            · exact fun h => hlead (h.trans (hs.startPrefix _ (by simp [hl])))
        · exact .inr hmismatch }

omit [DecidableEq N] in
/-- Acknowledging a held prefix keeps the invariants. -/
theorem Invariant.acknowledge {k : Nat}
    (hleader : s.leader (s.term v) ≠ none) (hk : k ≤ (s.leaderLog (s.term v)).length)
    (hpre : (s.leaderLog (s.term v)).take k <+: s.log v) :
    Invariant members termOf (s.acknowledge v k) := by
  exact
    { hs with
      ackTerm := by
        rintro w t j (h | ⟨rfl, rfl, -⟩)
        · exact hs.ackTerm w t j h
        · exact le_rfl
      ackLeader := by
        rintro w t j (h | ⟨rfl, rfl, hj⟩)
        · exact hs.ackLeader w t j h
        · exact ⟨hleader, hj.trans hk⟩
      ackMono := by
        rintro w t j i (h | ⟨rfl, rfl, hj⟩) hij
        · exact .inl (hs.ackMono w t j i h hij)
        · exact .inr ⟨rfl, rfl, hij.trans hj⟩
      ackHeld := by
        rintro w t j (h | ⟨rfl, rfl, hj⟩)
        · exact hs.ackHeld w t j h
        · refine .inl (List.IsPrefix.trans ?_ hpre)
          exact take_prefix_take_left hj
      ackVoted := by
        rintro w t t' j c lt li hnone hvote (h | ⟨rfl, rfl, -⟩) hlt
        · exact hs.ackVoted w t t' j c lt li hnone hvote h hlt
        · -- a vote of a later term would have moved the replica there
          exact absurd (hs.voteTerm w t' c lt li hvote) (by omega)
      ackElected := by
        rintro w t t' j e hleader' hw (h | ⟨rfl, rfl, -⟩) hlt hj he hterm
        · exact hs.ackElected w t t' j e hleader' hw h hlt hj he hterm
        · obtain ⟨c, hc⟩ := Option.ne_none_iff_exists'.mp hleader'
          obtain ⟨lt, li, hvote⟩ := (hs.quorum t' c hc).2 w hw
          exact absurd (hs.voteTerm w t' c lt li hvote) (by omega) }

omit [DecidableEq N] hs in
theorem forall_elect {quorum : Finset N} {p : Nat → Option N → Finset N → List E → List E → Prop}
    (hself : p (s.term c) (some c) quorum (s.log c) (s.log c))
    (hothers : ∀ t, p t (s.leader t) (s.voters t) (s.startLog t) (s.leaderLog t)) (t : Nat) :
    p t ((s.elect c quorum).leader t) ((s.elect c quorum).voters t)
      ((s.elect c quorum).startLog t) ((s.elect c quorum).leaderLog t) := by
  by_cases htc : t = s.term c
  · subst htc
    simpa using hself
  · obtain ⟨hleader, hvoters, hstart, hlog⟩ := elect_of_ne s c quorum htc
    rw [hleader, hvoters, hstart, hlog]
    exact hothers t

omit [DecidableEq N] in
/-- An election by a quorum keeps the invariants. -/
theorem Invariant.elect {quorum : Finset N} (hquorum : IsQuorum members quorum)
    (hvotes : ∀ v ∈ quorum, s.vote v (s.term c) c (lastTerm termOf (s.log c)) (s.log c).length)
    (hnone : s.leader (s.term c) = none) : Invariant members termOf (s.elect c quorum) := by
  have hext : Extends s (s.elect c quorum) := elect_extends hnone
  -- nothing of the new leader's term is in a log yet
  have hbound : ∀ e ∈ s.log c, termOf e < s.term c := by
    intro e he
    refine lt_of_le_of_ne (hs.logTerm c e he) ?_
    intro heq
    obtain ⟨i, hi⟩ := mem_iff_getElem?.mp he
    exact (hs.backed c i e hi).1 (heq ▸ hnone)
  -- acknowledged prefixes belong to terms that already had a leader
  have hacked : ∀ v t k, s.ack v t k →
      ((s.elect c quorum).leaderLog t).take k = (s.leaderLog t).take k :=
    fun v t k hack => hext.take_leaderLog (hs.ackLeader v t k hack).1 (hs.ackLeader v t k hack).2
  exact
    { hs with
      backed := fun v => (hs.backed v).extends hext
      leaderBacked := forall_elect (p := fun _ l _ _ log => l ≠ none → Backed termOf _ log)
        (fun _ => (hs.backed c).extends hext) fun t ht => (hs.leaderBacked t ht).extends hext
      leaderLogTerm := forall_elect (p := fun t l _ _ log => l ≠ none → ∀ e ∈ log, termOf e ≤ t)
        (fun _ => hs.logTerm c) hs.leaderLogTerm
      startPrefix := forall_elect (p := fun _ l _ start log => l ≠ none → start <+: log)
        (fun _ => prefix_rfl) hs.startPrefix
      leaderTerm := forall_elect (p := fun t l _ _ _ => ∀ v, l = some v → t ≤ s.term v)
        (by simp) hs.leaderTerm
      leaderLog := by
        intro v hv
        by_cases htc : s.term v = s.term c
        · have hcv : c = v := by
            have hleader : (s.elect c quorum).leader (s.term v) = some c := by
              rw [htc, elect_leader_self]
            exact Option.some.inj (hleader.symm.trans hv)
          subst hcv
          exact (elect_leaderLog_self s c quorum).symm
        · obtain ⟨hleader, -, -, hlog⟩ := elect_of_ne s c quorum htc
          have hv' : s.leader (s.term v) = some v := hleader ▸ hv
          exact (hs.leaderLog v hv').trans hlog.symm
      quorum := by
        refine forall_elect (p := fun t l voters _ _ => ∀ c, l = some c →
          IsQuorum members voters ∧ ∀ v ∈ voters, ∃ lt li, s.vote v t c lt li) ?_ hs.quorum
        rintro _ ⟨⟩
        exact ⟨hquorum, fun v hv => ⟨_, _, hvotes v hv⟩⟩
      voteOnce := by
        intro v t c₁ c₂ lt₁ li₁ lt₂ li₂ hl h₁ h₂
        have htc : t ≠ s.term c := by
          rintro rfl
          simp at hl
        rw [(elect_of_ne s c quorum htc).1] at hl
        exact hs.voteOnce v t c₁ c₂ lt₁ li₁ lt₂ li₂ hl h₁ h₂
      voteLeader := by
        intro v
        refine forall_elect (p := fun t l voters _ _ => ∀ c c' lt li, l = some c → v ∈ voters →
          s.vote v t c' lt li → c' = c) ?_ (hs.voteLeader v)
        rintro _ c' lt li ⟨⟩ hv hvote
        exact hs.voteOnce v _ c' c lt li _ _ hnone hvote (hvotes v hv)
      ackLeader := by
        intro v t k hack
        obtain ⟨hleader, hk⟩ := hs.ackLeader v t k hack
        exact ⟨hext.leader_ne_none hleader, hk.trans (hext.leaderLog t hleader).length_le⟩
      ackHeld := fun v => (hs.ackHeld v).extends hext (hs.ackLeader v) (fun _ _ h => h)
      ackVoted := by
        intro v t t' k c' lt li hl hvote hack hlt
        have htc : t' ≠ s.term c := by
          rintro rfl
          simp at hl
        rw [(elect_of_ne s c quorum htc).1] at hl
        rw [hacked v t k hack]
        rcases hs.ackVoted v t t' k c' lt li hl hvote hack hlt with ⟨log, hlog, hrest⟩ | hmissed
        · exact .inl ⟨log, hlog.extends hext, hrest⟩
        · exact .inr (hmissed.extends hext le_rfl)
      ackElected := by
        intro v t t' k e hl hv hack hlt hk he hterm
        have hleader := (hs.ackLeader v t k hack).1
        have htc : t ≠ s.term c := by
          rintro rfl
          exact hleader hnone
        rw [(elect_of_ne s c quorum htc).2.2.2] at he ⊢
        by_cases htc' : t' = s.term c
        · -- the new leader is up to date with every replica that voted for it
          subst htc'
          rw [elect_voters_self] at hv
          rw [elect_startLog_self]
          refine .imp_right (Missed.extends · hext le_rfl) ?_
          rcases hs.ackVoted v t _ k c _ _ hnone (hvotes v hv) hack hlt with
            ⟨log, hlog, hpre, hupToDate⟩ | hmissed
          · exact hs.upToDate_holds hleader hk he hterm hlog hpre (hs.backed c) hbound hupToDate
          · exact .inr hmissed
        · obtain ⟨hleader', hvoters, hstart, -⟩ := elect_of_ne s c quorum htc'
          rw [hvoters] at hv
          rw [hleader'] at hl
          rw [hstart]
          exact (hs.ackElected v t t' k e hl hv hack hlt hk he hterm).imp_right
            (·.extends hext le_rfl) }

theorem Invariant.append {e : E} (hl : s.leader (s.term c) = some c) (hterm : termOf e = s.term c) :
    Invariant members termOf (s.append c e) := by
  have hlog : s.log c = s.leaderLog (s.term c) := hs.leaderLog c hl
  have hext : Extends s (s.append c e) := append_extends hlog
  have hacked : ∀ v t k, s.ack v t k →
      ((s.append c e).leaderLog t).take k = (s.leaderLog t).take k :=
    fun v t k hack => hext.take_leaderLog (hs.ackLeader v t k hack).1 (hs.ackLeader v t k hack).2
  -- the new log is backed: its last entry ends the new leader log
  have hback : Backed termOf (s.append c e) (s.log c ++ [e]) := by
    intro i x hx
    rcases Nat.lt_or_ge i (s.log c).length with hi | hi
    · rw [List.getElem?_append_left hi] at hx
      rw [take_append_of_le_length (by omega)]
      exact (hs.backed c).extends hext i x hx
    · have hlen := (List.getElem?_eq_some_iff.mp hx).1
      rw [length_append, length_singleton] at hlen
      have hi' : i = (s.log c).length := by omega
      subst hi'
      rw [List.getElem?_append_right le_rfl] at hx
      simp only [Nat.sub_self, List.getElem?_cons_zero, Option.some.injEq] at hx
      subst hx
      rw [hterm, append_leaderLog_self]
      refine ⟨by simp [Replicas.append, hl], ?_⟩
      exact List.take_prefix _ _
  have hterms : ∀ x ∈ s.log c ++ [e], termOf x ≤ s.term c := by
    intro x hx
    rcases mem_append.mp hx with h | h
    · exact hs.logTerm c x h
    · rw [mem_singleton.mp h, hterm]
  exact
    { hs with
      backed := (forall_update_iff s.log fun _ => Backed termOf (s.append c e)).mpr
        ⟨hback, fun v _ => (hs.backed v).extends hext⟩
      leaderBacked := (forall_update_iff s.leaderLog fun t log =>
        s.leader t ≠ none → Backed termOf (s.append c e) log).mpr
        ⟨fun _ => hback, fun t _ ht => (hs.leaderBacked t ht).extends hext⟩
      logTerm := (forall_update_iff s.log
        fun v log => ∀ x ∈ log, termOf x ≤ s.term v).mpr ⟨hterms, fun v _ => hs.logTerm v⟩
      leaderLogTerm := (forall_update_iff s.leaderLog fun t log =>
        s.leader t ≠ none → ∀ x ∈ log, termOf x ≤ t).mpr
        ⟨fun _ => hterms, fun t _ => hs.leaderLogTerm t⟩
      startPrefix := fun t ht => (hs.startPrefix t ht).trans (hext.leaderLog t ht)
      leaderLog := by
        intro v hv
        by_cases hvc : v = c
        · subst hvc
          rw [append_log_self]
          exact (append_leaderLog_self s v e).symm
        · have hne : s.term v ≠ s.term c := by
            intro heq
            have hv' : s.leader (s.term c) = some v := heq ▸ hv
            exact hvc (Option.some.inj (hv'.symm.trans hl))
          rw [append_log_of_ne s e hvc]
          exact (hs.leaderLog v hv).trans (append_leaderLog_of_ne s c e hne).symm
      ackTerm := by
        rintro v t k (h | ⟨rfl, rfl, -⟩)
        · exact hs.ackTerm v t k h
        · exact le_rfl
      ackLeader := by
        rintro v t k (h | ⟨rfl, rfl, hk⟩)
        · obtain ⟨hlead, hk⟩ := hs.ackLeader v t k h
          exact ⟨hlead, hk.trans (hext.leaderLog t hlead).length_le⟩
        · exact ⟨by simp [Replicas.append, hl], by simpa using hk⟩
      ackMono := by
        rintro v t k j (h | ⟨rfl, rfl, hk⟩) hj
        · exact .inl (hs.ackMono v t k j h hj)
        · exact .inr ⟨rfl, rfl, hj.trans hk⟩
      ackHeld := by
        rintro v t k (h | ⟨rfl, rfl, -⟩)
        · rw [hacked v t k h]
          rcases hs.ackHeld v t k h with hpre | hmismatch
          · refine .inl (hpre.trans ?_)
            by_cases hv : v = c
            · subst hv
              rw [append_log_self]
              exact prefix_append _ _
            · rw [append_log_of_ne s e hv]
          · exact .inr (hmismatch.extends hext le_rfl)
        · rw [append_leaderLog_self, append_log_self]
          exact .inl (List.take_prefix _ _)
      ackVoted := by
        rintro v t t' k c' lt li hnone hvote (h | ⟨rfl, rfl, -⟩) hlt
        · rw [hacked v t k h]
          rcases hs.ackVoted v t t' k c' lt li hnone hvote h hlt with ⟨log, hlog, hrest⟩ | hmismatch
          · exact .inl ⟨log, hlog.extends hext, hrest⟩
          · exact .inr (hmismatch.extends hext le_rfl)
        · exact absurd (hs.voteTerm v t' c' lt li hvote) (by omega)
      ackElected := by
        rintro v t t' k x hlead' hv (h | ⟨rfl, rfl, -⟩) hlt hk hx hxterm
        · obtain ⟨hlead, hlen⟩ := hs.ackLeader v t k h
          rw [hacked v t k h]
          have hx' : (s.leaderLog t)[k - 1]? = some x := by
            obtain ⟨rest, hrest⟩ := hext.leaderLog t hlead
            rwa [← hrest, List.getElem?_append_left (by omega)] at hx
          exact (hs.ackElected v t t' k x hlead' hv h hlt hk hx' hxterm).imp_right
            (·.extends hext le_rfl)
        · obtain ⟨l, hl'⟩ := Option.ne_none_iff_exists'.mp hlead'
          obtain ⟨lt, li, hvote⟩ := (hs.quorum t' l hl').2 v hv
          exact absurd (hs.voteTerm v t' l lt li hvote) (by omega) }

theorem Invariant.step (h : Step members termOf s s') : Invariant members termOf s' := by
  cases h with
  | advance v t hlt => exact hs.advance hlt
  | vote v c lt li hc hupto honce => exact hs.castVote hc hupto honce
  | elect c quo hquorum hvotes hnone => exact hs.elect hquorum hvotes hnone
  | append c e hl hterm => exact hs.append hl hterm
  | accept v l log hl hne hlog hterms hkeeps => exact hs.accept hl hne hlog hterms hkeeps
  | acknowledge v k hlead hk hpre => exact hs.acknowledge hlead hk hpre

theorem Invariant.step_extends (h : Step members termOf s s') : Extends s s' := by
  cases h with
  | advance v t hlt => exact advance_extends hlt
  | vote => exact castVote_extends _ _ _ _ _
  | elect c quo hquorum hvotes hnone => exact elect_extends hnone
  | append c e hl => exact append_extends (hs.leaderLog c hl)
  | accept => exact accept_extends _ _ _
  | acknowledge => exact acknowledge_extends _ _ _

theorem Invariant.steps (h : Steps members termOf s s') :
    Invariant members termOf s' ∧ Extends s s' := by
  induction h with
  | refl => exact ⟨hs, Extends.refl s⟩
  | tail _ hstep ih => exact ⟨ih.1.step hstep, ih.2.trans (ih.1.step_extends hstep)⟩

end

/-! ## Steps of one replica -/

structure StepsBy (members : Finset N) (termOf : E → Nat) (v : N) (s s' : Replicas N E) : Prop where
  steps : Steps members termOf s s'
  acted : ActedBy v s s'

namespace StepsBy

variable {s s₁ s₂ s₃ : Replicas N E} {v c : N}

theorem refl (v : N) (s : Replicas N E) : StepsBy members termOf v s s := ⟨.refl, ActedBy.refl v s⟩

theorem trans (h : StepsBy members termOf v s₁ s₂) (h' : StepsBy members termOf v s₂ s₃) :
    StepsBy members termOf v s₁ s₃ :=
  ⟨h.steps.trans h'.steps, h.acted.trans h'.acted⟩

theorem invariant (h : StepsBy members termOf v s₁ s₂) (hs : Invariant members termOf s₁) :
    Invariant members termOf s₂ :=
  (hs.steps h.steps).1

theorem advance {t : Nat} (hlt : s.term v < t) : StepsBy members termOf v s (s.advance v t) :=
  ⟨.single (.advance s v t hlt), advance_actedBy hlt⟩

theorem castVote {lt li : Nat} (hc : c ∈ members) (hupto : UpToDate termOf lt li (s.log v))
    (honce : ∀ c' lt' li', s.vote v (s.term v) c' lt' li' →
      c' = c ∨ (c' = v ∧ ∃ l, s.leader (s.term v) = some l ∧ l ≠ v)) :
    StepsBy members termOf v s (s.castVote v c lt li) :=
  ⟨.single (.vote s v c lt li hc hupto honce), castVote_actedBy s v c lt li⟩

theorem elect {quo : Finset N} (hquorum : IsQuorum members quo)
    (hvotes : ∀ v ∈ quo, s.vote v (s.term c) c (lastTerm termOf (s.log c)) (s.log c).length)
    (hnone : s.leader (s.term c) = none) : StepsBy members termOf c s (s.elect c quo) :=
  ⟨.single (.elect s c quo hquorum hvotes hnone), elect_actedBy hnone⟩

theorem append {e : E} (hs : Invariant members termOf s) (hl : s.leader (s.term c) = some c)
    (hterm : termOf e = s.term c) : StepsBy members termOf c s (s.append c e) :=
  ⟨.single (.append s c e hl hterm), append_actedBy hl (hs.leaderLog c hl)⟩

theorem accept {l : N} {log : List E} (hl : s.leader (s.term v) = some l) (hne : l ≠ v)
    (hlog : Backed termOf s log) (hterms : ∀ e ∈ log, termOf e ≤ s.term v)
    (hkeeps : ∀ p, p <+: s.log v → p <+: s.leaderLog (s.term v) → p <+: log) :
    StepsBy members termOf v s (s.accept v log) :=
  ⟨.single (.accept s v l log hl hne hlog hterms hkeeps), accept_actedBy s v log⟩

theorem acknowledge {k : Nat} (hlead : s.leader (s.term v) ≠ none)
    (hk : k ≤ (s.leaderLog (s.term v)).length)
    (hpre : (s.leaderLog (s.term v)).take k <+: s.log v) :
    StepsBy members termOf v s (s.acknowledge v k) :=
  ⟨.single (.acknowledge s v k hlead hk hpre), acknowledge_actedBy s v k⟩

end StepsBy

end Preservation

end BoostGateway.Consensus.Replicas
