import BoostGateway.Consensus.Invariant

/-!
# Election safety and leader completeness

A prefix that a quorum acknowledged is in the log of every later leader
(`Invariant.committed_startLog`), a term has one leader (`Invariant.elected_unique`), and committed
prefixes never diverge (`Invariant.committed_comparable`).
-/

namespace BoostGateway.Consensus.Replicas

variable {N E : Type*} {members : Finset N} {termOf : E → Nat}

/-! ## Elections -/

theorem Invariant.elected_unique [DecidableEq N] {s : Replicas N E}
    (hs : Invariant members termOf s) {t : Nat} {c l : N} {quo : Finset N}
    (hquorum : IsQuorum members quo) (hvotes : ∀ v ∈ quo, ∃ lt li, s.vote v t c lt li)
    (hl : s.leader t = some l) : c = l := by
  obtain ⟨v, hv, hv'⟩ := hquorum.exists_common (hs.quorum t l hl).1
  obtain ⟨lt, li, hvote⟩ := hvotes v hv
  exact hs.voteLeader v t l c lt li hl hv' hvote

/-! ## Committed prefixes -/

section Committed

variable [DecidableEq N] {s : Replicas N E}
variable {t t' k : Nat}

section

variable (hs : Invariant members termOf s)

include hs

section

variable (hcommitted : Committed members termOf s t k)

include hcommitted

theorem Invariant.committed_startLog (hlt : t < t') (hlead : s.leader t' ≠ none) :
    (s.leaderLog t).take k <+: s.startLog t' := by
  obtain ⟨⟨e, hk, he, hterm⟩, quorum, hquorum, hacks⟩ := hcommitted
  induction t' using Nat.strong_induction_on with
  | _ t' ih =>
    obtain ⟨c, hc⟩ := Option.ne_none_iff_exists'.mp hlead
    obtain ⟨v, hv, hv'⟩ := hquorum.exists_common (hs.quorum t' c hc).1
    rcases hs.ackElected v t t' k e hlead hv' (hacks v hv) hlt hk he hterm with h | h
    · exact h
    · obtain ⟨u, hafter, hpre, hu, hmiss⟩ := h
      exact absurd (ih u hpre hafter hu) hmiss

theorem Invariant.committed_not_missed {u : Nat} : ¬ Missed s t u ((s.leaderLog t).take k) := by
  rintro ⟨t', hlt, _, hlead, hmiss⟩
  exact hmiss (hs.committed_startLog hcommitted hlt hlead)

omit [DecidableEq N] in
theorem Invariant.committed_le : s.leader t ≠ none ∧ k ≤ (s.leaderLog t).length := by
  obtain ⟨_, quorum, hquorum, hacks⟩ := hcommitted
  obtain ⟨v, hv⟩ := hquorum.nonempty
  exact hs.ackLeader v t k (hacks v hv)

theorem Invariant.committed_leaderLog (hle : t ≤ t') (hlead : s.leader t' ≠ none) :
    (s.leaderLog t).take k <+: s.leaderLog t' := by
  rcases Nat.eq_or_lt_of_le hle with rfl | hlt
  · exact List.take_prefix _ _
  · exact (hs.committed_startLog hcommitted hlt hlead).trans (hs.startPrefix t' hlead)

omit hcommitted in
theorem Invariant.committed_comparable {k' : Nat}
    (h : Committed members termOf s t k) (h' : Committed members termOf s t' k') :
    (s.leaderLog t).take k <+: (s.leaderLog t').take k' ∨
      (s.leaderLog t').take k' <+: (s.leaderLog t).take k := by
  rcases Nat.le_total t t' with hle | hle
  · exact List.prefix_or_prefix_of_prefix
      (hs.committed_leaderLog h hle (hs.committed_le h').1) (List.take_prefix _ _)
  · exact (List.prefix_or_prefix_of_prefix
      (hs.committed_leaderLog h' hle (hs.committed_le h).1) (List.take_prefix _ _)).symm

theorem Invariant.committed_held {v : N} {log : List E} (hack : s.ack v t k)
    (hlog : Holds s v log) : (s.leaderLog t).take k <+: log :=
  (hlog t k hack).resolve_right (hs.committed_not_missed hcommitted)

end

end

end Committed

/-! ## Prefixes that are safe to apply -/

def CommittedPrefix (members : Finset N) (termOf : E → Nat) (s : Replicas N E) (t : Nat)
    (entries : List E) : Prop :=
  entries = [] ∨
    ∃ t' k, Committed members termOf s t' k ∧ t' ≤ t ∧ entries <+: (s.leaderLog t').take k

section CommittedPrefix

variable {s s' : Replicas N E} {t u : Nat} {entries entries' : List E}

theorem CommittedPrefix.of_isPrefix (h : CommittedPrefix members termOf s t entries)
    (hpre : entries' <+: entries) : CommittedPrefix members termOf s t entries' := by
  rcases h with rfl | ⟨t', k, hcommitted, ht, h⟩
  · exact .inl (List.prefix_nil.mp hpre)
  · exact .inr ⟨t', k, hcommitted, ht, hpre.trans h⟩

theorem CommittedPrefix.mono (h : CommittedPrefix members termOf s t entries) (htu : t ≤ u) :
    CommittedPrefix members termOf s u entries := by
  rcases h with rfl | ⟨t', k, hcommitted, ht, h⟩
  · exact .inl rfl
  · exact .inr ⟨t', k, hcommitted, ht.trans htu, h⟩

theorem Committed.committedPrefix {k : Nat} (h : Committed members termOf s t k) :
    CommittedPrefix members termOf s t ((s.leaderLog t).take k) :=
  .inr ⟨t, k, h, Nat.le_refl t, List.prefix_rfl⟩

theorem CommittedPrefix.extends (hs : Invariant members termOf s)
    (h : CommittedPrefix members termOf s t entries) (hext : Extends s s') :
    CommittedPrefix members termOf s' t entries := by
  rcases h with rfl | ⟨t', k, hcommitted, ht, h⟩
  · exact .inl rfl
  · obtain ⟨hlead, hk⟩ := hs.committed_le hcommitted
    refine .inr ⟨t', k, hcommitted.extends hlead hext, ht, ?_⟩
    rwa [hext.take_leaderLog hlead hk]

variable [DecidableEq N]

theorem CommittedPrefix.prefix_leaderLog (hs : Invariant members termOf s)
    (h : CommittedPrefix members termOf s t entries) (htu : t ≤ u)
    (hlead : s.leader u ≠ none) : entries <+: s.leaderLog u := by
  rcases h with rfl | ⟨t', k, hcommitted, ht, h⟩
  · exact List.nil_prefix
  · exact h.trans (hs.committed_leaderLog hcommitted (ht.trans htu) hlead)

theorem CommittedPrefix.comparable (hs : Invariant members termOf s)
    (h : CommittedPrefix members termOf s t entries)
    (h' : CommittedPrefix members termOf s u entries') :
    entries <+: entries' ∨ entries' <+: entries := by
  rcases h with rfl | ⟨t', k, hcommitted, _, h⟩
  · exact .inl List.nil_prefix
  rcases h' with rfl | ⟨u', k', hcommit', _, h'⟩
  · exact .inr List.nil_prefix
  rcases hs.committed_comparable hcommitted hcommit' with hle | hle
  · exact List.prefix_or_prefix_of_prefix (h.trans hle) h'
  · exact List.prefix_or_prefix_of_prefix h (h'.trans hle)

theorem CommittedPrefix.held (hs : Invariant members termOf s)
    (h : CommittedPrefix members termOf s t entries) (hne : entries ≠ []) :
    ∃ quo, IsQuorum members quo ∧ ∀ v ∈ quo, ∀ log, Holds s v log → entries <+: log := by
  rcases h with rfl | ⟨t', k, hcommitted, _, h⟩
  · exact absurd rfl hne
  · obtain ⟨quo, hquorum, hacks⟩ := hcommitted.2
    exact ⟨quo, hquorum, fun v hv log hlog =>
      h.trans (hs.committed_held hcommitted (hacks v hv) hlog)⟩

end CommittedPrefix

end BoostGateway.Consensus.Replicas
