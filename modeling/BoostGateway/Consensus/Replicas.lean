import BoostGateway.Consensus.Quorum
import Mathlib.Data.List.Infix
import Mathlib.Logic.Function.Basic

/-!
# Leader-based log replication, abstractly

`Replicas` is what replicas keep on stable storage, with the history that explains it: who led each
term and with which log, the votes, and the acknowledged prefixes. `Step` lists the six ways this
record can grow; a protocol refines it by showing that its own steps are sequences of these.

A voter may vote again in a term that has a leader if its earlier vote was for itself. Elections
stay safe under this weaker rule.
-/

namespace BoostGateway.Consensus

open List Function

/-- The stable state of replicas, and their elections. -/
structure Replicas (N E : Type*) where
  /-- The term a replica has reached. -/
  term : N → Nat
  /-- The log a replica holds. -/
  log : N → List E
  /-- The replica elected in a term. -/
  leader : Nat → Option N
  /-- The quorum that elected the leader of a term. -/
  voters : Nat → Finset N
  /-- The log with which the leader of a term was elected. -/
  startLog : Nat → List E
  /-- The log of the leader of a term. -/
  leaderLog : Nat → List E
  /-- Voter, term, candidate, and the last log term and index the candidate announced. -/
  vote : N → Nat → N → Nat → Nat → Prop
  /-- Replica, term and length of the acknowledged prefix of that term's leader log. -/
  ack : N → Nat → Nat → Prop

namespace Replicas

variable {N E : Type*}

def lastTerm (termOf : E → Nat) (log : List E) : Nat := (log.getLast?.map termOf).getD 0

def UpToDate (termOf : E → Nat) (lastLogTerm lastLogIndex : Nat) (log : List E) : Prop :=
  lastTerm termOf log < lastLogTerm ∨ lastTerm termOf log = lastLogTerm ∧ log.length ≤ lastLogIndex

def Backed (termOf : E → Nat) (s : Replicas N E) (log : List E) : Prop := ∀ i e, log[i]? = some e →
    s.leader (termOf e) ≠ none ∧ log.take (i + 1) <+: s.leaderLog (termOf e)

def Missed (s : Replicas N E) (after before : Nat) (entries : List E) : Prop :=
  ∃ t, after < t ∧ t < before ∧ s.leader t ≠ none ∧ ¬ entries <+: s.startLog t

def Holds (s : Replicas N E) (v : N) (log : List E) : Prop := ∀ t k, s.ack v t k →
    (s.leaderLog t).take k <+: log ∨ Missed s t (s.term v + 1) ((s.leaderLog t).take k)

def Committed (members : Finset N) (termOf : E → Nat) (s : Replicas N E) (t k : Nat) : Prop :=
  (∃ e, 1 ≤ k ∧ (s.leaderLog t)[k - 1]? = some e ∧ termOf e = t) ∧
    ∃ quorum, IsQuorum members quorum ∧ ∀ v ∈ quorum, s.ack v t k

section Updates

variable [DecidableEq N]

def advance (s : Replicas N E) (v : N) (t : Nat) : Replicas N E :=
  { s with term := Function.update s.term v t }

def castVote (s : Replicas N E) (v c : N) (lastLogTerm lastLogIndex : Nat) : Replicas N E :=
  { s with
    vote := fun v' t' c' lt' li' => s.vote v' t' c' lt' li' ∨
      (v' = v ∧ t' = s.term v ∧ c' = c ∧ lt' = lastLogTerm ∧ li' = lastLogIndex) }

/-- A quorum makes a replica the leader of its current term. -/
def elect (s : Replicas N E) (c : N) (quorum : Finset N) : Replicas N E :=
  { s with
    leader := Function.update s.leader (s.term c) (some c)
    voters := Function.update s.voters (s.term c) quorum
    startLog := Function.update s.startLog (s.term c) (s.log c)
    leaderLog := Function.update s.leaderLog (s.term c) (s.log c) }

def append (s : Replicas N E) (c : N) (e : E) : Replicas N E :=
  { s with
    log := Function.update s.log c (s.log c ++ [e])
    leaderLog := Function.update s.leaderLog (s.term c) (s.log c ++ [e])
    ack := fun v t k => s.ack v t k ∨ (v = c ∧ t = s.term c ∧ k ≤ (s.log c).length + 1) }

def accept (s : Replicas N E) (v : N) (log : List E) : Replicas N E :=
  { s with log := Function.update s.log v log }

def acknowledge (s : Replicas N E) (v : N) (k : Nat) : Replicas N E :=
  { s with ack := fun v' t' k' => s.ack v' t' k' ∨ (v' = v ∧ t' = s.term v ∧ k' ≤ k) }

inductive Step (members : Finset N) (termOf : E → Nat) : Replicas N E → Replicas N E → Prop where
  | advance (s v t) : s.term v < t → Step members termOf s (s.advance v t)
  | vote (s v c lastLogTerm lastLogIndex) : c ∈ members →
      UpToDate termOf lastLogTerm lastLogIndex (s.log v) →
      (∀ c' lt li, s.vote v (s.term v) c' lt li →
        c' = c ∨ (c' = v ∧ ∃ l, s.leader (s.term v) = some l ∧ l ≠ v)) →
      Step members termOf s (s.castVote v c lastLogTerm lastLogIndex)
  | elect (s c quorum) : IsQuorum members quorum → (∀ v ∈ quorum,
        s.vote v (s.term c) c (lastTerm termOf (s.log c)) (s.log c).length) →
      s.leader (s.term c) = none →
      Step members termOf s (s.elect c quorum)
  | append (s c e) : s.leader (s.term c) = some c → termOf e = s.term c →
      Step members termOf s (s.append c e)
  | accept (s v l log) : s.leader (s.term v) = some l → l ≠ v → Backed termOf s log →
      (∀ e ∈ log, termOf e ≤ s.term v) →
      (∀ p, p <+: s.log v → p <+: s.leaderLog (s.term v) → p <+: log) →
      Step members termOf s (s.accept v log)
  | acknowledge (s v k) : s.leader (s.term v) ≠ none → k ≤ (s.leaderLog (s.term v)).length →
      (s.leaderLog (s.term v)).take k <+: s.log v →
      Step members termOf s (s.acknowledge v k)

abbrev Steps (members : Finset N) (termOf : E → Nat) : Replicas N E → Replicas N E → Prop :=
  Relation.ReflTransGen (Step members termOf)

end Updates

/-! ## Reading an updated record -/

section Reads

variable (s : Replicas N E)

@[simp] theorem elect_leader_self (c : N) (quorum : Finset N) :
    (s.elect c quorum).leader (s.term c) = some c := by simp [elect]

@[simp] theorem elect_voters_self (c : N) (quorum : Finset N) :
    (s.elect c quorum).voters (s.term c) = quorum := by simp [elect]

@[simp] theorem elect_startLog_self (c : N) (quorum : Finset N) :
    (s.elect c quorum).startLog (s.term c) = s.log c := by simp [elect]

@[simp] theorem elect_leaderLog_self (c : N) (quorum : Finset N) :
    (s.elect c quorum).leaderLog (s.term c) = s.log c := by simp [elect]

theorem elect_of_ne (c : N) (quorum : Finset N) {t : Nat} (h : t ≠ s.term c) :
    (s.elect c quorum).leader t = s.leader t ∧ (s.elect c quorum).voters t = s.voters t ∧
      (s.elect c quorum).startLog t = s.startLog t ∧
      (s.elect c quorum).leaderLog t = s.leaderLog t := by simp [elect, h]

variable [DecidableEq N]

@[simp] theorem advance_term_self (v : N) (t : Nat) : (s.advance v t).term v = t := by
  simp [advance]

@[simp] theorem advance_term_of_ne {v w : N} (t : Nat) (h : w ≠ v) :
    (s.advance v t).term w = s.term w := by simp [advance, h]

@[simp] theorem accept_log_self (v : N) (log : List E) : (s.accept v log).log v = log := by
  simp [accept]

@[simp] theorem accept_log_of_ne {v w : N} (log : List E) (h : w ≠ v) :
    (s.accept v log).log w = s.log w := by simp [accept, h]

@[simp] theorem append_log_self (c : N) (e : E) : (s.append c e).log c = s.log c ++ [e] := by
  simp [append]

@[simp] theorem append_log_of_ne {c w : N} (e : E) (h : w ≠ c) :
    (s.append c e).log w = s.log w := by
  simp [append, h]

@[simp] theorem append_leaderLog_self (c : N) (e : E) :
    (s.append c e).leaderLog (s.term c) = s.log c ++ [e] := by simp [append]

@[simp] theorem append_leaderLog_of_ne (c : N) (e : E) {t : Nat} (h : t ≠ s.term c) :
    (s.append c e).leaderLog t = s.leaderLog t := by simp [append, h]

end Reads

/-! ## What later records keep -/

/-- Elections, votes and acknowledgements are kept. -/
structure Extends (s s' : Replicas N E) : Prop where
  term : ∀ v, s.term v ≤ s'.term v
  leader : ∀ t c, s.leader t = some c → s'.leader t = some c
  startLog : ∀ t, s.leader t ≠ none → s'.startLog t = s.startLog t
  leaderLog : ∀ t, s.leader t ≠ none → s.leaderLog t <+: s'.leaderLog t
  vote : ∀ v t c lt li, s.vote v t c lt li → s'.vote v t c lt li
  ack : ∀ v t k, s.ack v t k → s'.ack v t k

variable {termOf : E → Nat} {s s' s'' : Replicas N E} {log log' : List E} {v c : N} {e : E}
  {quorum : Finset N} {t k : Nat}

theorem Extends.refl (s : Replicas N E) : Extends s s :=
  ⟨fun _ => le_rfl, fun _ _ h => h, fun _ _ => rfl, fun _ _ => prefix_rfl,
    fun _ _ _ _ _ h => h, fun _ _ _ h => h⟩

theorem Extends.leader_ne_none (h : Extends s s') (ht : s.leader t ≠ none) :
    s'.leader t ≠ none := by
  obtain ⟨c, hc⟩ := Option.ne_none_iff_exists'.mp ht
  simp [h.leader t c hc]

theorem Extends.trans (h : Extends s s') (h' : Extends s' s'') : Extends s s'' where
  term v := (h.term v).trans (h'.term v)
  leader t c hc := h'.leader t c (h.leader t c hc)
  startLog t ht := (h'.startLog t (h.leader_ne_none ht)).trans (h.startLog t ht)
  leaderLog t ht := (h.leaderLog t ht).trans (h'.leaderLog t (h.leader_ne_none ht))
  vote _ _ _ _ _ hv := h'.vote _ _ _ _ _ (h.vote _ _ _ _ _ hv)
  ack _ _ _ hk := h'.ack _ _ _ (h.ack _ _ _ hk)

theorem Backed.extends (hlog : Backed termOf s log) (h : Extends s s') : Backed termOf s' log := by
  intro i e he
  obtain ⟨hlead, hpre⟩ := hlog i e he
  exact ⟨h.leader_ne_none hlead, hpre.trans (h.leaderLog _ hlead)⟩

theorem Backed.take (hlog : Backed termOf s log) (n : Nat) : Backed termOf s (log.take n) := by
  intro i e he
  rw [List.getElem?_take] at he
  split at he
  next hi =>
    obtain ⟨hlead, hpre⟩ := hlog i e he
    refine ⟨hlead, ?_⟩
    rwa [take_take, Nat.min_eq_left (by omega)]
  · cases he

theorem Backed.of_isPrefix (hlog : Backed termOf s log) (h : log' <+: log) :
    Backed termOf s log' := by
  rw [prefix_iff_eq_take.mp h]
  exact hlog.take _

theorem Backed.nil : Backed termOf s [] := by
  intro i e he
  simp at he

theorem Missed.extends {u u' : Nat} (hp : Missed s t u log) (h : Extends s s') (hu : u ≤ u') :
    Missed s' t u' log := by
  obtain ⟨t', hafter, hpre, hlead, hmiss⟩ := hp
  refine ⟨t', hafter, hpre.trans_le hu, h.leader_ne_none hlead, ?_⟩
  rwa [h.startLog t' hlead]

theorem Extends.take_leaderLog (h : Extends s s') (hlead : s.leader t ≠ none) (hk : k ≤
    (s.leaderLog t).length) : (s'.leaderLog t).take k = (s.leaderLog t).take k := by
  obtain ⟨rest, hrest⟩ := h.leaderLog t hlead
  rw [← hrest, take_append_of_le_length hk]

theorem Committed.extends {members : Finset N} (hcommit : Committed members termOf s t k)
    (hlead : s.leader t ≠ none) (h : Extends s s') : Committed members termOf s' t k := by
  obtain ⟨⟨e, hk, he, hterm⟩, quorum, hquorum, hacks⟩ := hcommit
  refine ⟨⟨e, hk, ?_, hterm⟩, quorum, hquorum, fun v hv => h.ack v t k (hacks v hv)⟩
  obtain ⟨rest, hrest⟩ := h.leaderLog t hlead
  rw [← hrest, List.getElem?_append_left (List.getElem?_eq_some_iff.mp he).1, he]

theorem castVote_extends (s : Replicas N E) (v c : N) (lt li : Nat) :
    Extends s (s.castVote v c lt li) :=
  { Extends.refl s with vote := fun _ _ _ _ _ h => .inl h }

theorem acknowledge_extends (s : Replicas N E) (v : N) (k : Nat) : Extends s (s.acknowledge v k) :=
  { Extends.refl s with ack := fun _ _ _ h => .inl h }

theorem elect_extends (hnone : s.leader (s.term c) = none) : Extends s (s.elect c quorum) :=
  have hne : ∀ t, s.leader t ≠ none → t ≠ s.term c := by
    rintro t hl rfl
    exact hl hnone
  { Extends.refl s with
    leader := fun t l hl => by
      simpa [elect, update_of_ne (hne t (by simp [hl]))] using hl
    startLog := fun t hl => by simp [elect, update_of_ne (hne t hl)]
    leaderLog := fun t hl => by simp [elect, update_of_ne (hne t hl)] }

section

variable [DecidableEq N]

theorem advance_extends (hlt : s.term v < t) : Extends s (s.advance v t) :=
  { Extends.refl s with
    term := fun w => by
      by_cases hw : w = v
      · subst hw
        simpa [advance] using hlt.le
      · simp [advance, update_of_ne hw] }

theorem accept_extends (s : Replicas N E) (v : N) (log : List E) : Extends s (s.accept v log) :=
  { Extends.refl s with }

theorem append_extends (hlog : s.log c = s.leaderLog (s.term c)) : Extends s (s.append c e) :=
  { Extends.refl s with
    leaderLog := fun t _ => by
      by_cases ht : t = s.term c
      · subst ht
        simp [append, hlog]
      · simp [append, update_of_ne ht]
    ack := fun _ _ _ h => .inl h }

end

/-! ## One replica at a time -/

/-- A later record in which only one replica has acted. -/
structure ActedBy (v : N) (s s' : Replicas N E) : Prop where
  ext : Extends s s'
  term : ∀ u, u ≠ v → s'.term u = s.term u
  log : ∀ u, u ≠ v → s'.log u = s.log u
  vote : ∀ u t c lt li, u ≠ v → s'.vote u t c lt li → s.vote u t c lt li
  ack : ∀ u t k, u ≠ v → s'.ack u t k → s.ack u t k
  leader : ∀ u t, u ≠ v → s'.leader t = some u → s.leader t = some u
  leaderLog : ∀ u t, u ≠ v → s.leader t = some u → s'.leaderLog t = s.leaderLog t

theorem ActedBy.refl (v : N) (s : Replicas N E) : ActedBy v s s :=
  ⟨Extends.refl s, fun _ _ => rfl, fun _ _ => rfl, fun _ _ _ _ _ _ h => h, fun _ _ _ _ h => h,
    fun _ _ _ h => h, fun _ _ _ _ => rfl⟩

theorem ActedBy.trans (h : ActedBy v s s') (h' : ActedBy v s' s'') : ActedBy v s s'' where
  ext := h.ext.trans h'.ext
  term u hu := (h'.term u hu).trans (h.term u hu)
  log u hu := (h'.log u hu).trans (h.log u hu)
  vote u t c lt li hu hvote := h.vote u t c lt li hu (h'.vote u t c lt li hu hvote)
  ack u t k hu hack := h.ack u t k hu (h'.ack u t k hu hack)
  leader u t hu hl := h.leader u t hu (h'.leader u t hu hl)
  leaderLog u t hu hl := (h'.leaderLog u t hu (h.ext.leader t u hl)).trans (h.leaderLog u t hu hl)

theorem castVote_actedBy (s : Replicas N E) (v c : N) (lt li : Nat) :
    ActedBy v s (s.castVote v c lt li) :=
  { ActedBy.refl v s with
    ext := castVote_extends s v c lt li
    vote := by
      rintro u t c' lt' li' hu (h | ⟨rfl, _⟩)
      · exact h
      · exact absurd rfl hu }

theorem acknowledge_actedBy (s : Replicas N E) (v : N) (k : Nat) :
    ActedBy v s (s.acknowledge v k) :=
  { ActedBy.refl v s with
    ext := acknowledge_extends s v k
    ack := by
      rintro u t k' hu (h | ⟨rfl, _⟩)
      · exact h
      · exact absurd rfl hu }

theorem elect_actedBy (hnone : s.leader (s.term c) = none) : ActedBy c s (s.elect c quorum) :=
  { ActedBy.refl c s with
    ext := elect_extends hnone
    leader := by
      intro u t hu hl
      by_cases ht : t = s.term c
      · subst ht
        rw [elect_leader_self] at hl
        exact absurd (Option.some.inj hl).symm hu
      · rwa [(elect_of_ne s c quorum ht).1] at hl
    leaderLog := by
      intro u t hu hl
      refine (elect_of_ne s c quorum ?_).2.2.2
      rintro rfl
      simp [hnone] at hl }

variable [DecidableEq N]

theorem advance_actedBy (hlt : s.term v < t) : ActedBy v s (s.advance v t) :=
  { ActedBy.refl v s with
    ext := advance_extends hlt
    term := fun _ hu => advance_term_of_ne s t hu }

theorem accept_actedBy (s : Replicas N E) (v : N) (log : List E) : ActedBy v s (s.accept v log) :=
  { ActedBy.refl v s with
    ext := accept_extends s v log
    log := fun _ hu => accept_log_of_ne s log hu }

theorem append_actedBy (hl : s.leader (s.term c) = some c)
    (hlog : s.log c = s.leaderLog (s.term c)) : ActedBy c s (s.append c e) :=
  { ActedBy.refl c s with
    ext := append_extends hlog
    log := fun _ hu => append_log_of_ne s e hu
    ack := by
      rintro u t k hu (h | ⟨rfl, _⟩)
      · exact h
      · exact absurd rfl hu
    leaderLog := by
      intro u t hu hu'
      refine append_leaderLog_of_ne s c e ?_
      rintro rfl
      exact hu (Option.some.inj (hu'.symm.trans hl)) }

end Replicas

end BoostGateway.Consensus
