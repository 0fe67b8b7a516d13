import Mathlib.Data.Finset.Card
import Mathlib.Data.List.Sort

/-!
# Majorities and ranked elements

Two quorums share a member (`IsQuorum.exists_common`). `ranked xs q` is the `q`-th largest element
of `xs`, which a leader takes for the index that a quorum has reached; `le_ranked_iff` characterizes
it by counting.
-/

namespace BoostGateway.Consensus

open List

def IsQuorum {N : Type*} (members quorum : Finset N) : Prop :=
  quorum ⊆ members ∧ members.card / 2 + 1 ≤ quorum.card

theorem IsQuorum.exists_common {N : Type*} [DecidableEq N] {members left right : Finset N}
    (hleft : IsQuorum members left) (hright : IsQuorum members right) :
    ∃ v, v ∈ left ∧ v ∈ right := by
  have hcard : members.card < left.card + right.card := by
    have := hleft.2
    have := hright.2
    omega
  obtain ⟨v, hv⟩ := Finset.inter_nonempty_of_card_lt_card_add_card hleft.1 hright.1 hcard
  exact ⟨v, Finset.mem_of_mem_inter_left hv, Finset.mem_of_mem_inter_right hv⟩

theorem IsQuorum.nonempty {N : Type*} {members quo : Finset N}
    (h : IsQuorum members quo) : quo.Nonempty := by
  refine Finset.card_pos.mp ?_
  have := h.2
  omega

def ranked (xs : List Nat) (q : Nat) : Nat := (xs.insertionSort (· ≤ ·)).getD (xs.length - q) 0

/-- In an ascending list the large elements come last. -/
theorem countP_le_of_pairwise {xs : List Nat} (hsort : xs.Pairwise (· ≤ ·)) {bound i : Nat}
    (hi : i < xs.length) :
    bound ≤ xs[i] ↔ xs.length - i ≤ xs.countP (fun x => decide (bound ≤ x)) := by
  have hsplit : xs.countP (fun x => decide (bound ≤ x)) =
      (xs.take i).countP (fun x => decide (bound ≤ x)) +
        (xs.drop i).countP (fun x => decide (bound ≤ x)) := by
    rw [← countP_append, take_append_drop]
  constructor
  · intro hbound
    -- every element from position `i` on is at least the element at `i`
    have hall : (xs.drop i).countP (fun x => decide (bound ≤ x)) = (xs.drop i).length := by
      rw [countP_eq_length]
      intro x hx
      obtain ⟨j, hj, rfl⟩ := mem_iff_getElem.mp hx
      have hij : i + j < xs.length := by
        rw [length_drop] at hj
        omega
      have hle : xs[i] ≤ xs[i + j] := by
        rcases Nat.eq_zero_or_pos j with rfl | hpos
        · simp
        · exact pairwise_iff_getElem.mp hsort _ _ _ _ (by omega)
      simpa using hbound.trans hle
    rw [hsplit, hall, length_drop]
    omega
  · by_contra hlt
    -- otherwise neither the element at `i` nor any earlier one reaches the bound
    have hnone : (xs.take (i + 1)).countP (fun x => decide (bound ≤ x)) = 0 := by
      rw [countP_eq_zero]
      intro x hx
      obtain ⟨j, hj, rfl⟩ := mem_iff_getElem.mp hx
      rw [getElem_take]
      have hji : j ≤ i := by
        rw [length_take] at hj
        omega
      have hle : xs[j] ≤ xs[i] := by
        rcases Nat.eq_or_lt_of_le hji with rfl | hlt'
        · exact le_rfl
        · exact pairwise_iff_getElem.mp hsort _ _ _ _ hlt'
      simp only [decide_eq_true_eq]
      omega
    have hrest : (xs.drop (i + 1)).countP (fun x => decide (bound ≤ x)) ≤
        (xs.drop (i + 1)).length := countP_le_length
    have hsplit' : xs.countP (fun x => decide (bound ≤ x)) =
        (xs.take (i + 1)).countP (fun x => decide (bound ≤ x)) +
          (xs.drop (i + 1)).countP (fun x => decide (bound ≤ x)) := by
      rw [← countP_append, take_append_drop]
    rw [length_drop] at hrest
    omega

/-- The `q`-th largest reaches a bound if `q` elements do. -/
theorem le_ranked_iff {xs : List Nat} {q bound : Nat} (hpos : 1 ≤ q) (hq : q ≤ xs.length) :
    bound ≤ ranked xs q ↔ q ≤ xs.countP (fun x => decide (bound ≤ x)) := by
  have hlen : (xs.insertionSort (· ≤ ·)).length = xs.length := length_insertionSort _ _
  have hi : xs.length - q < (xs.insertionSort (· ≤ ·)).length := by omega
  have hsort : (xs.insertionSort (· ≤ ·)).Pairwise (· ≤ ·) := pairwise_insertionSort (· ≤ ·) xs
  have hperm : (xs.insertionSort (· ≤ ·)).countP (fun x => decide (bound ≤ x)) =
      xs.countP (fun x => decide (bound ≤ x)) :=
    (perm_insertionSort (· ≤ ·) xs).countP_eq _
  have hget : ranked xs q = (xs.insertionSort (· ≤ ·))[xs.length - q] := by
    simp [ranked, List.getD, List.getElem?_eq_getElem hi]
  rw [hget, countP_le_of_pairwise hsort hi, hperm, hlen]
  omega

end BoostGateway.Consensus
