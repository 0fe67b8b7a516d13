import Mathlib.Data.List.Basic

/-!
# Entrywise relations between versions of a table

`Entrywise R xs ys` says that two tables have the same length and that `R i` relates the rows at
every place `i`. Passes over a table compose by `Entrywise.comp`, and what every pass preserves of a
row a sequence of passes does (`Entrywise.foldl`).
-/

namespace BoostGateway

variable {α β : Type*} {R S T : Nat → α → α → Prop} {xs ys zs : List α}

structure Entrywise (R : Nat → α → α → Prop) (xs ys : List α) : Prop where
  length_eq : xs.length = ys.length
  rel : ∀ i x y, xs[i]? = some x → ys[i]? = some y → R i x y

namespace Entrywise

theorem exists_left (h : Entrywise R xs ys) {i : Nat} {y : α} (hy : ys[i]? = some y) :
    ∃ x, xs[i]? = some x ∧ R i x y := by
  obtain ⟨hi, -⟩ := List.getElem?_eq_some_iff.mp hy
  have hx : xs[i]? = some (xs.get ⟨i, h.length_eq ▸ hi⟩) := List.getElem?_eq_getElem _
  exact ⟨_, hx, h.rel i _ y hx hy⟩

theorem exists_right (h : Entrywise R xs ys) {i : Nat} {x : α} (hx : xs[i]? = some x) :
    ∃ y, ys[i]? = some y ∧ R i x y := by
  obtain ⟨hi, -⟩ := List.getElem?_eq_some_iff.mp hx
  have hy : ys[i]? = some (ys.get ⟨i, h.length_eq ▸ hi⟩) := List.getElem?_eq_getElem _
  exact ⟨_, hy, h.rel i x _ hx hy⟩

theorem refl (h : ∀ i x, R i x x) (xs : List α) : Entrywise R xs xs := by
  refine ⟨rfl, fun i x y hx hy => ?_⟩
  cases hx.symm.trans hy
  exact h i x

theorem imp (h : Entrywise R xs ys) (hRS : ∀ i x y, R i x y → S i x y) : Entrywise S xs ys :=
  ⟨h.length_eq, fun i x y hx hy => hRS i x y (h.rel i x y hx hy)⟩

theorem comp (h : Entrywise R xs ys) (h' : Entrywise S ys zs)
    (hT : ∀ i x y z, R i x y → S i y z → T i x z) : Entrywise T xs zs := by
  refine ⟨h.length_eq.trans h'.length_eq, fun i x z hx hz => ?_⟩
  obtain ⟨y, hy, hyz⟩ := h'.exists_left hz
  exact hT i x y z (h.rel i x y hx hy) hyz

theorem map (f : α → α) (h : ∀ i x, R i x (f x)) (xs : List α) : Entrywise R xs (xs.map f) := by
  refine ⟨by simp, fun i x y hx hy => ?_⟩
  rw [List.getElem?_map, hx] at hy
  cases hy
  exact h i x

theorem cons {x y : α} (h : R 0 x y) (hs : Entrywise (fun i => R (i + 1)) xs ys) :
    Entrywise R (x :: xs) (y :: ys) := by
  refine ⟨congrArg (· + 1) hs.length_eq, fun i a b ha hb => ?_⟩
  cases i with
  | zero =>
    obtain rfl : x = a := by simpa using ha
    obtain rfl : y = b := by simpa using hb
    exact h
  | succ i => exact hs.rel i a b (by simpa using ha) (by simpa using hb)

theorem modify (f : α → α) (k : Nat) (h : ∀ i x, R i x (if i = k then f x else x))
    (xs : List α) : Entrywise R xs (xs.modify k f) := by
  refine ⟨by simp, fun i x y hx hy => ?_⟩
  rw [List.getElem?_modify, hx] at hy
  have hxy : y = if i = k then f x else x := by
    by_cases hik : i = k
    · simpa [hik] using hy.symm
    · simpa [hik, Ne.symm hik] using hy.symm
  exact hxy ▸ h i x

theorem foldl {step : List α → β → List α} (hrefl : ∀ i x, R i x x)
    (htrans : ∀ i x y z, R i x y → R i y z → R i x z) (hstep : ∀ xs b, Entrywise R xs (step xs b))
    (bs : List β) (xs : List α) : Entrywise R xs (bs.foldl step xs) := by
  induction bs generalizing xs with
  | nil => exact refl hrefl xs
  | cons b bs ih => exact (hstep xs b).comp (ih _) htrans

theorem forall_mem {P : α → Prop} (h : Entrywise R xs ys) (hP : ∀ i x y, R i x y → P x → P y)
    (hxs : ∀ x ∈ xs, P x) : ∀ y ∈ ys, P y := by
  intro y hy
  obtain ⟨i, hi⟩ := List.mem_iff_getElem?.mp hy
  obtain ⟨x, hx, hxy⟩ := h.exists_left hi
  exact hP i x y hxy (hxs x (List.mem_of_getElem? hx))

end Entrywise

end BoostGateway
