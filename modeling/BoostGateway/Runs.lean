import Mathlib.Data.List.Basic

/-!
# Conditions along a run

`Always` says something of every state of a run, and `Along` of every input together with the state
that it meets. A condition carries a property through a run if every input that meets it keeps an
invariant (`Along.of_invariant`), and is exact if the invariant makes the two equivalent
(`along_congr`).
-/

namespace BoostGateway

open List

variable {σ ι : Type*} {step : σ → ι → σ} {Inv : σ → Prop} {P Q : σ → ι → Prop} {s : σ}
  {inputs : List ι}

/-- The property holds of every state of the run. -/
def Always (step : σ → ι → σ) (P : σ → Prop) (s : σ) (inputs : List ι) : Prop :=
  ∀ before after, inputs = before ++ after → P (before.foldl step s)

/-- The property holds of every input and the state it meets. -/
def Along (step : σ → ι → σ) (P : σ → ι → Prop) (s : σ) (inputs : List ι) : Prop :=
  ∀ before input after, inputs = before ++ input :: after → P (before.foldl step s) input

theorem along_nil : Along step P s [] := by
  intro before input after h
  cases before <;> cases h

theorem along_cons {input : ι} :
    Along step P s (input :: inputs) ↔ P s input ∧ Along step P (step s input) inputs := by
  constructor
  · intro h
    exact ⟨h [] input inputs rfl,
      fun before next after hnext => h (input :: before) next after (by rw [hnext]; rfl)⟩
  · rintro ⟨hfirst, hrest⟩ before next after h
    cases before with
    | nil =>
      cases h
      exact hfirst
    | cons first before =>
      obtain ⟨rfl, hinputs⟩ := List.cons.inj h
      exact hrest before next after hinputs

instance decidableAlong [∀ s input, Decidable (P s input)] :
    ∀ s inputs, Decidable (Along step P s inputs)
  | _, [] => isTrue along_nil
  | s, input :: inputs =>
    have := decidableAlong (step s input) inputs
    decidable_of_iff' _ along_cons

theorem always_iff_along {P : σ → Prop} :
    Always step P s inputs ↔ P s ∧ Along step (fun s input => P (step s input)) s inputs := by
  constructor
  · intro h
    refine ⟨h [] inputs rfl, fun before input after hinputs => ?_⟩
    have hst := h (before ++ [input]) after (by rw [hinputs]; simp)
    rwa [foldl_append] at hst
  · rintro ⟨hfirst, hrest⟩ before after hinputs
    rcases eq_nil_or_concat before with rfl | ⟨earlier, last, rfl⟩
    · exact hfirst
    · rw [concat_eq_append, foldl_append]
      exact hrest earlier last after (by rw [hinputs]; simp)

theorem Along.of_invariant (hQ : Along step Q s inputs)
    (hstep : ∀ s input, Inv s → Q s input → Inv (step s input) ∧ P s input) (h : Inv s) :
    Along step P s inputs := by
  induction inputs generalizing s with
  | nil => exact along_nil
  | cons input inputs ih =>
    obtain ⟨hfirst, hrest⟩ := along_cons.mp hQ
    obtain ⟨hnext, hproperty⟩ := hstep s input h hfirst
    exact along_cons.mpr ⟨hproperty, ih hrest hnext⟩

theorem Along.always {P : σ → Prop} (hQ : Along step Q s inputs)
    (hstep : ∀ s input, Inv s → Q s input → Inv (step s input)) (hP : ∀ s, Inv s → P s)
    (h : Inv s) : Always step P s inputs := by
  refine always_iff_along.mpr ⟨hP s h, hQ.of_invariant (fun s input hs hq => ?_) h⟩
  exact ⟨hstep s input hs hq, hP _ (hstep s input hs hq)⟩

theorem Always.of_invariant {P : σ → Prop} (hstep : ∀ s input, Inv s → Inv (step s input))
    (hP : ∀ s, Inv s → P s) (h : Inv s) : Always step P s inputs := by
  have hinputs : Along step (fun _ _ => True) s inputs := fun _ _ _ _ => trivial
  exact hinputs.always (fun s input hs _ => hstep s input hs) hP h

theorem along_congr (hiff : ∀ s input, Inv s → (P s input ↔ Q s input))
    (hstep : ∀ s input, Inv s → P s input → Inv (step s input)) (h : Inv s) :
    Along step P s inputs ↔ Along step Q s inputs := by
  constructor
  · intro hP
    exact hP.of_invariant (fun s input hs hp => ⟨hstep s input hs hp, (hiff s input hs).mp hp⟩) h
  · intro hQ
    refine hQ.of_invariant (fun s input hs hq => ?_) h
    have hp := (hiff s input hs).mpr hq
    exact ⟨hstep s input hs hp, hp⟩

end BoostGateway
