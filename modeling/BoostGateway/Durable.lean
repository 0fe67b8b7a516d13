import Mathlib.Data.List.AList

/-!
# Programs over files

A program changes a map from names to contents by atomic writes. An interrupted run leaves one of
the maps it went through, and a program is `Resumable` if started again on any of them it comes to
the same end.
-/

namespace BoostGateway.Durable

open List

abbrev Files (κ υ : Type) := AList fun _ : κ => υ

structure Result (κ υ ε α : Type) where
  outcome : Except ε α
  files : Files κ υ
  /-- The files before each write. -/
  past : List (Files κ υ)

def Program (κ υ ε α : Type) := Files κ υ → Result κ υ ε α

namespace Program

variable {κ υ ε α β : Type}

instance : Monad (Program κ υ ε) where
  pure a := fun files => ⟨.ok a, files, []⟩
  bind program next := fun files =>
    match program files with
    | ⟨.ok a, files, past⟩ =>
      let result := next a files
      { result with past := past ++ result.past }
    | ⟨.error error, files, past⟩ => ⟨.error error, files, past⟩

def query (read : Files κ υ → Except ε α) : Program κ υ ε α := fun files => ⟨read files, files, []⟩

section Writes

variable [DecidableEq κ]

def put (name : κ) (content : υ) : Program κ υ ε Unit :=
  fun files => ⟨.ok (), files.insert name content, [files]⟩

def create (name : κ) (content : υ) : Program κ υ ε Bool := fun files =>
    if name ∈ files then ⟨.ok false, files, []⟩
    else ⟨.ok true, files.insert name content, [files]⟩

end Writes

/-- The program succeeds, with its final and earlier files. -/
def Leads (program : Program κ υ ε α) (files : Files κ υ) (a : α) (after : Files κ υ)
    (past : List (Files κ υ)) : Prop :=
  program files = ⟨.ok a, after, past⟩

def Raises (program : Program κ υ ε α) (files : Files κ υ) (error : ε) : Prop :=
  (program files).outcome = .error error

def leaves (program : Program κ υ ε α) (files : Files κ υ) : Files κ υ := (program files).files

variable {program : Program κ υ ε α} {files : Files κ υ}

theorem exists_leads (h : (program files).outcome.isOk = true) :
    ∃ a, Leads program files a (leaves program files) (program files).past := by
  unfold Leads leaves
  generalize program files = result at h ⊢
  obtain ⟨outcome, after, past⟩ := result
  cases outcome with
  | error => cases h
  | ok a => exact ⟨a, rfl⟩

def fails (property : ε → Bool) (program : Program κ υ ε α) (files : Files κ υ) : Bool :=
  match (program files).outcome with
  | .error error => property error
  | .ok _ => false

theorem exists_raises {property : ε → Bool} (h : fails property program files = true) :
    ∃ error, Raises program files error ∧ property error = true := by
  unfold fails at h
  unfold Raises
  cases houtcome : (program files).outcome with
  | ok =>
    rw [houtcome] at h
    cases h
  | error error =>
    rw [houtcome] at h
    exact ⟨error, rfl, h⟩

section Rules

variable {program : Program κ υ ε α} {next : α → Program κ υ ε β} {files after : Files κ υ}
  {a : α} {b : β} {past : List (Files κ υ)}

theorem bind_leads_iff : Leads (program >>= next) files b after past ↔
    ∃ a mid past₁ past₂, Leads program files a mid past₁ ∧
      Leads (next a) mid b after past₂ ∧ past = past₁ ++ past₂ := by
  unfold Leads
  dsimp only [bind]
  generalize program files = result
  obtain ⟨outcome, mid, past₁⟩ := result
  cases outcome with
  | error => simp
  | ok a =>
    dsimp only
    constructor
    · intro h
      obtain ⟨houtcome, hfiles, rfl⟩ := Result.mk.inj h
      refine ⟨a, mid, past₁, (next a mid).past, rfl, ?_, rfl⟩
      rw [← houtcome, ← hfiles]
    · rintro ⟨a', middle', past₁', past₂, hprog, hnext, rfl⟩
      cases hprog
      rw [hnext]

variable {a' : α}

theorem pure_leads_iff : Leads (pure a : Program κ υ ε α) files a' after past ↔
    a' = a ∧ after = files ∧ past = [] := by simp [Leads, pure, eq_comm]

theorem pure_leads : Leads (pure a : Program κ υ ε α) files a files [] := rfl

theorem Leads.map (res : α → β) (h : Leads program files a after past) :
    Leads (program >>= fun a => pure (res a)) files (res a) after past :=
  bind_leads_iff.mpr ⟨_, _, _, [], h, pure_leads, (append_nil past).symm⟩

theorem pure_leads_past (h : Leads (pure a : Program κ υ ε α) files a' after past)
    {mid : Files κ υ} : mid ∉ past := by
  obtain ⟨_, _, rfl⟩ := pure_leads_iff.mp h
  exact not_mem_nil

variable {read : Files κ υ → Except ε α} {name : κ} {content : υ}

theorem query_leads_iff :
    Leads (query read) files a after past ↔ read files = .ok a ∧ after = files ∧ past = [] := by
  simp [Leads, query, eq_comm]

theorem query_bind_leads_iff : Leads (query read >>= next) files b after past ↔
      ∃ a, read files = .ok a ∧ Leads (next a) files b after past := by
  simp only [bind_leads_iff, query_leads_iff]
  constructor
  · rintro ⟨a, _, _, past₂, ⟨ha, rfl, rfl⟩, hnext, rfl⟩
    exact ⟨a, ha, hnext⟩
  · rintro ⟨a, ha, hnext⟩
    exact ⟨a, files, [], past, ⟨ha, rfl, rfl⟩, hnext, rfl⟩

theorem put_leads_iff [DecidableEq κ] {u : Unit} :
    Leads (put name content : Program κ υ ε Unit) files u after past ↔
      after = files.insert name content ∧ past = [files] := by simp [Leads, put, eq_comm]

theorem create_leads_iff [DecidableEq κ] {created : Bool} (hnew : name ∉ files) :
    Leads (create name content : Program κ υ ε Bool) files created after past ↔
      created = true ∧ after = files.insert name content ∧ past = [files] := by
  simp [Leads, create, hnew, eq_comm]

theorem create_bind_leads_iff [DecidableEq κ] {rest : Bool → Program κ υ ε β}
    (hnew : name ∉ files) :
    Leads (create name content >>= rest) files b after past ↔
      ∃ past', Leads (rest true) (files.insert name content) b after past' ∧
        past = files :: past' := by
  simp only [bind_leads_iff, create_leads_iff hnew]
  constructor
  · rintro ⟨_, _, _, past', ⟨rfl, rfl, rfl⟩, hrest, rfl⟩
    exact ⟨past', hrest, rfl⟩
  · rintro ⟨past', hrest, rfl⟩
    exact ⟨true, _, [files], past', ⟨rfl, rfl, rfl⟩, hrest, rfl⟩

/-! ## Failing -/

section Failing

variable {error : ε}

theorem leads_or_raises (program : Program κ υ ε α) (files : Files κ υ) :
    (∃ a after past, Leads program files a after past) ∨ ∃ error, Raises program files error := by
  unfold Leads Raises
  generalize program files = result
  obtain ⟨outcome, after, past⟩ := result
  cases outcome with
  | error error => exact .inr ⟨error, rfl⟩
  | ok a => exact .inl ⟨a, after, past, rfl⟩

theorem bind_raises_iff : Raises (program >>= next) files error ↔ Raises program files error ∨
    ∃ a mid past, Leads program files a mid past ∧ Raises (next a) mid error := by
  unfold Raises Leads
  dsimp only [bind]
  generalize program files = result
  obtain ⟨outcome, mid, past⟩ := result
  cases outcome with
  | error => simp
  | ok a =>
    constructor
    · exact fun h => .inr ⟨a, mid, past, rfl, h⟩
    · rintro (h | ⟨_, _, _, hprog, h⟩)
      · cases h
      · cases hprog
        exact h

theorem not_raises_pure : ¬ Raises (pure a : Program κ υ ε α) files error := nofun

variable {read : Files κ υ → Except ε α} {name : κ} {content : υ}

theorem query_raises_iff : Raises (query read) files error ↔ read files = .error error := Iff.rfl

theorem query_bind_raises_iff :
    Raises (query read >>= next) files error ↔ read files = .error error ∨
      ∃ a, read files = .ok a ∧ Raises (next a) files error := by
  rw [bind_raises_iff, query_raises_iff]
  constructor
  · rintro (h | ⟨a, _, _, hread, h⟩)
    · exact .inl h
    · obtain ⟨ha, rfl, rfl⟩ := query_leads_iff.mp hread
      exact .inr ⟨a, ha, h⟩
  · rintro (h | ⟨a, ha, h⟩)
    · exact .inl h
    · exact .inr ⟨a, files, [], query_leads_iff.mpr ⟨ha, rfl, rfl⟩, h⟩

theorem not_raises_put [DecidableEq κ] : ¬ Raises (put name content) files error := nofun

theorem not_raises_create [DecidableEq κ] : ¬ Raises (create name content) files error := by
  unfold Raises create
  split <;> exact nofun

end Failing

/-- A program started again after an interruption ends the same. -/
def Resumable (program : Program κ υ ε α) (files : Files κ υ) : Prop :=
  ∀ a after past, Leads program files a after past → ∀ middle ∈ past,
    ∃ past', Leads program middle a after past'

def Settles (program : Program κ υ ε α) (files : Files κ υ) : Prop :=
  ∀ a after past, Leads program files a after past → Leads program after a after []

theorem resumable_pure : Resumable (pure a : Program κ υ ε α) files :=
  fun _ _ _ hleads _ hmid => absurd hmid (pure_leads_past hleads)

theorem Resumable.query_bind
    (h : ∀ a, read files = .ok a → Resumable (next a) files ∧ ∀ b after past,
      Leads (next a) files b after past → ∀ mid ∈ past, read mid = .ok a) :
    Resumable (query read >>= next) files := by
  intro b after past hleads mid hmid
  obtain ⟨a, ha, hnext⟩ := query_bind_leads_iff.mp hleads
  obtain ⟨hresumable, hread⟩ := h a ha
  obtain ⟨past', hagain⟩ := hresumable b after past hnext mid hmid
  exact ⟨past', query_bind_leads_iff.mpr ⟨a, hread b after past hnext mid hmid, hagain⟩⟩

theorem Resumable.bind_put [DecidableEq κ] {res : α → β} (h : Resumable program files)
    (hset : Settles program files) :
    Resumable (program >>= fun a => put name content >>= fun _ => pure (res a)) files := by
  intro b after past hleads mid hmid
  obtain ⟨a, written, past₁, past₂, hprog, hrest, rfl⟩ := bind_leads_iff.mp hleads
  obtain ⟨_, _, _, _, hput, hpure, rfl⟩ := bind_leads_iff.mp hrest
  obtain ⟨rfl, rfl⟩ := put_leads_iff.mp hput
  obtain ⟨rfl, rfl, rfl⟩ := pure_leads_iff.mp hpure
  obtain ⟨past', hagain⟩ : ∃ past', Leads program mid a written past' := by
    rcases mem_append.mp hmid with hmid | hmid
    · exact h a written past₁ hprog mid hmid
    · obtain rfl := mem_singleton.mp hmid
      exact ⟨[], hset a _ past₁ hprog⟩
  exact ⟨_, bind_leads_iff.mpr ⟨a, written, past', _, hagain, hrest, rfl⟩⟩

end Rules

end Program

end BoostGateway.Durable
