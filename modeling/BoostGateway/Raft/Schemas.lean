import BoostGateway.Raft.StoreRuns
import Mathlib.Algebra.GroupWithZero.Nat

/-!
# Changing the schema back and forth

A state that both schemas can hold survives every sequence of `load_or_migrate` and
`downgrade_to_v0`: each transition writes its pair once and finds it from then on
(`schema_migration`).
-/

namespace BoostGateway.Raft

open List Durable Program

/-! ## The length of a record -/

/-- `dump()` writes no more than the compact text. -/
def CompactText (lib : Libraries) : Prop :=
  ∀ document bytes, lib.dump document = .ok bytes → bytes.length ≤ document.text.length

theorem length_escapeByte_le (b : UInt8) : (Json.escapeByte b).length ≤ 6 := by
  have hlengths : (ascii "\\b").length = 2 ∧ (ascii "\\t").length = 2 ∧ (ascii "\\n").length = 2 ∧
      (ascii "\\f").length = 2 ∧ (ascii "\\r").length = 2 ∧ (ascii "\\\"").length = 2 ∧
      (ascii "\\\\").length = 2 ∧ (ascii "\\u00").length = 4 := by decide
  unfold Json.escapeByte
  split_ifs <;> simp [hlengths, hexByte]

theorem length_quote_le (value : Bytes) : (Json.quote value).length ≤ 6 * value.length + 2 := by
  have hflat : (value.flatMap Json.escapeByte).length ≤ 6 * value.length := by
    induction value with
    | nil => simp
    | cons b =>
      have hb := length_escapeByte_le b
      simp only [flatMap_cons, length_append, length_cons]
      omega
  simp only [Json.quote, length_append, length_singleton]
  omega

theorem length_decimal_le {n : Nat} (h : n < 2 ^ 64) : (decimal n).length ≤ 20 := by
  rw [decimal, length_map, Nat.length_toDigits_le_iff (by decide) (by decide)]
  omega

theorem length_textFields_le (fields : List (String × Json)) : (Json.textFields fields).length ≤
      (fields.map fun field => 6 * (ascii field.1).length + 4 + field.2.text.length).sum := by
  induction fields with
  | nil => simp [Json.textFields]
  | cons field rest ih =>
    obtain ⟨key, value⟩ := field
    have hkey := length_quote_le (ascii key)
    cases rest with
    | nil =>
      simp only [Json.textFields, length_append, length_singleton, map_cons,
        map_nil, sum_cons, sum_nil]
      omega
    | cons =>
      simp only [Json.textFields, length_append, length_singleton, map_cons, sum_cons] at ih ⊢
      omega

section Records

variable {lib : Libraries} {store : RaftStateStore} {t : Transition} {source target bytes : Bytes}
  {generation : Nat} {error : StoreException}

theorem length_recordDocument_le {nodeId : NodeId} {srcSum tgtSum : Bytes}
    (hsrc : srcSum.length = 64) (htarget : tgtSum.length = 64) (hgen : generation < 2 ^ 64) :
    (recordDocument t nodeId srcSum tgtSum generation).text.length ≤ 6 * nodeId.length + 2048 := by
  have hnodeId := length_quote_le nodeId
  have hsourceText := length_quote_le srcSum
  have htargetText := length_quote_le tgtSum
  have hnum := length_decimal_le hgen
  have hdigit : (decimal 0).length = 1 ∧ (decimal 1).length = 1 ∧ (decimal 2).length = 1 := by
    decide
  have hkeys : (ascii "migration_version").length = 17 ∧ (ascii "downgrade_version").length = 17 ∧
      (ascii "generation").length = 10 ∧ (ascii "from_schema_version").length = 19 ∧
      (ascii "node_id").length = 7 ∧ (ascii "source_sha256").length = 13 ∧
      (ascii "target_sha256").length = 13 ∧ (ascii "to_schema_version").length = 17 := by decide
  have hfields := length_textFields_le (sortedRecord t nodeId srcSum tgtSum generation)
  rw [recordDocument_eq]
  simp only [Json.text, length_append, length_singleton]
  refine Nat.le_trans (Nat.add_le_add_right (Nat.add_le_add_left hfields 1) 1) ?_
  cases t <;> by_cases hzero : generation = 0 <;>
    simp [sortedRecord, hzero, Transition.definition, Json.text, hdigit, hkeys] <;> omega

theorem utf8_recordDocument {nodeId : NodeId} {srcSum tgtSum : Bytes}
    (hnodeId : utf8Valid nodeId = true) (hsrc : utf8Valid srcSum = true)
    (htarget : utf8Valid tgtSum = true) :
    (recordDocument t nodeId srcSum tgtSum generation).utf8 = true := by
  have hfields : ∀ field ∈ recordFields t nodeId srcSum tgtSum generation,
      field.2.utf8 = true := by simp [recordFields, Json.utf8, hnodeId, hsrc, htarget]
  dsimp only [recordDocument]
  split
  · exact Json.utf8_set (Json.utf8_ofFields hfields) rfl
  · exact Json.utf8_ofFields hfields

/-- The record can be written for reasonable node ids. -/
theorem not_recordFails (hlib : lib.Lawful) (htext : CompactText lib)
    (hlim : store.limits.maxNodeIdBytes ≤ 2048) (hnodeId : utf8Valid store.nodeId = true) :
    ¬ RecordFails lib store t source target error := by
  intro h
  cases h with
  | unprintable hdump =>
    obtain ⟨bytes, hbytes⟩ := (hlib.dump_ok_iff _).mpr
      (utf8_recordDocument hnodeId (utf8Valid_hex _) (utf8Valid_hex _))
    cases hdump.symm.trans hbytes
  | oversized hrec hgen hlen =>
    have hid : store.nodeId.length ≤ store.limits.maxNodeIdBytes := by
      obtain ⟨_, hopaque, _⟩ := bind_ok_iff.mp (store.validNodeId [])
      simp only [validateOpaqueNodeId, isOpaqueNodeId, check_ok_iff, Bool.not_eq_false',
        Bool.and_eq_true, decide_eq_true_eq] at hopaque
      exact hopaque.1.2
    have hle := (htext _ _ hrec).trans (length_recordDocument_le
      (length_checksumOf hlib _) (length_checksumOf hlib _) hgen)
    unfold maxMigrationRecordBytes at hlen
    omega

end Records

/-! ## Calls -/

inductive Call where
  | loadOrMigrate
  | downgradeToV0

section Calls

variable (lib : Libraries) (store : RaftStateStore)

def Call.run : Call → Store (Option RaftPersistentState)
  | .loadOrMigrate => do
    let result ← Raft.loadOrMigrate lib store
    pure (result.map RaftStateLoadResult.state)
  | .downgradeToV0 => do
    let result ← Raft.downgradeToV0 lib store
    pure (some result.state)

/-- The states that one call after another returns. -/
def runCalls : List Call → Store (List (Option RaftPersistentState))
  | [] => pure []
  | call :: calls => do
    let state ← call.run lib store
    let states ← runCalls calls
    pure (state :: states)

end Calls

/-- A valid state whose texts are within the limit. -/
structure Storable (lib : Libraries) (store : RaftStateStore) (state : RaftPersistentState)
    (current legacy : Bytes) : Prop where
  inRange : state.InRange
  valid : validateState state store.limits store.statePath = .ok ()
  currentText : stateText lib state store.nodeId = .ok current
  currentFits : current.length ≤ store.limits.maxStateBytes
  legacyText : lib.dump (legacyDocument state) = .ok legacy
  legacyFits : legacy.length ≤ store.limits.maxStateBytes

/-- There is room for a transition, or at most one pair more. -/
def Grown (lib : Libraries) (store : RaftStateStore) (t : Transition) (source target : Bytes)
    (count : Nat) (files : Directory) : Prop :=
  ∃ artifacts, Records lib store t files artifacts ∧
    (artifacts.length = count ∧ count < store.limits.maxTransitionHistory ∨ (∃ artifact ∈ artifacts,
        artifact.describes (checksumOf lib source) (checksumOf lib target) = true) ∧
      artifacts.length ≤ count + 1)

section Cycles

variable {lib : Libraries} {store : RaftStateStore} {t t' : Transition}
  {files middle after : Directory} {source target current legacy : Bytes}
  {state : RaftPersistentState} {strings : List Bytes} {count : Nat}

theorem Storable.saved (hlib : lib.Lawful) (h : Storable lib store state current legacy) :
    Saved lib store state current :=
  ⟨h.inRange, (encodeV1_ok_iff hlib).mpr
    ⟨validateState_ok_iff.mp h.valid, h.currentText, h.currentFits⟩⟩

theorem Storable.encodeV0 (h : Storable lib store state current legacy) :
    encodeV0 lib state store.limits store.statePath = .ok legacy := by
  refine bind_ok (a := ()) (raised_ok_iff.mpr h.valid) ?_
  refine bind_ok (dumpJson_ok_iff.mpr h.legacyText) ?_
  refine bind_ok (a := ()) ?_ rfl
  simpa using h.legacyFits

theorem Storable.nodeId (hlib : lib.Lawful) (h : Storable lib store state current legacy) :
    utf8Valid store.nodeId = true :=
  ((exists_stateText_iff hlib).mp ⟨current, h.currentText⟩).1

/-- A recorded or possible transition is recorded then. -/
theorem Grown.keep (hlib : lib.Lawful) (hlen : source.length ≤ store.limits.maxStateBytes)
    (hfits : ∀ error, ¬ RecordFails lib store t source target error)
    (hclash : ∀ arts, Records lib store t files arts → Unclashing lib store t source target arts)
    (h : Grown lib store t source target count files) :
    ∃ art after past, PairKept lib store t source target files art after past ∧
      ∃ arts, Records lib store t after arts ∧ art ∈ arts ∧
        art.describes (checksumOf lib source) (checksumOf lib target) = true ∧
        arts.length ≤ count + 1 := by
  obtain ⟨arts, hrecs, ⟨rfl, hroom⟩ | ⟨⟨found, hfind, hdesc⟩, hcount⟩⟩ := h
  · rcases leads_or_raises (writeTransitionArtifacts lib store t source target) files with
      ⟨art, after, past, hleads⟩ | ⟨error, hraises⟩
    · have hkept := (writeTransitionArtifacts_leads_iff hlib hlen).mp hleads
      obtain ⟨artifacts', hrecs', hadded⟩ := hkept.records hrecs hlib hlen
      exact ⟨art, after, past, hkept, artifacts', hrecs', hadded.mem, hadded.describes,
        hadded.length⟩
    · rcases writeTransitionArtifacts_raises hrecs hlib hlen (hclash _ hrecs) hraises with
        hfull | hfails
      · omega
      · exact absurd hfails (hfits error)
  · have hbak : store.fixedBackup t ∈ files := by
      by_contra hfixed
      rw [(hrecs.eq_nil hfixed).1] at hfind
      cases hfind
    obtain ⟨art, hartifact⟩ :=
      Option.isSome_iff_exists.mp (List.find?_isSome.mpr ⟨found, hfind, hdesc⟩)
    exact ⟨art, files, [], .known hbak (hrecs.fixed_iff.mp hbak) (hrecs.validate _) hartifact,
      arts, hrecs, mem_of_find?_eq_some hartifact, List.find?_some hartifact, hcount⟩

theorem Grown.foreign (h : Grown lib store t source target count files) (hne : t ≠ t')
    (hext : Extends store t' files middle) : Grown lib store t source target count middle := by
  obtain ⟨artifacts, hrecs, hcase⟩ := h
  exact ⟨artifacts, hext.validate hne hrecs, hcase⟩

theorem Grown.putState {bytes : Bytes} (h : Grown lib store t source target count files) :
    Grown lib store t source target count (files.insert store.base bytes) := by
  obtain ⟨artifacts, hrecs, hcase⟩ := h
  exact ⟨artifacts, validate_foreign (foreign_base store t) hrecs, hcase⟩

theorem Grown.length_le (h : Grown lib store t source target count files) :
    ∃ arts, Records lib store t files arts ∧ arts.length ≤ count + 1 := by
  obtain ⟨arts, hrecs, ⟨hcount, _⟩ | ⟨_, hcount⟩⟩ := h
  · exact ⟨arts, hrecs, hcount.le.trans (Nat.le_succ _)⟩
  · exact ⟨arts, hrecs, hcount⟩

/-- The file has one of two texts, and transitions are recorded once. -/
structure Cycling (lib : Libraries) (store : RaftStateStore) (current legacy : Bytes)
    (counts : Transition → Nat) (strings : List Bytes) (files : Directory) : Prop where
  orderly : Orderly lib store files strings
  migrations : Grown lib store .migration legacy current (counts .migration) files
  downgrades : Grown lib store .downgrade current legacy (counts .downgrade) files
  stateFile : files.lookup store.base = some current ∨ files.lookup store.base = some legacy ∧
    ∃ artifacts, Records lib store .downgrade files artifacts ∧ ∃ artifact ∈ artifacts,
      artifact.targetChecksum = checksumOf lib legacy

variable {counts : Transition → Nat}

theorem targetChecksum_of_describes {art : TransitionArtifact}
    (h : art.describes (checksumOf lib source) (checksumOf lib target) = true) :
    art.targetChecksum = checksumOf lib target := by
  simp only [TransitionArtifact.describes, decide_eq_true_eq] at h
  exact h.2

theorem verifyDowngradedV0_state {doc : Json} {res : RaftStateDowngradeResult}
    (h : verifyDowngradedV0 lib store doc source files = .ok res)
    (hdec : decodeV0 doc store.limits store.statePath = .ok state) : res.state = state := by
  simp only [verifyDowngradedV0, bind_ok_iff] at h
  obtain ⟨_, _, _, _, _, _, h⟩ := h
  split at h
  · simp only [bind_ok_iff] at h
    obtain ⟨_, _, _, _, _, _, legacyState, hlegacy, _, _, h⟩ := h
    cases h
    exact Except.ok.inj (hlegacy.symm.trans hdec)
  · cases h

/-- What the two transitions compare by digests. -/
def cycleStrings (lib : Libraries) (store : RaftStateStore) (current legacy : Bytes) : List Bytes :=
  [legacy, identityOf lib store .migration legacy current,
    identityOf lib store .downgrade current legacy]

section Cycle

variable (hlib : lib.Lawful) (hstate : Storable lib store state current legacy)

include hlib hstate

section

variable (h : Cycling lib store current legacy counts strings files)

include h

theorem Cycling.load_current (hfile : files.lookup store.base = some current) :
    Leads (loadOrMigrate lib store) files (some { state }) files [] := by
  obtain ⟨_, hmigrations, _⟩ := h.migrations
  obtain ⟨_, hdowngrades, _⟩ := h.downgrades
  have hinspect := (hstate.saved hlib).inspectForLoad hlib hfile hmigrations hdowngrades
  exact query_bind_leads_iff.mpr ⟨_, hinspect, pure_leads⟩

variable (hfits : ∀ t source target error, ¬ RecordFails lib store t source target error)
  (hcollision : Collisionless lib strings)
  (hstrings : cycleStrings lib store current legacy ⊆ strings)

include hfits hcollision hstrings

/-- `load_or_migrate` on the legacy schema. -/
theorem Cycling.load_legacy (hfile : files.lookup store.base = some legacy) :
    ∃ after past,
      Leads (loadOrMigrate lib store) files (some { state, migratedFromV0 := true }) after past ∧
      after.lookup store.base = some current ∧
      Cycling lib store current legacy counts strings after := by
  have hidentity : identityOf lib store .migration legacy current ∈ strings :=
    hstrings (by simp [cycleStrings])
  have hsaved := hstate.saved hlib
  have hencoded := hsaved.encoded
  obtain ⟨hlegacy, hlen, _⟩ := legacy_encodeV0 hlib hstate.inRange hstate.encodeV0
  obtain ⟨_, hdowngrades, _⟩ := h.downgrades
  have hinspect : inspectForLoad lib store files = .ok (.legacy state legacy current) := by
    rw [hlegacy.inspectForLoad hfile hlen hdowngrades, hencoded]
    rfl
  obtain ⟨artifact, written, past, hkept, artifacts, hrecs, hmem, hdesc, hcount⟩ :=
    h.migrations.keep hlib hlen (hfits _ _ _)
      (fun _ => h.orderly.unclashing hlib hcollision hidentity)
  have hext := hkept.extends written mem_cons_self
  have hord := h.orderly.keep hlib hfile hlen hidentity nofun hkept
  refine ⟨written.insert store.base current, past ++ [written],
    query_bind_leads_iff.mpr ⟨_, hinspect, ?_⟩, AList.lookup_insert _, ?_⟩
  · exact (completing_leads_iff hlib hlen).mpr ⟨artifact, written, past, hkept, rfl, rfl, rfl⟩
  · have hgrown : Grown lib store .migration legacy current (counts .migration) written :=
      ⟨artifacts, hrecs, .inr ⟨⟨artifact, hmem, hdesc⟩, hcount⟩⟩
    exact ⟨hord.putState hlib (.inl hsaved), hgrown.putState,
      (h.downgrades.foreign (by decide) hext).putState, .inl (AList.lookup_insert _)⟩

/-- `downgrade_to_v0` on the current schema. -/
theorem Cycling.downgrade_current (hfile : files.lookup store.base = some current) :
    ∃ res after past, Leads (downgradeToV0 lib store) files res after past ∧
      res.state = state ∧ after.lookup store.base = some legacy ∧
      Cycling lib store current legacy counts strings after := by
  have hidentity : identityOf lib store .downgrade current legacy ∈ strings :=
    hstrings (by simp [cycleStrings])
  have hmem : legacy ∈ strings := hstrings (by simp [cycleStrings])
  have hsaved := hstate.saved hlib
  have hlen := hsaved.length_le hlib
  obtain ⟨_, hmigrations, _⟩ := h.migrations
  have hinspect : inspectForDowngrade lib store files = .ok (.current state current legacy) := by
    rw [hsaved.inspectForDowngrade hlib hfile hmigrations, hstate.encodeV0]
    rfl
  obtain ⟨artifact, written, past, hkept, artifacts, hrecs, hfind, hdesc, hcount⟩ :=
    h.downgrades.keep hlib hlen (hfits _ _ _)
      (fun _ => h.orderly.unclashing hlib hcollision hidentity)
  have hext := hkept.extends written mem_cons_self
  have hord := h.orderly.keep hlib hfile hlen hidentity
    (fun _ => ⟨state, hsaved, hstate.encodeV0, hmem⟩) hkept
  refine ⟨_, written.insert store.base legacy, past ++ [written],
    query_bind_leads_iff.mpr ⟨_, hinspect, (completing_leads_iff hlib hlen).mpr
      ⟨artifact, written, past, hkept, rfl, rfl, rfl⟩⟩, rfl, AList.lookup_insert _, ?_⟩
  have hgrown : Grown lib store .downgrade current legacy (counts .downgrade) written :=
    ⟨artifacts, hrecs, .inr ⟨⟨artifact, hfind, hdesc⟩, hcount⟩⟩
  have hlegacy := (legacy_encodeV0 hlib hstate.inRange hstate.encodeV0).1
  exact ⟨hord.putState hlib (.inr hlegacy),
    (h.migrations.foreign (by decide) hext).putState, hgrown.putState,
    .inr ⟨AList.lookup_insert _, artifacts, validate_foreign (foreign_base store _) hrecs,
      artifact, hfind, targetChecksum_of_describes hdesc⟩⟩

omit hfits in
/-- `downgrade_to_v0` on the legacy schema finds its downgrade. -/
theorem Cycling.downgrade_legacy (hfile : files.lookup store.base = some legacy)
    (hrecorded : ∃ artifacts, Records lib store .downgrade files artifacts ∧
      ∃ artifact ∈ artifacts, artifact.targetChecksum = checksumOf lib legacy) :
    ∃ result, Leads (downgradeToV0 lib store) files result files [] ∧ result.state = state := by
  have hmem : legacy ∈ strings := hstrings (by simp [cycleStrings])
  obtain ⟨hlegacy, hlength, hparse⟩ := legacy_encodeV0 hlib hstate.inRange hstate.encodeV0
  have hdecode : decodeV0 (legacyDocument state) store.limits store.statePath = .ok state :=
    decodeV0_legacyDocument (validateState_ok_iff.mp hstate.valid)
  obtain ⟨hobject, hversion⟩ := decodeV0_contains hdecode
  have hread := readDocument_ok_iff.mpr ⟨hfile, hlength, hparse, hobject⟩
  cases hverify : verifyDowngradedV0 lib store (legacyDocument state) legacy files with
  | error =>
    obtain ⟨bytes, _, artifacts, hlookup, _, hrecords, hnone⟩ := h.orderly.verify_unrecorded hlib
      hcollision hfile hmem hlegacy hparse hdecode hverify
    obtain ⟨artifacts', hrecords', artifact, hartifact, htarget⟩ := hrecorded
    cases hfile.symm.trans hlookup
    cases hrecords.symm.trans hrecords'
    exact absurd htarget (hnone artifact hartifact)
  | ok result =>
    refine ⟨result, query_bind_leads_iff.mpr ⟨.already result, ?_,
      pure_leads⟩, verifyDowngradedV0_state hverify hdecode⟩
    rw [inspectForDowngrade, if_neg (not_not.mpr (mem_of_lookup hfile)), hread]
    dsimp only [bind, Except.bind]
    rw [if_neg (by simp [hversion]), hverify]
    rfl

theorem Cycling.call (call : Call) :
    ∃ after past, Leads (call.run lib store) files (some state) after past ∧
      Cycling lib store current legacy counts strings after := by
  cases call with
  | loadOrMigrate =>
    rcases h.stateFile with hfile | ⟨hfile, _⟩
    · exact ⟨files, [], (h.load_current hlib hstate hfile).map _, h⟩
    · obtain ⟨after, past, hleads, _, hafter⟩ :=
        h.load_legacy hlib hstate hfits hcollision hstrings hfile
      exact ⟨after, past, hleads.map _, hafter⟩
  | downgradeToV0 =>
    rcases h.stateFile with hfile | ⟨hfile, hrecord⟩
    · obtain ⟨result, after, past, hleads, hres, _, hafter⟩ :=
        h.downgrade_current hlib hstate hfits hcollision hstrings hfile
      exact ⟨after, past, hres ▸ hleads.map _, hafter⟩
    · obtain ⟨result, hleads, hres⟩ :=
        h.downgrade_legacy hlib hstate hcollision hstrings hfile hrecord
      exact ⟨files, [], hres ▸ hleads.map _, h⟩

theorem Cycling.runCalls (calls : List Call) :
    ∃ after past,
      Leads (runCalls lib store calls) files (List.replicate calls.length (some state)) after past ∧
      Cycling lib store current legacy counts strings after := by
  induction calls generalizing files with
  | nil => exact ⟨files, [], pure_leads, h⟩
  | cons call calls ih =>
    obtain ⟨middle, past, hleads, hmid⟩ := h.call hlib hstate hfits hcollision hstrings call
    obtain ⟨after, past', hrest, hafter⟩ := ih hmid
    exact ⟨after, past ++ past', bind_leads_iff.mpr ⟨_, _, _, _, hleads, hrest.map _, rfl⟩, hafter⟩

end

/-- Saving where both histories have room. -/
theorem cycling_saved (h : Orderly lib store files strings)
    (hcounts : ∀ t, ∃ arts, Records lib store t files arts ∧
      arts.length = counts t ∧ counts t < store.limits.maxTransitionHistory) :
    Leads (saveState lib store state) files () (files.insert store.base current) [files] ∧
      Cycling lib store current legacy counts (strings ++ cycleStrings lib store current legacy)
        (files.insert store.base current) := by
  have hsaved := hstate.saved hlib
  have hord := (h.mono (subset_append_left strings
    (cycleStrings lib store current legacy))).putState hlib (.inl hsaved)
  have hgrown (t : Transition) (source target : Bytes) :
      Grown lib store t source target (counts t) files := by
    obtain ⟨arts, hrecs, hlen, hroom⟩ := hcounts t
    exact ⟨arts, hrecs, .inl ⟨hlen, hroom⟩⟩
  refine ⟨compute_bind_leads_iff.mpr ⟨current, raised_ok_iff.mpr hsaved.encoded,
    put_leads_iff.mpr ⟨rfl, rfl⟩⟩, hord, ?_, ?_, .inl (AList.lookup_insert _)⟩
  · exact (hgrown .migration legacy current).putState
  · exact (hgrown .downgrade current legacy).putState

end Cycle

/-- A state that both schemas can hold is returned by every sequence of `load_or_migrate` and
`downgrade_to_v0` after its `save`, which records each transition by one more pair at most. -/
theorem schema_migration (hlib : lib.Lawful) (htext : CompactText lib)
    (hlimit : store.limits.maxNodeIdBytes ≤ 2048) (hrun : StoreRun lib store files strings)
    (hroom : ∀ t, ¬ Full lib store t files) (hstate : Storable lib store state current legacy)
    (hcollision : Collisionless lib (strings ++ cycleStrings lib store current legacy)) :
    ∃ saved past, Leads (saveState lib store state) files () saved past ∧
      Leads (loadOrMigrate lib store) saved (some { state }) saved [] ∧
      (∃ result downgraded past₁ after past₂,
        Leads (downgradeToV0 lib store) saved result downgraded past₁ ∧ result.state = state ∧
        Leads (loadOrMigrate lib store) downgraded (some { state, migratedFromV0 := true }) after
          past₂) ∧
      ∀ calls, ∃ after past,
        Leads (runCalls lib store calls) saved (List.replicate calls.length (some state)) after
          past ∧
        ∀ t artifacts, Records lib store t files artifacts →
          ∃ artifacts', Records lib store t after artifacts' ∧
            artifacts'.length ≤ artifacts.length + 1 := by
  have hord := hrun.orderly hlib
  choose recorded hrecord _ using hord.recorded
  have hless {t : Transition} {artifacts : List TransitionArtifact}
      (hrecs : Records lib store t files artifacts) :
      artifacts.length < store.limits.maxTransitionHistory :=
    Nat.lt_of_le_of_ne hrecs.bound fun hfull => hroom t ⟨artifacts, hrecs, hfull⟩
  have hcounts : ∀ t, ∃ artifacts, Records lib store t files artifacts ∧
      artifacts.length = (recorded t).length ∧
      (recorded t).length < store.limits.maxTransitionHistory :=
    fun t => ⟨recorded t, hrecord t, rfl, hless (hrecord t)⟩
  have hfits : ∀ t source target error, ¬ RecordFails lib store t source target error :=
    fun _ _ _ _ => not_recordFails hlib htext hlimit (hstate.nodeId hlib)
  obtain ⟨hleads, hcycling⟩ := cycling_saved hlib hstate hord hcounts
  have hstrings := subset_append_right strings (cycleStrings lib store current legacy)
  refine ⟨_, _, hleads, hcycling.load_current hlib hstate (AList.lookup_insert _), ?_,
    fun calls => ?_⟩
  · obtain ⟨result, downgraded, past₁, hdown, hres, hfile, hmid⟩ :=
      hcycling.downgrade_current hlib hstate hfits hcollision hstrings (AList.lookup_insert _)
    obtain ⟨after, past₂, hload, _, _⟩ :=
      hmid.load_legacy hlib hstate hfits hcollision hstrings hfile
    exact ⟨result, downgraded, past₁, after, past₂, hdown, hres, hload⟩
  · obtain ⟨after, past, hcalls, hafter⟩ :=
      hcycling.runCalls hlib hstate hfits hcollision hstrings calls
    refine ⟨after, past, hcalls, fun t artifacts hrecs => ?_⟩
    cases t with
    | migration =>
      cases (hrecord .migration).symm.trans hrecs
      exact hafter.migrations.length_le
    | downgrade =>
      cases (hrecord .downgrade).symm.trans hrecs
      exact hafter.downgrades.length_le

theorem compactText_reference : CompactText reference := by
  intro doc bytes hdump
  cases hutf8 : doc.utf8 with
  | false => simp [reference, hutf8] at hdump
  | true =>
    simp only [reference, hutf8, if_true, Except.ok.injEq] at hdump
    rw [hdump]

def currentTextA (state : RaftPersistentState) : Bytes :=
  (stateText reference state storeA.nodeId).toOption.getD []

theorem storable_votedForB : Storable reference storeA votedForB (currentTextA votedForB)
    (legacyTextA votedForB) := by
  have hevaluated : (stateText reference votedForB storeA.nodeId).isOk = true ∧
      (currentTextA votedForB).length ≤ storeA.limits.maxStateBytes ∧
      (encodeV0 reference votedForB storeA.limits storeA.statePath).isOk = true := by decide +kernel
  obtain ⟨hcurrent, hfits, hlegacy⟩ := hevaluated
  have hencoded : encodeV0 reference votedForB storeA.limits storeA.statePath =
      .ok (legacyTextA votedForB) := eq_of_toOption hlegacy
  obtain ⟨_, hval, hrest⟩ := bind_ok_iff.mp hencoded
  obtain ⟨text, hdump, hrest⟩ := bind_ok_iff.mp hrest
  obtain ⟨_, hlen, hrest⟩ := bind_ok_iff.mp hrest
  have htext : text = legacyTextA votedForB := Except.ok.inj hrest
  exact ⟨votedForB_inRange, raised_ok_iff.mp hval, eq_of_toOption hcurrent, hfits,
    htext ▸ dumpJson_ok_iff.mp hdump, htext ▸ by simpa using hlen⟩

theorem schema_migration_votedForB :
    ∃ saved past, Leads (saveState reference storeA votedForB) ∅ () saved past ∧
      ∃ after past, Leads (runCalls reference storeA
          [.downgradeToV0, .loadOrMigrate, .downgradeToV0, .downgradeToV0]) saved
        [some votedForB, some votedForB, some votedForB, some votedForB] after past := by
  have hcollision : Collisionless reference ([] ++
      cycleStrings reference storeA (currentTextA votedForB) (legacyTextA votedForB)) := by
    unfold Collisionless
    decide +kernel
  have hroom (t : Transition) : ¬ Full reference storeA t ∅ := by
    rintro ⟨artifacts, hrecs, hfull⟩
    cases (records_empty reference storeA t).symm.trans hrecs
    cases hfull
  obtain ⟨saved, past, hsave, _, _, hcalls⟩ := schema_migration reference_lawful
    compactText_reference (by decide) .empty hroom storable_votedForB hcollision
  obtain ⟨after, past', hleads, _⟩ := hcalls
    [.downgradeToV0, .loadOrMigrate, .downgradeToV0, .downgradeToV0]
  exact ⟨saved, past, hsave, after, past', hleads⟩

end Cycles

end BoostGateway.Raft
