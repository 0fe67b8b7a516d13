import BoostGateway.Raft.History

/-!
# What the state file holds

A state file is `Saved` by `save` or the migration, or a `Legacy` document. In a directory whose
recorded pairs are valid this determines how far `load_or_migrate` and `downgrade_to_v0` come before
they write anything.
-/

namespace BoostGateway.Raft

open List Durable Program

variable {lib : Libraries} {store : RaftStateStore} {files : Directory}
  {state : RaftPersistentState} {bytes target : Bytes} {document : Json}

structure Saved (lib : Libraries) (store : RaftStateStore) (state : RaftPersistentState)
    (bytes : Bytes) : Prop where
  inRange : state.InRange
  encoded : encodeV1 lib state store.nodeId store.limits store.statePath = .ok bytes

structure Legacy (lib : Libraries) (store : RaftStateStore) (state : RaftPersistentState)
    (bytes : Bytes) : Prop where
  inRange : state.InRange
  decoded : ∃ document, lib.parse bytes = .ok document ∧
    decodeV0 document store.limits store.statePath = .ok state

theorem RaftStateStore.validNodeId (store : RaftStateStore) (path : Bytes) :
    validateStorageNodeId store.nodeId store.limits path = .ok () := by
  obtain ⟨_, _, hcheck⟩ := bind_ok_iff.mp store.checked
  obtain ⟨_, _, hid⟩ := bind_ok_iff.mp hcheck
  simpa only [validateStorageNodeId, validateOpaqueNodeId, bind_ok_iff, check_ok_iff] using hid

/-! ## Reading -/

/-- An encoded state is read back as it was. -/
theorem Saved.parse (hlib : lib.Lawful) (h : Saved lib store state bytes) :
    ∃ document, lib.parse bytes = .ok document ∧ document.isObject = true ∧
      document.contains "schema_version" = true ∧ checkVersion store document = .ok () ∧
      ∀ path, decodeV1 lib document store.nodeId store.limits path = .ok state := by
  obtain ⟨hval, hencoded, _⟩ := (encodeV1_ok_iff hlib).mp h.encoded
  obtain ⟨text, htext, hdump⟩ := stateText_ok_iff.mp hencoded
  have hfields := stateDocument_eq lib state store.nodeId text
  refine ⟨stateDocument lib state store.nodeId text,
    hlib.parse_dump _ _ (canonical_stateDocument h.inRange) hdump, by rw [hfields]; rfl,
    by rw [hfields]; rfl, ?_, fun path => ?_⟩
  · refine bind_ok (a := 1) (requireUnsigned_of_field (by rw [hfields]; rfl)) ?_
    simp [currentSchemaVersion]
  · exact decodeV1_stateDocument hlib hval (store.validNodeId path) htext

theorem Saved.length_le (hlib : lib.Lawful) (h : Saved lib store state bytes) :
    bytes.length ≤ store.limits.maxStateBytes :=
  ((encodeV1_ok_iff hlib).mp h.encoded).2.2

theorem legacy_encodeV0 (hlib : lib.Lawful) (hrange : state.InRange)
    (h : encodeV0 lib state store.limits store.statePath = .ok bytes) :
    Legacy lib store state bytes ∧ bytes.length ≤ store.limits.maxStateBytes ∧
      lib.parse bytes = .ok (legacyDocument state) := by
  obtain ⟨_, hval, h⟩ := bind_ok_iff.mp h
  obtain ⟨text, hdump, h⟩ := bind_ok_iff.mp h
  obtain ⟨_, hlen, h⟩ := bind_ok_iff.mp h
  cases h
  have hparse := hlib.parse_dump _ _ (canonical_legacyDocument hrange) (dumpJson_ok_iff.mp hdump)
  refine ⟨⟨hrange, _, hparse, decodeV0_legacyDocument ?_⟩, by simpa using hlen, hparse⟩
  exact validateState_ok_iff.mp (raised_ok_iff.mp hval)

/-- As many fields as expected keys means no other key. -/
theorem contains_of_hasExactKeys {keys : List String} {key : String}
    (h : hasExactKeys document keys = true) (hkeys : keys.Nodup) (hkey : key ∉ keys) :
    document.contains key = false := by
  simp only [hasExactKeys, Bool.and_eq_true, decide_eq_true_eq, all_eq_true] at h
  obtain ⟨⟨_, hlen⟩, hcontains⟩ := h
  have hmem {k : String} (hk : document.contains k = true) : k ∈ document.fields.map Prod.fst := by
    obtain ⟨value, hvalue⟩ := Option.isSome_iff_exists.mp hk
    obtain ⟨before, rest, heq, _⟩ := lookup_eq_some_iff.mp hvalue
    simp [heq]
  refine Bool.eq_false_iff.mpr fun hfind => ?_
  have hsubset : key :: keys ⊆ document.fields.map Prod.fst :=
    forall_mem_cons.mpr ⟨hmem hfind, fun k hk => hmem (hcontains k hk)⟩
  have hle := ((nodup_cons.mpr ⟨hkey, hkeys⟩).subperm hsubset).length_le
  simp only [length_cons, length_map] at hle
  omega

theorem decodeV0_contains (h : decodeV0 document store.limits store.statePath = .ok state) :
    document.isObject = true ∧ document.contains "schema_version" = false := by
  obtain ⟨_, hkeys, _⟩ := bind_ok_iff.mp h
  have hkeys : hasExactKeys document ["current_term", "voted_for", "leader_id", "commit_index",
      "last_applied", "log"] = true := by simpa using hkeys
  refine ⟨?_, contains_of_hasExactKeys hkeys (by decide) (by decide)⟩
  simp only [hasExactKeys, Bool.and_eq_true] at hkeys
  exact hkeys.1.1

theorem readDocument_ok_iff {source : Bytes} :
    readDocument lib store files = .ok (source, document) ↔
      files.lookup store.base = some source ∧ source.length ≤ store.limits.maxStateBytes ∧
        lib.parse source = .ok document ∧ document.isObject = true := by
  simp only [readDocument, bind_ok_iff, readBoundedFile_ok_iff, raised_ok_iff,
    check_ok_iff, pure, Except.pure, Except.ok.injEq, Prod.mk.injEq]
  constructor
  · rintro ⟨bytes, ⟨hget, hlen⟩, found, hparse, _, hobj, rfl, rfl⟩
    refine ⟨hget, hlen, ?_, by simpa using hobj⟩
    unfold parseJson at hparse
    split at hparse
    next hok => rw [hok, Except.ok.inj hparse]
    · cases hparse
  · rintro ⟨hget, hlen, hparse, hobj⟩
    exact ⟨source, ⟨hget, hlen⟩, document, by simp [parseJson, hparse], (),
      by simp [hobj], rfl, rfl⟩

/-! ## Inspecting -/

section Inspecting

variable {migrations downgrades : List TransitionArtifact}

theorem Saved.inspectForLoad (hlib : lib.Lawful) (h : Saved lib store state bytes)
    (hget : files.lookup store.base = some bytes)
    (hmigrations : Records lib store .migration files migrations)
    (hdowngrades : Records lib store .downgrade files downgrades) :
    inspectForLoad lib store files = .ok (.current state) := by
  obtain ⟨document, hparse, hobj, hver, hcheck, hdec⟩ := h.parse hlib
  have hread := readDocument_ok_iff.mpr ⟨hget, h.length_le hlib, hparse, hobj⟩
  rw [Raft.inspectForLoad, if_neg (not_not.mpr (mem_of_lookup hget))]
  refine bind_ok hread ?_
  dsimp only
  rw [if_pos hver]
  refine bind_ok hcheck (bind_ok (hdec _) ?_)
  exact bind_ok hmigrations (bind_ok hdowngrades rfl)

/-- A legacy file is migrated if its state can be encoded. -/
theorem Legacy.inspectForLoad (h : Legacy lib store state bytes)
    (hget : files.lookup store.base = some bytes) (hlen : bytes.length ≤ store.limits.maxStateBytes)
    (hdowngrades : Records lib store .downgrade files downgrades) :
    inspectForLoad lib store files =
      (raised (encodeV1 lib state store.nodeId store.limits store.statePath)).map
        (Loading.legacy state bytes) := by
  obtain ⟨document, hparse, hdec⟩ := h.decoded
  obtain ⟨hobj, hver⟩ := decodeV0_contains hdec
  have hread := readDocument_ok_iff.mpr ⟨hget, hlen, hparse, hobj⟩
  have hdowngrades : validateTransitionArtifacts lib store .downgrade files [] = .ok downgrades :=
    hdowngrades
  rw [Raft.inspectForLoad, if_neg (not_not.mpr (mem_of_lookup hget)), hread]
  dsimp only [bind, Except.bind]
  rw [if_neg (by simp [hver]), hdec]
  dsimp only [Except.bind]
  cases raised (encodeV1 lib state store.nodeId store.limits store.statePath) with
  | error => rfl
  | ok =>
    dsimp only [Except.bind]
    rw [hdowngrades]
    rfl

/-- A current file is downgraded if its state can be encoded. -/
theorem Saved.inspectForDowngrade (hlib : lib.Lawful) (h : Saved lib store state bytes)
    (hget : files.lookup store.base = some bytes)
    (hmigrations : Records lib store .migration files migrations) :
    inspectForDowngrade lib store files =
      (encodeV0 lib state store.limits store.statePath).map (Downgrading.current state bytes) := by
  obtain ⟨document, hparse, hobj, hver, hcheck, hdec⟩ := h.parse hlib
  have hread := readDocument_ok_iff.mpr ⟨hget, h.length_le hlib, hparse, hobj⟩
  have hmigrations : validateTransitionArtifacts lib store .migration files [] = .ok migrations :=
    hmigrations
  rw [Raft.inspectForDowngrade, if_neg (not_not.mpr (mem_of_lookup hget)), hread]
  dsimp only [bind, Except.bind]
  rw [if_pos hver, hcheck]
  dsimp only [Except.bind]
  rw [hdec]
  dsimp only [Except.bind]
  rw [hmigrations]
  dsimp only [Except.bind]
  cases encodeV0 lib state store.limits store.statePath <;> rfl

end Inspecting

end BoostGateway.Raft
