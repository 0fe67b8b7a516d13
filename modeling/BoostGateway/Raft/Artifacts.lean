import BoostGateway.Raft.StateStore
import Mathlib.Data.List.ReduceOption
import Mathlib.Data.List.Sort

/-!
# The pairs of a transition

What `list_history_paths` and `validate_transition_artifacts` find in a directory. A validated
directory stays so when a backup is added under the id that may stand alone, and when its record
follows (`Validated.addBackup`, `Validated.addRecord`).
-/

namespace BoostGateway.Raft

open Durable List Except

variable {lib : Libraries} {store : RaftStateStore} {t t' : Transition} {files files' : Directory}
  {name content id : Bytes} {ids : List Bytes} {artifact : TransitionArtifact}

/-! ## Names -/

section Names

theorem ends_append (start id ending : Bytes) :
    (start.isPrefixOf (start ++ id ++ ending) && ending.isSuffixOf (start ++ id ++ ending)) = true ∧
      between (start ++ id ++ ending) start.length ending.length = id := by
  refine ⟨Bool.and_eq_true_iff.mpr ⟨List.isPrefixOf_iff_prefix.mpr ?_,
    List.isSuffixOf_iff_suffix.mpr (suffix_append _ _)⟩, by simp [between]⟩
  rw [append_assoc]
  exact prefix_append _ _

variable {start : Bytes} {backup : Bool}

/-- A name with these ends and an id in between. -/
theorem eq_of_between {ending : Bytes}
    (hends : (start.isPrefixOf name && ending.isSuffixOf name) = true)
    (hid : (between name start.length ending.length).length = 64) (hshort : ending.length ≤ 64) :
    name = start ++ between name start.length ending.length ++ ending := by
  obtain ⟨hstart, hending⟩ := Bool.and_eq_true_iff.mp hends
  obtain ⟨rest, rfl⟩ := List.isPrefixOf_iff_prefix.mp hstart
  have hdrop : (start ++ rest).drop start.length = rest := drop_left
  have hlen : ¬ rest.length < ending.length := by
    intro hlt
    rw [between, hdrop, if_pos hlt] at hid
    omega
  have hbetween : between (start ++ rest) start.length ending.length =
      rest.take (rest.length - ending.length) := by rw [between, hdrop, if_neg hlen]
  have hsuffix : ending <:+ rest :=
    suffix_of_suffix_length_le (List.isSuffixOf_iff_suffix.mp hending)
      (suffix_append _ _) (Nat.not_lt.mp hlen)
  obtain ⟨front, rfl⟩ := hsuffix
  rw [hbetween]
  simp

theorem length_of_isLowerHexChecksum (h : isLowerHexChecksum id = true) : id.length = 64 :=
  of_decide_eq_true (Bool.and_eq_true_iff.mp h).1

theorem isPrefixOf_append (base start rest : Bytes) :
    (base ++ start).isPrefixOf (base ++ rest) = start.isPrefixOf rest := by
  rw [Bool.eq_iff_iff, List.isPrefixOf_iff_prefix, List.isPrefixOf_iff_prefix,
    prefix_append_right_inj]

theorem isPrefixOf_append_of_apart {first : Bytes} (rest : Bytes)
    (h : ¬ start <+: first ∧ ¬ first <+: start) : start.isPrefixOf (first ++ rest) = false := by
  refine Bool.eq_false_iff.mpr fun hstart => ?_
  rcases List.prefix_or_prefix_of_prefix (List.isPrefixOf_iff_prefix.mp hstart)
    (prefix_append first rest) with hprefix | hprefix
  · exact h.1 hprefix
  · exact h.2 hprefix

def historyMarker (t : Transition) (backup : Bool) : Bytes :=
  ascii (if backup then t.definition.historyBackupMarker else t.definition.historyRecordMarker)

def RaftStateStore.historyName (store : RaftStateStore) (t : Transition) (id : Bytes)
    (backup : Bool) : Bytes :=
  if backup then store.historyBackup t id else store.historyRecord t id

theorem historyName_eq (store : RaftStateStore) (t : Transition) (id : Bytes) (backup : Bool) :
    store.historyName t id backup = store.base ++
      (historyMarker t backup ++ (id ++ ascii (if backup then ".bak" else ".json"))) := by
  cases backup <;>
    simp [RaftStateStore.historyName, RaftStateStore.historyBackup, RaftStateStore.historyRecord,
      historyMarker]

theorem historyEntry?_historyName (store : RaftStateStore) (t : Transition) (id : Bytes)
    (backup : Bool) :
    historyEntry? store t (store.historyName t id backup) = some (id, backup) := by
  cases backup with
  | true =>
    obtain ⟨hends, hbetween⟩ := ends_append (store.base ++ historyMarker t true) id (ascii ".bak")
    exact (if_pos hends).trans (congrArg (fun id => some (id, true)) hbetween)
  | false =>
    obtain ⟨hends, hbetween⟩ := ends_append (store.base ++ historyMarker t false) id (ascii ".json")
    have hbak : (store.base ++ historyMarker t true).isPrefixOf (store.historyName t id false) =
        false := by
      rw [historyName_eq, isPrefixOf_append]
      exact isPrefixOf_append_of_apart _ (by cases t <;> decide)
    refine (if_neg ?_).trans ((if_pos hends).trans (congrArg (fun id => some (id, false)) hbetween))
    exact fun hguard => Bool.false_ne_true (hbak ▸ (Bool.and_eq_true_iff.mp hguard).1)

theorem eq_historyName (h : historyEntry? store t name = some (id, backup))
    (hid : isLowerHexChecksum id = true) : name = store.historyName t id backup := by
  have hlen := length_of_isLowerHexChecksum hid
  dsimp only [ historyEntry?] at h
  split at h
  next hends =>
    cases h
    exact eq_of_between hends hlen (by decide)
  · split at h
    next hends =>
      cases h
      exact eq_of_between hends hlen (by decide)
    · cases h

theorem historyName_ne_of_none (h : historyEntry? store t name = none) (id : Bytes)
    (backup : Bool) : store.historyName t id backup ≠ name := by
  rintro rfl
  rw [ historyEntry?_historyName] at h
  cases h

theorem historyEntry?_eq_none (rest : Bytes)
    (h : ∀ backup, (historyMarker t backup).isPrefixOf rest = false) :
    historyEntry? store t (store.base ++ rest) = none := by
  have hbak : (ascii t.definition.historyBackupMarker).isPrefixOf rest = false := h true
  have hrec : (ascii t.definition.historyRecordMarker).isPrefixOf rest = false := h false
  simp [ historyEntry?, isPrefixOf_append, hbak, hrec]

structure Foreign (store : RaftStateStore) (t : Transition) (name : Bytes) : Prop where
  fixedBackup : name ≠ store.fixedBackup t
  fixedRecord : name ≠ store.fixedRecord t
  history : historyEntry? store t name = none

theorem Foreign.of_rest {rest : Bytes} (hbak : rest ≠ ascii t.definition.fixedBackupSuffix)
    (hrec : rest ≠ ascii t.definition.fixedRecordSuffix)
    (hmarkers : ∀ backup, (historyMarker t backup).isPrefixOf rest = false) :
    Foreign store t (store.base ++ rest) where
  fixedBackup := fun heq => hbak (append_cancel_left heq)
  fixedRecord := fun heq => hrec (append_cancel_left heq)
  history := historyEntry?_eq_none _ hmarkers

theorem foreign_base (store : RaftStateStore) (t : Transition) : Foreign store t store.base := by
  have hforeign : Foreign store t (store.base ++ []) := by
    cases t <;> exact .of_rest (by decide) (by decide) (by decide)
  rwa [append_nil] at hforeign

theorem historyEntry?_fixed (hname : name = store.fixedBackup t' ∨ name = store.fixedRecord t') :
    historyEntry? store t name = none := by
  rcases hname with rfl | rfl <;>
    exact historyEntry?_eq_none _ (by cases t <;> cases t' <;> decide)

theorem fixedBackup_ne_fixedRecord (store : RaftStateStore) (t t' : Transition) :
    store.fixedBackup t ≠ store.fixedRecord t' := by
  have hne : ascii t.definition.fixedBackupSuffix ≠ ascii t'.definition.fixedRecordSuffix := by
    cases t <;> cases t' <;> decide
  exact fun heq => hne (append_cancel_left heq)

theorem historyName_ne_fixed (store : RaftStateStore) (t t' : Transition) (id : Bytes)
    (backup : Bool) : store.historyName t id backup ≠ store.fixedBackup t' ∧
      store.historyName t id backup ≠ store.fixedRecord t' :=
  ⟨historyName_ne_of_none (historyEntry?_fixed (.inl rfl)) id backup,
    historyName_ne_of_none (historyEntry?_fixed (.inr rfl)) id backup⟩

theorem historyName_inj {id' : Bytes} {backup' : Bool}
    (h : store.historyName t id backup = store.historyName t id' backup') :
    id = id' ∧ backup = backup' := by
  have hentry := historyEntry?_historyName store t id backup
  rw [h, historyEntry?_historyName] at hentry
  cases hentry
  exact ⟨rfl, rfl⟩

theorem historyName_ne (store : RaftStateStore) (t : Transition) (id : Bytes) :
    store.historyName t id true ≠ store.historyName t id false :=
  fun h => Bool.false_ne_true (historyName_inj h).2.symm

theorem foreign_fixed (h : t ≠ t')
    (hname : name = store.fixedBackup t' ∨ name = store.fixedRecord t') :
    Foreign store t name := by
  rcases hname with rfl | rfl <;> cases t <;> cases t' <;>
    first | exact absurd rfl h | exact .of_rest (by decide) (by decide) (by decide)

theorem foreign_historyName (h : t ≠ t') (backup : Bool) :
    Foreign store t (store.historyName t' id backup) where
  fixedBackup := (historyName_ne_fixed store t' t id backup).1
  fixedRecord := (historyName_ne_fixed store t' t id backup).2
  history := by
    rw [historyName_eq]
    refine historyEntry?_eq_none _ fun other => isPrefixOf_append_of_apart _ ?_
    cases t <;> cases t' <;> first | exact absurd rfl h | (cases backup <;> cases other <;> decide)

end Names

/-! ## Listing -/

section Listing

variable {names : List Bytes} {histories : List (Bytes × HistoryPaths)}

def pathsOf (store : RaftStateStore) (t : Transition) (names : List Bytes) (id : Bytes) :
    HistoryPaths where
  backup := if store.historyName t id true ∈ names then some (store.historyName t id true) else none
  record :=
    if store.historyName t id false ∈ names then some (store.historyName t id false) else none

structure Ids (store : RaftStateStore) (t : Transition) (names ids : List Bytes) : Prop where
  sorted : ids.Pairwise (· < ·)
  mem_iff : ∀ id, id ∈ ids ↔ isLowerHexChecksum id = true ∧ ∃ backup,
    store.historyName t id backup ∈ names

def ProperNames (store : RaftStateStore) (t : Transition) (names : List Bytes) : Prop :=
  ∀ name ∈ names, ∀ entry, historyEntry? store t name = some entry →
    isLowerHexChecksum entry.1 = true

def historyOf (store : RaftStateStore) (t : Transition) (names ids : List Bytes) :
    List (Bytes × HistoryPaths) :=
  ids.map fun id => (id, pathsOf store t names id)

theorem Ids.unique {ids' : List Bytes} (h : Ids store t names ids) (h' : Ids store t names ids') :
    ids = ids' :=
  h.sorted.eq_of_mem_iff h'.sorted fun id => (h.mem_iff id).trans (h'.mem_iff id).symm

theorem pathsOf_eq_empty (h : Ids store t names ids) (hid : isLowerHexChecksum id = true)
    (hnot : id ∉ ids) : pathsOf store t names id = {} := by
  have hnone : ∀ backup, store.historyName t id backup ∉ names := fun backup hmem =>
    hnot ((h.mem_iff id).mpr ⟨hid, backup, hmem⟩)
  simp [pathsOf, hnone]

/-- A new id has its place in a sorted list. -/
theorem exists_split (hsort : ids.Pairwise (· < ·)) (hnot : id ∉ ids) :
    ∃ before after, ids = before ++ after ∧ (before ++ id :: after).Pairwise (· < ·) := by
  induction ids with
  | nil => exact ⟨[], [], rfl, by simp⟩
  | cons k rest ih =>
    obtain ⟨hlt, hrest⟩ := pairwise_cons.mp hsort
    obtain ⟨hne, hnot⟩ := not_or.mp (mt mem_cons.mpr hnot)
    rcases @Std.Trichotomous.rel_or_eq_or_rel_swap Bytes (· < ·) _ k id with
      hbelow | heq | habove
    · obtain ⟨before, after, rfl, hpw⟩ := ih hrest hnot
      refine ⟨k :: before, after, rfl, pairwise_cons.mpr ⟨fun x hx => ?_, hpw⟩⟩
      rcases mem_cons.mp (perm_middle.mem_iff.mp hx) with rfl | hx
      · exact hbelow
      · exact hlt x hx
    · exact absurd heq.symm hne
    · refine ⟨[], k :: rest, rfl, pairwise_cons.mpr ⟨fun x hx => ?_, hsort⟩⟩
      rcases List.mem_cons.mp hx with rfl | hx
      · exact habove
      · exact List.lt_trans habove (hlt x hx)

variable {paths : Bytes → HistoryPaths}

theorem updateHistory_append {before : List Bytes} {rest : List (Bytes × HistoryPaths)}
    (change : HistoryPaths → HistoryPaths) (h : ∀ k ∈ before, k < id) :
    updateHistory id change (before.map (fun k => (k, paths k)) ++ rest) =
      before.map (fun k => (k, paths k)) ++ updateHistory id change rest := by
  induction before with
  | nil => rfl
  | cons k before ih =>
    obtain ⟨hlt, hpre⟩ := List.forall_mem_cons.mp h
    have hne : id ≠ k := by
      rintro rfl
      exact List.lt_irrefl _ hlt
    simp [updateHistory, hne, List.lt_asymm hlt, ih hpre]

theorem updateHistory_map (change : HistoryPaths → HistoryPaths) (hsort : ids.Pairwise (· < ·))
    (hnew : id ∉ ids → paths id = {}) :
    ∃ ids' : List Bytes, ids'.Pairwise (· < ·) ∧ (∀ k, k ∈ ids' ↔ k = id ∨ k ∈ ids) ∧
      updateHistory id change (ids.map fun k => (k, paths k)) =
        ids'.map fun k => (k, if k = id then change (paths id) else paths k) := by
  have hsplit : ∃ before after, (before ++ id :: after).Pairwise (· < ·) ∧
      (ids = before ++ id :: after ∨ ids = before ++ after ∧ paths id = {}) := by
    by_cases hmem : id ∈ ids
    · obtain ⟨before, after, rfl⟩ := append_of_mem hmem
      exact ⟨before, after, hsort, .inl rfl⟩
    · obtain ⟨before, after, rfl, hpw⟩ := exists_split hsort hmem
      exact ⟨before, after, hpw, .inr ⟨rfl, hnew hmem⟩⟩
  obtain ⟨before, after, hpw, hids⟩ := hsplit
  obtain ⟨-, hafter, hpre⟩ := pairwise_append.mp hpw
  obtain ⟨habove, -⟩ := pairwise_cons.mp hafter
  have hbelow (k : Bytes) (hk : k ∈ before) : k < id := hpre k hk id mem_cons_self
  have hsame (ks : List Bytes) (hks : id ∉ ks) : (ks.map fun k => (k, paths k)) =
      ks.map fun k => (k, if k = id then change (paths id) else paths k) := by
    refine map_congr_left fun k hk => ?_
    rw [if_neg]
    rintro rfl
    exact hks hk
  refine ⟨before ++ id :: after, hpw, fun k => ?_, ?_⟩
  · rcases hids with rfl | ⟨rfl, -⟩ <;> simp only [mem_append, mem_cons] <;> tauto
  · rw [map_append, map_cons, if_pos rfl,
      ← hsame before fun hid => List.lt_irrefl _ (hbelow id hid),
      ← hsame after fun hid => List.lt_irrefl _ (habove id hid)]
    rcases hids with rfl | ⟨rfl, hnone⟩
    · rw [map_append, map_cons, updateHistory_append change hbelow, updateHistory, if_pos rfl]
    · rw [map_append, updateHistory_append change hbelow, hnone]
      cases after with
      | nil => rfl
      | cons k =>
        have hlt := habove k mem_cons_self
        have hne : id ≠ k := by
          rintro rfl
          exact List.lt_irrefl _ hlt
        rw [map_cons, updateHistory, if_neg hne, if_pos hlt]

theorem pathsOf_cons_history {backup : Bool} (k : Bytes) :
    pathsOf store t (store.historyName t id backup :: names) k =
      if k = id then HistoryPaths.enter (store.historyName t id backup) backup
        (pathsOf store t names id) else pathsOf store t names k := by
  by_cases hk : k = id
  · subst hk
    cases backup with
    | true => simp [pathsOf, HistoryPaths.enter, (historyName_ne store t k).symm]
    | false => simp [pathsOf, HistoryPaths.enter, historyName_ne store t k]
  · have hne : ∀ b, store.historyName t k b ≠ store.historyName t id backup := fun b h =>
      hk (historyName_inj h).1
    simp [pathsOf, hne, hk]

theorem pathsOf_cons_other (hnone : historyEntry? store t name = none) (k : Bytes) :
    pathsOf store t (name :: names) k = pathsOf store t names k := by
  simp [pathsOf, historyName_ne_of_none hnone]

theorem ProperNames.of_list (h : listHistoryNames store t names = .ok histories) :
    ProperNames store t names := by
  induction names generalizing histories with
  | nil => simp [ProperNames]
  | cons name names ih =>
    obtain ⟨rest, hrest, hname⟩ := bind_ok_iff.mp h
    refine forall_mem_cons.mpr ⟨fun entry hentry => ?_, ih hrest⟩
    rw [hentry] at hname
    obtain ⟨_, hcheck, _⟩ := bind_ok_iff.mp hname
    simpa using hcheck

theorem ProperNames.list (h : ProperNames store t names) : ∃ ids, Ids store t names ids ∧
    listHistoryNames store t names = .ok (historyOf store t names ids) := by
  induction names with
  | nil => exact ⟨[], ⟨.nil, by simp⟩, rfl⟩
  | cons name names ih =>
    obtain ⟨hname, hnames⟩ := forall_mem_cons.mp h
    obtain ⟨ids, hids, hlist⟩ := ih hnames
    cases hentry : historyEntry? store t name with
    | none =>
      have hne := historyName_ne_of_none hentry
      refine ⟨ids, ⟨hids.sorted, fun id => by simpa [hne] using hids.mem_iff id⟩, ?_⟩
      have hhist : historyOf store t (name :: names) ids = historyOf store t names ids :=
        map_congr_left fun k _ => by rw [pathsOf_cons_other hentry]
      rw [listHistoryNames, hlist, hhist]
      simp only [hentry]
      rfl
    | some entry =>
      obtain ⟨id, backup⟩ := entry
      have hid := hname _ hentry
      obtain rfl := eq_historyName hentry hid
      obtain ⟨ids', hsort, hmem, hupdate⟩ := updateHistory_map
        (HistoryPaths.enter (store.historyName t id backup) backup) hids.sorted
        (pathsOf_eq_empty hids hid)
      refine ⟨ids', ⟨hsort, fun k => ?_⟩, ?_⟩
      · rw [hmem, hids.mem_iff]
        constructor
        · rintro (rfl | ⟨hk, b, hb⟩)
          · exact ⟨hid, backup, mem_cons_self⟩
          · exact ⟨hk, b, mem_cons_of_mem _ hb⟩
        · rintro ⟨hk, b, hb⟩
          rcases mem_cons.mp hb with heq | hb
          · exact .inl (historyName_inj heq).1
          · exact .inr ⟨hk, b, hb⟩
      · have hhist : historyOf store t (store.historyName t id backup :: names) ids' =
            updateHistory id (HistoryPaths.enter (store.historyName t id backup) backup)
              (historyOf store t names ids) :=
          (map_congr_left fun k _ => by rw [pathsOf_cons_history]).trans hupdate.symm
        rw [listHistoryNames, hhist]
        refine bind_ok hlist ?_
        simp only [hentry]
        exact bind_ok (a := ()) (by simpa using hid) rfl

theorem listHistoryPaths_ok_iff : listHistoryPaths store t files = .ok histories ↔
    ProperNames store t files.keys ∧ ∃ ids, Ids store t files.keys ids ∧
      histories = historyOf store t files.keys ids := by
  constructor
  · intro h
    have hprop := ProperNames.of_list h
    obtain ⟨ids, hids, hlist⟩ := hprop.list
    exact ⟨hprop, ids, hids, ok.inj (h.symm.trans hlist)⟩
  · rintro ⟨hprop, ids, hids, rfl⟩
    obtain ⟨ids', hids', hlist⟩ := hprop.list
    rwa [hids.unique hids']

end Listing

/-! ## Records -/

section Records

variable {backup record source target sourceChecksum targetChecksum bytes path : Bytes}
  {nodeId : NodeId} {generation : Nat} {historyId : Option Bytes}

/-- The fields of a record, in the order of their keys. -/
def sortedRecord (t : Transition) (nodeId : NodeId) (sourceChecksum targetChecksum : Bytes)
    (generation : Nat) : List (String × Json) :=
  let version := (t.definition.versionKey, Json.unsigned (if generation = 0 then 1 else 2))
  let numbered := if generation = 0 then [] else [("generation", Json.unsigned generation)]
  let origin := ("from_schema_version", Json.unsigned t.definition.fromSchemaVersion)
  let rest := [("node_id", Json.string nodeId), ("source_sha256", Json.string sourceChecksum),
    ("target_sha256", Json.string targetChecksum),
    ("to_schema_version", Json.unsigned t.definition.toSchemaVersion)]
  match t with
  | .migration => origin :: numbered ++ version :: rest
  | .downgrade => version :: origin :: numbered ++ rest

theorem recordDocument_eq (t : Transition) (nodeId : NodeId) (sourceChecksum targetChecksum : Bytes)
    (generation : Nat) : recordDocument t nodeId sourceChecksum targetChecksum generation =
      .object (sortedRecord t nodeId sourceChecksum targetChecksum generation) := by
  by_cases hzero : generation = 0
  · cases t <;>
      simp [recordDocument, recordFields, sortedRecord, hzero, Transition.definition,
        Json.ofFields, Json.insertField, -String.lt_iff_ltb]
  · cases t <;>
      simp [recordDocument, recordFields, sortedRecord, hzero, Transition.definition,
        Json.ofFields, Json.insertField, Json.set, -String.lt_iff_ltb]

def checksumOf (lib : Libraries) (bytes : Bytes) : Bytes := (lib.sha256 bytes).flatMap hexByte

theorem sha256Hex_eq_checksumOf (hlib : lib.Lawful) (bytes path : Bytes) :
    sha256Hex lib bytes path = .ok (checksumOf lib bytes) :=
  sha256Hex_eq hlib bytes path

def pairId (lib : Libraries) (t : Transition) (nodeId : NodeId)
    (sourceChecksum targetChecksum : Bytes) : Bytes :=
  checksumOf lib (transitionIdentity t nodeId sourceChecksum targetChecksum)

theorem transitionRecord_ok_iff (hlib : lib.Lawful) :
    transitionRecord lib t nodeId source target generation path = .ok bytes ↔
      lib.dump (recordDocument t nodeId (checksumOf lib source) (checksumOf lib target)
        generation) = .ok bytes := by
  simp [transitionRecord, bind_ok_iff, sha256Hex_eq_checksumOf hlib]

theorem transitionId_eq (hlib : lib.Lawful) : transitionId lib t nodeId source target path =
    .ok (pairId lib t nodeId (checksumOf lib source) (checksumOf lib target)) := by
  refine bind_ok (raised_ok_iff.mpr (sha256Hex_eq_checksumOf hlib _ _)) ?_
  refine bind_ok (raised_ok_iff.mpr (sha256Hex_eq_checksumOf hlib _ _)) ?_
  exact raised_ok_iff.mpr (sha256Hex_eq_checksumOf hlib _ _)

theorem canonical_recordDocument (h : generation < 2 ^ 64) :
    (recordDocument t nodeId sourceChecksum targetChecksum generation).canonical = true := by
  have hfields : (Json.ofFields (recordFields t nodeId sourceChecksum targetChecksum
      generation)).canonical = true := by
    refine Json.canonical_ofFields ?_ fun field hfield => ?_
    · cases t <;> simp [recordFields, Transition.definition, Json.asciiKey]
    simp only [recordFields, mem_cons, not_mem_nil, or_false] at hfield
    rcases hfield with rfl | rfl | rfl | rfl | rfl | rfl
    · split <;> rfl
    all_goals cases t <;> rfl
  dsimp only [recordDocument]
  split
  · exact Json.canonical_set hfields (by decide) (decide_eq_true h)
  · exact hfields

theorem readBoundedFile_ok_iff {maxBytes : Nat} :
    readBoundedFile store files name maxBytes = .ok bytes ↔
      files.lookup name = some bytes ∧ bytes.length ≤ maxBytes := by
  unfold readBoundedFile
  cases files.lookup name with
  | none => simp [fail]
  | some =>
    simp only [bind_ok_iff, raised_ok_iff, check_ok_iff, decide_eq_false_iff_not,
      Nat.not_lt, exists_const, pure, Except.pure, ok.injEq, Option.some.injEq]
    constructor
    · rintro ⟨hle, rfl⟩
      exact ⟨rfl, hle⟩
    · rintro ⟨rfl, hle⟩
      exact ⟨hle, rfl⟩

theorem mem_of_lookup (h : files.lookup name = some bytes) : name ∈ files :=
  AList.lookup_isSome.mp (by simp [h])

theorem validateTransitionPair_files
    (h : validateTransitionPair lib store t files backup record historyId = .ok artifact) :
    (∃ bytes, files.lookup backup = some bytes ∧ bytes.length ≤ store.limits.maxStateBytes) ∧
      ∃ bytes, files.lookup record = some bytes ∧ bytes.length ≤ maxMigrationRecordBytes := by
  obtain ⟨_, hbak, h⟩ := bind_ok_iff.mp h
  obtain ⟨_, hrec, _⟩ := bind_ok_iff.mp h
  exact ⟨⟨_, readBoundedFile_ok_iff.mp hbak⟩, _, readBoundedFile_ok_iff.mp hrec⟩

theorem validateTransitionPair_congr (hbak : files'.lookup backup = files.lookup backup)
    (hrec : files'.lookup record = files.lookup record) :
    validateTransitionPair lib store t files' backup record historyId =
      validateTransitionPair lib store t files backup record historyId := by
  simp [validateTransitionPair, readBoundedFile, hbak, hrec]

theorem validateTransitionPair_insert (hbak : backup ≠ name) (hrec : record ≠ name) :
    validateTransitionPair lib store t (files.insert name content) backup record historyId =
      validateTransitionPair lib store t files backup record historyId :=
  validateTransitionPair_congr (AList.lookup_insert_ne hbak) (AList.lookup_insert_ne hrec)

/-- A generation has the id of its record. -/
def Numbered (lib : Libraries) (t : Transition) (nodeId : NodeId)
    (sourceChecksum targetChecksum : Bytes) (generation : Nat) : Option Bytes → Prop
  | none => generation = 0
  | some id => generation ≠ 0 ∧ id = pairId lib t nodeId sourceChecksum targetChecksum

theorem numbered_none : Numbered lib t nodeId sourceChecksum targetChecksum 0 none := rfl

/-- The pair that `write_transition_artifacts` writes is valid. -/
theorem validateTransitionPair_written (hlib : lib.Lawful)
    (hbak : files.lookup backup = some source) (hsrc : source.length ≤ store.limits.maxStateBytes)
    (hrec : files.lookup record = some bytes) (hbytes : bytes.length ≤ maxMigrationRecordBytes)
    (hdump : lib.dump (recordDocument t store.nodeId (checksumOf lib source)
      (checksumOf lib target) generation) = .ok bytes) (hgen : generation < 2 ^ 64)
    (hnumbered : Numbered lib t store.nodeId (checksumOf lib source) (checksumOf lib target)
      generation historyId) :
    validateTransitionPair lib store t files backup record historyId =
      .ok { backup, record, sourceChecksum := checksumOf lib source
            targetChecksum := checksumOf lib target, generation } := by
  have hparse := hlib.parse_dump _ _ (canonical_recordDocument hgen) hdump
  rw [recordDocument_eq] at hparse
  have hhex (bytes : Bytes) : isLowerHexChecksum (checksumOf lib bytes) = true :=
    isLowerHexChecksum_hex hlib bytes
  -- The fixed pair has no generation, a pair of the history has one.
  have hcase : historyId = none ∧ generation = 0 ∨ ∃ g, generation = g + 1 ∧
      historyId = some (pairId lib t store.nodeId (checksumOf lib source)
        (checksumOf lib target)) := by
    cases historyId with
    | none => exact .inl ⟨rfl, hnumbered⟩
    | some =>
      obtain ⟨hne, rfl⟩ := hnumbered
      obtain ⟨g, rfl⟩ := Nat.exists_eq_succ_of_ne_zero hne
      exact .inr ⟨g, rfl, rfl⟩
  refine bind_ok (readBoundedFile_ok_iff.mpr ⟨hbak, hsrc⟩) ?_
  refine bind_ok (readBoundedFile_ok_iff.mpr ⟨hrec, hbytes⟩) ?_
  refine bind_ok (by simp only [parseJson, hparse]; rfl) ?_
  refine bind_ok (a := ()) ?_ ?_
  · rcases hcase with ⟨rfl, rfl⟩ | ⟨g, rfl, rfl⟩ <;> cases t <;> rfl
  refine bind_ok (a := if generation = 0 then 1 else 2)
    (requireUnsigned_of_field (by cases t <;> cases generation <;> rfl)) ?_
  refine bind_ok (a := ()) ?_ ?_
  · rcases hcase with ⟨rfl, rfl⟩ | ⟨g, rfl, rfl⟩ <;> rfl
  refine bind_ok (a := t.definition.fromSchemaVersion)
    (requireUnsigned_of_field (by cases t <;> cases generation <;> rfl)) ?_
  refine bind_ok (a := ()) (by simp) ?_
  refine bind_ok (a := t.definition.toSchemaVersion)
    (requireUnsigned_of_field (by cases t <;> cases generation <;> rfl)) ?_
  refine bind_ok (a := ()) (by simp) ?_
  refine bind_ok (a := store.nodeId)
    (requireString_of_field (by cases t <;> cases generation <;> rfl)) ?_
  refine bind_ok (a := ()) (by simp) ?_
  refine bind_ok (a := generation) ?_ ?_
  · rcases hcase with ⟨rfl, rfl⟩ | ⟨g, rfl, rfl⟩
    · rfl
    · exact requireUnsigned_of_field (by cases t <;> rfl)
  refine bind_ok (a := ()) ?_ ?_
  · rcases hcase with ⟨rfl, rfl⟩ | ⟨g, rfl, rfl⟩ <;> rfl
  refine bind_ok (a := checksumOf lib source)
    (requireString_of_field (by cases t <;> cases generation <;> rfl)) ?_
  refine bind_ok (a := checksumOf lib target)
    (requireString_of_field (by cases t <;> cases generation <;> rfl)) ?_
  refine bind_ok (a := ()) (by simp [hhex]) ?_
  refine bind_ok (raised_ok_iff.mpr (sha256Hex_eq_checksumOf hlib _ _)) ?_
  refine bind_ok (a := ()) (by simp) (bind_ok (a := ()) ?_ rfl)
  rcases hcase with ⟨rfl, rfl⟩ | ⟨g, rfl, rfl⟩
  · rfl
  · refine bind_ok (raised_ok_iff.mpr (sha256Hex_eq_checksumOf hlib _ _)) ?_
    simp [pairId]

structure ValidPair (lib : Libraries) (store : RaftStateStore) (t : Transition) (files : Directory)
    (backup record : Bytes) (historyId : Option Bytes) (artifact : TransitionArtifact) : Prop where
  backup_eq : artifact.backup = backup
  record_eq : artifact.record = record
  source : ∃ bytes, files.lookup backup = some bytes ∧
    bytes.length ≤ store.limits.maxStateBytes ∧ artifact.sourceChecksum = checksumOf lib bytes
  targetChecksum : isLowerHexChecksum artifact.targetChecksum = true
  numbered : Numbered lib t store.nodeId artifact.sourceChecksum artifact.targetChecksum
    artifact.generation historyId

theorem ValidPair.of_validate (hlib : lib.Lawful)
    (h : validateTransitionPair lib store t files backup record historyId = .ok artifact) :
    ValidPair lib store t files backup record historyId artifact := by
  simp only [validateTransitionPair, bind_ok_iff] at h
  obtain ⟨source, hsrc, recordBytes, _, document, _, _, _, version, _, _, _, fromVersion, _, _, _,
    toVersion, _, _, _, nodeId, _, _, _, generation, hgen, _, hpositive, sourceChecksum, _,
    targetChecksum, _, _, hhex, digest, hdigest, _, hmatch, _, hid, h⟩ := h
  obtain ⟨hget, hlen⟩ := readBoundedFile_ok_iff.mp hsrc
  cases h
  rw [raised_ok_iff, sha256Hex_eq_checksumOf hlib, ok.injEq] at hdigest
  have hsum : digest = sourceChecksum := by simpa using hmatch
  have hhex : isLowerHexChecksum sourceChecksum = true ∧
      isLowerHexChecksum targetChecksum = true := by simpa using hhex
  refine ⟨rfl, rfl, ⟨source, hget, hlen, hsum.symm.trans hdigest.symm⟩, hhex.2, ?_⟩
  cases historyId with
  | none => exact (ok.inj hgen).symm
  | some id =>
    obtain ⟨expected, hexpected, hid⟩ := bind_ok_iff.mp hid
    rw [raised_ok_iff, sha256Hex_eq_checksumOf hlib, ok.injEq] at hexpected
    have hid : id = expected := by simpa using hid
    exact ⟨by simpa using hpositive, hid.trans hexpected.symm⟩

end Records

/-! ## Validation -/

variable {orphan : Bytes} {artifacts fixedPair : List TransitionArtifact}
  {validated : List (Option TransitionArtifact)}

def validateId (lib : Libraries) (store : RaftStateStore) (t : Transition) (files : Directory)
    (orphan id : Bytes) : Except StoreException (Option TransitionArtifact) :=
  validateHistory lib store t files orphan (id, pathsOf store t files.keys id)

/-- What `validate_transition_artifacts` has established. -/
structure Validation (lib : Libraries) (store : RaftStateStore) (t : Transition)
    (files : Directory) (orphan : Bytes) (fixedPair : List TransitionArtifact) (ids : List Bytes)
    (validated : List (Option TransitionArtifact)) : Prop where
  fixedPair_eq : validateFixedPair lib store t files = .ok fixedPair
  proper : ProperNames store t files.keys
  listed : Ids store t files.keys ids
  first : ids ≠ [] → fixedPair ≠ []
  pairs : ids.mapM (validateId lib store t files orphan) = .ok validated
  bound : (fixedPair ++ validated.reduceOption).length + validated.count none ≤
    store.limits.maxTransitionHistory
  contiguous : (generations (fixedPair ++ validated.reduceOption)).Perm
    (range' 1 (generations (fixedPair ++ validated.reduceOption)).length)

theorem mergeSort_eq_range'_iff {numbers : List Nat} :
    numbers.mergeSort = range' 1 numbers.mergeSort.length ↔
      numbers.Perm (range' 1 numbers.length) := by
  rw [length_mergeSort]
  constructor
  · intro h
    exact h ▸ (mergeSort_perm numbers _).symm
  · intro h
    have hsort := @pairwise_mergeSort Nat (fun a b => decide (a ≤ b))
      (by simpa using fun a b c => Nat.le_trans) (by simpa using Nat.le_total) numbers
    have hsort : numbers.mergeSort.Pairwise (· ≤ ·) := by simpa using hsort
    exact List.Perm.eq_of_pairwise (fun a b _ _ => Nat.le_antisymm) hsort
      (pairwise_le_range' 1) ((mergeSort_perm numbers _).trans h)

theorem validateTransitionArtifacts_ok_iff :
    validateTransitionArtifacts lib store t files orphan = .ok artifacts ↔
      ∃ fixedPair ids validated, Validation lib store t files orphan fixedPair ids validated ∧
        artifacts = fixedPair ++ validated.reduceOption := by
  have hmap (ids : List Bytes) :
      (historyOf store t files.keys ids).mapM (validateHistory lib store t files orphan) =
        ids.mapM (validateId lib store t files orphan) := mapM_map
  simp only [validateTransitionArtifacts, bind_ok_iff, raised_ok_iff, check_ok_iff,
    listHistoryPaths_ok_iff, exists_const, decide_eq_false_iff_not, Nat.not_lt,
    Decidable.not_not, pure, Except.pure, ok.injEq, mergeSort_eq_range'_iff]
  constructor
  · rintro ⟨fixedPair, hfixed, _, ⟨hprop, ids, hids, rfl⟩, hfirst, validated, hpairs, hbound,
      hcont, rfl⟩
    refine ⟨fixedPair, ids, validated, ⟨hfixed, hprop, hids, fun hne hnil => ?_,
      (hmap ids).symm.trans hpairs, hbound, hcont⟩, rfl⟩
    refine hfirst ⟨?_, by simp [hnil]⟩
    simpa [historyOf] using hne
  · rintro ⟨fixedPair, ids, validated, h, rfl⟩
    refine ⟨fixedPair, h.fixedPair_eq, _, ⟨h.proper, ids, h.listed, rfl⟩, ?_, validated,
      (hmap ids).trans h.pairs, h.bound, h.contiguous, rfl⟩
    rintro ⟨hne, hnil⟩
    exact h.first (by simpa [historyOf] using hne) (by simpa using hnil)

variable {result : Option TransitionArtifact} {α β ε : Type} {b : Bool} {n : Nat}

abbrev ValidHistory (lib : Libraries) (store : RaftStateStore) (t : Transition) (files : Directory)
    (id : Bytes) (artifact : TransitionArtifact) : Prop :=
  validateTransitionPair lib store t files (store.historyName t id true)
    (store.historyName t id false) (some id) = .ok artifact

/-- A valid pair, or the backup that may stand alone. -/
theorem validateId_ok_iff : validateId lib store t files orphan id = .ok result ↔
      (∃ artifact, result = some artifact ∧ ValidHistory lib store t files id artifact) ∨
      result = none ∧ id = orphan ∧ store.historyName t id true ∈ files ∧
        store.historyName t id false ∉ files := by
  have hread {backup record : Bytes} {artifact : TransitionArtifact}
      (h : validateTransitionPair lib store t files backup record (some id) = .ok artifact) :
      backup ∈ files ∧ record ∈ files := by
    obtain ⟨⟨_, hbak, _⟩, _, hrec, _⟩ := validateTransitionPair_files h
    exact ⟨mem_of_lookup hbak, mem_of_lookup hrec⟩
  unfold validateId validateHistory pathsOf
  by_cases hbak : store.historyName t id true ∈ files
  · by_cases hrec : store.historyName t id false ∈ files
    · simp only [← AList.mem_keys, hbak, hrec, if_true, bind_ok_iff, pure, Except.pure,
        ok.injEq, not_true_eq_false, and_false, or_false]
      exact ⟨fun ⟨a, ha, heq⟩ => ⟨a, heq.symm, ha⟩, fun ⟨a, heq, ha⟩ => ⟨a, ha, heq.symm⟩⟩
    · simp only [← AList.mem_keys, hbak, hrec, if_true, if_false]
      constructor
      · intro h
        split at h
        next horphan => exact .inr ⟨(ok.inj h).symm, horphan, trivial, not_false⟩
        · cases h
      · rintro (⟨artifact, _, hpair⟩ | ⟨rfl, horphan, _⟩)
        · exact absurd (hread hpair).2 hrec
        · rw [if_pos horphan]
  · simp only [← AList.mem_keys, hbak, if_false, false_and, and_false, or_false]
    constructor
    · intro h
      cases h
    · rintro ⟨artifact, _, hpair⟩
      exact absurd (hread hpair).1 hbak

/-! ### Adding files -/

theorem mapM_eq_ok_of_imp {f g : α → Except ε β} {xs : List α} {ys : List β}
    (h : xs.mapM f = .ok ys) (himp : ∀ x ∈ xs, ∀ y, f x = .ok y → g x = .ok y) :
    xs.mapM g = .ok ys := by
  induction xs generalizing ys with
  | nil => exact h
  | cons x xs ih =>
    rw [mapM_cons] at h ⊢
    obtain ⟨y, hy, h⟩ := bind_ok_iff.mp h
    obtain ⟨rest, hrest, h⟩ := bind_ok_iff.mp h
    refine bind_ok (himp x mem_cons_self y hy) ?_
    exact bind_ok (ih hrest fun x hx => himp x (mem_cons_of_mem _ hx)) h

theorem mapM_append_ok_iff {f : α → Except ε β} {xs xs' : List α} {ys : List β} :
    (xs ++ xs').mapM f = .ok ys ↔
      ∃ us vs, xs.mapM f = .ok us ∧ xs'.mapM f = .ok vs ∧ us ++ vs = ys := by
  simp [mapM_append, bind_ok_iff, pure, Except.pure]

theorem mapM_middle_ok_iff {f : α → Except ε β} {x : α} {xs xs' : List α} {ys : List β} :
    (xs ++ x :: xs').mapM f = .ok ys ↔ ∃ us y vs, xs.mapM f = .ok us ∧ f x = .ok y ∧
      xs'.mapM f = .ok vs ∧ us ++ y :: vs = ys := by
  simp [mapM_cons, bind_ok_iff, pure, Except.pure]

/-- What the checks return comes from the elements. -/
theorem mapM_eq_ok_mem {f : α → Except ε β} {xs : List α} {ys : List β} (h : xs.mapM f = .ok ys) :
    (∀ x ∈ xs, ∃ y ∈ ys, f x = .ok y) ∧ ∀ y ∈ ys, ∃ x ∈ xs, f x = .ok y := by
  induction xs generalizing ys with
  | nil =>
    cases h
    simp
  | cons x xs ih =>
    rw [mapM_cons] at h
    obtain ⟨y, hy, h⟩ := bind_ok_iff.mp h
    obtain ⟨rest, hrest, h⟩ := bind_ok_iff.mp h
    cases h
    obtain ⟨hleft, hright⟩ := ih hrest
    constructor
    · refine forall_mem_cons.mpr ⟨⟨y, mem_cons_self, hy⟩, fun x hx => ?_⟩
      obtain ⟨y, hmem, hy⟩ := hleft x hx
      exact ⟨y, mem_cons_of_mem _ hmem, hy⟩
    · refine forall_mem_cons.mpr ⟨⟨x, mem_cons_self, hy⟩, fun y hy => ?_⟩
      obtain ⟨x, hmem, hx⟩ := hright y hy
      exact ⟨x, mem_cons_of_mem _ hmem, hx⟩

theorem validateId_insert (hname : ∀ backup, store.historyName t id backup ≠ name) :
    validateId lib store t (files.insert name content) orphan id = .ok result ↔
      validateId lib store t files orphan id = .ok result := by
  simp [validateId_ok_iff, ValidHistory, validateTransitionPair_insert (hname true) (hname
    false), hname]

theorem validateFixedPair_insert (hbak : name ≠ store.fixedBackup t)
    (hrec : name ≠ store.fixedRecord t) :
    validateFixedPair lib store t (files.insert name content) =
      validateFixedPair lib store t files := by
  simp [validateFixedPair, validateTransitionPair_insert hbak.symm hrec.symm, hbak.symm, hrec.symm]

theorem ProperNames.insert (h : ProperNames store t files.keys)
    (hname : ∀ entry, historyEntry? store t name = some entry → isLowerHexChecksum entry.1 = true) :
    ProperNames store t (files.insert name content).keys := by
  intro n hn
  rcases (AList.mem_insert files).mp (AList.mem_keys.mpr hn) with rfl | hn
  · exact hname
  · exact h n (AList.mem_keys.mp hn)

theorem ProperNames.insert_history (h : ProperNames store t files.keys)
    (hid : isLowerHexChecksum id = true) :
    ProperNames store t (files.insert (store.historyName t id b) content).keys :=
  h.insert (by simp [ historyEntry?_historyName, hid])

theorem Validation.insert_foreign (h : Validation lib store t files orphan fixedPair ids validated)
    (hname : Foreign store t name) :
    Validation lib store t (files.insert name content) orphan fixedPair ids validated := by
  have hne := historyName_ne_of_none hname.history
  refine ⟨?_, h.proper.insert (by simp [hname.history]), ⟨h.listed.sorted, fun k => ?_⟩, h.first,
    ?_, h.bound, h.contiguous⟩
  · rw [validateFixedPair_insert hname.fixedBackup hname.fixedRecord]
    exact h.fixedPair_eq
  · simp [h.listed.mem_iff, ← AList.mem_keys, hne]
  · exact mapM_eq_ok_of_imp h.pairs fun k _ result => (validateId_insert (hne k)).mpr

theorem validateId_of_orphan_ne (hne : id ≠ orphan)
    (h : validateId lib store t files orphan id = .ok result) :
    ∃ artifact, result = some artifact ∧
      ∀ orphan', validateId lib store t files orphan' id = .ok (some artifact) := by
  rcases validateId_ok_iff.mp h with ⟨artifact, rfl, hpair⟩ | ⟨_, heq, _⟩
  · exact ⟨artifact, rfl, fun orphan' => validateId_ok_iff.mpr (.inl ⟨artifact, rfl, hpair⟩)⟩
  · exact absurd heq hne

theorem pairs_insert (b : Bool) (content orphan : Bytes) (hnot : id ∉ ids)
    (h : ids.mapM (validateId lib store t files id) = .ok validated) :
    ids.mapM (validateId lib store t (files.insert (store.historyName t id b) content) orphan) =
      .ok validated ∧ none ∉ validated := by
  have hne : ∀ k ∈ ids, k ≠ id := by
    rintro k hk rfl
    exact hnot hk
  refine ⟨mapM_eq_ok_of_imp h fun k hk result hres => ?_, ?_⟩
  · obtain ⟨artifact, rfl, hall⟩ := validateId_of_orphan_ne (hne k hk) hres
    refine (validateId_insert fun b' heq => hne k hk ?_).mpr (hall orphan)
    exact (historyName_inj heq).1
  · intro hnone
    obtain ⟨k, hk, hres⟩ := (mapM_eq_ok_mem h).2 none hnone
    obtain ⟨_, heq, _⟩ := validateId_of_orphan_ne (hne k hk) hres
    cases heq

theorem Ids.insert_history {before after : List Bytes} (h : Ids store t files.keys ids)
    (hid : isLowerHexChecksum id = true) (hsort : (before ++ id :: after).Pairwise (· < ·))
    (hmem : ∀ k, k ∈ before ++ after ∨ k = id ↔ k ∈ ids ∨ k = id) :
    Ids store t (files.insert (store.historyName t id b) content).keys (before ++ id :: after) := by
  refine ⟨hsort, fun k => ?_⟩
  have hperm : k ∈ before ++ id :: after ↔ k ∈ before ++ after ∨ k = id := by
    simp only [mem_append, mem_cons]
    tauto
  simp only [hperm, hmem, h.mem_iff, ← AList.mem_keys, AList.mem_insert]
  constructor
  · rintro (⟨hk, b', hb'⟩ | rfl)
    · exact ⟨hk, b', .inr hb'⟩
    · exact ⟨hid, b, .inl rfl⟩
  · rintro ⟨hk, b', heq | hb'⟩
    · exact .inr (historyName_inj heq).1
    · exact .inl ⟨hk, b', hb'⟩

theorem Validation.addBackup (h : Validation lib store t files id fixedPair ids validated)
    (content : Bytes) (hid : isLowerHexChecksum id = true) (hnot : id ∉ ids)
    (hfirst : fixedPair ≠ [])
    (hroom : (fixedPair ++ validated.reduceOption).length < store.limits.maxTransitionHistory) :
    ∃ before after validated',
      Validation lib store t (files.insert (store.historyName t id true) content) id fixedPair
        (before ++ id :: after) validated' ∧
      validated'.reduceOption = validated.reduceOption := by
  obtain ⟨before, after, rfl, hsort⟩ := exists_split h.listed.sorted hnot
  have hlist : Ids store t (files.insert (store.historyName t id true) content).keys
      (before ++ id :: after) := h.listed.insert_history hid hsort fun k => Iff.rfl
  have hrec : store.historyName t id false ∉
      files.insert (store.historyName t id true) content := by
    intro hmem
    rcases (AList.mem_insert files).mp hmem with heq | hmem
    · exact Bool.false_ne_true (historyName_inj heq).2
    · refine hnot ((h.listed.mem_iff id).mpr ⟨hid, false, AList.mem_keys.mp hmem⟩)
  have horphan : validateId lib store t (files.insert (store.historyName t id true) content) id id =
      .ok none :=
    validateId_ok_iff.mpr (.inr ⟨rfl, rfl, (AList.mem_insert files).mpr (.inl rfl), hrec⟩)
  obtain ⟨hpairs, hnone⟩ := pairs_insert true content id hnot h.pairs
  obtain ⟨first, second, hfirstPairs, hsecondPairs, rfl⟩ := mapM_append_ok_iff.mp hpairs
  have hreduce : (first ++ none :: second).reduceOption = (first ++ second).reduceOption := by
    simp [reduceOption_append, reduceOption_cons_of_none]
  refine ⟨before, after, first ++ none :: second, ⟨?_, h.proper.insert_history hid, hlist,
    fun _ => hfirst, ?_, ?_, ?_⟩, hreduce⟩
  · obtain ⟨hbak, hrec⟩ := historyName_ne_fixed store t t id true
    rw [validateFixedPair_insert hbak hrec]
    exact h.fixedPair_eq
  · exact mapM_middle_ok_iff.mpr ⟨first, none, second, hfirstPairs, horphan, hsecondPairs, rfl⟩
  · have hcount : (first ++ none :: second).count none = 1 := by
      have hnone : (first ++ second).count none = 0 := count_eq_zero.mpr hnone
      rw [count_append] at hnone ⊢
      rw [count_cons_self]
      omega
    rw [hreduce, hcount]
    exact hroom
  · rw [hreduce]
    exact h.contiguous

/-! ### Generations -/

theorem foldl_max_le_iff {f : α → Nat} {xs : List α} {init bound : Nat} :
    xs.foldl (fun acc x => max acc (f x)) init ≤ bound ↔ init ≤ bound ∧ ∀ x ∈ xs, f x ≤ bound := by
  induction xs generalizing init with
  | nil => simp
  | cons x xs ih => rw [foldl_cons, ih, Nat.max_le, forall_mem_cons, and_assoc]

theorem nextGeneration_eq (hcont : (generations artifacts).Perm (range' 1 n))
    (hn : n + 1 < 2 ^ 64) : nextGeneration artifacts = n + 1 := by
  have hmem (g : Nat) : g ∈ generations artifacts ↔ 1 ≤ g ∧ g ≤ n := by
    rw [hcont.mem_iff, mem_range'_1]
    omega
  have hle : ∀ artifact ∈ artifacts, artifact.generation ≤ n := by
    intro artifact hartifact
    by_cases hzero : artifact.generation = 0
    · omega
    · refine ((hmem artifact.generation).mp ?_).2
      exact mem_filter.mpr ⟨mem_map_of_mem hartifact, decide_eq_true hzero⟩
  have hwrap : ∀ artifact ∈ artifacts,
      wrap64 (artifact.generation + 1) = artifact.generation + 1 := fun artifact hartifact =>
    Nat.mod_eq_of_lt (by have := hle artifact hartifact; omega)
  obtain ⟨hone, hall⟩ : 1 ≤ nextGeneration artifacts ∧ ∀ artifact ∈ artifacts,
      wrap64 (artifact.generation + 1) ≤ nextGeneration artifacts :=
    foldl_max_le_iff.mp le_rfl
  refine Nat.le_antisymm
    (foldl_max_le_iff.mpr ⟨by omega, fun artifact hartifact => ?_⟩) ?_
  · rw [hwrap artifact hartifact]
    exact Nat.succ_le_succ (hle artifact hartifact)
  · rcases Nat.eq_zero_or_pos n with rfl | hpos
    · exact hone
    · obtain ⟨hmapped, _⟩ := mem_filter.mp ((hmem n).mpr ⟨hpos, Nat.le_refl n⟩)
      obtain ⟨artifact, hartifact, rfl⟩ := mem_map.mp hmapped
      have hreach := hall artifact hartifact
      rwa [hwrap artifact hartifact] at hreach

theorem contiguous_insert {before after : List TransitionArtifact}
    (h : (generations (before ++ after)).Perm (range' 1 n)) (hgen : artifact.generation = n + 1) :
    (generations (before ++ artifact :: after)).Perm (range' 1 (n + 1)) := by
  have hnew : generations (before ++ artifact :: after) =
      generations before ++ (n + 1) :: generations after := by simp [generations, hgen]
  have hold : generations (before ++ after) = generations before ++ generations after := by
    simp [generations]
  rw [hnew, range'_1_concat]
  rw [hold] at h
  refine perm_middle.trans ((List.Perm.cons (n + 1) h).trans ?_)
  rw [Nat.add_comm 1 n]
  exact (perm_append_singleton (n + 1) _).symm

theorem Validation.addRecord (h : Validation lib store t files id fixedPair ids validated)
    (hid : isLowerHexChecksum id = true) (hbak : store.historyName t id true ∈ files)
    (hrec : store.historyName t id false ∉ files)
    (hpair : ValidHistory lib store t (files.insert (store.historyName t id false) content) id
      artifact) (hgen : artifact.generation = nextGeneration (fixedPair ++ validated.reduceOption))
    (orphan : Bytes) :
    ∃ validated' before after,
      Validation lib store t (files.insert (store.historyName t id false) content) orphan
        fixedPair ids validated' ∧
      validated.reduceOption = before ++ after ∧
      validated'.reduceOption = before ++ artifact :: after ∧ none ∉ validated' := by
  obtain ⟨before, after, rfl⟩ :=
    append_of_mem ((h.listed.mem_iff id).mpr ⟨hid, true, AList.mem_keys.mp hbak⟩)
  have hnodup : (before ++ id :: after).Nodup := by
    refine List.Pairwise.imp ?_ h.listed.sorted
    rintro a _ hlt rfl
    exact List.lt_irrefl a hlt
  obtain ⟨hnot, _⟩ := List.nodup_cons.mp (List.nodup_middle.mp hnodup)
  obtain ⟨hnotBefore, hnotAfter⟩ := not_or.mp (mt List.mem_append.mpr hnot)
  obtain ⟨first, result, second, hfirst, hres, hsecond, rfl⟩ := mapM_middle_ok_iff.mp h.pairs
  obtain rfl : result = none := by
    have horphan : validateId lib store t files id id = .ok none :=
      validateId_ok_iff.mpr (.inr ⟨rfl, rfl, hbak, hrec⟩)
    exact ok.inj (hres.symm.trans horphan)
  obtain ⟨hfirst', hnoneFirst⟩ := pairs_insert false content orphan hnotBefore hfirst
  obtain ⟨hsecond', hnoneSecond⟩ := pairs_insert false content orphan hnotAfter hsecond
  have hold : (first ++ none :: second).reduceOption =
      first.reduceOption ++ second.reduceOption := by
    simp [reduceOption_append, reduceOption_cons_of_none]
  have hnew : (first ++ some artifact :: second).reduceOption =
      first.reduceOption ++ artifact :: second.reduceOption := by
    simp [reduceOption_append, reduceOption_cons_of_some]
  have hnone : none ∉ first ++ some artifact :: second := by simp [hnoneFirst, hnoneSecond]
  have hcountOld : (first ++ none :: second).count none = 1 := by
    rw [count_append, count_cons_self, count_eq_zero.mpr hnoneFirst,
      count_eq_zero.mpr hnoneSecond]
  have hbound := h.bound
  have hcont := h.contiguous
  rw [hcountOld, hold] at hbound
  rw [hold] at hcont hgen
  have hshort : (generations (fixedPair ++ (first.reduceOption ++ second.reduceOption))).length ≤
      (fixedPair ++ (first.reduceOption ++ second.reduceOption)).length :=
    (length_filter_le _ _).trans (length_map _).le
  rw [nextGeneration_eq hcont (by have := store.history_lt; omega)] at hgen
  refine ⟨first ++ some artifact :: second, first.reduceOption, second.reduceOption,
    ⟨?_, h.proper.insert_history hid, ?_, h.first, ?_, ?_, ?_⟩, hold, hnew, hnone⟩
  · obtain ⟨hne, hne'⟩ := historyName_ne_fixed store t t id false
    rw [validateFixedPair_insert hne hne']
    exact h.fixedPair_eq
  · refine h.listed.insert_history hid h.listed.sorted fun k => ?_
    simp only [mem_append, mem_cons]
    tauto
  · refine mapM_middle_ok_iff.mpr ⟨first, some artifact, second, hfirst', ?_, hsecond', rfl⟩
    exact validateId_ok_iff.mpr (.inl ⟨artifact, rfl, hpair⟩)
  · rw [count_eq_zero.mpr hnone, hnew]
    simp only [length_append, length_cons] at hbound ⊢
    omega
  · rw [← append_assoc] at hcont hgen
    have hinsert := contiguous_insert hcont hgen
    have hlen := hinsert.length_eq
    rw [length_range'] at hlen
    rw [hnew, ← append_assoc, hlen]
    exact hinsert

end BoostGateway.Raft
