import BoostGateway.Raft.Transitions

/-!
# The history of the transitions

From an empty directory, every call of the store that succeeds leaves both transitions recorded. A
transition can then fail with `kMigrationConflict` only where the history is full, apart from a
downgrade of a legacy state that no recorded downgrade produced (`transition_history`).
-/

namespace BoostGateway.Raft

open List Durable Program AList

/-! ## Valid directories -/

variable {lib : Libraries} {store : RaftStateStore} {t : Transition} {files after : Directory}
  {source target id orphan bytes name path : Bytes} {generation : Nat}
  {artifacts : List TransitionArtifact} {artifact : TransitionArtifact} {past : List Directory}
  {error : StoreException} {historyId : Option Bytes}

/-- The directory validates without a backup that stands alone. -/
def Records (lib : Libraries) (store : RaftStateStore) (t : Transition) (files : Directory)
    (artifacts : List TransitionArtifact) : Prop :=
  validateTransitionArtifacts lib store t files [] = .ok artifacts

theorem ne_nil_of_isLowerHexChecksum (h : isLowerHexChecksum id = true) : id ≠ [] := by
  rintro rfl
  cases h

theorem records_empty (lib : Libraries) (store : RaftStateStore) (t : Transition) :
    Records lib store t ∅ [] := by
  refine validateTransitionArtifacts_ok_iff.mpr ⟨[], [], [], ⟨rfl, ?_, ⟨.nil, ?_⟩, ?_, rfl, ?_, ?_⟩,
    rfl⟩
  · exact fun name hname => absurd hname not_mem_nil
  · simp
  · exact fun hne => absurd rfl hne
  · simp
  · simp [generations]

theorem maxTransitionHistory_pos (store : RaftStateStore) :
    0 < store.limits.maxTransitionHistory := by
  obtain ⟨_, _, hcheck⟩ := bind_ok_iff.mp store.checked
  obtain ⟨_, hlimits, _⟩ := bind_ok_iff.mp hcheck
  simp only [check_ok_iff, decide_eq_false_iff_not, not_or] at hlimits
  omega

theorem length_of_validate (hbak : store.fixedBackup t ∈ files)
    (hrec : files.lookup (store.fixedRecord t) = some bytes)
    (h : validateTransitionArtifacts lib store t files orphan = .ok artifacts) :
    bytes.length ≤ maxMigrationRecordBytes := by
  obtain ⟨_, _, _, hval, _⟩ := validateTransitionArtifacts_ok_iff.mp h
  have hpair := hval.fixedPair_eq
  simp only [validateFixedPair, hbak, decide_true, if_true, bind_ok_iff] at hpair
  obtain ⟨_, _, artifact, hpair, _⟩ := hpair
  obtain ⟨-, _, hfind, hlen⟩ := validateTransitionPair_files hpair
  rw [hrec, Option.some.injEq] at hfind
  exact hfind ▸ hlen

/-- What a transition adds to the recorded pairs. -/
structure Added (lib : Libraries) (source target : Bytes) (after : Directory)
    (artifact : TransitionArtifact) (artifacts artifacts' : List TransitionArtifact) : Prop where
  describes : artifact.describes (checksumOf lib source) (checksumOf lib target) = true
  mem : artifact ∈ artifacts'
  old : ∀ other ∈ artifacts', other ∈ artifacts ∨
    other = artifact ∧ after.lookup artifact.backup = some source
  length : artifacts'.length ≤ artifacts.length + 1

theorem lookup_insert_of_mem {name' content : Bytes} (hname : name ∈ files)
    (hnew : name' ∉ files) : (files.insert name' content).lookup name = files.lookup name := by
  refine lookup_insert_ne ?_
  rintro rfl
  exact hnew hname

theorem PairWritten.lookup_of_mem {backup record : Bytes}
    (h : PairWritten files backup record source bytes after past) (hrec : record ∉ files)
    (hname : name ∈ files) : after.lookup name = files.lookup name := by
  cases h with
  | both hnew =>
    have hne : name ≠ record := by
      rintro rfl
      exact hrec hname
    rw [lookup_insert_ne hne, lookup_insert_of_mem hname hnew]
  | record => exact lookup_insert_of_mem hname hrec

theorem PairKept.lookup_of_mem (h : PairKept lib store t source target files artifact after past)
    (hname : name ∈ files) : after.lookup name = files.lookup name := by
  cases h with
  | known => rfl
  | first hrec _ hwrite => exact hwrite.lookup_of_mem hrec hname
  | history _ _ _ _ hnew _ _ hwrite => exact hwrite.lookup_of_mem hnew hname

/-! ## What can go wrong in a valid directory -/

/-- A pair cannot be recorded because of the text of its record. -/
inductive RecordFails (lib : Libraries) (store : RaftStateStore) (t : Transition)
    (source target : Bytes) : StoreException → Prop where
  | unprintable {generation : Nat} {what : String} :
      lib.dump (recordDocument t store.nodeId (checksumOf lib source) (checksumOf lib target)
        generation) = .error what →
      RecordFails lib store t source target (.json what)
  | oversized {generation : Nat} {bytes path : Bytes} {detail : String} :
      RecordText lib store t source target generation bytes → generation < 2 ^ 64 →
      maxMigrationRecordBytes < bytes.length →
      RecordFails lib store t source target (.state ⟨.stateTooLarge, path, detail⟩)

theorem transitionRecord_eq_error (hlib : lib.Lawful)
    (h : transitionRecord lib t store.nodeId source target generation path = .error error) :
    RecordFails lib store t source target error := by
  simp only [transitionRecord, sha256Hex_eq_checksumOf hlib, raised, Except.mapError, bind,
    Except.bind, dumpJson] at h
  cases hdump : lib.dump (recordDocument t store.nodeId (checksumOf lib source)
      (checksumOf lib target) generation) with
  | error what =>
    rw [hdump] at h
    cases h
    exact .unprintable hdump
  | ok bytes =>
    rw [hdump] at h
    cases h

theorem validateTransitionPair_eq_error {bak rec : Bytes} (hlib : lib.Lawful)
    (hbak : files.lookup bak = some source) (hsource : source.length ≤ store.limits.maxStateBytes)
    (hrec : files.lookup rec = some bytes)
    (htext : RecordText lib store t source target generation bytes) (hgen : generation < 2 ^ 64)
    (hnumbered : Numbered lib t store.nodeId (checksumOf lib source) (checksumOf lib target)
      generation historyId)
    (h : validateTransitionPair lib store t files bak rec historyId = .error error) :
    RecordFails lib store t source target error := by
  by_cases hbytes : bytes.length ≤ maxMigrationRecordBytes
  · rw [validateTransitionPair_written hlib hbak hsource hrec hbytes htext hgen hnumbered] at h
    cases h
  · have hreadBackup : readBoundedFile store files bak store.limits.maxStateBytes = .ok source :=
      readBoundedFile_ok_iff.mpr ⟨hbak, hsource⟩
    have hreadRecord : readBoundedFile store files rec maxMigrationRecordBytes =
        .error (.state ⟨.stateTooLarge, store.path rec,
          "state file exceeds configured size limit"⟩) := by
      simp [readBoundedFile, hrec, Nat.not_le.mp hbytes, check, fail, raised, Except.mapError,
        bind, Except.bind]
    unfold validateTransitionPair at h
    rw [hreadBackup, hreadRecord] at h
    cases h
    exact .oversized htext hgen (Nat.not_le.mp hbytes)

theorem writeHistoryBackup_none_raises
    (h : Raises (writeHistoryBackup store t source id artifacts none) files error) :
    store.limits.maxTransitionHistory ≤ artifacts.length := by
  rcases query_bind_raises_iff.mp h with h | ⟨_, _, h⟩
  · by_contra hroom
    simp [hroom, check, raised, Except.mapError] at h
  · rcases bind_raises_iff.mp h with h | ⟨_, _, _, _, h⟩
    · exact absurd h not_raises_create
    · exact absurd h not_raises_pure

/-- No recorded pair has the id of another transition. -/
def Unclashing (lib : Libraries) (store : RaftStateStore) (t : Transition)
    (source target : Bytes) (artifacts : List TransitionArtifact) : Prop :=
  ∀ artifact ∈ artifacts,
    pairId lib t store.nodeId artifact.sourceChecksum artifact.targetChecksum =
      transitionKey lib store t source target →
    artifact.describes (checksumOf lib source) (checksumOf lib target) = true

variable (h : Records lib store t files artifacts)

include h

theorem Records.history
    (hid : isLowerHexChecksum id = true) {b : Bool} (hmem : store.historyName t id b ∈ files) :
    ∃ artifact ∈ artifacts, ValidHistory lib store t files id artifact := by
  obtain ⟨fixedPair, ids, validated, hval, rfl⟩ := validateTransitionArtifacts_ok_iff.mp h
  have hids : id ∈ ids := (hval.listed.mem_iff id).mpr ⟨hid, b, AList.mem_keys.mp hmem⟩
  obtain ⟨result, hres, hpair⟩ := (mapM_eq_ok_mem hval.pairs).1 id hids
  rcases validateId_ok_iff.mp hpair with ⟨artifact, rfl, hartifact⟩ | ⟨_, rfl, _⟩
  · refine ⟨artifact, mem_append_right _ ?_, hartifact⟩
    exact reduceOption_mem_iff.mpr hres
  · exact absurd rfl (ne_nil_of_isLowerHexChecksum hid)

theorem Records.validate (orphan : Bytes) :
    validateTransitionArtifacts lib store t files orphan = .ok artifacts := by
  obtain ⟨fixedPair, ids, validated, hval, rfl⟩ := validateTransitionArtifacts_ok_iff.mp h
  refine validateTransitionArtifacts_ok_iff.mpr ⟨fixedPair, ids, validated,
    { hval with pairs := mapM_eq_ok_of_imp hval.pairs fun k hk res hres => ?_ }, rfl⟩
  have hne := ne_nil_of_isLowerHexChecksum ((hval.listed.mem_iff k).mp hk).1
  obtain ⟨artifact, rfl, hall⟩ := validateId_of_orphan_ne hne hres
  exact hall orphan

theorem Records.fixed_iff : store.fixedBackup t ∈ files ↔ store.fixedRecord t ∈ files := by
  obtain ⟨_, _, _, hval, _⟩ := validateTransitionArtifacts_ok_iff.mp h
  obtain ⟨_, hcheck, _⟩ := bind_ok_iff.mp hval.fixedPair_eq
  simpa using hcheck

theorem Records.mem (hmem : artifact ∈ artifacts) :
    validateTransitionPair lib store t files (store.fixedBackup t) (store.fixedRecord t) none =
      .ok artifact ∨
    ∃ id, ValidHistory lib store t files id artifact := by
  obtain ⟨fixedPair, ids, validated, hval, rfl⟩ := validateTransitionArtifacts_ok_iff.mp h
  rcases mem_append.mp hmem with hmem | hmem
  · obtain ⟨_, _, hfixed⟩ := bind_ok_iff.mp hval.fixedPair_eq
    split at hfixed
    · obtain ⟨found, hpair, hfixed⟩ := bind_ok_iff.mp hfixed
      cases hfixed
      obtain rfl := mem_singleton.mp hmem
      exact .inl hpair
    · cases hfixed
      cases hmem
  · obtain ⟨id, _, hpair⟩ := (mapM_eq_ok_mem hval.pairs).2 _ (reduceOption_mem_iff.mp hmem)
    rcases validateId_ok_iff.mp hpair with ⟨found, heq, hpair⟩ | ⟨heq, _⟩
    · cases heq
      exact .inr ⟨id, hpair⟩
    · cases heq

theorem Records.eq_nil
    (hfixed : store.fixedBackup t ∉ files) : artifacts = [] ∧ Ids store t files.keys [] := by
  obtain ⟨fixedPair, ids, validated, hval, rfl⟩ := validateTransitionArtifacts_ok_iff.mp h
  have hpair := hval.fixedPair_eq
  simp only [validateFixedPair, hfixed, decide_false, Bool.false_eq_true, if_false, bind_ok_iff,
    pure, Except.pure, Except.ok.injEq] at hpair
  obtain ⟨_, _, rfl⟩ := hpair
  obtain rfl : ids = [] := by
    by_contra hne
    exact hval.first hne rfl
  cases hval.pairs
  exact ⟨rfl, hval.listed⟩

variable (hlib : lib.Lawful)

include hlib

theorem Records.backup (hmem : artifact ∈ artifacts) :
    OfTransition store t artifact.backup ∧ ∃ bytes, files.lookup artifact.backup = some bytes ∧
      bytes.length ≤ store.limits.maxStateBytes ∧
      artifact.sourceChecksum = checksumOf lib bytes := by
  rcases h.mem hmem with hpair | ⟨id, hpair⟩
  · have hval := ValidPair.of_validate hlib hpair
    rw [hval.backup_eq]
    exact ⟨.inl rfl, hval.source⟩
  · have hval := ValidPair.of_validate hlib hpair
    rw [hval.backup_eq]
    exact ⟨.inr (.inr ⟨id, true, rfl⟩), hval.source⟩

theorem Records.not_mem_history (hclash : Unclashing lib store t source target artifacts)
    (hnone : artifacts.find? (TransitionArtifact.describes (checksumOf lib source)
      (checksumOf lib target)) = none) (b : Bool) :
    store.historyName t (transitionKey lib store t source target) b ∉ files := by
  intro hmem
  obtain ⟨artifact, hartifact, hpair⟩ := h.history (isLowerHexChecksum_transitionKey hlib) hmem
  obtain ⟨_, hid⟩ := (ValidPair.of_validate hlib hpair).numbered
  exact List.find?_eq_none.mp hnone artifact hartifact (hclash artifact hartifact hid.symm)

theorem writeFixedPair_raises
    (hraises : Raises (writeFixedPair lib store t source target) files error) :
    RecordFails lib store t source target error := by
  rw [writeFixedPair, query_bind_raises_iff] at hraises
  simp only [reduceCtorEq, Except.ok.injEq, exists_eq_left', false_or, query_bind_raises_iff]
    at hraises
  by_cases hbak : store.fixedBackup t ∈ files
  · have hrec := h.fixed_iff.mp hbak
    simp only [hbak, hrec, decide_true, Bool.not_true, Bool.false_eq_true, and_false,
      if_false] at hraises
    exact absurd hraises not_raises_pure
  · have hrec := mt h.fixed_iff.mpr hbak
    simp only [hbak, hrec, decide_false, Bool.not_false, Bool.false_eq_true, if_true,
      if_false, false_and, and_false] at hraises
    rcases query_bind_raises_iff.mp hraises with hraises | ⟨bytes, _, hraises⟩
    · exact transitionRecord_eq_error hlib hraises
    rcases bind_raises_iff.mp hraises with hraises | ⟨_, _, _, _, hraises⟩
    · exact absurd hraises not_raises_create
    rcases bind_raises_iff.mp hraises with hraises | ⟨_, _, _, _, hraises⟩
    · exact absurd hraises not_raises_create
    · exact absurd hraises not_raises_pure

variable (hsource : source.length ≤ store.limits.maxStateBytes)

include hsource

theorem Records.addFixed (hfixed : store.fixedBackup t ∉ files)
    (htext : RecordText lib store t source target 0 bytes)
    (hbytes : bytes.length ≤ maxMigrationRecordBytes) :
    Records lib store t
      ((files.insert (store.fixedBackup t) source).insert (store.fixedRecord t) bytes)
      [{ backup := store.fixedBackup t, record := store.fixedRecord t
         sourceChecksum := checksumOf lib source, targetChecksum := checksumOf lib target
         generation := 0 }] := by
  obtain ⟨rfl, hids⟩ := h.eq_nil hfixed
  obtain ⟨_, _, _, hval, _⟩ := validateTransitionArtifacts_ok_iff.mp h
  have hnames := fixedBackup_ne_fixedRecord store t t
  have hbackup : ((files.insert (store.fixedBackup t) source).insert (store.fixedRecord t)
      bytes).lookup (store.fixedBackup t) = some source := by
    rw [lookup_insert_ne hnames, lookup_insert]
  have hpair := validateTransitionPair_written hlib hbackup hsource (lookup_insert _)
    hbytes htext (by decide) numbered_none
  refine validateTransitionArtifacts_ok_iff.mpr ⟨_, [], [],
    ⟨?_, ?_, ⟨.nil, fun k => ?_⟩, fun hne => absurd rfl hne, rfl, ?_, ?_⟩,
    (append_nil _).symm⟩
  · simp [validateFixedPair, mem_insert, check, raised, Except.mapError, hpair, bind,
      Except.bind, pure, Except.pure]
  · refine (hval.proper.insert ?_).insert ?_
    · simp [ historyEntry?_fixed (.inl rfl)]
    · simp [ historyEntry?_fixed (.inr rfl)]
  · obtain hempty := (hids.mem_iff k)
    simp only [← AList.mem_keys, mem_insert, historyName_ne_fixed store t t k, false_or]
    simpa only [← AList.mem_keys] using hempty
  · exact maxTransitionHistory_pos store
  · simp [generations]

/-- A transition keeps the directory valid and is recorded. -/
theorem PairKept.records (hkept : PairKept lib store t source target files artifact after past) :
    ∃ artifacts', Records lib store t after artifacts' ∧
      Added lib source target after artifact artifacts artifacts' := by
  cases hkept with
  | known hbak hrec hvalid hfind =>
    cases (h.validate _).symm.trans hvalid
    exact ⟨artifacts, h, List.find?_some hfind, mem_of_find?_eq_some hfind,
      fun _ hother => .inl hother, Nat.le_succ _⟩
  | first hrec htext hwrite hvalid hfind =>
    have hfixed : store.fixedBackup t ∉ files := mt h.fixed_iff.mp hrec
    have hfiles := hwrite.lookup (fixedBackup_ne_fixedRecord store t t)
    cases hwrite with
    | record hget => exact absurd (mem_of_lookup hget) hfixed
    | both =>
      have hbytes := length_of_validate
        ((mem_insert _).mpr (.inr ((mem_insert _).mpr (.inl rfl))))
        (lookup_insert _) hvalid
      have hrecs := h.addFixed hlib hsource hfixed htext hbytes
      cases (hrecs.validate _).symm.trans hvalid
      have hmem := mem_of_find?_eq_some hfind
      have hartifact := mem_singleton.mp hmem
      refine ⟨_, hrecs, List.find?_some hfind, hmem, fun other hother => .inr ⟨?_, ?_⟩, ?_⟩
      · rw [mem_singleton.mp hother, hartifact]
      · rw [hartifact]
        exact hfiles.1
      · simp
  | history hbak hrec hvalid hnone hnew hroom htext hwrite hpair =>
    cases (h.validate _).symm.trans hvalid
    obtain ⟨before, rest, rfl, hrecs, hdesc⟩ :=
      validate_history hlib hbak rfl hvalid hnew hroom htext hwrite hpair []
    have hsourceFile : after.lookup artifact.backup = some source := by
      rw [(ValidPair.of_validate hlib hpair).backup_eq]
      exact (hwrite.lookup (historyName_ne store t _)).1
    refine ⟨before ++ artifact :: rest, hrecs, hdesc, ?_, fun other hother => ?_, ?_⟩
    · exact mem_append_right _ mem_cons_self
    · simp only [mem_append, mem_cons] at hother ⊢
      tauto
    · simp only [length_append, length_cons]
      omega

/-- A new pair fails if the history is full, or by its record. -/
theorem writeHistoryPair_raises (hkey : id = transitionKey lib store t source target)
    (hnew : ∀ b, store.historyName t id b ∉ files)
    (hraises : Raises (writeHistoryPair lib store t source target id artifacts) files error) :
    store.limits.maxTransitionHistory ≤ artifacts.length ∨
      RecordFails lib store t source target error := by
  have hid : isLowerHexChecksum id = true := hkey ▸ isLowerHexChecksum_transitionKey hlib
  obtain ⟨_, _, _, hval, _⟩ := validateTransitionArtifacts_ok_iff.mp h
  obtain ⟨ids, hids, hlist⟩ := hval.proper.list
  have hpaths : pathsOf store t files.keys id = {} := by simp [pathsOf, ← AList.mem_keys, hnew]
  have hnames := historyName_ne store t id
  have hquery : listHistoryPaths store t files = .ok (historyOf store t files.keys ids) := hlist
  rcases query_bind_raises_iff.mp hraises with hraises | ⟨histories, hhistories, hraises⟩
  · rw [hquery] at hraises
    cases hraises
  cases hquery.symm.trans hhistories
  rw [lookup_historyOf hids hid, hpaths] at hraises
  rcases query_bind_raises_iff.mp hraises with hraises | ⟨_, _, hraises⟩
  · cases hraises
  rcases bind_raises_iff.mp hraises with hraises | ⟨_, middle, _, hbak, hraises⟩
  · exact .inl (writeHistoryBackup_none_raises hraises)
  obtain ⟨_, rfl, rfl⟩ := (writeHistoryBackup_none_leads_iff (hnew true)).mp hbak
  rcases query_bind_raises_iff.mp hraises with hraises | ⟨bytes, htext, hraises⟩
  · exact .inr (transitionRecord_eq_error hlib hraises)
  rcases bind_raises_iff.mp hraises with hraises | ⟨_, middle, _, hrec, hraises⟩
  · exact absurd hraises not_raises_create
  have hnewRecord : store.historyName t id false ∉
      files.insert (store.historyName t id true) source := by simp [mem_insert, hnew, hnames.symm]
  obtain ⟨_, rfl, rfl⟩ := (create_leads_iff hnewRecord).mp hrec
  have hnumbered : Numbered lib t store.nodeId (checksumOf lib source) (checksumOf lib target)
      (nextGeneration artifacts) (some id) :=
    ⟨nextGeneration_pos _, hkey⟩
  have hbackup : ((files.insert (store.historyName t id true) source).insert
      (store.historyName t id false) bytes).lookup (store.historyName t id true) =
      some source := by rw [lookup_insert_ne hnames, lookup_insert]
  exact .inr (validateTransitionPair_eq_error hlib hbackup hsource (lookup_insert _)
    ((transitionRecord_ok_iff hlib).mp htext) (nextGeneration_lt _) hnumbered hraises)

/-- With a new fixed pair the validation fails by the record. -/
theorem validate_fixed_eq_error (hfixed : store.fixedBackup t ∉ files)
    (htext : RecordText lib store t source target 0 bytes)
    (herr : validateTransitionArtifacts lib store t
      ((files.insert (store.fixedBackup t) source).insert (store.fixedRecord t) bytes) orphan =
        .error error) : RecordFails lib store t source target error := by
  by_cases hbytes : bytes.length ≤ maxMigrationRecordBytes
  · have hrecs := h.addFixed hlib hsource hfixed htext hbytes
    rw [hrecs.validate orphan] at herr
    cases herr
  · have hnames := fixedBackup_ne_fixedRecord store t t
    cases hpair : validateTransitionPair lib store t
        ((files.insert (store.fixedBackup t) source).insert (store.fixedRecord t) bytes)
        (store.fixedBackup t) (store.fixedRecord t) none with
    | ok artifact =>
      obtain ⟨-, _, hfind, hlen⟩ := validateTransitionPair_files hpair
      rw [lookup_insert, Option.some.injEq] at hfind
      exact absurd (hfind ▸ hlen) hbytes
    | error error' =>
      have hfails := validateTransitionPair_eq_error hlib
        (by rw [lookup_insert_ne hnames, lookup_insert]) hsource
        (lookup_insert _) htext (by decide) numbered_none hpair
      have hfixedPair : validateFixedPair lib store t
          ((files.insert (store.fixedBackup t) source).insert (store.fixedRecord t) bytes) =
          .error error' := by
        simp [validateFixedPair, mem_insert, check, raised, Except.mapError, hpair, bind,
          Except.bind]
      unfold validateTransitionArtifacts at herr
      rw [hfixedPair] at herr
      cases herr
      exact hfails

/-- A transition fails if the history is full, or by its record. -/
theorem writeTransitionArtifacts_raises (hclash : Unclashing lib store t source target artifacts)
    (hraises : Raises (writeTransitionArtifacts lib store t source target) files error) :
    store.limits.maxTransitionHistory ≤ artifacts.length ∨
      RecordFails lib store t source target error := by
  have hsum (bytes : Bytes) : raised (sha256Hex lib bytes store.statePath) =
      .ok (checksumOf lib bytes) := raised_ok_iff.mpr (sha256Hex_eq_checksumOf hlib _ _)
  simp only [writeTransitionArtifacts, Store.compute, query_bind_raises_iff, hsum,
    transitionId_eq hlib, reduceCtorEq, Except.ok.injEq, exists_eq_left', false_or] at hraises
  rcases bind_raises_iff.mp hraises with hraises | ⟨_, middle, _, hfixed, hrest⟩
  · exact .inr (writeFixedPair_raises h hlib hraises)
  rcases (writeFixedPair_leads_iff hlib hsource).mp hfixed with
    ⟨hbak, hrec, rfl, rfl⟩ | ⟨hrec, bytes, htext, hwrite⟩
  · rcases query_bind_raises_iff.mp hrest with hraises | ⟨found, hfind, hraises⟩
    · rw [h.validate] at hraises
      cases hraises
    rw [h.validate, Except.ok.injEq] at hfind
    subst hfind
    unfold findOrWritePair at hraises
    split at hraises
    · exact absurd hraises not_raises_pure
    next hnone =>
      exact writeHistoryPair_raises h hlib hsource rfl (h.not_mem_history hlib hclash hnone) hraises
  · have hfixedNew : store.fixedBackup t ∉ files := mt h.fixed_iff.mp hrec
    have hfiles := hwrite.lookup (fixedBackup_ne_fixedRecord store t t)
    cases hwrite with
    | record hget => exact absurd (mem_of_lookup hget) hfixedNew
    | both =>
      rcases query_bind_raises_iff.mp hrest with hraises | ⟨found, hvalid, hraises⟩
      · exact .inr (validate_fixed_eq_error h hlib hsource hfixedNew htext hraises)
      · obtain ⟨artifact, hartifact⟩ := find?_fixed hlib hfiles.1 hfiles.2 htext hvalid
        rw [findOrWritePair, hartifact] at hraises
        exact absurd hraises not_raises_pure

end BoostGateway.Raft
