import BoostGateway.Raft.Artifacts
import BoostGateway.Raft.Reference

/-!
# Transitions that are interrupted

A transition writes a backup, a record and the state file, and validates the directory in between.
Started again after any of these writes it comes to the same end (`crash_safe_transitions`).
-/

namespace BoostGateway.Raft

open Option List Durable Program AList TransitionArtifact

variable {lib : Libraries} {store : RaftStateStore} {t t' : Transition}
  {files middle after : Directory} {source target id bytes name orphan : Bytes}
  {artifacts : List TransitionArtifact} {artifact : TransitionArtifact} {past : List Directory}

section Writing

variable {β : Type} {backup record : Bytes} {u : Unit} {ids : List Bytes}

theorem compute_bind_leads_iff {α : Type} {result : Except StoreException α} {next : α → Store β}
    {b : β} : Leads (Store.compute result >>= next) files b after past ↔
      ∃ a, result = .ok a ∧ Leads (next a) files b after past :=
  query_bind_leads_iff

theorem durableWrite_bind_leads_iff {next : Bool → Store β} {b : β} (hnew : name ∉ files) :
    Leads (durableWrite name bytes false >>= next) files b after past ↔
      ∃ past', Leads (next true) (files.insert name bytes) b after past' ∧ past = files :: past' :=
  create_bind_leads_iff hnew

def RecordText (lib : Libraries) (store : RaftStateStore) (t : Transition) (source target : Bytes)
    (generation : Nat) (bytes : Bytes) : Prop :=
  lib.dump (recordDocument t store.nodeId (checksumOf lib source) (checksumOf lib target)
    generation) = .ok bytes

/-- The directories of a pair, whose backup may be there. -/
inductive PairWritten (files : Directory) (backup record source bytes : Bytes) :
    Directory → List Directory → Prop where
  | both : backup ∉ files → PairWritten files backup record source bytes
        ((files.insert backup source).insert record bytes) [files, files.insert backup source]
  | record : files.lookup backup = some source →
      PairWritten files backup record source bytes (files.insert record bytes) [files]

theorem lookup_historyOf {names : List Bytes} (h : Ids store t names ids)
    (hid : isLowerHexChecksum id = true) :
    ((historyOf store t names ids).lookup id).getD {} = pathsOf store t names id := by
  by_cases hmem : id ∈ ids
  · rw [historyOf, lookup_graph _ hmem, getD_some]
  · have hget : (historyOf store t names ids).lookup id = none := by
      refine lookup_eq_none_iff.mpr fun p hp => ?_
      obtain ⟨k, hk, rfl⟩ := mem_map.mp hp
      refine bne_iff_ne.mpr ?_
      rintro rfl
      exact hmem hk
    rw [hget, getD_none, pathsOf_eq_empty h hid hmem]

theorem writeHistoryBackup_some_leads_iff (hsource : source.length ≤ store.limits.maxStateBytes) :
    Leads (writeHistoryBackup store t source id artifacts (some name)) files u after past ↔
      files.lookup name = some source ∧ after = files ∧ past = [] := by
  simp only [writeHistoryBackup, query_bind_leads_iff, readBoundedFile_ok_iff]
  constructor
  · rintro ⟨bytes, ⟨hget, _⟩, hleads⟩
    obtain ⟨hcheck, hafter, hpast⟩ := query_leads_iff.mp hleads
    obtain rfl : bytes = source := by simpa using hcheck
    exact ⟨hget, hafter, hpast⟩
  · rintro ⟨hget, hafter, hpast⟩
    exact ⟨source, ⟨hget, hsource⟩, query_leads_iff.mpr ⟨by simp, hafter, hpast⟩⟩

theorem writeHistoryBackup_none_leads_iff (hnew : store.historyName t id true ∉ files) :
    Leads (writeHistoryBackup store t source id artifacts none) files u after past ↔
      artifacts.length < store.limits.maxTransitionHistory ∧
        after = files.insert (store.historyName t id true) source ∧ past = [files] := by
  have hname : store.historyBackup t id ∉ files := hnew
  simp only [writeHistoryBackup, compute_bind_leads_iff, raised_ok_iff, check_ok_iff,
    decide_eq_false_iff_not, Nat.not_le, exists_const, durableWrite_bind_leads_iff hname,
    pure_leads_iff, true_and]
  constructor
  · rintro ⟨hroom, _, ⟨rfl, rfl⟩, rfl⟩
    exact ⟨hroom, rfl, rfl⟩
  · rintro ⟨hroom, rfl, rfl⟩
    exact ⟨hroom, [], ⟨rfl, rfl⟩, rfl⟩

theorem PairWritten.lookup (hne : backup ≠ record)
    (h : PairWritten files backup record source bytes after past) :
    after.lookup backup = some source ∧ after.lookup record = some bytes := by
  cases h with
  | both => exact ⟨by rw [lookup_insert_ne hne, lookup_insert], lookup_insert _⟩
  | record hget => exact ⟨by rw [lookup_insert_ne hne, hget], lookup_insert _⟩

theorem nextGeneration_pos (artifacts : List TransitionArtifact) :
    nextGeneration artifacts ≠ 0 := by
  have hle : 1 ≤ nextGeneration artifacts := (foldl_max_le_iff.mp le_rfl).1
  omega

theorem nextGeneration_lt (artifacts : List TransitionArtifact) :
    nextGeneration artifacts < 2 ^ 64 := by
  have hle : nextGeneration artifacts ≤ 2 ^ 64 - 1 :=
    foldl_max_le_iff.mpr ⟨by decide, fun artifact _ => Nat.le_pred_of_lt (Nat.mod_lt _ (by decide))⟩
  omega

theorem fixedPair_ne_nil {pair : List TransitionArtifact} {valid : List (Option TransitionArtifact)}
    (h : Validation lib store t files orphan pair ids valid) (hbak : store.fixedBackup t ∈ files) :
    pair ≠ [] := by
  have hfixed := h.fixedPair_eq
  simp only [validateFixedPair, hbak, decide_true, if_true, bind_ok_iff, pure, Except.pure,
    Except.ok.injEq] at hfixed
  obtain ⟨_, _, artifact, _, rfl⟩ := hfixed
  simp

/-- A new backup is validated as one that may stand alone. -/
theorem validate_addBackup (source : Bytes) (hbak : store.fixedBackup t ∈ files)
    (hid : isLowerHexChecksum id = true)
    (h : validateTransitionArtifacts lib store t files id = .ok artifacts)
    (hnew : ∀ b, store.historyName t id b ∉ files)
    (hroom : artifacts.length < store.limits.maxTransitionHistory) :
    validateTransitionArtifacts lib store t (files.insert (store.historyName t id true) source) id =
      .ok artifacts := by
  obtain ⟨fixedPair, ids, validated, hval, rfl⟩ := validateTransitionArtifacts_ok_iff.mp h
  have hnot : id ∉ ids := by
    intro hmem
    obtain ⟨_, b, hb⟩ := (hval.listed.mem_iff _).mp hmem
    exact hnew b (AList.mem_keys.mpr hb)
  obtain ⟨before, rest, validated', hval', hsame⟩ := hval.addBackup source hid hnot
    (fixedPair_ne_nil hval hbak) hroom
  exact validateTransitionArtifacts_ok_iff.mpr ⟨fixedPair, _, validated', hval', by rw [hsame]⟩

theorem PairWritten.resume (h : PairWritten files backup record source bytes after past)
    (hmid : middle ∈ past) :
    middle = files ∨ backup ∉ files ∧ middle = files.insert backup source ∧
      PairWritten middle backup record source bytes after [middle] := by
  cases h with
  | both hfresh =>
    rcases mem_cons.mp hmid with rfl | hmid
    · exact .inl rfl
    · obtain rfl := mem_singleton.mp hmid
      exact .inr ⟨hfresh, rfl, .record (lookup_insert _)⟩
  | record => exact .inl (mem_singleton.mp hmid)

/-! ## A whole transition -/

def transitionKey (lib : Libraries) (store : RaftStateStore) (t : Transition)
    (source target : Bytes) : Bytes :=
  pairId lib t store.nodeId (checksumOf lib source) (checksumOf lib target)

/-- The pair is found, or written as the fixed one or in the history. -/
inductive PairKept (lib : Libraries) (store : RaftStateStore) (t : Transition)
    (source target : Bytes) (files : Directory) :
    TransitionArtifact → Directory → List Directory → Prop where
  | known {artifacts : List TransitionArtifact} {artifact : TransitionArtifact} :
      store.fixedBackup t ∈ files → store.fixedRecord t ∈ files →
      validateTransitionArtifacts lib store t files (transitionKey lib store t source target) =
        .ok artifacts →
      artifacts.find? (describes (checksumOf lib source)
        (checksumOf lib target)) = some artifact →
      PairKept lib store t source target files artifact files []
  | first {bytes : Bytes} {after : Directory} {past : List Directory}
      {artifacts : List TransitionArtifact} {artifact : TransitionArtifact} :
      store.fixedRecord t ∉ files → RecordText lib store t source target 0 bytes →
      PairWritten files (store.fixedBackup t) (store.fixedRecord t) source bytes after past →
      validateTransitionArtifacts lib store t after (transitionKey lib store t source target) =
        .ok artifacts →
      artifacts.find? (describes (checksumOf lib source)
        (checksumOf lib target)) = some artifact →
      PairKept lib store t source target files artifact after past
  | history {bytes : Bytes} {after : Directory} {past : List Directory}
      {artifacts : List TransitionArtifact} {artifact : TransitionArtifact} :
      store.fixedBackup t ∈ files → store.fixedRecord t ∈ files →
      validateTransitionArtifacts lib store t files (transitionKey lib store t source target) =
        .ok artifacts →
      artifacts.find? (describes (checksumOf lib source)
        (checksumOf lib target)) = none →
      store.historyName t (transitionKey lib store t source target) false ∉ files →
      (store.historyName t (transitionKey lib store t source target) true ∉ files →
        artifacts.length < store.limits.maxTransitionHistory) →
      RecordText lib store t source target (nextGeneration artifacts) bytes →
      PairWritten files (store.historyName t (transitionKey lib store t source target) true)
        (store.historyName t (transitionKey lib store t source target) false) source bytes after
        past →
      validateTransitionPair lib store t after
        (store.historyName t (transitionKey lib store t source target) true)
        (store.historyName t (transitionKey lib store t source target) false)
        (some (transitionKey lib store t source target)) = .ok artifact →
      PairKept lib store t source target files artifact after past

variable (hlib : lib.Lawful)

include hlib

theorem isLowerHexChecksum_transitionKey :
    isLowerHexChecksum (transitionKey lib store t source target) = true :=
  isLowerHexChecksum_hex hlib _

/-- A valid pair with a record of the transition describes it. -/
theorem eq_of_validate_written {historyId : Option Bytes} {generation : Nat}
    (hbak : files.lookup backup = some source) (hrec : files.lookup record = some bytes)
    (htext : RecordText lib store t source target generation bytes) (hgen : generation < 2 ^ 64)
    (h : validateTransitionPair lib store t files backup record historyId = .ok artifact)
    (hnumbered : Numbered lib t store.nodeId (checksumOf lib source) (checksumOf lib target)
      generation historyId) :
    artifact = { backup, record, sourceChecksum := checksumOf lib source
                 targetChecksum := checksumOf lib target, generation } := by
  obtain ⟨⟨_, hfoundBackup, hsource⟩, _, hfoundRecord, hbytes⟩ := validateTransitionPair_files h
  cases hbak.symm.trans hfoundBackup
  cases hrec.symm.trans hfoundRecord
  have hwrite := validateTransitionPair_written hlib hbak hsource hrec hbytes htext hgen hnumbered
  exact Except.ok.inj (h.symm.trans hwrite)

theorem find?_fixed (hbak : files.lookup (store.fixedBackup t) = some source)
    (hrec : files.lookup (store.fixedRecord t) = some bytes)
    (htext : RecordText lib store t source target 0 bytes)
    (h : validateTransitionArtifacts lib store t files orphan = .ok artifacts) :
    ∃ artifact, artifacts.find? (describes (checksumOf lib source)
      (checksumOf lib target)) = some artifact := by
  obtain ⟨fixedPair, ids, validated, hval, rfl⟩ := validateTransitionArtifacts_ok_iff.mp h
  have hbackupMem : store.fixedBackup t ∈ files := mem_of_lookup hbak
  have hrecordMem : store.fixedRecord t ∈ files := mem_of_lookup hrec
  have hfixed := hval.fixedPair_eq
  simp only [validateFixedPair, hbackupMem, hrecordMem, decide_true, ne_eq, not_true_eq_false,
    decide_false, if_true, bind_ok_iff, pure, Except.pure, Except.ok.injEq] at hfixed
  obtain ⟨_, _, artifact, hpair, rfl⟩ := hfixed
  have hartifact := eq_of_validate_written hlib hbak hrec htext (by decide) hpair numbered_none
  refine ⟨artifact, ?_⟩
  rw [hartifact]
  simp [describes]

/-! ## Starting again -/

/-- With a new pair the directory is valid and describes the transition. -/
theorem validate_history (hbak : store.fixedBackup t ∈ files)
    (hkey : id = transitionKey lib store t source target)
    (h : validateTransitionArtifacts lib store t files id = .ok artifacts)
    (hnew : store.historyName t id false ∉ files) (hroom : store.historyName t id true ∉ files →
      artifacts.length < store.limits.maxTransitionHistory)
    (htext : RecordText lib store t source target (nextGeneration artifacts) bytes)
    (hwrite : PairWritten files (store.historyName t id true) (store.historyName t id false)
      source bytes after past) (hpair : ValidHistory lib store t after id artifact)
    (orphan : Bytes) :
    ∃ before rest, artifacts = before ++ rest ∧
      validateTransitionArtifacts lib store t after orphan = .ok (before ++ artifact :: rest) ∧
      artifact.describes (checksumOf lib source) (checksumOf lib target) = true := by
  have hid : isLowerHexChecksum id = true := hkey ▸ isLowerHexChecksum_transitionKey hlib
  obtain ⟨hbackup, hrecordFile⟩ := hwrite.lookup (historyName_ne store t id)
  have hartifact := eq_of_validate_written hlib hbackup hrecordFile htext (nextGeneration_lt _)
    hpair ⟨nextGeneration_pos _, hkey⟩
  -- The directory just before the record, with the backup in place.
  obtain ⟨middle, hvalid, hbackupMem, hrecordMem, rfl⟩ : ∃ middle,
      validateTransitionArtifacts lib store t middle id = .ok artifacts ∧
      store.historyName t id true ∈ middle ∧ store.historyName t id false ∉ middle ∧
      after = middle.insert (store.historyName t id false) bytes := by
    cases hwrite with
    | both hfresh =>
      refine ⟨_, validate_addBackup source hbak hid h (Bool.forall_bool.mpr ⟨hnew, hfresh⟩)
        (hroom hfresh), ?_, ?_, rfl⟩
      · exact (mem_insert files).mpr (.inl rfl)
      · simp [mem_insert, hnew, (historyName_ne store t id).symm]
    | record hfind => exact ⟨files, h, mem_of_lookup hfind, hnew, rfl⟩
  obtain ⟨fixedPair, ids, validated, hval, rfl⟩ := validateTransitionArtifacts_ok_iff.mp hvalid
  obtain ⟨validated', before, rest, hval', hold, hnewPairs, _⟩ :=
    hval.addRecord hid hbackupMem hrecordMem hpair (by rw [hartifact]) orphan
  refine ⟨fixedPair ++ before, rest, by rw [hold, append_assoc], ?_, by simp [hartifact, describes]⟩
  refine validateTransitionArtifacts_ok_iff.mpr ⟨fixedPair, ids, validated', hval', ?_⟩
  rw [hnewPairs, append_assoc]

theorem PairKept.again (h : PairKept lib store t source target files artifact after past) :
    PairKept lib store t source target after artifact after [] := by
  cases h with
  | known hbak hrec hvalid hfind => exact .known hbak hrec hvalid hfind
  | first hrec htext hwrite hvalid hfind =>
    obtain ⟨hbackup, hrecordFile⟩ := hwrite.lookup (fixedBackup_ne_fixedRecord store t t)
    exact .known (mem_of_lookup hbackup) (mem_of_lookup hrecordFile) hvalid hfind
  | history hbak hrec hvalid hnone hnew hroom htext hwrite hpair =>
    obtain ⟨before, rest, rfl, hvalid', hdesc⟩ := validate_history hlib hbak rfl
      hvalid hnew hroom htext hwrite hpair (transitionKey lib store t source target)
    have hkept : ∀ name, name ∈ files → name ∈ after := by
      intro name hname
      cases hwrite <;> simp [mem_insert, hname]
    refine .known (hkept _ hbak) (hkept _ hrec) hvalid' ?_
    rw [List.find?_append, or_eq_none_iff] at hnone
    rw [List.find?_append, hnone.1, none_or, List.find?_cons_of_pos]
    exact hdesc

theorem PairKept.resume (h : PairKept lib store t source target files artifact after past)
    (hmid : middle ∈ past) :
    ∃ past', PairKept lib store t source target middle artifact after past' := by
  cases h with
  | known => cases hmid
  | first hrec htext hwrite hvalid hfind =>
    obtain rfl | ⟨-, rfl, hrest⟩ := hwrite.resume hmid
    · exact ⟨_, .first hrec htext hwrite hvalid hfind⟩
    · refine ⟨_, .first ?_ htext hrest hvalid hfind⟩
      simp [mem_insert, hrec, (fixedBackup_ne_fixedRecord store t t).symm]
  | history hbak hrec hvalid hnone hnew hroom htext hwrite hpair =>
    obtain rfl | ⟨hfresh, rfl, hrest⟩ := hwrite.resume hmid
    · exact ⟨_, .history hbak hrec hvalid hnone hnew hroom htext hwrite hpair⟩
    · have hvalid' := validate_addBackup source hbak
        (isLowerHexChecksum_transitionKey hlib) hvalid
        (Bool.forall_bool.mpr ⟨hnew, hfresh⟩) (hroom hfresh)
      refine ⟨_, .history ?_ ?_ hvalid' hnone ?_ (fun _ => hroom hfresh) htext hrest hpair⟩
      · exact (mem_insert files).mpr (.inr hbak)
      · exact (mem_insert files).mpr (.inr hrec)
      · simp [mem_insert, hnew, (historyName_ne store t _).symm]

/-! ## What the writes lead to -/

/-- A new pair's record is written, and the pair validated. -/
theorem writeRecord_leads_iff (hnew : store.historyName t id false ∉ files) :
    Leads (Store.compute (transitionRecord lib t store.nodeId source target
        (nextGeneration artifacts) (store.path (store.historyName t id false))) >>= fun bytes =>
      durableWrite (store.historyName t id false) bytes false >>= fun _ =>
      query fun files => validateTransitionPair lib store t files (store.historyName t id true)
        (store.historyName t id false) (some id)) files artifact after past ↔
      ∃ bytes, RecordText lib store t source target (nextGeneration artifacts) bytes ∧
        ValidHistory lib store t after id artifact ∧
        after = files.insert (store.historyName t id false) bytes ∧ past = [files] := by
  simp only [compute_bind_leads_iff, durableWrite_bind_leads_iff hnew,
    transitionRecord_ok_iff hlib, query_leads_iff]
  constructor
  · rintro ⟨bytes, htext, _, ⟨hpair, rfl, rfl⟩, rfl⟩
    exact ⟨bytes, htext, hpair, rfl, rfl⟩
  · rintro ⟨bytes, htext, hpair, rfl, rfl⟩
    exact ⟨bytes, htext, [], ⟨hpair, rfl, rfl⟩, rfl⟩

variable (hsource : source.length ≤ store.limits.maxStateBytes)

include hsource

/-- What the first part of `write_transition_artifacts` does. -/
theorem writeFixedPair_leads_iff :
    Leads (writeFixedPair lib store t source target) files u after past ↔
      (store.fixedBackup t ∈ files ∧ store.fixedRecord t ∈ files ∧ after = files ∧ past = []) ∨
      store.fixedRecord t ∉ files ∧ ∃ bytes, RecordText lib store t source target 0 bytes ∧
        PairWritten files (store.fixedBackup t) (store.fixedRecord t) source bytes after past := by
  have hnames := fixedBackup_ne_fixedRecord store t t
  rw [writeFixedPair, query_bind_leads_iff]
  simp only [Except.ok.injEq, exists_eq_left', query_bind_leads_iff]
  by_cases hbak : store.fixedBackup t ∈ files
  · by_cases hrec : store.fixedRecord t ∈ files
    · simp [hbak, hrec, decide_true, Bool.false_eq_true, pure_leads_iff]
    · simp only [hbak, hrec, decide_true, decide_false, Bool.not_false, and_self, if_true,
        false_and, and_false, false_or, not_false_eq_true, true_and, query_bind_leads_iff,
        compute_bind_leads_iff, raised_ok_iff, check_ok_iff, decide_eq_false_iff_not,
        Decidable.not_not, exists_const, readBoundedFile_ok_iff,
        transitionRecord_ok_iff hlib, durableWrite_bind_leads_iff hrec, pure_leads_iff]
      constructor
      · rintro ⟨_, ⟨hget, _⟩, rfl, record, htext, _, ⟨rfl, rfl⟩, rfl⟩
        exact ⟨record, htext, .record hget⟩
      · rintro ⟨record, htext, hwrite⟩
        cases hwrite with
        | both hnew => exact absurd hbak hnew
        | record hget => exact ⟨source, ⟨hget, hsource⟩, rfl, record, htext, [], ⟨rfl, rfl⟩, rfl⟩
  · have hget : files.lookup (store.fixedBackup t) = none := lookup_eq_none.mpr hbak
    by_cases hrec : store.fixedRecord t ∈ files
    · simp only [hbak, hrec, decide_true, decide_false, Bool.not_false, Bool.not_true,
        Bool.false_eq_true, and_self, if_true, if_false, false_and, not_true_eq_false, or_false,
        iff_false]
      intro hleads
      obtain ⟨hfail, _⟩ := query_leads_iff.mp hleads
      cases hfail
    · have hrec' : store.fixedRecord t ∉ files.insert (store.fixedBackup t) source := by
        simp [mem_insert, hrec, hnames.symm]
      simp only [hbak, hrec, decide_false, Bool.not_false, Bool.false_eq_true, and_self,
        if_true, if_false, false_and, and_false, false_or, not_false_eq_true, true_and,
        compute_bind_leads_iff, transitionRecord_ok_iff hlib,
        durableWrite_bind_leads_iff hbak, durableWrite_bind_leads_iff hrec', pure_leads_iff]
      constructor
      · rintro ⟨record, htext, _, ⟨_, ⟨rfl, rfl⟩, rfl⟩, rfl⟩
        exact ⟨record, htext, .both hbak⟩
      · rintro ⟨record, htext, hwrite⟩
        cases hwrite with
        | both =>
          exact ⟨record, htext, [files.insert (store.fixedBackup t) source],
            ⟨[], ⟨rfl, rfl⟩, rfl⟩, rfl⟩
        | record hfind =>
          rw [hget] at hfind
          cases hfind

/-- What the last part of `write_transition_artifacts` does. -/
theorem writeHistoryPair_leads_iff (hid : isLowerHexChecksum id = true)
    (hprop : ProperNames store t files.keys) :
    Leads (writeHistoryPair lib store t source target id artifacts) files artifact after past ↔
      store.historyName t id false ∉ files ∧
      (store.historyName t id true ∉ files → artifacts.length < store.limits.maxTransitionHistory) ∧
      ∃ bytes, RecordText lib store t source target (nextGeneration artifacts) bytes ∧
        PairWritten files (store.historyName t id true) (store.historyName t id false) source bytes
          after past ∧ ValidHistory lib store t after id artifact := by
  obtain ⟨ids, hids, hlist⟩ := hprop.list
  have hquery : listHistoryPaths store t files = .ok (historyOf store t files.keys ids) := hlist
  rw [writeHistoryPair, query_bind_leads_iff]
  simp only [hquery, Except.ok.injEq, exists_eq_left', lookup_historyOf hids hid]
  have hrecordName : store.historyRecord t id = store.historyName t id false := rfl
  have hbackupName : store.historyBackup t id = store.historyName t id true := rfl
  by_cases hrec : store.historyName t id false ∈ files
  · simp [compute_bind_leads_iff, raised_ok_iff, check_ok_iff, pathsOf, ← AList.mem_keys,
      hrec, isSome_some, Bool.true_eq_false]
  · rw [compute_bind_leads_iff]
    simp only [raised_ok_iff, check_ok_iff, pathsOf, ← AList.mem_keys, hrec, if_false,
      isSome_none, exists_const, true_and, not_false_eq_true, hrecordName, hbackupName]
    by_cases hbak : store.historyName t id true ∈ files
    · simp only [hbak, if_true, not_true_eq_false, false_imp_iff, true_and]
      rw [bind_leads_iff]
      simp only [writeHistoryBackup_some_leads_iff hsource]
      constructor
      · rintro ⟨_, _, _, _, ⟨hget, rfl, rfl⟩, hrest, rfl⟩
        obtain ⟨bytes, htext, hpair, rfl, rfl⟩ := (writeRecord_leads_iff hlib hrec).mp hrest
        exact ⟨bytes, htext, .record hget, hpair⟩
      · rintro ⟨bytes, htext, hwrite, hpair⟩
        cases hwrite with
        | both hnew => exact absurd hbak hnew
        | record hget =>
          exact ⟨(), files, [], [files], ⟨hget, rfl, rfl⟩,
            (writeRecord_leads_iff hlib hrec).mpr ⟨bytes, htext, hpair, rfl, rfl⟩, rfl⟩
    · have hrec' : store.historyName t id false ∉
          files.insert (store.historyName t id true) source := by
        simp [mem_insert, hrec, (historyName_ne store t id).symm]
      simp only [hbak, if_false, not_false_eq_true, true_imp_iff]
      rw [bind_leads_iff]
      simp only [writeHistoryBackup_none_leads_iff hbak]
      constructor
      · rintro ⟨_, _, _, _, ⟨hroom, rfl, rfl⟩, hrest, rfl⟩
        obtain ⟨bytes, htext, hpair, rfl, rfl⟩ := (writeRecord_leads_iff hlib hrec').mp hrest
        exact ⟨hroom, bytes, htext, .both hbak, hpair⟩
      · rintro ⟨hroom, bytes, htext, hwrite, hpair⟩
        cases hwrite with
        | both =>
          exact ⟨(), _, [files], [files.insert (store.historyName t id true) source],
            ⟨hroom, rfl, rfl⟩,
            (writeRecord_leads_iff hlib hrec').mpr ⟨bytes, htext, hpair, rfl, rfl⟩, rfl⟩
        | record hfind => exact absurd (mem_of_lookup hfind) hbak

theorem writeTransitionArtifacts_leads_iff :
    Leads (writeTransitionArtifacts lib store t source target) files artifact after past ↔
      PairKept lib store t source target files artifact after past := by
  have hid : isLowerHexChecksum (transitionKey lib store t source target) = true :=
    isLowerHexChecksum_transitionKey hlib
  simp only [writeTransitionArtifacts, compute_bind_leads_iff, raised_ok_iff,
    sha256Hex_eq_checksumOf hlib, transitionId_eq hlib, Except.ok.injEq, exists_eq_left']
  rw [bind_leads_iff]
  simp only [query_bind_leads_iff, writeFixedPair_leads_iff hlib hsource]
  have hprop {files : Directory} {artifacts : List TransitionArtifact} {orphan : Bytes}
      (h : validateTransitionArtifacts lib store t files orphan = .ok artifacts) :
      ProperNames store t files.keys := by
    obtain ⟨_, _, _, hval, _⟩ := validateTransitionArtifacts_ok_iff.mp h
    exact hval.proper
  constructor
  · rintro ⟨_, middle, past₁, past₂, hfixed, ⟨artifacts, hvalid, hfind⟩, rfl⟩
    unfold findOrWritePair at hfind
    rcases hfixed with ⟨hbak, hrec, rfl, rfl⟩ | ⟨hrec, bytes, htext, hwrite⟩
    · split at hfind
      next found hfound =>
        obtain ⟨rfl, rfl, rfl⟩ := pure_leads_iff.mp hfind
        exact .known hbak hrec hvalid hfound
      next hnone =>
        obtain ⟨hnew, hroom, bytes, htext, hwrite, hpair⟩ :=
          (writeHistoryPair_leads_iff hlib hsource hid (hprop hvalid)).mp hfind
        exact .history hbak hrec hvalid hnone hnew hroom htext hwrite hpair
    · obtain ⟨hbackup, hrecordFile⟩ := hwrite.lookup (fixedBackup_ne_fixedRecord store t t)
      obtain ⟨found, hfound⟩ := find?_fixed hlib hbackup hrecordFile htext hvalid
      rw [hfound] at hfind
      obtain ⟨rfl, rfl, rfl⟩ := pure_leads_iff.mp hfind
      rw [append_nil]
      exact .first hrec htext hwrite hvalid hfound
  · intro h
    cases h with
    | known hbak hrec hvalid hfound =>
      refine ⟨(), files, [], [], .inl ⟨hbak, hrec, rfl, rfl⟩, ⟨_, hvalid, ?_⟩, rfl⟩
      rw [findOrWritePair, hfound]
      exact pure_leads
    | first hrec htext hwrite hvalid hfound =>
      refine ⟨(), after, past, [], .inr ⟨hrec, _, htext, hwrite⟩, ⟨_, hvalid, ?_⟩,
        (append_nil past).symm⟩
      rw [findOrWritePair, hfound]
      exact pure_leads
    | history hbak hrec hvalid hnone hnew hroom htext hwrite hpair =>
      refine ⟨(), files, [], past, .inl ⟨hbak, hrec, rfl, rfl⟩, ⟨_, hvalid, ?_⟩, rfl⟩
      rw [findOrWritePair, hnone]
      exact (writeHistoryPair_leads_iff hlib hsource hid (hprop hvalid)).mpr
        ⟨hnew, hroom, _, htext, hwrite, hpair⟩

theorem writeTransitionArtifacts_resumable :
    Resumable (writeTransitionArtifacts lib store t source target) files ∧
      Settles (writeTransitionArtifacts lib store t source target) files := by
  simp only [Resumable, Settles, writeTransitionArtifacts_leads_iff hlib hsource]
  exact ⟨fun _ _ _ h middle hmid => h.resume hlib hmid, fun _ _ _ h => h.again hlib⟩

end Writing

/-! ## What the writes leave alone -/

def OfTransition (store : RaftStateStore) (t : Transition) (name : Bytes) : Prop :=
  name = store.fixedBackup t ∨ name = store.fixedRecord t ∨
    ∃ id backup, name = store.historyName t id backup

/-- The directories that a transition's writes lead to. -/
inductive Extends (store : RaftStateStore) (t : Transition) (files : Directory) :
    Directory → Prop where
  | refl : Extends store t files files
  | insert {middle : Directory} {name content : Bytes} :
      Extends store t files middle → OfTransition store t name →
      Extends store t files (middle.insert name content)

theorem OfTransition.foreign (h : OfTransition store t name) (hne : t' ≠ t) :
    Foreign store t' name := by
  rcases h with rfl | rfl | ⟨id, backup, rfl⟩
  · exact foreign_fixed hne (.inl rfl)
  · exact foreign_fixed hne (.inr rfl)
  · exact foreign_historyName hne backup

theorem OfTransition.ne_base (h : OfTransition store t name) : name ≠ store.base := by
  rintro rfl
  have hforeign := foreign_base store t
  rcases h with heq | heq | ⟨id, backup, heq⟩
  · exact hforeign.fixedBackup heq
  · exact hforeign.fixedRecord heq
  · exact historyName_ne_of_none hforeign.history id backup heq.symm

theorem Extends.lookup_base (h : Extends store t files middle) :
    middle.lookup store.base = files.lookup store.base := by
  induction h with
  | refl => rfl
  | insert _ hname ih => rw [lookup_insert_ne hname.ne_base.symm, ih]

theorem validate_foreign {content : Bytes} (hname : Foreign store t name)
    (h : validateTransitionArtifacts lib store t files orphan = .ok artifacts) :
    validateTransitionArtifacts lib store t (files.insert name content) orphan = .ok artifacts := by
  obtain ⟨fixedPair, ids, validated, hval, heq⟩ := validateTransitionArtifacts_ok_iff.mp h
  exact validateTransitionArtifacts_ok_iff.mpr
    ⟨fixedPair, ids, validated, hval.insert_foreign hname, heq⟩

theorem Extends.validate (h : Extends store t files middle) (hne : t' ≠ t)
    (hvalid : validateTransitionArtifacts lib store t' files orphan = .ok artifacts) :
    validateTransitionArtifacts lib store t' middle orphan = .ok artifacts := by
  induction h with
  | refl => exact hvalid
  | insert _ hname ih => exact validate_foreign (hname.foreign hne) ih

theorem PairWritten.extends {backup record : Bytes} (hbak : OfTransition store t backup)
    (hrec : OfTransition store t record)
    (h : PairWritten files backup record source bytes after past) :
    ∀ middle ∈ after :: past, Extends store t files middle := by
  cases h with
  | both =>
    simp only [forall_mem_cons, not_mem_nil, false_imp_iff, implies_true, and_true]
    exact ⟨.insert (.insert .refl hbak) hrec, .refl, .insert .refl hbak⟩
  | record =>
    simp only [forall_mem_cons, not_mem_nil, false_imp_iff, implies_true, and_true]
    exact ⟨.insert .refl hrec, .refl⟩

theorem PairKept.extends (h : PairKept lib store t source target files artifact after past) :
    ∀ middle ∈ after :: past, Extends store t files middle := by
  cases h with
  | known => simpa using Extends.refl
  | first _ _ hwrite => exact hwrite.extends (.inl rfl) (.inr (.inl rfl))
  | history _ _ _ _ _ _ _ hwrite =>
    exact hwrite.extends (.inr (.inr ⟨_, true, rfl⟩)) (.inr (.inr ⟨_, false, rfl⟩))

/-! ## The two operations -/

variable {state : RaftPersistentState}

theorem mem_iff_of_lookup (h : middle.lookup name = files.lookup name) :
    name ∈ middle ↔ name ∈ files := by rw [← lookup_isSome, ← lookup_isSome, h]

theorem readDocument_congr (h : middle.lookup store.base = files.lookup store.base) :
    readDocument lib store middle = readDocument lib store files := by
  simp [readDocument, readBoundedFile, h]

theorem readDocument_length {doc : Json} (h : readDocument lib store files = .ok (source, doc)) :
    source.length ≤ store.limits.maxStateBytes := by
  obtain ⟨bytes, hread, h⟩ := bind_ok_iff.mp h
  obtain ⟨_, _, h⟩ := bind_ok_iff.mp h
  obtain ⟨_, _, h⟩ := bind_ok_iff.mp h
  cases h
  exact (readBoundedFile_ok_iff.mp hread).2

/-- When `load_or_migrate` goes on to write. -/
theorem inspectForLoad_legacy
    (h : inspectForLoad lib store files = .ok (.legacy state source target)) :
    store.base ∈ files ∧ ∃ doc, readDocument lib store files = .ok (source, doc) ∧
        doc.contains "schema_version" = false ∧
        decodeV0 doc store.limits store.statePath = .ok state ∧
        encodeV1 lib state store.nodeId store.limits store.statePath = .ok target ∧
        ∃ artifacts, validateTransitionArtifacts lib store .downgrade files [] = .ok artifacts := by
  unfold inspectForLoad at h
  split at h
  · obtain ⟨_, _, h⟩ := bind_ok_iff.mp h
    obtain ⟨_, _, h⟩ := bind_ok_iff.mp h
    cases h
  next hbase =>
  obtain ⟨⟨bytes, doc⟩, hread, h⟩ := bind_ok_iff.mp h
  dsimp only at h
  split at h
  · obtain ⟨_, _, h⟩ := bind_ok_iff.mp h
    obtain ⟨_, _, h⟩ := bind_ok_iff.mp h
    obtain ⟨_, _, h⟩ := bind_ok_iff.mp h
    obtain ⟨_, _, h⟩ := bind_ok_iff.mp h
    cases h
  next hver =>
    obtain ⟨_, hdec, h⟩ := bind_ok_iff.mp h
    obtain ⟨_, henc, h⟩ := bind_ok_iff.mp h
    obtain ⟨artifacts, hvalid, h⟩ := bind_ok_iff.mp h
    cases h
    exact ⟨not_not.mp hbase, doc, hread, by simpa using hver, hdec,
      raised_ok_iff.mp henc, artifacts, hvalid⟩

/-- When `downgrade_to_v0` goes on to write. -/
theorem inspectForDowngrade_current
    (h : inspectForDowngrade lib store files = .ok (.current state source target)) :
    store.base ∈ files ∧ ∃ doc, readDocument lib store files = .ok (source, doc) ∧
        doc.contains "schema_version" = true ∧ checkVersion store doc = .ok () ∧
        decodeV1 lib doc store.nodeId store.limits store.statePath = .ok state ∧
        (∃ artifacts, validateTransitionArtifacts lib store .migration files [] = .ok artifacts) ∧
        encodeV0 lib state store.limits store.statePath = .ok target := by
  unfold inspectForDowngrade at h
  split at h
  · cases h
  next hbase =>
  obtain ⟨⟨bytes, doc⟩, hread, h⟩ := bind_ok_iff.mp h
  dsimp only at h
  split at h
  next hver =>
    obtain ⟨_, hcheck, h⟩ := bind_ok_iff.mp h
    obtain ⟨_, hdec, h⟩ := bind_ok_iff.mp h
    obtain ⟨artifacts, hvalid, h⟩ := bind_ok_iff.mp h
    obtain ⟨_, henc, h⟩ := bind_ok_iff.mp h
    cases h
    exact ⟨not_not.mp hbase, doc, hread, hver, hcheck, hdec, ⟨artifacts, hvalid⟩, henc⟩
  · obtain ⟨_, _, h⟩ := bind_ok_iff.mp h
    cases h

theorem inspectForLoad_extends (h : Extends store .migration files middle)
    (hinspect : inspectForLoad lib store files = .ok (.legacy state source target)) :
    inspectForLoad lib store middle = .ok (.legacy state source target) := by
  obtain ⟨hbase, document, hread, hver, hdec, henc, artifacts, hvalid⟩ :=
    inspectForLoad_legacy hinspect
  have hget := h.lookup_base
  rw [inspectForLoad, if_neg (not_not.mpr ((mem_iff_of_lookup hget).mpr hbase))]
  refine bind_ok ((readDocument_congr hget).trans hread) ?_
  dsimp only
  rw [if_neg (by simp [hver])]
  refine bind_ok hdec ?_
  refine bind_ok (raised_ok_iff.mpr henc) ?_
  exact bind_ok (h.validate (by decide) hvalid) rfl

theorem inspectForDowngrade_extends (h : Extends store .downgrade files middle)
    (hinspect : inspectForDowngrade lib store files = .ok (.current state source target)) :
    inspectForDowngrade lib store middle = .ok (.current state source target) := by
  obtain ⟨hbase, document, hread, hver, hcheck, hdec, ⟨artifacts, hvalid⟩, henc⟩ :=
    inspectForDowngrade_current hinspect
  have hget := h.lookup_base
  rw [inspectForDowngrade, if_neg (not_not.mpr ((mem_iff_of_lookup hget).mpr hbase))]
  refine bind_ok ((readDocument_congr hget).trans hread) ?_
  dsimp only
  rw [if_pos hver]
  refine bind_ok hcheck ?_
  refine bind_ok hdec ?_
  refine bind_ok (h.validate (by decide) hvalid) ?_
  exact bind_ok henc rfl

section Completing

variable {α : Type} {result : TransitionArtifact → α} {a : α}

abbrev completing (lib : Libraries) (store : RaftStateStore) (t : Transition)
    (source target : Bytes) (result : TransitionArtifact → α) : Store α :=
  writeTransitionArtifacts lib store t source target >>= fun artifact =>
    put store.base target >>= fun _ => pure (result artifact)

variable (hlib : lib.Lawful) (hsource : source.length ≤ store.limits.maxStateBytes)

include hlib hsource

theorem completing_leads_iff : Leads (completing lib store t source target result) files a after
      past ↔
      ∃ artifact written past', PairKept lib store t source target files artifact written past' ∧
        after = written.insert store.base target ∧ a = result artifact ∧
        past = past' ++ [written] := by
  constructor
  · intro h
    obtain ⟨artifact, written, past₁, past₂, hwrite, hrest, rfl⟩ := bind_leads_iff.mp h
    obtain ⟨_, _, _, _, hput, hpure, rfl⟩ := bind_leads_iff.mp hrest
    obtain ⟨rfl, rfl⟩ := put_leads_iff.mp hput
    obtain ⟨rfl, rfl, rfl⟩ := pure_leads_iff.mp hpure
    exact ⟨artifact, written, past₁, (writeTransitionArtifacts_leads_iff hlib hsource).mp hwrite,
      rfl, rfl, rfl⟩
  · rintro ⟨artifact, written, past', hkept, rfl, rfl, rfl⟩
    refine bind_leads_iff.mpr ⟨artifact, written, past', [written],
      (writeTransitionArtifacts_leads_iff hlib hsource).mpr hkept, ?_, rfl⟩
    exact bind_leads_iff.mpr ⟨(), _, [written], [], put_leads_iff.mpr ⟨rfl, rfl⟩, pure_leads, rfl⟩

/-- The writes can be taken up again, and until the last only add files. -/
theorem completing_resumable : Resumable (completing lib store t source target result) files ∧
    ∀ a after past, Leads (completing lib store t source target result) files a after past →
      ∀ middle ∈ past, Extends store t files middle := by
  obtain ⟨hresumable, hset⟩ : Resumable (writeTransitionArtifacts lib store t source target)
      files ∧ Settles (writeTransitionArtifacts lib store t source target) files :=
    writeTransitionArtifacts_resumable hlib hsource
  refine ⟨hresumable.bind_put hset, fun a after past h middle hmid => ?_⟩
  obtain ⟨artifact, written, past', hkept, _, _, rfl⟩ := (completing_leads_iff hlib hsource).mp h
  rcases mem_append.mp hmid with hmid | hmid
  · exact hkept.extends middle (mem_cons_of_mem _ hmid)
  · rw [mem_singleton.mp hmid]
    exact hkept.extends written mem_cons_self

end Completing

theorem loadOrMigrate_resumable (hlib : lib.Lawful) :
    Resumable (loadOrMigrate lib store) files := by
  refine Resumable.query_bind fun loading hinspect => ?_
  cases loading with
  | missing | current =>
    exact ⟨resumable_pure, fun _ _ _ hleads _ hmid => absurd hmid (pure_leads_past hleads)⟩
  | legacy =>
    obtain ⟨_, document, hread, _⟩ := inspectForLoad_legacy hinspect
    obtain ⟨hresumable, hext⟩ := completing_resumable hlib (readDocument_length hread)
    exact ⟨hresumable, fun a after past hleads middle hmid =>
      inspectForLoad_extends (hext a after past hleads middle hmid) hinspect⟩

theorem downgradeToV0_resumable (hlib : lib.Lawful) :
    Resumable (downgradeToV0 lib store) files := by
  refine Resumable.query_bind fun downgrading hinspect => ?_
  cases downgrading with
  | already =>
    exact ⟨resumable_pure, fun _ _ _ hleads _ hmid => absurd hmid (pure_leads_past hleads)⟩
  | current =>
    obtain ⟨_, document, hread, _⟩ := inspectForDowngrade_current hinspect
    obtain ⟨hresumable, hext⟩ := completing_resumable hlib (readDocument_length hread)
    exact ⟨hresumable, fun a after past hleads middle hmid =>
      inspectForDowngrade_extends (hext a after past hleads middle hmid) hinspect⟩

/-- `load_or_migrate` and `downgrade_to_v0`, started again after an interruption between two writes,
succeed with the result and the directory of a run without interruption. -/
theorem crash_safe_transitions (hlib : lib.Lawful) (store : RaftStateStore) (files : Directory) :
    Resumable (loadOrMigrate lib store) files ∧ Resumable (downgradeToV0 lib store) files :=
  ⟨loadOrMigrate_resumable hlib, downgradeToV0_resumable hlib⟩

def storeA : RaftStateStore where
  parent := ascii "/raft"
  base := ascii "a.raft.json"
  nodeId := nodeA
  limits := defaultLimits
  checked := by decide
  history_lt := by decide

def votedForB : RaftPersistentState where
  currentTerm := 3
  votedFor := some nodeB
  log := [{ term := 1, command := ascii "x" }]
  commitIndex := 1

def savedA : Directory := leaves (saveState reference storeA votedForB) ∅

def downgradedA : Directory := leaves (downgradeToV0 reference storeA) savedA

theorem crash_safe_transitions_downgradedA :
    ∃ result after past, Leads (loadOrMigrate reference storeA) downgradedA result after past ∧
      past.length = 3 ∧
      ∀ middle ∈ past, ∃ past',
        Leads (loadOrMigrate reference storeA) middle result after past' := by
  have hrun : (loadOrMigrate reference storeA downgradedA).outcome.isOk = true ∧
      (loadOrMigrate reference storeA downgradedA).past.length = 3 := by decide +kernel
  obtain ⟨result, hleads⟩ := exists_leads hrun.1
  exact ⟨result, _, _, hleads, hrun.2,
    (crash_safe_transitions reference_lawful storeA downgradedA).1 result _ _ hleads⟩

end BoostGateway.Raft
