import BoostGateway.Raft.StateFile

/-!
# Runs of the state store

Calls of the store on one directory, where the only other change is that a legacy state file is
replaced by another. Every directory that they reach is `Orderly`, which explains every
`kMigrationConflict` (`transition_history`).
-/

namespace BoostGateway.Raft

open List Durable Program

/-! ## Which errors are conflicts -/

/-- The exception is a `kMigrationConflict`. -/
def StoreException.Conflict : StoreException → Prop
  | .state error => error.code = .migrationConflict
  | .json _ => False

instance : DecidablePred StoreException.Conflict
  | .state error => inferInstanceAs (Decidable (error.code = .migrationConflict))
  | .json _ => inferInstanceAs (Decidable False)

def ConflictFree {α : Type} (result : Except StoreException α) : Prop :=
  ∀ error, result = .error error → ¬ error.Conflict

section ConflictFree

variable {α β : Type} {lib : Libraries} {limits : RaftStateCodecLimits} {path : Bytes}
  {state : RaftPersistentState}

theorem conflictFree_ok (a : α) : ConflictFree (.ok a : Except StoreException α) := nofun

variable {x : Except StoreException α} {code : RaftStateErrorCode} {detail : String} {failed : Bool}

theorem ConflictFree.bind {f : α → Except StoreException β} (hx : ConflictFree x)
    (hf : ∀ a, x = .ok a → ConflictFree (f a)) : ConflictFree (x >>= f) := by
  intro error herr
  cases x with
  | error =>
    cases herr
    exact hx _ rfl
  | ok a => exact hf a rfl error herr

theorem raised_bind (x : Except RaftStateException α) (f : α → Except RaftStateException β) :
    raised (x >>= f) = raised x >>= fun a => raised (f a) := by cases x <;> rfl

theorem conflictFree_fail {path : Bytes} (hcode : code ≠ .migrationConflict) :
    ConflictFree (raised (fail code path detail : Except RaftStateException α)) := by
  intro error herr hconf
  cases herr
  exact hcode hconf

theorem conflictFree_check {path : Bytes} (hcode : code ≠ .migrationConflict) :
    ConflictFree (raised (check failed code path detail)) := by
  cases failed with
  | false => exact conflictFree_ok ()
  | true => exact conflictFree_fail hcode

theorem ConflictFree.check_bind {path : Bytes} {f : Unit → Except StoreException α}
    (hcode : code ≠ .migrationConflict) (hf : ConflictFree (f ())) :
    ConflictFree (raised (check failed code path detail) >>= f) :=
  ConflictFree.bind (conflictFree_check hcode) fun _ _ => hf

theorem conflictFree_dumpJson (lib : Libraries) (doc : Json) : ConflictFree (dumpJson lib doc) := by
  unfold dumpJson
  cases lib.dump doc with
  | ok bytes => exact conflictFree_ok bytes
  | error =>
    rintro error ⟨⟩
    exact id

theorem conflictFree_validateState : ConflictFree (raised (validateState state limits path)) := by
  have hentries (ents : List LogEntry) :
      ConflictFree (raised (ents.forM (validateEntry state.currentTerm limits path))) := by
    induction ents with
    | nil => exact conflictFree_ok ()
    | cons entry ents ih =>
      rw [List.forM, raised_bind]
      refine ConflictFree.bind ?_ fun _ _ => ih
      rw [validateEntry, raised_bind]
      exact .check_bind (by decide) (conflictFree_check (by decide))
  have hvote : ConflictFree (raised (validateVotedFor state limits path)) := by
    unfold validateVotedFor
    split
    · rw [raised_bind]
      exact .check_bind (by decide) (conflictFree_check (by decide))
    · exact conflictFree_ok ()
  simp only [validateState, raised_bind]
  refine hvote.bind fun _ _ => .check_bind (by decide) (.check_bind (by decide) ?_)
  exact .check_bind (by decide) (hentries state.log)

theorem conflictFree_encodeV1 {nodeId : NodeId} :
    ConflictFree (raised (encodeV1 lib state nodeId limits path)) := by
  have hdump (doc : Json) : ConflictFree (raised (dumpState lib doc path)) := by
    unfold dumpState
    split
    · exact conflictFree_ok _
    · exact conflictFree_fail (by decide)
  have hdigest (bytes : Bytes) : ConflictFree (raised (sha256Hex lib bytes path)) := by
    dsimp only [sha256Hex]
    split
    · exact conflictFree_fail (by decide)
    · exact conflictFree_ok _
  simp only [encodeV1, raised_bind]
  refine conflictFree_validateState.bind fun _ _ => (hdump _).bind fun _ _ => ?_
  refine (hdigest _).bind fun _ _ => (hdump _).bind fun _ _ => ?_
  exact .check_bind (by decide) (conflictFree_ok _)

theorem conflictFree_encodeV0 : ConflictFree (encodeV0 lib state limits path) := by
  refine conflictFree_validateState.bind fun _ _ => (conflictFree_dumpJson _ _).bind fun _ _ => ?_
  exact .check_bind (by decide) (conflictFree_ok _)

theorem conflictFree_map {f : α → β} (h : ConflictFree x) : ConflictFree (x.map f) := by
  cases x with
  | error =>
    rintro error ⟨⟩
    exact h _ rfl
  | ok => nofun

theorem conflictFree_recordFails {store : RaftStateStore} {t : Transition} {source target : Bytes}
    {error : StoreException} (h : RecordFails lib store t source target error) :
    ¬ error.Conflict := by
  intro hconf
  cases h with
  | unprintable => exact hconf
  | oversized => cases hconf

end ConflictFree

/-! ## Runs -/

section Runs

variable (lib : Libraries) (store : RaftStateStore)

def identityOf (t : Transition) (source target : Bytes) : Bytes :=
  transitionIdentity t store.nodeId (checksumOf lib source) (checksumOf lib target)

/-- What a call compares by digests. -/
def digested (files : Directory) : List Bytes := (files.lookup store.base).toList ++
  (match inspectForLoad lib store files with
    | .ok (.legacy _ source target) => [target, identityOf lib store .migration source target]
    | _ => []) ++
  (match inspectForDowngrade lib store files with
    | .ok (.current _ source target) => [target, identityOf lib store .downgrade source target]
    | _ => [])

/-- One successful call, or a legacy file put in place. -/
inductive StoreStep (files : Directory) : Directory → Prop where
  | save {state : RaftPersistentState} {u : Unit} {after : Directory} {past : List Directory} :
      state.InRange → Leads (saveState lib store state) files u after past →
      StoreStep files after
  | load {result : Option RaftStateLoadResult} {after : Directory} {past : List Directory} :
      Leads (loadOrMigrate lib store) files result after past → StoreStep files after
  | downgrade {result : RaftStateDowngradeResult} {after : Directory} {past : List Directory} :
      Leads (downgradeToV0 lib store) files result after past → StoreStep files after
  | replace {state state' : RaftPersistentState} {old new : Bytes} :
      files.lookup store.base = some old → Legacy lib store state old →
      Legacy lib store state' new → StoreStep files (files.insert store.base new)

/-- The directories that steps lead to, with what they compared. -/
inductive StoreRun : Directory → List Bytes → Prop where
  | empty : StoreRun ∅ []
  | step {files after : Directory} {strings : List Bytes} :
      StoreRun files strings → StoreStep lib store files after →
      StoreRun after (strings ++ digested lib store files)

end Runs

def Collisionless (lib : Libraries) (strings : List Bytes) : Prop :=
  ∀ a ∈ strings, ∀ b ∈ strings, lib.sha256 a = lib.sha256 b → a = b

/-- A pair whose transition was compared, a downgrade keeping the state. -/
structure Recorded (lib : Libraries) (store : RaftStateStore) (t : Transition) (files : Directory)
    (strings : List Bytes) (artifact : TransitionArtifact) : Prop where
  identity : transitionIdentity t store.nodeId artifact.sourceChecksum artifact.targetChecksum ∈
    strings
  equivalent : t = .downgrade → ∃ state source target,
    files.lookup artifact.backup = some source ∧ Saved lib store state source ∧
      encodeV0 lib state store.limits store.statePath = .ok target ∧ target ∈ strings ∧
      artifact.targetChecksum = checksumOf lib target

structure Orderly (lib : Libraries) (store : RaftStateStore) (files : Directory)
    (strings : List Bytes) : Prop where
  stateFile : files = ∅ ∨ ∃ bytes state, files.lookup store.base = some bytes ∧
    (Saved lib store state bytes ∨ Legacy lib store state bytes)
  recorded : ∀ t, ∃ artifacts, Records lib store t files artifacts ∧
    ∀ artifact ∈ artifacts, Recorded lib store t files strings artifact

variable {lib : Libraries} {store : RaftStateStore} {t t' : Transition}
  {files middle after : Directory} {strings strings' : List Bytes}
  {source target bytes name : Bytes} {state : RaftPersistentState}
  {artifact : TransitionArtifact} {artifacts : List TransitionArtifact} {past : List Directory}

theorem orderly_empty : Orderly lib store ∅ [] where
  stateFile := .inl rfl
  recorded t := ⟨[], records_empty lib store t, by simp⟩

theorem Recorded.mono (h : Recorded lib store t files strings artifact)
    (hstrings : strings ⊆ strings')
    (hfile : middle.lookup artifact.backup = files.lookup artifact.backup) :
    Recorded lib store t middle strings' artifact where
  identity := hstrings h.identity
  equivalent ht := by
    obtain ⟨state, source, target, hget, hsaved, henc, hmem, hsum⟩ := h.equivalent ht
    exact ⟨state, source, target, hfile.trans hget, hsaved, henc, hstrings hmem, hsum⟩

theorem Orderly.mono (h : Orderly lib store files strings) (hstrings : strings ⊆ strings') :
    Orderly lib store files strings' where
  stateFile := h.stateFile
  recorded t := by
    obtain ⟨artifacts, hrecs, hall⟩ := h.recorded t
    exact ⟨artifacts, hrecs, fun artifact hmem => (hall artifact hmem).mono hstrings rfl⟩

theorem Extends.lookup_of_ne (h : Extends store t files middle) (hname : OfTransition store t' name)
    (hne : t' ≠ t) : middle.lookup name = files.lookup name := by
  induction h with
  | refl => rfl
  | insert _ hinserted ih =>
    have hforeign := hinserted.foreign hne
    refine (AList.lookup_insert_ne ?_).trans ih
    rintro rfl
    rcases hname with heq | heq | ⟨id, b, rfl⟩
    · exact hforeign.fixedBackup heq
    · exact hforeign.fixedRecord heq
    · exact historyName_ne_of_none hforeign.history id b rfl

theorem mem_digested_load
    (hinspect : inspectForLoad lib store files = .ok (.legacy state source target)) :
    identityOf lib store .migration source target ∈ digested lib store files := by
  simp [digested, hinspect]

theorem mem_digested_downgrade
    (hinspect : inspectForDowngrade lib store files = .ok (.current state source target)) :
    identityOf lib store .downgrade source target ∈ digested lib store files ∧
      target ∈ digested lib store files := by simp [digested, hinspect]

section

variable (hlib : lib.Lawful) (h : Orderly lib store files strings)

include hlib h

theorem Orderly.putState (hst : Saved lib store state bytes ∨ Legacy lib store state bytes) :
    Orderly lib store (files.insert store.base bytes) strings where
  stateFile := .inr ⟨bytes, state, AList.lookup_insert _, hst⟩
  recorded t := by
    obtain ⟨artifacts, hrecs, hall⟩ := h.recorded t
    refine ⟨artifacts, validate_foreign (foreign_base store t) hrecs, fun artifact hmem => ?_⟩
    have hname := (hrecs.backup hlib hmem).1
    exact (hall artifact hmem).mono (List.Subset.refl _) (AList.lookup_insert_ne hname.ne_base)

theorem Orderly.keep (hsrc : files.lookup store.base = some source)
    (hlen : source.length ≤ store.limits.maxStateBytes)
    (hidentity : identityOf lib store t source target ∈ strings)
    (hequivalent : t = .downgrade → ∃ state, Saved lib store state source ∧
      encodeV0 lib state store.limits store.statePath = .ok target ∧ target ∈ strings)
    (hkept : PairKept lib store t source target files artifact after past) :
    Orderly lib store after strings := by
  have hext : Extends store t files after := hkept.extends after mem_cons_self
  refine ⟨.inr ?_, fun t' => ?_⟩
  · rcases h.stateFile with rfl | ⟨bytes, state, hget, hst⟩
    · cases hsrc
    · exact ⟨bytes, state, hext.lookup_base.trans hget, hst⟩
  · obtain ⟨artifacts, hrecs, hall⟩ := h.recorded t'
    by_cases ht : t' = t
    · subst ht
      obtain ⟨artifacts', hrecs', hadded⟩ := hkept.records hrecs hlib hlen
      refine ⟨artifacts', hrecs', fun other hother => ?_⟩
      rcases hadded.old other hother with hold | ⟨rfl, hfile⟩
      · obtain ⟨_, bytes, hget, _⟩ := hrecs.backup hlib hold
        exact (hall other hold).mono (List.Subset.refl _) (hkept.lookup_of_mem (mem_of_lookup hget))
      · have hdesc := hadded.describes
        simp only [TransitionArtifact.describes, decide_eq_true_eq] at hdesc
        obtain ⟨hsourceChecksum, htarget⟩ := hdesc
        refine ⟨by rw [hsourceChecksum, htarget]; exact hidentity, fun ht => ?_⟩
        obtain ⟨state, hsaved, henc, hmem⟩ := hequivalent ht
        exact ⟨state, source, target, hfile, hsaved, henc, hmem, htarget⟩
    · refine ⟨artifacts, hext.validate ht hrecs, fun other hother => ?_⟩
      have hname := (hrecs.backup hlib hother).1
      exact (hall other hother).mono (List.Subset.refl _) (hext.lookup_of_ne hname ht)

theorem Orderly.legacy
    (hinspect : inspectForLoad lib store files = .ok (.legacy state source target)) :
    files.lookup store.base = some source ∧ source.length ≤ store.limits.maxStateBytes ∧
      Saved lib store state target := by
  obtain ⟨hbase, document, hread, _, hdec, henc, _⟩ := inspectForLoad_legacy hinspect
  obtain ⟨hget, hlen, hparse, _⟩ := readDocument_ok_iff.mp hread
  refine ⟨hget, hlen, ?_, henc⟩
  rcases h.stateFile with rfl | ⟨bytes, state', hfind, hsaved | hlegacy⟩
  · cases hget
  · obtain ⟨_, hmigrations, _⟩ := h.recorded .migration
    obtain ⟨_, hdowngrades, _⟩ := h.recorded .downgrade
    rw [hsaved.inspectForLoad hlib hfind hmigrations hdowngrades] at hinspect
    cases hinspect
  · cases hget.symm.trans hfind
    obtain ⟨_, hparse', hdec'⟩ := hlegacy.decoded
    cases hparse.symm.trans hparse'
    cases hdec.symm.trans hdec'
    exact hlegacy.inRange

theorem Orderly.current
    (hinspect : inspectForDowngrade lib store files = .ok (.current state source target)) :
    files.lookup store.base = some source ∧ Saved lib store state source ∧
      encodeV0 lib state store.limits store.statePath = .ok target := by
  obtain ⟨hbase, document, hread, hver, _, hdec, _, henc⟩ := inspectForDowngrade_current hinspect
  obtain ⟨hget, hlen, hparse, _⟩ := readDocument_ok_iff.mp hread
  refine ⟨hget, ?_, henc⟩
  rcases h.stateFile with rfl | ⟨bytes, state', hfind, hsaved | hlegacy⟩
  · cases hget
  · cases hget.symm.trans hfind
    obtain ⟨_, hparse', _, _, _, hdec'⟩ := hsaved.parse hlib
    cases hparse.symm.trans hparse'
    cases hdec.symm.trans (hdec' _)
    exact hsaved
  · cases hget.symm.trans hfind
    obtain ⟨_, hparse', hdec'⟩ := hlegacy.decoded
    cases hparse.symm.trans hparse'
    rw [(decodeV0_contains hdec').2] at hver
    cases hver

theorem Orderly.step (hstep : StoreStep lib store files after) :
    Orderly lib store after (strings ++ digested lib store files) := by
  have h' : Orderly lib store files (strings ++ digested lib store files) :=
    h.mono (subset_append_left _ _)
  cases hstep with
  | save hrange hleads =>
    obtain ⟨bytes, henc, hput⟩ := compute_bind_leads_iff.mp hleads
    obtain ⟨rfl, _⟩ := put_leads_iff.mp hput
    exact h'.putState hlib (.inl ⟨hrange, raised_ok_iff.mp henc⟩)
  | load hleads =>
    obtain ⟨loading, hinspect, hleads⟩ := query_bind_leads_iff.mp hleads
    cases loading with
    | missing | current =>
      obtain ⟨_, rfl, _⟩ := pure_leads_iff.mp hleads
      exact h'
    | legacy =>
      obtain ⟨hget, hlen, hsaved⟩ := h.legacy hlib hinspect
      obtain ⟨artifact, written, _, hkept, rfl, _⟩ := (completing_leads_iff hlib hlen).mp hleads
      have hidentity := mem_append_right strings (mem_digested_load hinspect)
      have hwrite := h'.keep hlib hget hlen hidentity nofun hkept
      exact hwrite.putState hlib (.inl hsaved)
  | downgrade hleads =>
    obtain ⟨downgrading, hinspect, hleads⟩ := query_bind_leads_iff.mp hleads
    cases downgrading with
    | already =>
      obtain ⟨_, rfl, _⟩ := pure_leads_iff.mp hleads
      exact h'
    | current state =>
      obtain ⟨hget, hsaved, henc⟩ := h.current hlib hinspect
      have hlen := hsaved.length_le hlib
      obtain ⟨artifact, written, _, hkept, rfl, _⟩ := (completing_leads_iff hlib hlen).mp hleads
      obtain ⟨hidentity, htarget⟩ := mem_digested_downgrade hinspect
      have hwrite := h'.keep hlib hget hlen (mem_append_right strings hidentity)
        (fun _ => ⟨state, hsaved, henc, mem_append_right strings htarget⟩) hkept
      exact hwrite.putState hlib (.inr (legacy_encodeV0 hlib hsaved.inRange henc).1)
  | replace _ _ hlegacy => exact h'.putState hlib (.inr hlegacy)

end

theorem StoreRun.orderly (hlib : lib.Lawful) (h : StoreRun lib store files strings) :
    Orderly lib store files strings := by
  induction h with
  | empty => exact orderly_empty
  | step _ hstep ih => exact ih.step hlib hstep

/-! ## Digests -/

theorem hexDigit_inj {m n : Nat} (hm : m < 16) (hn : n < 16) (h : hexDigit m = hexDigit n) :
    m = n := by
  have hall : ∀ m < 16, ∀ n < 16, hexDigit m = hexDigit n → m = n := by decide
  exact hall m hm n hn h

theorem flatMap_hexByte_inj : ∀ {a b : Bytes}, a.flatMap hexByte = b.flatMap hexByte → a = b
  | [], [], _ => rfl
  | [], _ :: _, h => by cases h
  | _ :: _, [], h => by cases h
  | x :: xs, y :: ys, h => by
    simp only [flatMap_cons, hexByte, cons_append, nil_append, List.cons.injEq] at h
    obtain ⟨hhigh, hlow, hrest⟩ := h
    have hx := x.toNat_lt
    have hy := y.toNat_lt
    have hhigh := hexDigit_inj (by omega) (by omega) hhigh
    have hlow := hexDigit_inj (Nat.mod_lt _ (by decide)) (Nat.mod_lt _ (by decide)) hlow
    have heq : x = y := UInt8.toNat_inj.mp (by omega)
    rw [heq, flatMap_hexByte_inj hrest]

theorem length_checksumOf (hlib : lib.Lawful) (bytes : Bytes) :
    (checksumOf lib bytes).length = 64 :=
  length_of_isLowerHexChecksum (isLowerHexChecksum_hex hlib bytes)

theorem transitionIdentity_inj {nodeId : NodeId} {a b a' b' : Bytes}
    (hb : b.length = b'.length) (ha : a.length = a'.length)
    (h : transitionIdentity t nodeId a b = transitionIdentity t nodeId a' b') :
    a = a' ∧ b = b' := by
  obtain ⟨hfront, hback⟩ := append_inj' h hb
  obtain ⟨hfront, _⟩ := append_inj' hfront rfl
  exact ⟨(append_inj' hfront ha).2, hback⟩

/-- Without collisions pairs have ids of their own. -/
theorem Orderly.unclashing (hlib : lib.Lawful) (h : Orderly lib store files strings)
    (hcollision : Collisionless lib strings)
    (hidentity : identityOf lib store t source target ∈ strings)
    (hrecs : Records lib store t files artifacts) :
    Unclashing lib store t source target artifacts := by
  intro artifact hmem hid
  obtain ⟨_, hrecs', hall⟩ := h.recorded t
  cases hrecs.symm.trans hrecs'
  have heq := hcollision _ (hall artifact hmem).identity _ hidentity (flatMap_hexByte_inj hid)
  have htarget : artifact.targetChecksum.length = 64 := by
    rcases hrecs.mem hmem with hpair | ⟨_, hpair⟩ <;>
      exact length_of_isLowerHexChecksum (ValidPair.of_validate hlib hpair).targetChecksum
  obtain ⟨_, bytes, _, _, hsrc⟩ := hrecs.backup hlib hmem
  obtain ⟨ha, hb⟩ := transitionIdentity_inj (htarget.trans (length_checksumOf hlib _).symm)
    (by rw [hsrc, length_checksumOf hlib, length_checksumOf hlib]) heq
  simp [TransitionArtifact.describes, ha, hb]

/-! ## Conflicts -/

def Full (lib : Libraries) (store : RaftStateStore) (t : Transition) (files : Directory) : Prop :=
  ∃ artifacts, Records lib store t files artifacts ∧
    artifacts.length = store.limits.maxTransitionHistory

/-- A legacy file that no recorded downgrade wrote. -/
def Unrecorded (lib : Libraries) (store : RaftStateStore) (files : Directory) : Prop :=
  ∃ bytes state artifacts, files.lookup store.base = some bytes ∧ Legacy lib store state bytes ∧
    Records lib store .downgrade files artifacts ∧
    ∀ artifact ∈ artifacts, artifact.targetChecksum ≠ checksumOf lib bytes

/-- What `validate_transition_artifacts` establishes. -/
structure TransitionHistory (lib : Libraries) (store : RaftStateStore) (t : Transition)
    (files : Directory) (artifacts : List TransitionArtifact) : Prop where
  fixedPair : store.fixedBackup t ∈ files ↔ store.fixedRecord t ∈ files
  pairs : ∀ id, store.historyBackup t id ∈ files ↔ store.historyRecord t id ∈ files
  first : ∀ id, store.historyBackup t id ∈ files → store.fixedBackup t ∈ files
  sources : ∀ artifact ∈ artifacts, ∃ bytes, files.lookup artifact.backup = some bytes ∧
    artifact.sourceChecksum = checksumOf lib bytes
  generations : (generations artifacts).Perm (List.range' 1 (generations artifacts).length)
  bound : artifacts.length ≤ store.limits.maxTransitionHistory

variable {error : StoreException}

theorem Records.bound (h : Records lib store t files artifacts) :
    artifacts.length ≤ store.limits.maxTransitionHistory := by
  obtain ⟨_, _, _, hval, rfl⟩ := validateTransitionArtifacts_ok_iff.mp h
  exact (Nat.le_add_right _ _).trans hval.bound

theorem Records.transitionHistory (hlib : lib.Lawful) (h : Records lib store t files artifacts) :
    TransitionHistory lib store t files artifacts := by
  obtain ⟨fixedPair, ids, validated, hval, heq⟩ := validateTransitionArtifacts_ok_iff.mp h
  have hprop {id : Bytes} {b : Bool} (hmem : store.historyName t id b ∈ files) :
      isLowerHexChecksum id = true :=
    hval.proper _ (AList.mem_keys.mp hmem) _ (historyEntry?_historyName store t id b)
  have hboth {id : Bytes} {b : Bool} (hmem : store.historyName t id b ∈ files) :
      store.historyName t id true ∈ files ∧ store.historyName t id false ∈ files := by
    obtain ⟨_, _, hpair⟩ := h.history (hprop hmem) hmem
    obtain ⟨⟨_, hbak, _⟩, _, hrec, _⟩ := validateTransitionPair_files hpair
    exact ⟨mem_of_lookup hbak, mem_of_lookup hrec⟩
  refine ⟨h.fixed_iff, fun id => ⟨fun hmem => (hboth (b := true) hmem).2,
    fun hmem => (hboth (b := false) hmem).1⟩, fun id hmem => ?_, fun artifact hmem => ?_, ?_,
    h.bound⟩
  · by_contra hfixed
    have hids := (h.eq_nil hfixed).2
    have hmem' : id ∈ ([] : List Bytes) := (hids.mem_iff id).mpr
      ⟨hprop (b := true) hmem, true, AList.mem_keys.mp hmem⟩
    cases hmem'
  · obtain ⟨_, bytes, hget, _, hsum⟩ := h.backup hlib hmem
    exact ⟨bytes, hget, hsum⟩
  · rw [heq]
    exact hval.contiguous

theorem conflictFree_readBoundedFile {name : Bytes} {maxBytes : Nat} :
    ConflictFree (readBoundedFile store files name maxBytes) := by
  unfold readBoundedFile
  split
  · exact conflictFree_fail (by decide)
  · exact .check_bind (by decide) (conflictFree_ok _)

theorem saveState_conflictFree (hraises : Raises (saveState lib store state) files error) :
    ¬ error.Conflict := by
  rcases query_bind_raises_iff.mp hraises with hraises | ⟨_, _, hraises⟩
  · exact conflictFree_encodeV1 _ hraises
  · exact absurd hraises not_raises_put

theorem conflictFree_readDocument : ConflictFree (readDocument lib store files) := by
  refine conflictFree_readBoundedFile.bind fun source _ => ConflictFree.bind ?_ fun _ _ => ?_
  · unfold parseJson
    split
    · exact conflictFree_ok _
    · exact conflictFree_fail (by decide)
  · exact .check_bind (by decide) (conflictFree_ok _)

theorem readDocument_of_oversized (hget : files.lookup store.base = some bytes)
    (hlen : ¬ bytes.length ≤ store.limits.maxStateBytes) :
    ∃ error, readDocument lib store files = .error error ∧ ¬ error.Conflict := by
  cases hread : readDocument lib store files with
  | error error => exact ⟨error, rfl, conflictFree_readDocument _ hread⟩
  | ok read =>
    obtain ⟨hfind, hbound, _⟩ := readDocument_ok_iff.mp hread
    cases hget.symm.trans hfind
    exact absurd hbound hlen

theorem completing_raises {α : Type} {res : TransitionArtifact → α}
    (h : Raises (completing lib store t source target res) files error) :
    Raises (writeTransitionArtifacts lib store t source target) files error := by
  rcases bind_raises_iff.mp h with hwrite | ⟨_, _, _, _, hrest⟩
  · exact hwrite
  rcases bind_raises_iff.mp hrest with hrest | ⟨_, _, _, _, hrest⟩
  · exact absurd hrest not_raises_put
  · exact absurd hrest not_raises_pure

section

variable (hlib : lib.Lawful) (h : Orderly lib store files strings)

include hlib h

theorem Orderly.full (hcollision : Collisionless lib strings)
    (hidentity : identityOf lib store t source target ∈ strings)
    (hlen : source.length ≤ store.limits.maxStateBytes)
    (hraises : Raises (writeTransitionArtifacts lib store t source target) files error)
    (hconf : error.Conflict) : Full lib store t files := by
  obtain ⟨artifacts, hrecs, _⟩ := h.recorded t
  have hclash := h.unclashing hlib hcollision hidentity hrecs
  rcases writeTransitionArtifacts_raises hrecs hlib hlen hclash hraises with hfull | hfails
  · exact ⟨artifacts, hrecs, Nat.le_antisymm hrecs.bound hfull⟩
  · exact absurd hconf (conflictFree_recordFails hfails)

/-- `load_or_migrate` only conflicts with full migrations. -/
theorem Orderly.load_full (hcollision : Collisionless lib (strings ++ digested lib store files))
    (hraises : Raises (loadOrMigrate lib store) files error) (hconf : error.Conflict) :
    Full lib store .migration files := by
  have h' : Orderly lib store files (strings ++ digested lib store files) :=
    h.mono (subset_append_left _ _)
  obtain ⟨migrations, hmigrations, _⟩ := h.recorded .migration
  obtain ⟨downgrades, hdowngrades, _⟩ := h.recorded .downgrade
  rcases query_bind_raises_iff.mp hraises with hinspect | ⟨loading, hinspect, hrest⟩
  · exfalso
    rcases h.stateFile with rfl | ⟨bytes, state, hget, hsaved | hlegacy⟩
    · cases hinspect
    · rw [hsaved.inspectForLoad hlib hget hmigrations hdowngrades] at hinspect
      cases hinspect
    · by_cases hlen : bytes.length ≤ store.limits.maxStateBytes
      · rw [hlegacy.inspectForLoad hget hlen hdowngrades] at hinspect
        exact conflictFree_map conflictFree_encodeV1 error hinspect hconf
      · obtain ⟨error', hread, hfree⟩ := readDocument_of_oversized hget hlen
        rw [inspectForLoad, if_neg (not_not.mpr (mem_of_lookup hget)), hread] at hinspect
        cases hinspect
        exact hfree hconf
  · cases loading with
    | missing | current => exact absurd hrest not_raises_pure
    | legacy =>
      obtain ⟨_, hlen, _⟩ := h.legacy hlib hinspect
      exact h'.full hlib hcollision (mem_append_right strings (mem_digested_load hinspect))
        hlen (completing_raises hrest) hconf

/-- A legacy state that a downgrade wrote is recognised. -/
theorem Orderly.verify_unrecorded {doc : Json} (hcollision : Collisionless lib strings)
    (hget : files.lookup store.base = some bytes) (hmem : bytes ∈ strings)
    (hlegacy : Legacy lib store state bytes) (hparse : lib.parse bytes = .ok doc)
    (hdec : decodeV0 doc store.limits store.statePath = .ok state)
    (herr : verifyDowngradedV0 lib store doc bytes files = .error error) :
    Unrecorded lib store files := by
  obtain ⟨artifacts, hrecs, hall⟩ := h.recorded .downgrade
  have hvalid : validateTransitionArtifacts lib store .downgrade files [] = .ok artifacts := hrecs
  cases hfind : artifacts.find?
      (fun artifact => artifact.targetChecksum = checksumOf lib bytes) with
  | none =>
    refine ⟨bytes, state, artifacts, hget, hlegacy, hrecs, fun artifact hartifact => ?_⟩
    simpa using List.find?_eq_none.mp hfind artifact hartifact
  | some artifact =>
    have hartifact := mem_of_find?_eq_some hfind
    obtain ⟨state', source, target, hbak, hsaved, henc, htarget, hsum⟩ :=
      (hall artifact hartifact).equivalent rfl
    -- The file has the digest of a legacy text of the backup, so it is that text.
    have hfound : artifact.targetChecksum = checksumOf lib bytes := by
      simpa using List.find?_some hfind
    obtain rfl :=
      hcollision bytes hmem target htarget (flatMap_hexByte_inj (hfound.symm.trans hsum))
    obtain ⟨hleg', _, hparse'⟩ := legacy_encodeV0 hlib hsaved.inRange henc
    obtain ⟨_, hdecoded, hst⟩ := hleg'.decoded
    cases hparse.symm.trans hdecoded
    cases hdec.symm.trans hst
    obtain ⟨backup, hparseBackup, _, _, _, hdecodeBackup⟩ := hsaved.parse hlib
    have hread : readBoundedFile store files artifact.backup store.limits.maxStateBytes =
        .ok source := readBoundedFile_ok_iff.mpr ⟨hbak, hsaved.length_le hlib⟩
    have hne : artifacts.isEmpty = false := by
      rw [isEmpty_eq_false_iff]
      exact ne_nil_of_mem hartifact
    simp [verifyDowngradedV0, hvalid, hne, sha256Hex_eq_checksumOf hlib, hfind, hread,
      parseJson, hparseBackup, hdecodeBackup, hdec, check, raised, Except.mapError, bind,
      Except.bind, pure, Except.pure] at herr

/-- `downgrade_to_v0` conflicts with a full history or an unrecorded state only. -/
theorem Orderly.downgrade_full
    (hcollision : Collisionless lib (strings ++ digested lib store files))
    (hraises : Raises (downgradeToV0 lib store) files error) (hconf : error.Conflict) :
    Full lib store .downgrade files ∨ Unrecorded lib store files := by
  have h' : Orderly lib store files (strings ++ digested lib store files) :=
    h.mono (subset_append_left _ _)
  obtain ⟨migrations, hmigrations, _⟩ := h.recorded .migration
  rcases query_bind_raises_iff.mp hraises with hinspect | ⟨downgrading, hinspect, hrest⟩
  · rcases h.stateFile with rfl | ⟨bytes, state, hget, hsaved | hlegacy⟩
    · exact absurd hconf (conflictFree_fail (by decide) error hinspect)
    · rw [hsaved.inspectForDowngrade hlib hget hmigrations] at hinspect
      exact absurd hconf (conflictFree_map conflictFree_encodeV0 error hinspect)
    · rw [inspectForDowngrade, if_neg (not_not.mpr (mem_of_lookup hget))] at hinspect
      by_cases hlen : bytes.length ≤ store.limits.maxStateBytes
      · obtain ⟨document, hparse, hdec⟩ := hlegacy.decoded
        obtain ⟨hobj, hver⟩ := decodeV0_contains hdec
        have hread := readDocument_ok_iff.mpr ⟨hget, hlen, hparse, hobj⟩
        rw [hread] at hinspect
        dsimp only [bind, Except.bind] at hinspect
        rw [if_neg (by simp [hver])] at hinspect
        cases hverify : verifyDowngradedV0 lib store document bytes files with
        | ok =>
          rw [hverify] at hinspect
          cases hinspect
        | error =>
          have hmem : bytes ∈ strings ++ digested lib store files := by simp [digested, hget]
          exact .inr (h'.verify_unrecorded hlib hcollision hget hmem hlegacy hparse hdec hverify)
      · obtain ⟨error', hread, hfree⟩ := readDocument_of_oversized hget hlen
        rw [hread] at hinspect
        cases hinspect
        exact absurd hconf hfree
  · cases downgrading with
    | already => exact absurd hrest not_raises_pure
    | current =>
      obtain ⟨_, hsaved, _⟩ := h.current hlib hinspect
      have hidentity := (mem_digested_downgrade hinspect).1
      exact .inl (h'.full hlib hcollision (mem_append_right strings hidentity)
        (hsaved.length_le hlib) (completing_raises hrest) hconf)

end

/-- Every directory of a run validates, and a call fails with `kMigrationConflict` only where the
history is full, apart from a downgrade of a legacy state that no recorded downgrade produced. -/
theorem transition_history (hlib : lib.Lawful) (hrun : StoreRun lib store files strings) :
    (∀ t, ∃ artifacts, validateTransitionArtifacts lib store t files [] = .ok artifacts ∧
      TransitionHistory lib store t files artifacts) ∧
    (∀ state error, Raises (saveState lib store state) files error → ¬ error.Conflict) ∧
    (Collisionless lib (strings ++ digested lib store files) → ∀ error, error.Conflict →
      (Raises (loadOrMigrate lib store) files error → Full lib store .migration files) ∧
      (Raises (downgradeToV0 lib store) files error →
        Full lib store .downgrade files ∨ Unrecorded lib store files)) := by
  have h := hrun.orderly hlib
  refine ⟨fun t => ?_, fun _ _ => saveState_conflictFree, fun hcollision error hconf => ?_⟩
  · obtain ⟨artifacts, hrecs, _⟩ := h.recorded t
    exact ⟨artifacts, hrecs, hrecs.transitionHistory hlib⟩
  · exact ⟨fun hraises => h.load_full hlib hcollision hraises hconf,
      fun hraises => h.downgrade_full hlib hcollision hraises hconf⟩

/-! ### Two directories -/

theorem votedForB_inRange : votedForB.InRange where
  currentTerm := by decide
  commitIndex := by decide
  lastApplied := by decide
  terms := by decide

theorem storeRun_downgradedA : StoreRun reference storeA downgradedA
      (([] ++ digested reference storeA ∅) ++ digested reference storeA savedA) := by
  have hsaved : (saveState reference storeA votedForB ∅).outcome.isOk = true := by decide +kernel
  have hdowngraded : (downgradeToV0 reference storeA savedA).outcome.isOk = true := by
    decide +kernel
  obtain ⟨_, hsave⟩ := exists_leads hsaved
  obtain ⟨_, hdowngrade⟩ := exists_leads hdowngraded
  exact .step (.step .empty (.save votedForB_inRange hsave)) (.downgrade hdowngrade)

theorem transition_history_downgradedA : ∃ strings, StoreRun reference storeA downgradedA strings ∧
      Collisionless reference (strings ++ digested reference storeA downgradedA) ∧
      (∀ t, ∃ artifacts,
        validateTransitionArtifacts reference storeA t downgradedA [] = .ok artifacts ∧
          TransitionHistory reference storeA t downgradedA artifacts) ∧
      ∀ error, error.Conflict → Raises (loadOrMigrate reference storeA) downgradedA error →
        Full reference storeA .migration downgradedA := by
  have hcollision : Collisionless reference
      ((([] ++ digested reference storeA ∅) ++ digested reference storeA savedA) ++
        digested reference storeA downgradedA) := by
    unfold Collisionless
    decide +kernel
  obtain ⟨hval, _, hconf⟩ := transition_history reference_lawful storeRun_downgradedA
  exact ⟨_, storeRun_downgradedA, hcollision, hval,
    fun error herr => (hconf hcollision error herr).1⟩

def legacyTextA (state : RaftPersistentState) : Bytes :=
  (encodeV0 reference state storeA.limits storeA.statePath).toOption.getD []

theorem eq_of_toOption {α ε : Type} {res : Except ε α} {default : α}
    (h : res.isOk = true) : res = .ok (res.toOption.getD default) := by
  cases res with
  | error => cases h
  | ok => rfl

theorem legacy_legacyTextA (hrange : state.InRange)
    (h : (encodeV0 reference state storeA.limits storeA.statePath).isOk = true) :
    Legacy reference storeA state (legacyTextA state) :=
  (legacy_encodeV0 reference_lawful hrange (eq_of_toOption h)).1

def votedForC : RaftPersistentState := { votedForB with votedFor := some nodeC }

theorem votedForC_inRange : votedForC.InRange := { votedForB_inRange with }

def replacedA : Directory := downgradedA.insert storeA.base (legacyTextA votedForC)

theorem not_full_replacedA (t : Transition) : ¬ Full reference storeA t replacedA := by
  have hlen : ((validateTransitionArtifacts reference storeA .migration replacedA []).map
        List.length).toOption = some 0 ∧
      ((validateTransitionArtifacts reference storeA .downgrade replacedA []).map
        List.length).toOption = some 1 := by decide +kernel
  rintro ⟨artifacts, hrecs, hfull⟩
  have hrecs : validateTransitionArtifacts reference storeA t replacedA [] = .ok artifacts := hrecs
  have hlim : storeA.limits.maxTransitionHistory = 8 := rfl
  cases t with
  | migration =>
    rw [hrecs] at hlen
    have hzero : artifacts.length = 0 := Option.some.inj hlen.1
    omega
  | downgrade =>
    rw [hrecs] at hlen
    have hone : artifacts.length = 1 := Option.some.inj hlen.2
    omega

/-- A conflict although neither history is full. -/
theorem transition_history_replacedA : ∃ strings error,
    StoreRun reference storeA replacedA strings ∧
      Raises (downgradeToV0 reference storeA) replacedA error ∧ error.Conflict ∧
      ∀ t, ¬ Full reference storeA t replacedA := by
  have hevaluated : (encodeV0 reference votedForB storeA.limits storeA.statePath).isOk = true ∧
      (encodeV0 reference votedForC storeA.limits storeA.statePath).isOk = true ∧
      downgradedA.lookup storeA.base = some (legacyTextA votedForB) ∧
      fails (fun error => decide error.Conflict) (downgradeToV0 reference storeA) replacedA =
        true := by decide +kernel
  obtain ⟨hold, hnew, hget, hfails⟩ := hevaluated
  obtain ⟨error, hraises, hconf⟩ := exists_raises hfails
  have hreplace : StoreStep reference storeA downgradedA replacedA :=
    .replace hget (legacy_legacyTextA votedForB_inRange hold)
      (legacy_legacyTextA votedForC_inRange hnew)
  exact ⟨_, error, .step storeRun_downgradedA hreplace, hraises, of_decide_eq_true hconf,
    not_full_replacedA⟩

end BoostGateway.Raft
