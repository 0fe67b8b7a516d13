import BoostGateway.Durable
import BoostGateway.Raft.StateReader

/-!
# The state store

`RaftStateStore` over the directory of the state file. A transition keeps the bytes it replaces in a
backup and describes itself in a record. The first pair of a transition has fixed names, later ones
are named by a digest of their contents. Files are known by their names in the directory, and an
exception carries the path of the name.
-/

namespace BoostGateway.Raft

open Durable Program

def maxMigrationRecordBytes : Nat := 16 * 1024

structure TransitionDefinition where
  name : String
  versionKey : String
  fromSchemaVersion : Nat
  toSchemaVersion : Nat
  fixedBackupSuffix : String
  fixedRecordSuffix : String
  historyBackupMarker : String
  historyRecordMarker : String

inductive Transition where
  | migration
  | downgrade
  deriving DecidableEq

/-- `kMigrationTransition` and `kDowngradeTransition`. -/
def Transition.definition : Transition → TransitionDefinition
  | .migration =>
    { name := "migration"
      versionKey := "migration_version"
      fromSchemaVersion := 0
      toSchemaVersion := 1
      fixedBackupSuffix := ".v0.bak"
      fixedRecordSuffix := ".migration-v0-v1.json"
      historyBackupMarker := ".v0.history."
      historyRecordMarker := ".migration-v0-v1.history." }
  | .downgrade =>
    { name := "downgrade"
      versionKey := "downgrade_version"
      fromSchemaVersion := 1
      toSchemaVersion := 0
      fixedBackupSuffix := ".v1.bak"
      fixedRecordSuffix := ".downgrade-v1-v0.json"
      historyBackupMarker := ".v1.history."
      historyRecordMarker := ".downgrade-v1-v0.history." }

structure TransitionArtifact where
  backup : Bytes
  record : Bytes
  sourceChecksum : Bytes
  targetChecksum : Bytes
  generation : Nat
  deriving DecidableEq

def filePath (parent name : Bytes) : Bytes :=
  if parent.isEmpty then name else parent ++ [47] ++ name

/-- The checks of the constructor of `RaftStateStore`. -/
def checkStore (path : Bytes) (nodeId : NodeId) (limits : RaftStateCodecLimits) :
    Except RaftStateException Unit := do
  check path.isEmpty .schemaViolation path "state path cannot be empty"
  check (limits.maxStateBytes = 0 ∨ limits.maxNodeIdBytes = 0 ∨ limits.maxLogEntries = 0 ∨
      limits.maxCommandBytes = 0 ∨ limits.maxTransitionHistory = 0) .schemaViolation path
    "codec limits must be non-zero"
  validateStorageNodeId nodeId limits path

/-- `RaftStateStore`, with its file and directory. -/
structure RaftStateStore where
  parent : Bytes
  base : Bytes
  nodeId : NodeId
  limits : RaftStateCodecLimits
  checked : checkStore (filePath parent base) nodeId limits = .ok ()
  /-- `max_transition_history` is a `std::size_t`. -/
  history_lt : limits.maxTransitionHistory < 2 ^ 64

abbrev Directory := Files Bytes Bytes

namespace RaftStateStore

/-- The names of the fixed pair and of the pairs of the history. -/
def fixedBackup (store : RaftStateStore) (t : Transition) : Bytes :=
  store.base ++ ascii t.definition.fixedBackupSuffix

@[inherit_doc fixedBackup]
def fixedRecord (store : RaftStateStore) (t : Transition) : Bytes :=
  store.base ++ ascii t.definition.fixedRecordSuffix

@[inherit_doc fixedBackup]
def historyBackup (store : RaftStateStore) (t : Transition) (id : Bytes) : Bytes :=
  store.base ++ ascii t.definition.historyBackupMarker ++ id ++ ascii ".bak"

@[inherit_doc fixedBackup]
def historyRecord (store : RaftStateStore) (t : Transition) (id : Bytes) : Bytes :=
  store.base ++ ascii t.definition.historyRecordMarker ++ id ++ ascii ".json"

def path (store : RaftStateStore) (name : Bytes) : Bytes := filePath store.parent name

def statePath (store : RaftStateStore) : Bytes := store.path store.base

end RaftStateStore

def between (name : Bytes) (start ending : Nat) : Bytes :=
  let rest := name.drop start
  if rest.length < ending then rest else rest.take (rest.length - ending)

section Store

variable (lib : Libraries) (store : RaftStateStore) (t : Transition)

def readBoundedFile (files : Directory) (name : Bytes) (maxBytes : Nat) :
    Except StoreException Bytes :=
  match files.lookup name with
  | none =>
    raised (fail .ioRead (store.path name) "cannot stat state file: No such file or directory")
  | some bytes => do
    raised (check (maxBytes < bytes.length) .stateTooLarge (store.path name)
      "state file exceeds configured size limit")
    pure bytes

/-! ## Records -/

def recordFields (nodeId : NodeId) (sourceChecksum targetChecksum : Bytes) (generation : Nat) :
    List (String × Json) :=
  [(t.definition.versionKey, .unsigned (if generation = 0 then 1 else 2)),
    ("from_schema_version", .unsigned t.definition.fromSchemaVersion),
    ("to_schema_version", .unsigned t.definition.toSchemaVersion),
    ("node_id", .string nodeId),
    ("source_sha256", .string sourceChecksum),
    ("target_sha256", .string targetChecksum)]

def recordDocument (nodeId : NodeId) (sourceChecksum targetChecksum : Bytes) (generation : Nat) :
    Json :=
  let record := Json.ofFields (recordFields t nodeId sourceChecksum targetChecksum generation)
  if generation ≠ 0 then record.set "generation" (.unsigned generation) else record

def transitionRecord (nodeId : NodeId) (source target : Bytes) (generation : Nat)
    (path : Bytes) : Except StoreException Bytes := do
  let sourceChecksum ← raised (sha256Hex lib source path)
  let targetChecksum ← raised (sha256Hex lib target path)
  dumpJson lib (recordDocument t nodeId sourceChecksum targetChecksum generation)

def transitionIdentity (nodeId : NodeId) (sourceChecksum targetChecksum : Bytes) : Bytes :=
  ascii t.definition.name ++ [10] ++ nodeId ++ [10] ++ sourceChecksum ++ [10] ++ targetChecksum

def transitionId (nodeId : NodeId) (source target path : Bytes) : Except StoreException Bytes := do
  let sourceChecksum ← raised (sha256Hex lib source path)
  let targetChecksum ← raised (sha256Hex lib target path)
  raised (sha256Hex lib (transitionIdentity t nodeId sourceChecksum targetChecksum) path)

/-! ## The history -/

structure HistoryPaths where
  backup : Option Bytes := none
  record : Option Bytes := none
  deriving DecidableEq

/-- The id in a history file's name, and whether a backup. -/
def historyEntry? (filename : Bytes) : Option (Bytes × Bool) :=
  let backupStart := store.base ++ ascii t.definition.historyBackupMarker
  let recordStart := store.base ++ ascii t.definition.historyRecordMarker
  if backupStart.isPrefixOf filename && (ascii ".bak").isSuffixOf filename then
    some (between filename backupStart.length 4, true)
  else if recordStart.isPrefixOf filename && (ascii ".json").isSuffixOf filename then
    some (between filename recordStart.length 5, false)
  else none

/-- `histories[id]` with a change, sorted by id. -/
def updateHistory (id : Bytes) (change : HistoryPaths → HistoryPaths) :
    List (Bytes × HistoryPaths) → List (Bytes × HistoryPaths)
  | [] => [(id, change {})]
  | (k, paths) :: rest =>
    if id = k then (k, change paths) :: rest
    else if id < k then (id, change {}) :: (k, paths) :: rest
    else (k, paths) :: updateHistory id change rest

def HistoryPaths.enter (name : Bytes) (backup : Bool) (paths : HistoryPaths) : HistoryPaths :=
  if backup then { paths with backup := some name } else { paths with record := some name }

/-- The loop of `list_history_paths`, in any order of the names. -/
def listHistoryNames : List Bytes → Except StoreException (List (Bytes × HistoryPaths))
  | [] => .ok []
  | name :: names => do
    let histories ← listHistoryNames names
    match historyEntry? store t name with
    | none => pure histories
    | some (id, backup) =>
      raised (check (!isLowerHexChecksum id) .migrationConflict (store.path name)
        "transition history filename has an invalid content id")
      pure (updateHistory id (HistoryPaths.enter name backup) histories)

def listHistoryPaths (files : Directory) : Except StoreException (List (Bytes × HistoryPaths)) :=
  listHistoryNames store t files.keys

def readGeneration (document : Json) (historyId : Option Bytes) (path : Bytes) :
    Except StoreException Nat :=
  if historyId.isSome then requireUnsigned document "generation" path else .ok 0

/-- The check of a pair's id against its record. -/
def checkHistoryId (historyId : Option Bytes) (sourceChecksum targetChecksum path : Bytes) :
    Except StoreException Unit :=
  match historyId with
  | none => .ok ()
  | some id => do
    let expected ← raised
      (sha256Hex lib (transitionIdentity t store.nodeId sourceChecksum targetChecksum) path)
    raised (check (id ≠ expected) .migrationConflict path
      "transition history content id does not match its record")

/-- `validate_transition_pair`, with the id in the history. -/
def validateTransitionPair (files : Directory) (backup record : Bytes) (historyId : Option Bytes) :
    Except StoreException TransitionArtifact := do
  let path := store.path record
  let mismatch := t.definition.name ++ " record does not match this node or transition"
  let backupBytes ← readBoundedFile store files backup store.limits.maxStateBytes
  let recordBytes ← readBoundedFile store files record maxMigrationRecordBytes
  let document ← raised (parseJson lib recordBytes path)
  raised (check (!document.isObject ∨ document.fields.length ≠ (if historyId.isSome then 7 else 6) ∨
      !document.contains t.definition.versionKey ∨ !document.contains "from_schema_version" ∨
      !document.contains "to_schema_version" ∨ !document.contains "node_id" ∨
      !document.contains "source_sha256" ∨ !document.contains "target_sha256" ∨
      (historyId.isSome ∧ !document.contains "generation"))
    .migrationConflict path mismatch)
  let version ← requireUnsigned document t.definition.versionKey path
  raised (check (version ≠ (if historyId.isSome then 2 else 1)) .migrationConflict path mismatch)
  let fromVersion ← requireUnsigned document "from_schema_version" path
  raised (check (fromVersion ≠ t.definition.fromSchemaVersion) .migrationConflict path mismatch)
  let toVersion ← requireUnsigned document "to_schema_version" path
  raised (check (toVersion ≠ t.definition.toSchemaVersion) .migrationConflict path mismatch)
  let nodeId ← requireString document "node_id" path
  raised (check (nodeId ≠ store.nodeId) .migrationConflict path mismatch)
  let generation ← readGeneration document historyId path
  raised (check (historyId.isSome ∧ generation = 0) .migrationConflict path
    "transition history generation must be positive")
  let sourceChecksum ← requireString document "source_sha256" path
  let targetChecksum ← requireString document "target_sha256" path
  raised (check (!isLowerHexChecksum sourceChecksum ∨ !isLowerHexChecksum targetChecksum)
    .migrationConflict path (t.definition.name ++ " backup or record checksum is invalid"))
  let digest ← raised (sha256Hex lib backupBytes (store.path backup))
  raised (check (digest ≠ sourceChecksum) .migrationConflict path
    (t.definition.name ++ " backup or record checksum is invalid"))
  checkHistoryId lib store t historyId sourceChecksum targetChecksum path
  pure { backup, record, sourceChecksum, targetChecksum, generation }

/-- The fixed pair, if there is one. -/
def validateFixedPair (files : Directory) : Except StoreException (List TransitionArtifact) := do
  let backupExists := decide (store.fixedBackup t ∈ files)
  let recordExists := decide (store.fixedRecord t ∈ files)
  raised (check (backupExists ≠ recordExists) .migrationConflict (store.path (store.fixedRecord t))
    (t.definition.name ++ " sidecars must form a complete pair"))
  if backupExists then
    let artifact ← validateTransitionPair lib store t files (store.fixedBackup t)
      (store.fixedRecord t) none
    pure [artifact]
  else pure []

/-- A pair of the history, or the backup that may stand alone. -/
def validateHistory (files : Directory) (allowedOrphan : Bytes) (history : Bytes × HistoryPaths) :
    Except StoreException (Option TransitionArtifact) :=
  match history.2.backup, history.2.record with
  | some backup, some record => do
    let artifact ← validateTransitionPair lib store t files backup record (some history.1)
    pure (some artifact)
  | some backup, none =>
    if history.1 = allowedOrphan then .ok none
    else raised (fail .migrationConflict (store.path backup)
      (t.definition.name ++ " history contains an orphaned sidecar"))
  | none, record =>
    raised (fail .migrationConflict (store.path (record.getD []))
      (t.definition.name ++ " history contains an orphaned sidecar"))

def generations (artifacts : List TransitionArtifact) : List Nat :=
  (artifacts.map TransitionArtifact.generation).filter fun generation => generation ≠ 0

def validateTransitionArtifacts (files : Directory) (allowedOrphan : Bytes) :
    Except StoreException (List TransitionArtifact) := do
  let fixedPair ← validateFixedPair lib store t files
  let histories ← listHistoryPaths store t files
  raised (check (!histories.isEmpty ∧ fixedPair.isEmpty) .migrationConflict store.statePath
    (t.definition.name ++ " history exists without the fixed first pair"))
  let validated ← histories.mapM (validateHistory lib store t files allowedOrphan)
  let artifacts := fixedPair ++ validated.reduceOption
  raised (check (store.limits.maxTransitionHistory < artifacts.length + validated.count none)
    .migrationConflict store.statePath
    (t.definition.name ++ " history exceeds the configured bound"))
  let sorted := (generations artifacts).mergeSort
  raised (check (sorted ≠ List.range' 1 sorted.length) .migrationConflict store.statePath
    (t.definition.name ++ " history generations must be unique and contiguous"))
  pure artifacts

/-! ## Writing -/

abbrev Store (α : Type) := Program Bytes Bytes StoreException α

def Store.compute {α : Type} (result : Except StoreException α) : Store α := .query fun _ => result

def durableWrite (name bytes : Bytes) (replace : Bool) : Store Bool :=
  if replace then do
    put name bytes
    pure true
  else create name bytes

/-- `write_transition_artifacts`, first: the fixed pair. -/
def writeFixedPair (source target : Bytes) : Store Unit := do
  let backupExists ← query fun files => .ok (decide (store.fixedBackup t ∈ files))
  let recordExists ← query fun files => .ok (decide (store.fixedRecord t ∈ files))
  if backupExists ∧ !recordExists then
    let bytes ← query fun files =>
      readBoundedFile store files (store.fixedBackup t) store.limits.maxStateBytes
    Store.compute (raised (check (bytes ≠ source) .migrationConflict
      (store.path (store.fixedBackup t))
      (t.definition.name ++ " has a conflicting incomplete backup")))
    let record ← Store.compute (transitionRecord lib t store.nodeId source target 0
      (store.path (store.fixedRecord t)))
    let _ ← durableWrite (store.fixedRecord t) record false
  else if !backupExists ∧ recordExists then
    Store.compute (raised (fail .migrationConflict (store.path (store.fixedRecord t))
      (t.definition.name ++ " record exists without its backup")))
  else if !backupExists then
    let record ← Store.compute (transitionRecord lib t store.nodeId source target 0
      (store.path (store.fixedRecord t)))
    let _ ← durableWrite (store.fixedBackup t) source false
    let _ ← durableWrite (store.fixedRecord t) record false

def nextGeneration (artifacts : List TransitionArtifact) : Nat :=
  artifacts.foldl (fun generation artifact => max generation (wrap64 (artifact.generation + 1))) 1

/-- The backup of a new pair, unless it is there. -/
def writeHistoryBackup (source id : Bytes) (artifacts : List TransitionArtifact) :
    Option Bytes → Store Unit
  | some name => do
    let bytes ← query fun files =>
      readBoundedFile store files name store.limits.maxStateBytes
    Store.compute (raised (check (bytes ≠ source) .migrationConflict (store.path name)
      (t.definition.name ++ " history backup conflicts with current source")))
  | none => do
    Store.compute (raised (check (store.limits.maxTransitionHistory ≤ artifacts.length)
      .migrationConflict store.statePath
      (t.definition.name ++ " history reached its configured bound")))
    let _ ← durableWrite (store.historyBackup t id) source false

/-- `write_transition_artifacts`, last: a new pair. -/
def writeHistoryPair (source target id : Bytes) (artifacts : List TransitionArtifact) :
    Store TransitionArtifact := do
  let histories ← query (listHistoryPaths store t)
  let history := (histories.lookup id).getD {}
  let record := store.historyRecord t id
  Store.compute (raised (check history.record.isSome .migrationConflict
    (store.path (history.record.getD []))
    (t.definition.name ++ " history record exists without a valid pair")))
  writeHistoryBackup store t source id artifacts history.backup
  let bytes ← Store.compute (transitionRecord lib t store.nodeId source target
    (nextGeneration artifacts) (store.path record))
  let _ ← durableWrite record bytes false
  query fun files =>
    validateTransitionPair lib store t files (store.historyBackup t id) record (some id)

def TransitionArtifact.describes (sourceChecksum targetChecksum : Bytes)
    (artifact : TransitionArtifact) : Bool :=
  artifact.sourceChecksum = sourceChecksum ∧ artifact.targetChecksum = targetChecksum

/-- The pair that describes the transition, or a new one. -/
def findOrWritePair (source target sourceChecksum targetChecksum id : Bytes)
    (artifacts : List TransitionArtifact) : Store TransitionArtifact :=
  match artifacts.find? (TransitionArtifact.describes sourceChecksum targetChecksum) with
  | some artifact => pure artifact
  | none => writeHistoryPair lib store t source target id artifacts

def writeTransitionArtifacts (source target : Bytes) : Store TransitionArtifact := do
  let sourceChecksum ← Store.compute (raised (sha256Hex lib source store.statePath))
  let targetChecksum ← Store.compute (raised (sha256Hex lib target store.statePath))
  let id ← Store.compute (transitionId lib t store.nodeId source target store.statePath)
  writeFixedPair lib store t source target
  let artifacts ← query fun files => validateTransitionArtifacts lib store t files id
  findOrWritePair lib store t source target sourceChecksum targetChecksum id artifacts

def hasTransitionSidecars (files : Directory) : Except StoreException Bool :=
  if store.fixedBackup t ∈ files ∨ store.fixedRecord t ∈ files then .ok true
  else do
    let histories ← listHistoryPaths store t files
    pure (!histories.isEmpty)

end Store

/-! ## Operations -/

structure RaftStateLoadResult where
  state : RaftPersistentState
  migratedFromV0 : Bool := false

/-- `RaftStateDowngradeResult`, with the names of the pair. -/
structure RaftStateDowngradeResult where
  state : RaftPersistentState
  v1Backup : Bytes
  downgradeRecord : Bytes
  transitionGeneration : Nat := 0
  alreadyDowngraded : Bool := false

section Operations

variable (lib : Libraries) (store : RaftStateStore)

/-- The document in the state file, checked. -/
def readDocument (files : Directory) : Except StoreException (Bytes × Json) := do
  let source ← readBoundedFile store files store.base store.limits.maxStateBytes
  let document ← raised (parseJson lib source store.statePath)
  raised (check (!document.isObject) .schemaViolation store.statePath
    "Raft state root must be an object")
  pure (source, document)

def checkVersion (document : Json) : Except StoreException Unit := do
  let version ← requireUnsigned document "schema_version" store.statePath
  raised (check (version ≠ currentSchemaVersion) .unsupportedVersion store.statePath
    ("unsupported Raft state schema version " ++ toString version))

def hasSidecars (files : Directory) : Except StoreException Bool := do
  if ← hasTransitionSidecars store .migration files then pure true
  else hasTransitionSidecars store .downgrade files

inductive Loading where
  | missing
  | current (state : RaftPersistentState)
  | legacy (state : RaftPersistentState) (source target : Bytes)

/-- `load_or_migrate` up to its first write. -/
def inspectForLoad (files : Directory) : Except StoreException Loading :=
  if store.base ∉ files then do
    let sidecars ← hasSidecars store files
    raised (check sidecars .migrationConflict store.statePath
      "state file is missing while migration sidecars exist")
    pure .missing
  else do
    let (source, document) ← readDocument lib store files
    if document.contains "schema_version" then
      checkVersion store document
      let state ← decodeV1 lib document store.nodeId store.limits store.statePath
      let _ ← validateTransitionArtifacts lib store .migration files []
      let _ ← validateTransitionArtifacts lib store .downgrade files []
      pure (.current state)
    else
      let state ← decodeV0 document store.limits store.statePath
      let target ← raised (encodeV1 lib state store.nodeId store.limits store.statePath)
      let _ ← validateTransitionArtifacts lib store .downgrade files []
      pure (.legacy state source target)

def loadOrMigrate : Store (Option RaftStateLoadResult) := do
  match ← query (inspectForLoad lib store) with
  | .missing => pure none
  | .current state => pure (some { state })
  | .legacy state source target =>
    let _ ← writeTransitionArtifacts lib store .migration source target
    put store.base target
    pure (some { state, migratedFromV0 := true })

/-- `RaftStateStore::save`. -/
def saveState (state : RaftPersistentState) : Store Unit := do
  let bytes ← Store.compute (raised (encodeV1 lib state store.nodeId store.limits store.statePath))
  put store.base bytes

def verifyDowngradedV0 (document : Json) (source : Bytes) (files : Directory) :
    Except StoreException RaftStateDowngradeResult := do
  let artifacts ← validateTransitionArtifacts lib store .downgrade files []
  raised (check artifacts.isEmpty .migrationConflict store.statePath
    "legacy state was not produced by the supported downgrade tool")
  let targetChecksum ← raised (sha256Hex lib source store.statePath)
  match artifacts.find? (fun artifact => artifact.targetChecksum = targetChecksum) with
  | some artifact =>
    let backup ← readBoundedFile store files artifact.backup store.limits.maxStateBytes
    let backupDocument ← raised (parseJson lib backup (store.path artifact.backup))
    let backupState ← decodeV1 lib backupDocument store.nodeId store.limits
      (store.path artifact.backup)
    let legacyState ← decodeV0 document store.limits store.statePath
    raised (check (backupState ≠ legacyState) .migrationConflict (store.path artifact.record)
      "downgraded legacy state is not equivalent to its v1 backup")
    pure
      { state := legacyState
        v1Backup := artifact.backup
        downgradeRecord := artifact.record
        transitionGeneration := artifact.generation
        alreadyDowngraded := true }
  | none =>
    raised (fail .migrationConflict (store.path (store.fixedRecord .downgrade))
      "legacy state does not match any supported downgrade record")

inductive Downgrading where
  | already (result : RaftStateDowngradeResult)
  | current (state : RaftPersistentState) (source target : Bytes)

/-- `downgrade_to_v0` up to its first write. -/
def inspectForDowngrade (files : Directory) : Except StoreException Downgrading :=
  if store.base ∉ files then
    raised (fail .ioRead store.statePath "state file does not exist")
  else do
    let (source, document) ← readDocument lib store files
    if document.contains "schema_version" then
      checkVersion store document
      let state ← decodeV1 lib document store.nodeId store.limits store.statePath
      let _ ← validateTransitionArtifacts lib store .migration files []
      let target ← encodeV0 lib state store.limits store.statePath
      pure (.current state source target)
    else
      let result ← verifyDowngradedV0 lib store document source files
      pure (.already result)

def downgradeToV0 : Store RaftStateDowngradeResult := do
  match ← query (inspectForDowngrade lib store) with
  | .already result => pure result
  | .current state source target =>
    let artifact ← writeTransitionArtifacts lib store .downgrade source target
    put store.base target
    pure
      { state
        v1Backup := artifact.backup
        downgradeRecord := artifact.record
        transitionGeneration := artifact.generation }

end Operations

end BoostGateway.Raft
