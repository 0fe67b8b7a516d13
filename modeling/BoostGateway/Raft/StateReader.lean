import BoostGateway.Raft.StateCodec

/-!
# Decoding the state file

The reading half of `raft_state_codec.cpp`, and the legacy encoder of the downgrade. Both decoders
read back what the encoder of their schema writes (`decodeV1_stateDocument`,
`decodeV0_legacyDocument`).
-/

namespace BoostGateway.Raft

open List

inductive StoreException where
  | state (error : RaftStateException)
  | json (what : String)

def raised {α : Type} (result : Except RaftStateException α) : Except StoreException α :=
  result.mapError .state

@[simp] theorem raised_ok_iff {α : Type} {res : Except RaftStateException α} {a : α} :
    raised res = .ok a ↔ res = .ok a := by cases res <;> simp [raised, Except.mapError]

def parseJson (lib : Libraries) (bytes path : Bytes) : Except RaftStateException Json :=
  match lib.parse bytes with
  | .ok document => .ok document
  | .error what => fail .malformedJson path ("malformed or truncated JSON: " ++ what)

def hasExactKeys (value : Json) (keys : List String) : Bool :=
  value.isObject && value.fields.length = keys.length && keys.all value.contains

def atKey (object : Json) (key : String) : Except StoreException Json :=
  match object.field? key with
  | some value => .ok value
  | none => .error (.json ("key '" ++ key ++ "' not found"))

def requireUnsigned (object : Json) (key : String) (path : Bytes) : Except StoreException Nat := do
  match ← atKey object key with
  | .unsigned value => pure value
  | _ => raised (fail .schemaViolation path (key ++ " must be an unsigned integer"))

def requireString (object : Json) (key : String) (path : Bytes) : Except StoreException Bytes := do
  match ← atKey object key with
  | .string value => pure value
  | _ => raised (fail .schemaViolation path (key ++ " must be a string"))

def decodeVotedFor (document : Json) (path : Bytes) : Except StoreException (Option NodeId) := do
  match ← atKey document "voted_for" with
  | .null => pure none
  | .string value => pure (some value)
  | _ => raised (fail .schemaViolation path "voted_for must be null or a string")

def decodeEntry (path : Bytes) (item : Json) : Except StoreException LogEntry := do
  raised (check (!hasExactKeys item ["term", "command"]) .schemaViolation path
    "each log entry must contain exactly term and command")
  let term ← requireUnsigned item "term" path
  let command ← requireString item "command" path
  pure { term, command }

/-- The log that `decode_state_fields` reads. -/
def decodeLog (document : Json) (limits : RaftStateCodecLimits) (path : Bytes) :
    Except StoreException (List LogEntry) := do
  match ← atKey document "log" with
  | .array items =>
    raised (check (limits.maxLogEntries < items.length) .stateTooLarge path
      "log entry count exceeds configured limit")
    items.mapM (decodeEntry path)
  | _ => raised (fail .schemaViolation path "log must be an array")

def decodeStateFields (document : Json) (limits : RaftStateCodecLimits) (path : Bytes) :
    Except StoreException RaftPersistentState := do
  let currentTerm ← requireUnsigned document "current_term" path
  let votedFor ← decodeVotedFor document path
  let commitIndex ← requireUnsigned document "commit_index" path
  let lastApplied ← requireUnsigned document "last_applied" path
  let log ← decodeLog document limits path
  let state : RaftPersistentState := { currentTerm, votedFor, log, commitIndex, lastApplied }
  raised (validateState state limits path)
  pure state

def checksumHexLength : Nat := 64

def isLowerHexChecksum (value : Bytes) : Bool := value.length = checksumHexLength &&
    value.all fun ch => (48 ≤ ch && ch ≤ 57) || (97 ≤ ch && ch ≤ 102)

def dumpJson (lib : Libraries) (document : Json) : Except StoreException Bytes :=
  (lib.dump document).mapError .json

@[simp] theorem dumpJson_ok_iff {lib : Libraries} {document : Json} {bytes : Bytes} :
    dumpJson lib document = .ok bytes ↔ lib.dump document = .ok bytes := by
  unfold dumpJson
  cases lib.dump document <;> simp [Except.mapError]

def decodeV1 (lib : Libraries) (document : Json) (expectedNodeId : NodeId)
    (limits : RaftStateCodecLimits) (path : Bytes) :
    Except StoreException RaftPersistentState := do
  raised (check (!hasExactKeys document ["schema_version", "node_id", "current_term", "voted_for",
      "commit_index", "last_applied", "log", "checksum_sha256"]) .schemaViolation path
    "v1 state contains missing or unknown fields")
  let version ← requireUnsigned document "schema_version" path
  raised (check (version ≠ currentSchemaVersion) .unsupportedVersion path
    "unsupported Raft state schema version")
  let nodeId ← requireString document "node_id" path
  raised (validateStorageNodeId nodeId limits path)
  raised (check (nodeId ≠ expectedNodeId) .identityMismatch path
    "persisted node_id does not match configured node_id")
  let checksum ← requireString document "checksum_sha256" path
  raised (check (!isLowerHexChecksum checksum) .schemaViolation path
    "checksum_sha256 must be 64 lowercase hexadecimal characters")
  let body ← dumpJson lib (document.erase "checksum_sha256")
  let digest ← raised (sha256Hex lib body path)
  raised (check (digest ≠ checksum) .checksumMismatch path "Raft state checksum mismatch")
  decodeStateFields document limits path

def decodeV0 (document : Json) (limits : RaftStateCodecLimits) (path : Bytes) :
    Except StoreException RaftPersistentState := do
  raised (check (!hasExactKeys document ["current_term", "voted_for", "leader_id", "commit_index",
      "last_applied", "log"]) .schemaViolation path
    "legacy v0 state contains missing or unknown fields")
  let _ ← requireString document "leader_id" path
  decodeStateFields document limits path

/-- The document of a state in the legacy schema. -/
def legacyDocument (state : RaftPersistentState) : Json := .ofFields [
    ("current_term", .unsigned state.currentTerm),
    ("voted_for", votedForJson state.votedFor),
    ("leader_id", .string []),
    ("commit_index", .unsigned state.commitIndex),
    ("last_applied", .unsigned state.lastApplied),
    ("log", .array (state.log.map entryJson))]

def encodeV0 (lib : Libraries) (state : RaftPersistentState) (limits : RaftStateCodecLimits)
    (path : Bytes) : Except StoreException Bytes := do
  raised (validateState state limits path)
  let bytes ← dumpJson lib (legacyDocument state)
  raised (check (limits.maxStateBytes < bytes.length) .stateTooLarge path
    "encoded legacy state exceeds configured size limit")
  pure bytes

/-! ## Reading back -/

section Fields

variable {document : Json} {key : String} {path : Bytes}

theorem requireUnsigned_of_field {value : Nat} (h : document.field? key = some (.unsigned value)) :
    requireUnsigned document key path = .ok value := by
  simp [requireUnsigned, atKey, h, bind, Except.bind, pure, Except.pure]

theorem requireString_of_field {value : Bytes} (h : document.field? key = some (.string value)) :
    requireString document key path = .ok value := by
  simp [requireString, atKey, h, bind, Except.bind, pure, Except.pure]

theorem decodeVotedFor_of_field {votedFor : Option NodeId}
    (h : document.field? "voted_for" = some (votedForJson votedFor)) :
    decodeVotedFor document path = .ok votedFor := by
  cases votedFor <;>
    simp [decodeVotedFor, atKey, h, votedForJson, bind, Except.bind, pure, Except.pure]

theorem decodeEntry_entryJson (path : Bytes) (entry : LogEntry) :
    decodeEntry path (entryJson entry) = .ok entry := by
  have hkeys : hasExactKeys (entryJson entry) ["term", "command"] = true := by
    rw [entryJson_eq]
    rfl
  have hterm : (entryJson entry).field? "term" = some (.unsigned entry.term) := by
    rw [entryJson_eq]
    rfl
  have hcmd : (entryJson entry).field? "command" = some (.string entry.command) := by
    rw [entryJson_eq]
    rfl
  refine bind_ok (a := ()) (by simp [hkeys]) ?_
  refine bind_ok (requireUnsigned_of_field hterm) ?_
  exact bind_ok (requireString_of_field hcmd) rfl

theorem mapM_decodeEntry (path : Bytes) (log : List LogEntry) :
    (log.map entryJson).mapM (decodeEntry path) = .ok log := by
  induction log with
  | nil => rfl
  | cons entry log ih =>
    rw [map_cons, mapM_cons]
    refine bind_ok (decodeEntry_entryJson path entry) ?_
    exact bind_ok ih rfl

/-- The fields of a well-formed state are decoded to it. -/
theorem decodeStateFields_of_fields {limits : RaftStateCodecLimits} {state : RaftPersistentState}
    (hterm : document.field? "current_term" = some (.unsigned state.currentTerm))
    (hvote : document.field? "voted_for" = some (votedForJson state.votedFor))
    (hcom : document.field? "commit_index" = some (.unsigned state.commitIndex))
    (happ : document.field? "last_applied" = some (.unsigned state.lastApplied))
    (hlog : document.field? "log" = some (.array (state.log.map entryJson)))
    (hval : WellFormed limits state) : decodeStateFields document limits path = .ok state := by
  refine bind_ok (requireUnsigned_of_field hterm) ?_
  refine bind_ok (decodeVotedFor_of_field hvote) ?_
  refine bind_ok (requireUnsigned_of_field hcom) ?_
  refine bind_ok (requireUnsigned_of_field happ) ?_
  refine bind_ok (a := state.log) ?_ ?_
  · refine bind_ok (a := .array (state.log.map entryJson)) (by simp [atKey, hlog]) ?_
    refine bind_ok (a := ()) ?_ (mapM_decodeEntry path state.log)
    simpa using hval.logSize
  · exact bind_ok (a := ()) (raised_ok_iff.mpr (validateState_ok_iff.mpr hval)) rfl

end Fields

/-! ## The two schemas -/

def stateDocument (lib : Libraries) (state : RaftPersistentState) (nodeId : NodeId) (text : Bytes) :
    Json :=
  (stateBody state nodeId).set "checksum_sha256" (.string ((lib.sha256 text).flatMap hexByte))

structure RaftPersistentState.InRange (state : RaftPersistentState) : Prop where
  currentTerm : state.currentTerm < 2 ^ 64
  commitIndex : state.commitIndex < 2 ^ 64
  lastApplied : state.lastApplied < 2 ^ 64
  terms : ∀ entry ∈ state.log, entry.term < 2 ^ 64

section Schemas

variable {lib : Libraries} {state : RaftPersistentState} {nodeId : NodeId} {text path : Bytes}
  {limits : RaftStateCodecLimits}

theorem stateDocument_eq (lib : Libraries) (state : RaftPersistentState) (nodeId : NodeId)
    (text : Bytes) :
    stateDocument lib state nodeId text = .object [
      ("checksum_sha256", .string ((lib.sha256 text).flatMap hexByte)),
      ("commit_index", .unsigned state.commitIndex),
      ("current_term", .unsigned state.currentTerm),
      ("last_applied", .unsigned state.lastApplied),
      ("log", .array (state.log.map entryJson)),
      ("node_id", .string nodeId),
      ("schema_version", .unsigned 1),
      ("voted_for", votedForJson state.votedFor)] := by
  simp [stateDocument, stateBody_eq, Json.set, Json.insertField, -String.lt_iff_ltb]

theorem legacyDocument_eq (state : RaftPersistentState) : legacyDocument state = .object [
      ("commit_index", .unsigned state.commitIndex),
      ("current_term", .unsigned state.currentTerm),
      ("last_applied", .unsigned state.lastApplied),
      ("leader_id", .string []),
      ("log", .array (state.log.map entryJson)),
      ("voted_for", votedForJson state.votedFor)] := by
  simp [legacyDocument, Json.ofFields, Json.insertField, -String.lt_iff_ltb]

theorem erase_stateDocument :
    (stateDocument lib state nodeId text).erase "checksum_sha256" = stateBody state nodeId := by
  rw [stateDocument_eq, stateBody_eq]
  rfl

theorem isLowerHexChecksum_hex (hlib : lib.Lawful) (bytes : Bytes) :
    isLowerHexChecksum ((lib.sha256 bytes).flatMap hexByte) = true := by
  have hall : ∀ n < 16,
      ((48 ≤ hexDigit n && hexDigit n ≤ 57) || (97 ≤ hexDigit n && hexDigit n ≤ 102)) = true := by
    decide
  refine Bool.and_eq_true_iff.mpr ⟨?_, all_eq_true.mpr fun b hb => ?_⟩
  · simp [length_flatMap, hexByte, hlib.sha256_length, checksumHexLength]
  · obtain ⟨n, hn, rfl⟩ := exists_hexDigit hb
    exact hall n hn

/-- `decode_v1` reads back what `encode_v1` writes. -/
theorem decodeV1_stateDocument (hlib : lib.Lawful) (hval : WellFormed limits state)
    (hid : validateStorageNodeId nodeId limits path = .ok ())
    (htext : lib.dump (stateBody state nodeId) = .ok text) :
    decodeV1 lib (stateDocument lib state nodeId text) nodeId limits path = .ok state := by
  have hfields := stateDocument_eq lib state nodeId text
  refine bind_ok (a := ()) (by rw [hfields]; rfl) ?_
  refine bind_ok (a := 1) (requireUnsigned_of_field (by rw [hfields]; rfl)) ?_
  refine bind_ok (a := nodeId) (requireString_of_field (by rw [hfields]; rfl)) ?_
  refine bind_ok (a := ()) (raised_ok_iff.mpr hid) ?_
  refine bind_ok (a := ()) (by simp) ?_
  refine bind_ok (requireString_of_field (by rw [hfields]; rfl)) ?_
  refine bind_ok (a := ()) (by simp [isLowerHexChecksum_hex hlib]) ?_
  refine bind_ok (a := text) (by rw [erase_stateDocument]; exact dumpJson_ok_iff.mpr htext) ?_
  refine bind_ok (raised_ok_iff.mpr (sha256Hex_eq hlib text path)) ?_
  refine bind_ok (a := ()) (by simp) ?_
  exact decodeStateFields_of_fields (by rw [hfields]; rfl) (by rw [hfields]; rfl)
    (by rw [hfields]; rfl) (by rw [hfields]; rfl) (by rw [hfields]; rfl) hval

theorem decodeV0_legacyDocument (hval : WellFormed limits state) :
    decodeV0 (legacyDocument state) limits path = .ok state := by
  have hfields := legacyDocument_eq state
  refine bind_ok (a := ()) (by rw [hfields]; rfl) ?_
  refine bind_ok (a := []) (requireString_of_field (by rw [hfields]; rfl)) ?_
  exact decodeStateFields_of_fields (by rw [hfields]; rfl) (by rw [hfields]; rfl)
    (by rw [hfields]; rfl) (by rw [hfields]; rfl) (by rw [hfields]; rfl) hval

/-! ## Texts -/

theorem canonical_log (h : ∀ entry ∈ state.log, entry.term < 2 ^ 64) :
    Json.canonicalItems (state.log.map entryJson) = true := by
  refine Json.canonicalItems_iff.mpr fun item hitem => ?_
  obtain ⟨entry, hentry, rfl⟩ := mem_map.mp hitem
  exact Json.canonical_ofFields (by simp [Json.asciiKey])
    (by simpa [Json.canonical] using h entry hentry)

theorem canonical_votedForJson (votedFor : Option NodeId) :
    (votedForJson votedFor).canonical = true := by cases votedFor <;> rfl

theorem canonical_stateDocument (h : state.InRange) :
    (stateDocument lib state nodeId text).canonical = true := by
  have hbody : (stateBody state nodeId).canonical = true :=
    Json.canonical_ofFields (by simp [Json.asciiKey]) (by
      simpa [Json.canonical, currentSchemaVersion, canonical_votedForJson, canonical_log h.terms]
        using ⟨h.currentTerm, h.commitIndex, h.lastApplied⟩)
  exact Json.canonical_set hbody (by decide) rfl

theorem canonical_legacyDocument (h : state.InRange) : (legacyDocument state).canonical = true :=
  Json.canonical_ofFields (by simp [Json.asciiKey]) (by
    simpa [Json.canonical, canonical_votedForJson, canonical_log h.terms] using
      ⟨h.currentTerm, h.commitIndex, h.lastApplied⟩)

theorem stateText_ok_iff {bytes : Bytes} : stateText lib state nodeId = .ok bytes ↔
    ∃ text, lib.dump (stateBody state nodeId) = .ok text ∧
      lib.dump (stateDocument lib state nodeId text) = .ok bytes :=
  bind_ok_iff

end Schemas

end BoostGateway.Raft
