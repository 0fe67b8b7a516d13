import BoostGateway.Json

/-!
# Data of the Raft layer and its state file

The records of `v3/cluster/raft.h` and `v3/cluster/raft_state_codec.h`, and the writing half of
`raft_state_codec.cpp`: the checks of `validate_state`, the JSON body with its checksum, and the
size limit. A `RaftStateException` is the error of `Except` here. Terms and indices are natural
numbers, reduced modulo `2 ^ 64` where the source adds to one (`wrap64`). The host and port of a
peer only reach the RPC sender and are left out.
-/

namespace BoostGateway.Raft

open List

abbrev NodeId := Bytes

inductive RaftState where
  | follower
  | candidate
  | leader
  deriving DecidableEq

structure LogEntry where
  term : Nat := 0
  command : Bytes := []
  deriving DecidableEq

structure RequestVoteArgs where
  term : Nat := 0
  candidateId : NodeId := []
  lastLogTerm : Nat := 0
  lastLogIndex : Nat := 0
  deriving DecidableEq

structure RequestVoteReply where
  term : Nat := 0
  voteGranted : Bool := false
  deriving DecidableEq

structure AppendEntriesArgs where
  term : Nat := 0
  leaderId : NodeId := []
  prevLogIndex : Nat := 0
  prevLogTerm : Nat := 0
  entries : List LogEntry := []
  leaderCommit : Nat := 0
  deriving DecidableEq

structure AppendEntriesReply where
  term : Nat := 0
  success : Bool := false
  matchIndex : Nat := 0
  deriving DecidableEq

structure RaftConfig where
  nodeId : NodeId
  storageDir : Bytes := []
  peers : List NodeId := []

def RaftConfig.allPeers (cfg : RaftConfig) : List NodeId :=
  if cfg.peers.isEmpty then [cfg.nodeId] else cfg.peers

def RaftConfig.targets (cfg : RaftConfig) : List NodeId :=
  cfg.allPeers.filter (fun peer => peer != cfg.nodeId)

def RaftConfig.quorumSize (cfg : RaftConfig) : Nat := cfg.allPeers.length / 2 + 1

/-- `RaftPersistentState`: what a node keeps in its state file. -/
structure RaftPersistentState where
  currentTerm : Nat := 0
  votedFor : Option NodeId := none
  log : List LogEntry := []
  commitIndex : Nat := 0
  lastApplied : Nat := 0
  deriving DecidableEq

structure RaftStateCodecLimits where
  maxStateBytes : Nat := 64 * 1024 * 1024
  maxNodeIdBytes : Nat := 256
  maxLogEntries : Nat := 100000
  maxCommandBytes : Nat := 1024 * 1024
  maxTransitionHistory : Nat := 8

def defaultLimits : RaftStateCodecLimits := {}

def wrap64 (n : Nat) : Nat := n % 2 ^ 64

def lastLogTermOf (log : List LogEntry) : Nat :=
  match log.getLast? with
  | none => 0
  | some entry => entry.term

/-! ## Encoding the state file -/

inductive RaftStateErrorCode where
  | ioRead
  | ioWrite
  | ioSync
  | ioRename
  | stateTooLarge
  | malformedJson
  | schemaViolation
  | unsupportedVersion
  | identityMismatch
  | checksumMismatch
  | invariantViolation
  | migrationConflict
  deriving DecidableEq

structure RaftStateException where
  code : RaftStateErrorCode
  path : Bytes
  detail : String
  deriving DecidableEq

def fail {α : Type} (code : RaftStateErrorCode) (path : Bytes) (detail : String) :
    Except RaftStateException α :=
  .error { code, path, detail }

/-- `if (failed) fail(...)`. -/
def check (failed : Bool) (code : RaftStateErrorCode) (path : Bytes) (detail : String) :
    Except RaftStateException Unit :=
  if failed then fail code path detail else .ok ()

theorem bind_ok_iff {α β ε : Type} {x : Except ε α} {f : α → Except ε β} {b : β} :
    (x >>= f) = .ok b ↔ ∃ a, x = .ok a ∧ f a = .ok b := by cases x <;> simp [bind, Except.bind]

theorem bind_ok {α β ε : Type} {x : Except ε α} {f : α → Except ε β} {a : α} {b : β}
    (hx : x = .ok a) (hf : f a = .ok b) : (x >>= f) = .ok b :=
  bind_ok_iff.mpr ⟨a, hx, hf⟩

theorem forM_ok_iff {α ε : Type} {f : α → Except ε Unit} {xs : List α} :
    xs.forM f = .ok () ↔ ∀ x ∈ xs, f x = .ok () := by
  induction xs with
  | nil => simp [List.forM, pure, Except.pure]
  | cons x xs ih =>
    simp only [List.forM, bind_ok_iff, ih, mem_cons, forall_eq_or_imp]
    exact ⟨fun ⟨_, hx, hxs⟩ => ⟨hx, hxs⟩, fun ⟨hx, hxs⟩ => ⟨(), hx, hxs⟩⟩

variable {path : Bytes} {u : Unit} {limits : RaftStateCodecLimits} {state : RaftPersistentState}

@[simp] theorem check_ok_iff {failed : Bool} {code : RaftStateErrorCode} {detail : String} :
    check failed code path detail = .ok u ↔ failed = false := by cases failed <;> simp [check, fail]

def sha256Hex (lib : Libraries) (bytes path : Bytes) : Except RaftStateException Bytes :=
  let digest := lib.sha256 bytes
  if digest.length ≠ 32 then
    fail .checksumMismatch path "cannot finalize SHA-256 checksum"
  else .ok (digest.flatMap hexByte)

def isOpaqueNodeId (nodeId : NodeId) (limits : RaftStateCodecLimits) : Bool :=
  !nodeId.isEmpty && nodeId.length ≤ limits.maxNodeIdBytes && !nodeId.contains 0

def validateOpaqueNodeId (nodeId : NodeId) (limits : RaftStateCodecLimits) (path : Bytes) :
    Except RaftStateException Unit :=
  check (!isOpaqueNodeId nodeId limits) .schemaViolation path "node_id is empty or oversized"

/-- `validate_storage_node_id`: the id names the file. -/
def validateStorageNodeId (nodeId : NodeId) (limits : RaftStateCodecLimits) (path : Bytes) :
    Except RaftStateException Unit := do
  validateOpaqueNodeId nodeId limits path
  check (nodeId = ascii "." ∨ nodeId = ascii ".." ∨ 47 ∈ nodeId ∨ 92 ∈ nodeId)
    .schemaViolation path "node_id is unsafe for disk identity"

/-- The check `validate_state` makes of one log entry. -/
def validateEntry (currentTerm : Nat) (limits : RaftStateCodecLimits) (path : Bytes)
    (entry : LogEntry) : Except RaftStateException Unit := do
  check (entry.term = 0 ∨ currentTerm < entry.term) .invariantViolation path
    "log entry term is zero or exceeds current_term"
  check (limits.maxCommandBytes < entry.command.length) .stateTooLarge path
    "log command exceeds configured size limit"

/-- The check `validate_state` makes of a vote. -/
def validateVotedFor (state : RaftPersistentState) (limits : RaftStateCodecLimits)
    (path : Bytes) : Except RaftStateException Unit :=
  match state.votedFor with
  | some votedFor => do
    validateOpaqueNodeId votedFor limits path
    check (state.currentTerm = 0) .invariantViolation path "voted_for cannot be set in term zero"
  | none => .ok ()

def validateState (state : RaftPersistentState) (limits : RaftStateCodecLimits) (path : Bytes) :
    Except RaftStateException Unit := do
  validateVotedFor state limits path
  check (limits.maxLogEntries < state.log.length) .stateTooLarge path
    "log entry count exceeds configured limit"
  check (state.log.length < state.commitIndex) .invariantViolation path
    "commit_index exceeds log size"
  check (state.commitIndex < state.lastApplied) .invariantViolation path
    "last_applied exceeds commit_index"
  state.log.forM (validateEntry state.currentTerm limits path)

/-- What `validate_state` checks. -/
structure WellFormed (limits : RaftStateCodecLimits) (state : RaftPersistentState) : Prop where
  votedFor : ∀ id, state.votedFor = some id →
    isOpaqueNodeId id limits = true ∧ state.currentTerm ≠ 0
  logSize : state.log.length ≤ limits.maxLogEntries
  commit : state.commitIndex ≤ state.log.length
  applied : state.lastApplied ≤ state.commitIndex
  entries : ∀ entry ∈ state.log, 1 ≤ entry.term ∧ entry.term ≤ state.currentTerm ∧
    entry.command.length ≤ limits.maxCommandBytes

theorem validateEntry_ok_iff {term : Nat} {entry : LogEntry} :
    validateEntry term limits path entry = .ok u ↔
      1 ≤ entry.term ∧ entry.term ≤ term ∧ entry.command.length ≤ limits.maxCommandBytes := by
  simp only [validateEntry, bind_ok_iff, check_ok_iff, decide_eq_false_iff_not, exists_const]
  omega

theorem validateVotedFor_ok_iff :
    validateVotedFor state limits path = .ok u ↔ ∀ id, state.votedFor = some id →
      isOpaqueNodeId id limits = true ∧ state.currentTerm ≠ 0 := by
  cases hv : state.votedFor with
  | none => simp [validateVotedFor, hv]
  | some => simp [validateVotedFor, validateOpaqueNodeId, hv, bind_ok_iff]

theorem validateState_ok_iff :
    validateState state limits path = .ok () ↔ WellFormed limits state := by
  simp only [validateState, bind_ok_iff, validateVotedFor_ok_iff, check_ok_iff,
    forM_ok_iff, validateEntry_ok_iff, exists_const, decide_eq_false_iff_not, Nat.not_lt]
  constructor
  · rintro ⟨hvote, hsize, hcom, happ, hentries⟩
    exact ⟨hvote, hsize, hcom, happ, hentries⟩
  · rintro ⟨hvote, hsize, hcom, happ, hentries⟩
    exact ⟨hvote, hsize, hcom, happ, hentries⟩

def entryJson (entry : LogEntry) : Json :=
  .ofFields [("term", .unsigned entry.term), ("command", .string entry.command)]

def votedForJson (votedFor : Option NodeId) : Json :=
  match votedFor with
  | some id => .string id
  | none => .null

def currentSchemaVersion : Nat := 1

def stateBody (state : RaftPersistentState) (nodeId : NodeId) : Json := .ofFields [
    ("schema_version", .unsigned currentSchemaVersion),
    ("node_id", .string nodeId),
    ("current_term", .unsigned state.currentTerm),
    ("voted_for", votedForJson state.votedFor),
    ("commit_index", .unsigned state.commitIndex),
    ("last_applied", .unsigned state.lastApplied),
    ("log", .array (state.log.map entryJson))]

def dumpState (lib : Libraries) (document : Json) (path : Bytes) :
    Except RaftStateException Bytes :=
  match lib.dump document with
  | .ok bytes => .ok bytes
  | .error what =>
    fail .schemaViolation path ("state cannot be encoded as canonical JSON: " ++ what)

def encodeV1 (lib : Libraries) (state : RaftPersistentState) (nodeId : NodeId)
    (limits : RaftStateCodecLimits) (path : Bytes) : Except RaftStateException Bytes := do
  validateState state limits path
  let body := stateBody state nodeId
  let text ← dumpState lib body path
  let checksum ← sha256Hex lib text path
  let bytes ← dumpState lib (body.set "checksum_sha256" (.string checksum)) path
  check (limits.maxStateBytes < bytes.length) .stateTooLarge path
    "encoded state exceeds configured size limit"
  pure bytes

theorem encodeV1_wellFormed {lib : Libraries} {nodeId : NodeId} {bytes : Bytes}
    (h : encodeV1 lib state nodeId limits path = .ok bytes) : WellFormed limits state := by
  obtain ⟨_, hval, _⟩ := bind_ok_iff.mp h
  exact validateState_ok_iff.mp hval

/-! ## Which states can be written -/

def RaftPersistentState.utf8 (state : RaftPersistentState) : Bool :=
  state.votedFor.all utf8Valid && state.log.all fun entry => utf8Valid entry.command

def stateText (lib : Libraries) (state : RaftPersistentState) (nodeId : NodeId) :
    Except String Bytes := do
  let body := stateBody state nodeId
  let text ← lib.dump body
  lib.dump (body.set "checksum_sha256" (.string ((lib.sha256 text).flatMap hexByte)))

theorem stateBody_eq (state : RaftPersistentState) (nodeId : NodeId) :
    stateBody state nodeId = .object [ ("commit_index", .unsigned state.commitIndex),
      ("current_term", .unsigned state.currentTerm),
      ("last_applied", .unsigned state.lastApplied),
      ("log", .array (state.log.map entryJson)),
      ("node_id", .string nodeId),
      ("schema_version", .unsigned 1),
      ("voted_for", votedForJson state.votedFor)] := by
  simp [stateBody, Json.ofFields, Json.insertField, currentSchemaVersion, -String.lt_iff_ltb]

theorem entryJson_eq (entry : LogEntry) : entryJson entry =
    .object [("command", .string entry.command), ("term", .unsigned entry.term)] := by
  simp [entryJson, Json.ofFields, Json.insertField, -String.lt_iff_ltb]

theorem utf8_log (log : List LogEntry) :
    Json.utf8Items (log.map entryJson) = log.all fun entry => utf8Valid entry.command := by
  induction log with
  | nil => rfl
  | cons entry log ih =>
    rw [map_cons, Json.utf8Items, ih, entryJson_eq, all_cons]
    simp [Json.utf8, Json.utf8Fields]

theorem utf8_votedForJson (votedFor : Option NodeId) :
    (votedForJson votedFor).utf8 = votedFor.all utf8Valid := by cases votedFor <;> rfl

theorem utf8_stateBody (state : RaftPersistentState) (nodeId : NodeId) :
    (stateBody state nodeId).utf8 = true ↔ utf8Valid nodeId = true ∧ state.utf8 = true := by
  rw [stateBody_eq, Json.utf8]
  simp only [Json.utf8Fields, utf8_log, utf8_votedForJson, Json.utf8, RaftPersistentState.utf8,
    Bool.and_eq_true, true_and, and_true]
  constructor
  · rintro ⟨hlog, hid, hvote⟩
    exact ⟨hid, hvote, hlog⟩
  · rintro ⟨hid, hvote, hlog⟩
    exact ⟨hlog, hid, hvote⟩

theorem exists_hexDigit {dig : Bytes} {b : UInt8} (h : b ∈ dig.flatMap hexByte) :
    ∃ n < 16, b = hexDigit n := by
  obtain ⟨byte, _, hb⟩ := mem_flatMap.mp h
  have hlt := byte.toNat_lt
  rcases mem_cons.mp hb with rfl | hb
  · exact ⟨_, by omega, rfl⟩
  · exact ⟨_, Nat.mod_lt _ (by decide), mem_singleton.mp hb⟩

theorem utf8Valid_hex (dig : Bytes) : utf8Valid (dig.flatMap hexByte) = true := by
  have hall : ∀ n < 16, hexDigit n < 0x80 := by decide
  refine utf8Valid_of_lt fun b hb => ?_
  obtain ⟨n, hn, rfl⟩ := exists_hexDigit hb
  exact hall n hn

section Writable

variable {lib : Libraries} {state : RaftPersistentState} {nodeId : NodeId}

theorem exists_stateText_iff (hlib : lib.Lawful) :
    (∃ bytes, stateText lib state nodeId = .ok bytes) ↔
      utf8Valid nodeId = true ∧ state.utf8 = true := by
  rw [← utf8_stateBody]
  constructor
  · rintro ⟨bytes, hbytes⟩
    obtain ⟨text, htext, _⟩ := bind_ok_iff.mp hbytes
    exact (hlib.dump_ok_iff _).mp ⟨text, htext⟩
  · intro hutf8
    obtain ⟨text, htext⟩ := (hlib.dump_ok_iff _).mpr hutf8
    obtain ⟨bytes, hbytes⟩ := (hlib.dump_ok_iff ((stateBody state nodeId).set "checksum_sha256"
        (.string ((lib.sha256 text).flatMap hexByte)))).mpr
      (Json.utf8_set hutf8 (utf8Valid_hex _))
    exact ⟨bytes, bind_ok htext hbytes⟩

theorem dumpState_ok_iff {doc : Json} {path bytes : Bytes} :
    dumpState lib doc path = .ok bytes ↔ lib.dump doc = .ok bytes := by
  unfold dumpState
  cases lib.dump doc <;> simp [fail]

theorem sha256Hex_eq (hlib : lib.Lawful) (bytes path : Bytes) :
    sha256Hex lib bytes path = .ok ((lib.sha256 bytes).flatMap hexByte) := by
  simp [sha256Hex, hlib.sha256_length]

/-- `encode_v1` writes well-formed states within the limit. -/
theorem encodeV1_ok_iff (hlib : lib.Lawful) {limits : RaftStateCodecLimits} {path bytes : Bytes} :
    encodeV1 lib state nodeId limits path = .ok bytes ↔
      WellFormed limits state ∧ stateText lib state nodeId = .ok bytes ∧
        bytes.length ≤ limits.maxStateBytes := by
  simp only [encodeV1, stateText, bind_ok_iff, dumpState_ok_iff,
    sha256Hex_eq hlib, check_ok_iff, decide_eq_false_iff_not, Nat.not_lt, Except.ok.injEq,
    exists_eq_left', exists_const, pure, Except.pure]
  constructor
  · rintro ⟨_, hval, text, htext, encoded, hencoded, hsize, rfl⟩
    exact ⟨validateState_ok_iff.mp hval, ⟨text, htext, hencoded⟩, hsize⟩
  · rintro ⟨hval, ⟨text, htext, hencoded⟩, hsize⟩
    exact ⟨(), validateState_ok_iff.mpr hval, text, htext, bytes, hencoded, hsize, rfl⟩

end Writable

end BoostGateway.Raft
