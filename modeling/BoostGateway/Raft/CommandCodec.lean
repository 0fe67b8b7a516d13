import BoostGateway.Raft.WireCodec

/-!
# Commands of the Raft log

`raft_command_codec.cpp`, built with protobuf support. A command is written as a JSON document or
as a framed `CommandEnvelope`. Numbers of a command are machine integers: reading a JSON number
into one is the conversion `get` of the JSON library makes, which wraps around.
-/

namespace BoostGateway.Raft

open Protobuf

inductive RaftCommandKind where
  | matchJoin
  | matchLeave
  | matchFound
  | matchPurge
  | leaderboardSubmit
  deriving DecidableEq

inductive RaftMatchMode where
  | oneVsOne
  | twoVsTwo
  | fourVsFour
  | other (value : UInt8)
  deriving DecidableEq

structure RaftCommand where
  kind : RaftCommandKind := .matchJoin
  userId : Bytes := []
  displayName : Bytes := []
  matchId : Bytes := []
  mode : RaftMatchMode := .oneVsOne
  mmr : Int64 := 0
  queuedAtMs : UInt64 := 0
  avgMmr : Int64 := 0
  score : Int64 := 0
  userIds : List Bytes := []
  deriving DecidableEq

def commandMagic : Bytes := [66, 71, 82, 67]

def commandVersion : UInt32 := 1

def maxIdentityBytes : Nat := 1024

def maxDisplayNameBytes : Nat := 4096

def maxCommandUsers : Nat := 256

/-! ## Checks -/

def commandException (detail : String) : CodecException :=
  .invalidArgument ("invalid Raft command: " ++ detail)

def commandError {α : Type} (detail : String) : Except CodecException α :=
  .error (commandException detail)

def commandCheck (failed : Bool) (detail : String) : Except CodecException Unit :=
  if failed then commandError detail else .ok ()

def validateString (value : Bytes) (maximum : Nat) (field : String) (allowEmpty : Bool) :
    Except CodecException Unit :=
  commandCheck ((!allowEmpty && value.isEmpty) || maximum < value.length || value.contains 0)
    (field ++ " is empty, oversized, or contains NUL")

def validateMode (mode : RaftMatchMode) : Except CodecException Unit :=
  commandCheck (mode ≠ .oneVsOne ∧ mode ≠ .twoVsTwo ∧ mode ≠ .fourVsFour)
    "match mode is unsupported"

def validateUsers (users : List Bytes) : Except CodecException Unit := do
  commandCheck (users.isEmpty || maxCommandUsers < users.length) "user list is empty or oversized"
  users.forM fun user => validateString user maxIdentityBytes "user ID" false

def validateCommand (command : RaftCommand) : Except CodecException Unit :=
  match command.kind with
  | .matchJoin => do
    validateString command.userId maxIdentityBytes "user_id" false
    validateMode command.mode
  | .matchLeave => do
    validateString command.userId maxIdentityBytes "user_id" false
    validateMode command.mode
  | .matchFound => do
    validateString command.matchId maxIdentityBytes "match_id" false
    validateMode command.mode
    validateUsers command.userIds
  | .matchPurge => do
    validateMode command.mode
    validateUsers command.userIds
  | .leaderboardSubmit => do
    validateString command.userId maxIdentityBytes "user_id" false
    validateString command.displayName maxDisplayNameBytes "display_name" true

def modeString (mode : RaftMatchMode) : Except CodecException Bytes :=
  match mode with
  | .oneVsOne => .ok (ascii "1v1")
  | .twoVsTwo => .ok (ascii "2v2")
  | .fourVsFour => .ok (ascii "4v4")
  | .other _ => commandError "match mode is unsupported"

def parseModeString (mode : Bytes) : Except CodecException RaftMatchMode :=
  if mode = ascii "1v1" then .ok .oneVsOne
  else if mode = ascii "2v2" then .ok .twoVsTwo
  else if mode = ascii "4v4" then .ok .fourVsFour
  else commandError "match mode is unsupported"

/-! ## Legacy documents -/

def requireCommandKeys (value : Json) (keys : List String) : Except CodecException Unit :=
  exactKeys commandException "legacy JSON" value keys

def requireCommandString (value : Json) (key : String) : Except CodecException Bytes :=
  required commandException Json.string? "a string" value key

def signedOf : Json → Option Int64
  | .unsigned value => some (.ofNat value)
  | .integer value => some (.ofInt value)
  | _ => none

def requireCommandInteger (value : Json) (key : String) : Except CodecException Int64 :=
  required commandException signedOf "an integer" value key

def requireCommandUnsigned (value : Json) (key : String) : Except CodecException UInt64 :=
  required commandException (fun field => field.unsigned?.map UInt64.ofNat) "an unsigned integer"
    value key

def requireUser (key : String) (item : Json) : Except CodecException Bytes :=
  match item.string? with
  | some user => .ok user
  | none => commandError (key ++ " entries must be strings")

def requireUsers (value : Json) (key : String) : Except CodecException (List Bytes) := do
  let items ← required commandException Json.array? "an array" value key
  items.mapM (requireUser key)

/-- The command that `parse_legacy` reads for an operation. -/
def readOperation (document : Json) (op : Bytes) : Except CodecException RaftCommand :=
  if op = ascii "match_join" then do
    requireCommandKeys document ["v", "op", "user_id", "mmr", "queued_at_ms", "mode"]
    let userId ← requireCommandString document "user_id"
    let mmr ← requireCommandInteger document "mmr"
    let queuedAtMs ← requireCommandUnsigned document "queued_at_ms"
    let modeText ← requireCommandString document "mode"
    let mode ← parseModeString modeText
    pure { kind := .matchJoin, userId, mmr, queuedAtMs, mode }
  else if op = ascii "match_leave" then do
    requireCommandKeys document ["v", "op", "user_id", "mode"]
    let userId ← requireCommandString document "user_id"
    let modeText ← requireCommandString document "mode"
    let mode ← parseModeString modeText
    pure { kind := .matchLeave, userId, mode }
  else if op = ascii "match_found" then do
    requireCommandKeys document ["v", "op", "match_id", "mode", "player_ids", "avg_mmr"]
    let matchId ← requireCommandString document "match_id"
    let modeText ← requireCommandString document "mode"
    let mode ← parseModeString modeText
    let userIds ← requireUsers document "player_ids"
    let avgMmr ← requireCommandInteger document "avg_mmr"
    pure { kind := .matchFound, matchId, mode, userIds, avgMmr }
  else if op = ascii "match_purge" then do
    requireCommandKeys document ["v", "op", "mode", "user_ids"]
    let modeText ← requireCommandString document "mode"
    let mode ← parseModeString modeText
    let userIds ← requireUsers document "user_ids"
    pure { kind := .matchPurge, mode, userIds }
  else if op = ascii "leaderboard_submit" then do
    requireCommandKeys document ["v", "op", "user_id", "display_name", "score"]
    let userId ← requireCommandString document "user_id"
    let displayName ← requireCommandString document "display_name"
    let score ← requireCommandInteger document "score"
    pure { kind := .leaderboardSubmit, userId, displayName, score }
  else commandError "unknown legacy command operation"

def parseLegacy (lib : Libraries) (data : Bytes) : Except CodecException RaftCommand :=
  match lib.parse data with
  | .error what => commandError ("malformed legacy JSON: " ++ what)
  | .ok document => do
    commandCheck (!document.isObject || (document.field? "v").bind Json.unsigned? != some 1)
      "unsupported legacy command version"
    let op ← requireCommandString document "op"
    let result ← readOperation document op
    validateCommand result
    pure result

/-! ## Framed commands -/

def encodeMode (mode : RaftMatchMode) : Except CodecException Proto.MatchMode :=
  match mode with
  | .oneVsOne => .ok Proto.matchModeOneVOne
  | .twoVsTwo => .ok Proto.matchModeTwoVTwo
  | .fourVsFour => .ok Proto.matchModeFourVFour
  | .other _ => commandError "match mode is unsupported"

def decodeMode (mode : Proto.MatchMode) : Except CodecException RaftMatchMode :=
  if mode = Proto.matchModeOneVOne then .ok .oneVsOne
  else if mode = Proto.matchModeTwoVTwo then .ok .twoVsTwo
  else if mode = Proto.matchModeFourVFour then .ok .fourVsFour
  else commandError "protobuf match mode is unsupported"

/-- The payload that `encode_protobuf` fills. -/
def encodePayload (command : RaftCommand) : Except CodecException Proto.CommandPayload :=
  match command.kind with
  | .matchJoin => do
    let mode ← encodeMode command.mode
    pure (.matchJoin {
      userId := command.userId, mmr := command.mmr, queuedAtMs := command.queuedAtMs, mode })
  | .matchLeave => do
    let mode ← encodeMode command.mode
    pure (.matchLeave { userId := command.userId, mode })
  | .matchFound => do
    let mode ← encodeMode command.mode
    pure (.matchFound {
      matchId := command.matchId, mode, avgMmr := command.avgMmr, playerIds := command.userIds })
  | .matchPurge => do
    let mode ← encodeMode command.mode
    pure (.matchPurge { mode, userIds := command.userIds })
  | .leaderboardSubmit =>
    pure (.leaderboardSubmit {
      userId := command.userId, displayName := command.displayName, score := command.score })

/-- `encode_protobuf` of a command. -/
def encodeCommandProtobuf (proto : Codec Proto.CommandEnvelope) (command : RaftCommand) :
    Except CodecException Bytes := do
  let payload ← encodePayload command
  let bytes := proto.serialize { commandVersion, payload := some payload }
  commandCheck (bytes.length = 0 ∨
      defaultLimits.maxCommandBytes - commandMagic.length < bytes.length ∨ maxInt < bytes.length)
    "encoded protobuf is oversized"
  pure (commandMagic ++ bytes)

/-- The command that `parse_protobuf` reads from a payload. -/
def decodePayload (payload : Proto.CommandPayload) : Except CodecException RaftCommand :=
  match payload with
  | .matchJoin input => do
    let mode ← decodeMode input.mode
    pure {
      kind := .matchJoin
      userId := input.userId
      mmr := input.mmr
      queuedAtMs := input.queuedAtMs
      mode }
  | .matchLeave input => do
    let mode ← decodeMode input.mode
    pure { kind := .matchLeave, userId := input.userId, mode }
  | .matchFound input => do
    let mode ← decodeMode input.mode
    pure {
      kind := .matchFound
      matchId := input.matchId
      mode
      avgMmr := input.avgMmr
      userIds := input.playerIds }
  | .matchPurge input => do
    let mode ← decodeMode input.mode
    pure { kind := .matchPurge, mode, userIds := input.userIds }
  | .leaderboardSubmit input =>
    pure {
      kind := .leaderboardSubmit
      userId := input.userId
      displayName := input.displayName
      score := input.score }

/-- `parse_protobuf`. -/
def parseCommandProtobuf (proto : Codec Proto.CommandEnvelope) (data : Bytes) :
    Except CodecException RaftCommand :=
  if maxInt < data.length - commandMagic.length then
    commandError "malformed or truncated protobuf"
  else
    match proto.parse (data.drop commandMagic.length) with
    | none => commandError "malformed or truncated protobuf"
    | some envelope => do
      commandCheck (envelope.commandVersion ≠ commandVersion) "unsupported protobuf command version"
      match envelope.payload with
      | none => commandError "protobuf envelope has no payload"
      | some payload => do
        let result ← decodePayload payload
        validateCommand result
        pure result

/-! ## Commands -/

def detectRaftCommandFormat (data : Bytes) : Except CodecException RaftWireFormat := do
  commandCheck (data.isEmpty || defaultLimits.maxCommandBytes < data.length)
    "payload size is outside the supported range"
  if commandMagic.length < data.length ∧ data.take commandMagic.length = commandMagic then
    pure .protobufV1
  else if opensObject data then
    pure .legacyJson
  else
    commandError "unknown command format"

/-- The fields of a command's document but its version. -/
def commandFields (command : RaftCommand) : Except CodecException (List (String × Json)) :=
  match command.kind with
  | .matchJoin => do
    let mode ← modeString command.mode
    pure [("op", .string (ascii "match_join")), ("user_id", .string command.userId),
      ("mmr", .integer command.mmr.toInt), ("queued_at_ms", .unsigned command.queuedAtMs.toNat),
      ("mode", .string mode)]
  | .matchLeave => do
    let mode ← modeString command.mode
    pure [("op", .string (ascii "match_leave")), ("user_id", .string command.userId),
      ("mode", .string mode)]
  | .matchFound => do
    let mode ← modeString command.mode
    pure [("op", .string (ascii "match_found")), ("match_id", .string command.matchId),
      ("mode", .string mode), ("player_ids", .array (command.userIds.map Json.string)),
      ("avg_mmr", .integer command.avgMmr.toInt)]
  | .matchPurge => do
    let mode ← modeString command.mode
    pure [("op", .string (ascii "match_purge")), ("mode", .string mode),
      ("user_ids", .array (command.userIds.map Json.string))]
  | .leaderboardSubmit =>
    pure [("op", .string (ascii "leaderboard_submit")), ("user_id", .string command.userId),
      ("display_name", .string command.displayName), ("score", .integer command.score.toInt)]

def commandDocument (command : RaftCommand) : Except CodecException Json := do
  let fields ← commandFields command
  pure (.ofFields (("v", .integer 1) :: fields))

def serializeRaftCommand (lib : Libraries) (proto : Codec Proto.CommandEnvelope)
    (command : RaftCommand) (format : RaftWireFormat) : Except CodecException Bytes := do
  validateCommand command
  match format with
  | .protobufV1 => encodeCommandProtobuf proto command
  | .legacyJson =>
    let document ← commandDocument command
    dumped lib document

def parseRaftCommand (lib : Libraries) (proto : Codec Proto.CommandEnvelope) (data : Bytes) :
    Except CodecException RaftCommand := do
  match ← detectRaftCommandFormat data with
  | .legacyJson => parseLegacy lib data
  | .protobufV1 => parseCommandProtobuf proto data

end BoostGateway.Raft
