import BoostGateway.Raft.Proto
import BoostGateway.Raft.StateReader

/-!
# Raft messages on the wire

`raft_wire_codec.cpp`, built with protobuf support. An RPC message is written as a JSON document or
as a framed `WireEnvelope`, a capability message as a `WireEnvelope` only. The JSON library and the
generated code are parameters.
-/

namespace BoostGateway.Raft

open Protobuf

/-! ## Data -/

inductive RaftWireFormat where
  | legacyJson
  | protobufV1
  deriving DecidableEq

inductive RaftRpcKind where
  | requestVote
  | requestVoteReply
  | appendEntries
  | appendEntriesReply
  | capabilityRequest
  | capabilityReply

structure RaftCapabilityRequest where
  nodeId : NodeId
  supportedProtocolVersions : List UInt32

structure RaftCapabilityReply where
  nodeId : NodeId
  selectedProtocolVersion : UInt32 := 0
  protobufSupported : Bool := false

def protobufMagic : Bytes := [66, 71, 82, 84]

def protocolVersion : UInt32 := 1

def maxWireBytes : Nat := 64 * 1024 * 1024

def maxInt : Nat := 2 ^ 31 - 1

/-! ## Checks -/

def wireException (detail : String) : CodecException :=
  .invalidArgument ("invalid Raft wire payload: " ++ detail)

def wireError {α : Type} (detail : String) : Except CodecException α :=
  .error (wireException detail)

def wireCheck (failed : Bool) (detail : String) : Except CodecException Unit :=
  if failed then wireError detail else .ok ()

def validateWireSize (size : Nat) : Except CodecException Unit :=
  wireCheck (size = 0 ∨ maxWireBytes < size) "payload size is outside the supported range"

def validateNodeId (nodeId : NodeId) : Except CodecException Unit :=
  wireCheck (!isOpaqueNodeId nodeId defaultLimits) "node ID is empty or oversized"

def validateRequestVoteFields (args : RequestVoteArgs) : Except CodecException Unit := do
  validateNodeId args.candidateId
  wireCheck (args.term = 0 ∨ args.term < args.lastLogTerm ∨
      decide (args.lastLogIndex = 0) ≠ decide (args.lastLogTerm = 0))
    "RequestVote term or log position is invalid"

def validateAppendEntriesFields (args : AppendEntriesArgs) : Except CodecException Unit := do
  validateNodeId args.leaderId
  wireCheck (args.term = 0 ∨ args.term < args.prevLogTerm ∨
      decide (args.prevLogIndex = 0) ≠ decide (args.prevLogTerm = 0) ∨
      defaultLimits.maxLogEntries < args.prevLogIndex ∨
      defaultLimits.maxLogEntries - args.prevLogIndex < args.entries.length)
    "AppendEntries term, log position, or entry count is invalid"
  args.entries.forM fun entry =>
    wireCheck (entry.term = 0 ∨ args.term < entry.term ∨
        defaultLimits.maxCommandBytes < entry.command.length)
      "AppendEntries contains an invalid log entry"

def requireExactKeys (value : Json) (keys : List String) (messageName : String) :
    Except CodecException Unit :=
  exactKeys wireException messageName value keys

def requireWireUnsigned (value : Json) (key : String) : Except CodecException Nat :=
  required wireException Json.unsigned? "an unsigned integer" value key

def requireWireString (value : Json) (key : String) : Except CodecException Bytes :=
  required wireException Json.string? "a string" value key

def requireWireBoolean (value : Json) (key : String) : Except CodecException Bool :=
  required wireException Json.boolean? "a boolean" value key

def parseLegacyJson (lib : Libraries) (data : Bytes) : Except CodecException Json := do
  validateWireSize data.length
  match lib.parse data with
  | .ok document =>
    wireCheck (!document.isObject) "legacy JSON root must be an object"
    pure document
  | .error what => wireError ("malformed legacy JSON: " ++ what)

def requireLegacyType (document : Json) (expected : String) : Except CodecException Unit := do
  let type ← requireWireString document "type"
  wireCheck (type ≠ ascii expected) "legacy JSON message type does not match the requested decoder"

/-! ## Framing -/

def isSpace (b : UInt8) : Bool := b = 32 ∨ (9 ≤ b ∧ b ≤ 13)

def opensObject (data : Bytes) : Bool := (data.dropWhile isSpace).head? == some 123

def encodeProtobuf (proto : Codec Proto.WireEnvelope) (envelope : Proto.WireEnvelope) :
    Except CodecException Bytes := do
  let bytes := proto.serialize envelope
  wireCheck (bytes.length = 0 ∨ maxWireBytes - protobufMagic.length < bytes.length ∨
      maxInt < bytes.length)
    "encoded protobuf size is outside the supported range"
  pure (protobufMagic ++ bytes)

/-- `parse_protobuf_envelope`: the payload that is set. -/
def parseProtobufEnvelope (proto : Codec Proto.WireEnvelope) (data : Bytes) :
    Except CodecException Proto.WirePayload := do
  validateWireSize data.length
  wireCheck (data.length ≤ protobufMagic.length ∨ data.take protobufMagic.length ≠ protobufMagic)
    "protobuf framing magic is missing"
  wireCheck (maxInt < data.length - protobufMagic.length) "protobuf payload is too large"
  match proto.parse (data.drop protobufMagic.length) with
  | none => wireError "malformed or truncated protobuf payload"
  | some envelope =>
    wireCheck (envelope.protocolVersion ≠ protocolVersion) "unsupported protobuf protocol version"
    match envelope.payload with
    | none => wireError "protobuf envelope has no payload"
    | some payload => pure payload

def detectRaftWireFormat (data : Bytes) : Except CodecException RaftWireFormat := do
  validateWireSize data.length
  if protobufMagic.length ≤ data.length ∧ data.take protobufMagic.length = protobufMagic then
    pure .protobufV1
  else if opensObject data then
    pure .legacyJson
  else
    wireError "unknown wire format"

def payloadKind : Proto.WirePayload → RaftRpcKind
  | .requestVote _ => .requestVote
  | .requestVoteReply _ => .requestVoteReply
  | .appendEntries _ => .appendEntries
  | .appendEntriesReply _ => .appendEntriesReply
  | .capabilityRequest _ => .capabilityRequest
  | .capabilityReply _ => .capabilityReply

def detectRaftRpcKind (lib : Libraries) (proto : Codec Proto.WireEnvelope) (data : Bytes) :
    Except CodecException RaftRpcKind := do
  match ← detectRaftWireFormat data with
  | .legacyJson =>
    let document ← parseLegacyJson lib data
    let type ← requireWireString document "type"
    if type = ascii "request_vote" then pure .requestVote
    else if type = ascii "request_vote_reply" then pure .requestVoteReply
    else if type = ascii "append_entries" then pure .appendEntries
    else if type = ascii "append_entries_reply" then pure .appendEntriesReply
    else wireError "unknown legacy JSON message type"
  | .protobufV1 =>
    let payload ← parseProtobufEnvelope proto data
    pure (payloadKind payload)

/-! ## Messages -/

section Messages

variable (lib : Libraries) (proto : Codec Proto.WireEnvelope)

def requestVoteDocument (args : RequestVoteArgs) : Json := .ofFields [
    ("type", .string (ascii "request_vote")),
    ("term", .unsigned args.term),
    ("candidate_id", .string args.candidateId),
    ("last_log_term", .unsigned args.lastLogTerm),
    ("last_log_index", .unsigned args.lastLogIndex)]

def fillRequestVote (args : RequestVoteArgs) : Proto.RequestVote where
  term := .ofNat args.term
  candidateId := args.candidateId
  lastLogTerm := .ofNat args.lastLogTerm
  lastLogIndex := .ofNat args.lastLogIndex

def serializeRequestVote (args : RequestVoteArgs) (format : RaftWireFormat) :
    Except CodecException Bytes := do
  validateRequestVoteFields args
  match format with
  | .legacyJson => dumped lib (requestVoteDocument args)
  | .protobufV1 => encodeProtobuf proto {
      protocolVersion, payload := some (.requestVote (fillRequestVote args)) }

/-- The fields that `parse_request_vote` reads. -/
def readRequestVote (data : Bytes) : Except CodecException RequestVoteArgs := do
  match ← detectRaftWireFormat data with
  | .legacyJson =>
    let document ← parseLegacyJson lib data
    requireExactKeys document ["type", "term", "candidate_id", "last_log_term", "last_log_index"]
      "RequestVote"
    requireLegacyType document "request_vote"
    let term ← requireWireUnsigned document "term"
    let candidateId ← requireWireString document "candidate_id"
    let lastLogTerm ← requireWireUnsigned document "last_log_term"
    let lastLogIndex ← requireWireUnsigned document "last_log_index"
    pure { term, candidateId, lastLogTerm, lastLogIndex }
  | .protobufV1 =>
    match ← parseProtobufEnvelope proto data with
    | .requestVote input => pure {
        term := input.term.toNat
        candidateId := input.candidateId
        lastLogTerm := input.lastLogTerm.toNat
        lastLogIndex := input.lastLogIndex.toNat }
    | _ => wireError "protobuf payload is not RequestVote"

def parseRequestVote (data : Bytes) : Except CodecException RequestVoteArgs := do
  let args ← readRequestVote lib proto data
  validateRequestVoteFields args
  pure args

def requestVoteReplyDocument (reply : RequestVoteReply) : Json := .ofFields [
    ("type", .string (ascii "request_vote_reply")),
    ("term", .unsigned reply.term),
    ("vote_granted", .boolean reply.voteGranted)]

def serializeRequestVoteReply (reply : RequestVoteReply) (format : RaftWireFormat) :
    Except CodecException Bytes :=
  match format with
  | .legacyJson => dumped lib (requestVoteReplyDocument reply)
  | .protobufV1 => encodeProtobuf proto {
      protocolVersion
      payload := some (.requestVoteReply {
        term := .ofNat reply.term, voteGranted := reply.voteGranted }) }

def parseRequestVoteReply (data : Bytes) : Except CodecException RequestVoteReply := do
  match ← detectRaftWireFormat data with
  | .legacyJson =>
    let document ← parseLegacyJson lib data
    requireExactKeys document ["type", "term", "vote_granted"] "RequestVoteReply"
    requireLegacyType document "request_vote_reply"
    let term ← requireWireUnsigned document "term"
    let voteGranted ← requireWireBoolean document "vote_granted"
    pure { term, voteGranted }
  | .protobufV1 =>
    match ← parseProtobufEnvelope proto data with
    | .requestVoteReply input => pure {
        term := input.term.toNat, voteGranted := input.voteGranted }
    | _ => wireError "protobuf payload is not RequestVoteReply"

/-- The JSON document of an `AppendEntriesArgs`. -/
def appendEntriesDocument (args : AppendEntriesArgs) : Json := .ofFields [
    ("type", .string (ascii "append_entries")),
    ("term", .unsigned args.term),
    ("leader_id", .string args.leaderId),
    ("prev_log_index", .unsigned args.prevLogIndex),
    ("prev_log_term", .unsigned args.prevLogTerm),
    ("entries", .array (args.entries.map entryJson)),
    ("leader_commit", .unsigned args.leaderCommit)]

def fillAppendEntries (args : AppendEntriesArgs) : Proto.AppendEntries where
  term := .ofNat args.term
  leaderId := args.leaderId
  prevLogIndex := .ofNat args.prevLogIndex
  prevLogTerm := .ofNat args.prevLogTerm
  leaderCommit := .ofNat args.leaderCommit
  entries := args.entries.map fun entry => { term := .ofNat entry.term, command := entry.command }

def serializeAppendEntries (args : AppendEntriesArgs) (format : RaftWireFormat) :
    Except CodecException Bytes := do
  validateAppendEntriesFields args
  match format with
  | .legacyJson => dumped lib (appendEntriesDocument args)
  | .protobufV1 => encodeProtobuf proto {
      protocolVersion, payload := some (.appendEntries (fillAppendEntries args)) }

def readWireEntry (entry : Json) : Except CodecException LogEntry := do
  requireExactKeys entry ["term", "command"] "LogEntry"
  let term ← requireWireUnsigned entry "term"
  let command ← requireWireString entry "command"
  pure { term, command }

/-- The fields that `parse_append_entries` reads. -/
def readAppendEntries (data : Bytes) : Except CodecException AppendEntriesArgs := do
  match ← detectRaftWireFormat data with
  | .legacyJson =>
    let document ← parseLegacyJson lib data
    requireExactKeys document ["type", "term", "leader_id", "prev_log_index", "prev_log_term",
      "entries", "leader_commit"] "AppendEntries"
    requireLegacyType document "append_entries"
    let items ← required wireException Json.array? "an array" document "entries"
    let term ← requireWireUnsigned document "term"
    let leaderId ← requireWireString document "leader_id"
    let prevLogIndex ← requireWireUnsigned document "prev_log_index"
    let prevLogTerm ← requireWireUnsigned document "prev_log_term"
    let leaderCommit ← requireWireUnsigned document "leader_commit"
    let entries ← items.mapM readWireEntry
    pure { term, leaderId, prevLogIndex, prevLogTerm, leaderCommit, entries }
  | .protobufV1 =>
    match ← parseProtobufEnvelope proto data with
    | .appendEntries input => pure {
        term := input.term.toNat
        leaderId := input.leaderId
        prevLogIndex := input.prevLogIndex.toNat
        prevLogTerm := input.prevLogTerm.toNat
        leaderCommit := input.leaderCommit.toNat
        entries := input.entries.map fun entry =>
          { term := entry.term.toNat, command := entry.command } }
    | _ => wireError "protobuf payload is not AppendEntries"

def parseAppendEntries (data : Bytes) : Except CodecException AppendEntriesArgs := do
  let args ← readAppendEntries lib proto data
  validateAppendEntriesFields args
  pure args

def appendEntriesReplyDocument (reply : AppendEntriesReply) : Json := .ofFields [
    ("type", .string (ascii "append_entries_reply")),
    ("term", .unsigned reply.term),
    ("success", .boolean reply.success),
    ("match_index", .unsigned reply.matchIndex)]

def serializeAppendEntriesReply (reply : AppendEntriesReply) (format : RaftWireFormat) :
    Except CodecException Bytes :=
  match format with
  | .legacyJson => dumped lib (appendEntriesReplyDocument reply)
  | .protobufV1 => encodeProtobuf proto {
      protocolVersion
      payload := some (.appendEntriesReply {
        term := .ofNat reply.term
        success := reply.success
        matchIndex := .ofNat reply.matchIndex }) }

def parseAppendEntriesReply (data : Bytes) : Except CodecException AppendEntriesReply := do
  match ← detectRaftWireFormat data with
  | .legacyJson =>
    let document ← parseLegacyJson lib data
    requireExactKeys document ["type", "term", "success", "match_index"] "AppendEntriesReply"
    requireLegacyType document "append_entries_reply"
    let term ← requireWireUnsigned document "term"
    let success ← requireWireBoolean document "success"
    let matchIndex ← requireWireUnsigned document "match_index"
    pure { term, success, matchIndex }
  | .protobufV1 =>
    match ← parseProtobufEnvelope proto data with
    | .appendEntriesReply input => pure {
        term := input.term.toNat
        success := input.success
        matchIndex := input.matchIndex.toNat }
    | _ => wireError "protobuf payload is not AppendEntriesReply"

def serializeRaftCapabilityRequest (request : RaftCapabilityRequest) :
    Except CodecException Bytes := do
  validateNodeId request.nodeId
  wireCheck (protocolVersion ∉ request.supportedProtocolVersions)
    "capability request must advertise protobuf protocol version 1"
  encodeProtobuf proto {
    protocolVersion
    payload := some (.capabilityRequest {
      nodeId := request.nodeId
      supportedProtocolVersions := request.supportedProtocolVersions }) }

def parseRaftCapabilityRequest (data : Bytes) : Except CodecException RaftCapabilityRequest := do
  match ← parseProtobufEnvelope proto data with
  | .capabilityRequest input =>
    let request : RaftCapabilityRequest := {
      nodeId := input.nodeId
      supportedProtocolVersions := input.supportedProtocolVersions }
    validateNodeId request.nodeId
    wireCheck request.supportedProtocolVersions.isEmpty
      "capability request has no supported protocol versions"
    pure request
  | _ => wireError "protobuf payload is not CapabilityRequest"

/-- Only a reply for protobuf has its version checked. -/
def serializeRaftCapabilityReply (reply : RaftCapabilityReply) : Except CodecException Bytes := do
  validateNodeId reply.nodeId
  wireCheck (reply.protobufSupported && reply.selectedProtocolVersion != protocolVersion)
    "capability reply selected an unsupported protocol version"
  encodeProtobuf proto {
    protocolVersion
    payload := some (.capabilityReply {
      nodeId := reply.nodeId
      selectedProtocolVersion := reply.selectedProtocolVersion
      protobufSupported := reply.protobufSupported }) }

def parseRaftCapabilityReply (data : Bytes) : Except CodecException RaftCapabilityReply := do
  match ← parseProtobufEnvelope proto data with
  | .capabilityReply input =>
    let reply : RaftCapabilityReply := {
      nodeId := input.nodeId
      selectedProtocolVersion := input.selectedProtocolVersion
      protobufSupported := input.protobufSupported }
    validateNodeId reply.nodeId
    wireCheck ((reply.protobufSupported && reply.selectedProtocolVersion != protocolVersion) ||
        (!reply.protobufSupported && reply.selectedProtocolVersion != 0))
      "capability reply is internally inconsistent"
    pure reply
  | _ => wireError "protobuf payload is not CapabilityReply"

end Messages

end BoostGateway.Raft
