import BoostGateway.Raft.Reference
import BoostGateway.Raft.WireCodec

/-!
# What is read of a serialized message

`wire_round_trip` says when a parse function of `raft_wire_codec.cpp` reads what its serialize
function wrote. Only the reader bounds the size of a JSON text, and only the reader of a capability
reply looks at the version of a reply that does not announce protobuf.
-/

namespace BoostGateway.Raft

open List Protobuf Proto

inductive RaftMessage where
  | requestVote (args : RequestVoteArgs)
  | requestVoteReply (reply : RequestVoteReply)
  | appendEntries (args : AppendEntriesArgs)
  | appendEntriesReply (reply : AppendEntriesReply)
  | capabilityRequest (request : RaftCapabilityRequest)
  | capabilityReply (reply : RaftCapabilityReply)

namespace RaftMessage

def kind : RaftMessage → RaftRpcKind
  | .requestVote _ => .requestVote
  | .requestVoteReply _ => .requestVoteReply
  | .appendEntries _ => .appendEntries
  | .appendEntriesReply _ => .appendEntriesReply
  | .capabilityRequest _ => .capabilityRequest
  | .capabilityReply _ => .capabilityReply

/-- The numbers of a message are `std::uint64_t` values. -/
def InRange : RaftMessage → Prop
  | .requestVote args =>
    args.term < 2 ^ 64 ∧ args.lastLogTerm < 2 ^ 64 ∧ args.lastLogIndex < 2 ^ 64
  | .requestVoteReply reply => reply.term < 2 ^ 64
  | .appendEntries args =>
    args.term < 2 ^ 64 ∧ args.prevLogIndex < 2 ^ 64 ∧ args.prevLogTerm < 2 ^ 64 ∧
      args.leaderCommit < 2 ^ 64 ∧ ∀ entry ∈ args.entries, entry.term < 2 ^ 64
  | .appendEntriesReply reply => reply.term < 2 ^ 64 ∧ reply.matchIndex < 2 ^ 64
  | .capabilityRequest _ | .capabilityReply _ => True

def document? : RaftMessage → Option Json
  | .requestVote args => some (requestVoteDocument args)
  | .requestVoteReply reply => some (requestVoteReplyDocument reply)
  | .appendEntries args => some (appendEntriesDocument args)
  | .appendEntriesReply reply => some (appendEntriesReplyDocument reply)
  | .capabilityRequest _ | .capabilityReply _ => none

def identities : RaftMessage → List Bytes
  | .requestVote args => [args.candidateId]
  | .appendEntries args => [args.leaderId]
  | .capabilityRequest request => [request.nodeId]
  | .capabilityReply reply => [reply.nodeId]
  | .requestVoteReply _ | .appendEntriesReply _ => []

def selectsNothingUnsupported : RaftMessage → Bool
  | .capabilityReply reply => reply.protobufSupported || reply.selectedProtocolVersion == 0
  | _ => true

end RaftMessage

section Codec

variable (lib : Libraries) (proto : Codec WireEnvelope)

/-- The serialize function returned these bytes. -/
inductive Serialized : RaftMessage → RaftWireFormat → Bytes → Prop where
  | requestVote (args format bytes) : serializeRequestVote lib proto args format = .ok bytes →
      Serialized (.requestVote args) format bytes
  | requestVoteReply (reply format bytes) :
      serializeRequestVoteReply lib proto reply format = .ok bytes →
      Serialized (.requestVoteReply reply) format bytes
  | appendEntries (args format bytes) : serializeAppendEntries lib proto args format = .ok bytes →
      Serialized (.appendEntries args) format bytes
  | appendEntriesReply (reply format bytes) :
      serializeAppendEntriesReply lib proto reply format = .ok bytes →
      Serialized (.appendEntriesReply reply) format bytes
  | capabilityRequest (request bytes) : serializeRaftCapabilityRequest proto request = .ok bytes →
      Serialized (.capabilityRequest request) .protobufV1 bytes
  | capabilityReply (reply bytes) : serializeRaftCapabilityReply proto reply = .ok bytes →
      Serialized (.capabilityReply reply) .protobufV1 bytes

def parseMessage (kind : RaftRpcKind) (data : Bytes) : Except CodecException RaftMessage :=
  match kind with
  | .requestVote => (parseRequestVote lib proto data).map .requestVote
  | .requestVoteReply => (parseRequestVoteReply lib proto data).map .requestVoteReply
  | .appendEntries => (parseAppendEntries lib proto data).map .appendEntries
  | .appendEntriesReply => (parseAppendEntriesReply lib proto data).map .appendEntriesReply
  | .capabilityRequest => (parseRaftCapabilityRequest proto data).map .capabilityRequest
  | .capabilityReply => (parseRaftCapabilityReply proto data).map .capabilityReply

/-- The bytes are read as the message, its format and its kind. -/
def ReadBack (message : RaftMessage) (format : RaftWireFormat) (bytes : Bytes) : Prop :=
  parseMessage lib proto message.kind bytes = .ok message ∧
    detectRaftWireFormat bytes = .ok format ∧ detectRaftRpcKind lib proto bytes = .ok message.kind

/-- What the readers ask of a message and the writers do not. -/
def Readable (message : RaftMessage) : RaftWireFormat → Prop
  | .legacyJson => ∀ document ∈ message.document?, document.text.length ≤ maxWireBytes
  | .protobufV1 => (proto.checksUtf8 = true → message.identities.all utf8Valid = true) ∧
      message.selectsNothingUnsupported = true

end Codec

/-! ## Checks -/

@[simp] theorem wireCheck_ok_iff {failed : Bool} {detail : String} {u : Unit} :
    wireCheck failed detail = .ok u ↔ failed = false := by
  cases failed <;> simp [wireCheck, wireError]

theorem validateWireSize_ok_iff {size : Nat} {u : Unit} :
    validateWireSize size = .ok u ↔ 0 < size ∧ size ≤ maxWireBytes := by
  simp only [validateWireSize, wireCheck_ok_iff, decide_eq_false_iff_not]
  omega

/-! ## JSON texts -/

section Legacy

variable {lib : Libraries} {proto : Codec WireEnvelope} {fields : List (String × Json)}
  {bytes : Bytes}

theorem detectRaftWireFormat_text (h : bytes = (Json.object fields).text)
    (hsize : bytes.length ≤ maxWireBytes) : detectRaftWireFormat bytes = .ok .legacyJson := by
  obtain ⟨rest, hrest⟩ := exists_text_object fields
  have hval : validateWireSize bytes.length = .ok () := by
    refine validateWireSize_ok_iff.mpr ⟨?_, hsize⟩
    simp [h, hrest]
  have hmagic : ¬ (protobufMagic.length ≤ bytes.length ∧
      bytes.take protobufMagic.length = protobufMagic) := by
    rintro ⟨_, htake⟩
    rw [h, hrest] at htake
    simp [protobufMagic] at htake
  have hopens : opensObject bytes = true := by simp [opensObject, h, hrest, isSpace]
  simp [detectRaftWireFormat, hval, hmagic, hopens, bind, Except.bind, pure, Except.pure]

theorem length_le_of_detect {format : RaftWireFormat}
    (h : detectRaftWireFormat bytes = .ok format) : bytes.length ≤ maxWireBytes := by
  obtain ⟨_, hval, _⟩ := bind_ok_iff.mp h
  exact (validateWireSize_ok_iff.mp hval).2

theorem parseLegacyJson_text (hlib : lib.Lawful) (hcan : (Json.object fields).canonical = true)
    (hdump : lib.dump (.object fields) = .ok bytes)
    (hdet : detectRaftWireFormat bytes = .ok .legacyJson) :
    parseLegacyJson lib bytes = .ok (.object fields) := by
  obtain ⟨_, hval, _⟩ := bind_ok_iff.mp hdet
  simp [parseLegacyJson, hval, hlib.parse_dump _ _ hcan hdump, bind, Except.bind,
    Json.isObject, wireCheck, pure, Except.pure]

theorem requestVoteDocument_eq (args : RequestVoteArgs) : requestVoteDocument args = .object [
      ("candidate_id", .string args.candidateId),
      ("last_log_index", .unsigned args.lastLogIndex),
      ("last_log_term", .unsigned args.lastLogTerm),
      ("term", .unsigned args.term),
      ("type", .string (ascii "request_vote"))] := by
  simp [requestVoteDocument, Json.ofFields, Json.insertField, -String.lt_iff_ltb]

theorem requestVoteReplyDocument_eq (reply : RequestVoteReply) :
    requestVoteReplyDocument reply = .object [ ("term", .unsigned reply.term),
      ("type", .string (ascii "request_vote_reply")),
      ("vote_granted", .boolean reply.voteGranted)] := by
  simp [requestVoteReplyDocument, Json.ofFields, Json.insertField, -String.lt_iff_ltb]

theorem appendEntriesDocument_eq (args : AppendEntriesArgs) : appendEntriesDocument args = .object [
      ("entries", .array (args.entries.map entryJson)),
      ("leader_commit", .unsigned args.leaderCommit),
      ("leader_id", .string args.leaderId),
      ("prev_log_index", .unsigned args.prevLogIndex),
      ("prev_log_term", .unsigned args.prevLogTerm),
      ("term", .unsigned args.term),
      ("type", .string (ascii "append_entries"))] := by
  simp [appendEntriesDocument, Json.ofFields, Json.insertField, -String.lt_iff_ltb]

theorem appendEntriesReplyDocument_eq (reply : AppendEntriesReply) :
    appendEntriesReplyDocument reply = .object [ ("match_index", .unsigned reply.matchIndex),
      ("success", .boolean reply.success),
      ("term", .unsigned reply.term),
      ("type", .string (ascii "append_entries_reply"))] := by
  simp [appendEntriesReplyDocument, Json.ofFields, Json.insertField, -String.lt_iff_ltb]

variable {message : RaftMessage} {document : Json}

theorem exists_document_eq (h : document ∈ message.document?) :
    ∃ fields, document = .object fields := by cases message <;> cases h <;> exact ⟨_, rfl⟩

theorem canonical_document (hrange : message.InRange) (h : document ∈ message.document?) :
    document.canonical = true := by
  cases message with
  | requestVote | requestVoteReply | appendEntriesReply =>
    simp only [RaftMessage.InRange] at hrange
    cases h
    refine Json.canonical_ofFields (by simp [Json.asciiKey]) ?_
    simp [Json.canonical]
    omega
  | appendEntries args =>
    obtain ⟨hterm, hidx, hprev, hcom, hentries⟩ := hrange
    cases h
    refine Json.canonical_ofFields (by simp [Json.asciiKey]) ?_
    have hlog := canonical_log (show ∀ entry ∈
      ({ log := args.entries } : RaftPersistentState).log, entry.term < 2 ^ 64 from hentries)
    simp [Json.canonical, hlog]
    omega
  | capabilityRequest | capabilityReply => cases h

theorem readWireEntry_entryJson (entry : LogEntry) :
    readWireEntry (entryJson entry) = .ok entry := by
  rw [entryJson_eq]
  rfl

theorem mapM_readWireEntry (entries : List LogEntry) :
    (entries.map entryJson).mapM readWireEntry = .ok entries := by
  induction entries with
  | nil => rfl
  | cons entry entries ih =>
    rw [map_cons, mapM_cons]
    refine bind_ok (readWireEntry_entryJson entry) ?_
    exact bind_ok ih rfl

/-- The kind that `detect_raft_rpc_kind` reads. -/
theorem detectRaftRpcKind_document (h : document ∈ message.document?)
    (hdet : detectRaftWireFormat bytes = .ok .legacyJson)
    (hparse : parseLegacyJson lib bytes = .ok document) :
    detectRaftRpcKind lib proto bytes = .ok message.kind := by
  have htype : ∀ type, requireWireString document "type" = .ok type →
      detectRaftRpcKind lib proto bytes =
        if type = ascii "request_vote" then .ok .requestVote
        else if type = ascii "request_vote_reply" then .ok .requestVoteReply
        else if type = ascii "append_entries" then .ok .appendEntries
        else if type = ascii "append_entries_reply" then .ok .appendEntriesReply
        else wireError "unknown legacy JSON message type" := by
    intro type htype
    simp [detectRaftRpcKind, hdet, hparse, htype, bind, Except.bind, pure, Except.pure]
  cases message with
  | requestVote =>
    cases h
    exact htype (ascii "request_vote") (by rw [requestVoteDocument_eq]; rfl)
  | requestVoteReply =>
    cases h
    exact htype (ascii "request_vote_reply") (by rw [requestVoteReplyDocument_eq]; rfl)
  | appendEntries =>
    cases h
    exact htype (ascii "append_entries") (by rw [appendEntriesDocument_eq]; rfl)
  | appendEntriesReply =>
    cases h
    exact htype (ascii "append_entries_reply") (by rw [appendEntriesReplyDocument_eq]; rfl)
  | capabilityRequest | capabilityReply => cases h

theorem readAppendEntries_document {args : AppendEntriesArgs}
    (hdet : detectRaftWireFormat bytes = .ok .legacyJson)
    (hparse : parseLegacyJson lib bytes = .ok (appendEntriesDocument args)) :
    readAppendEntries lib proto bytes = .ok args := by
  rw [appendEntriesDocument_eq] at hparse
  refine bind_ok hdet ?_
  refine bind_ok hparse ?_
  refine bind_ok (a := ()) rfl (bind_ok (a := ()) rfl ?_)
  refine bind_ok rfl ?_
  refine bind_ok rfl (bind_ok rfl ?_)
  refine bind_ok rfl ?_
  refine bind_ok rfl ?_
  refine bind_ok rfl ?_
  exact bind_ok (mapM_readWireEntry args.entries) rfl

theorem Serialized.legacyJson (h : Serialized lib proto message .legacyJson bytes) :
    ∃ document ∈ message.document?, lib.dump document = .ok bytes := by
  cases h with
  | requestVote args _ _ h | appendEntries args _ _ h =>
    obtain ⟨_, _, hdump⟩ := bind_ok_iff.mp h
    exact ⟨_, rfl, dumped_ok_iff.mp hdump⟩
  | requestVoteReply reply _ _ h | appendEntriesReply reply _ _ h =>
    exact ⟨_, rfl, dumped_ok_iff.mp h⟩

/-- The parse function of a JSON message reads its document. -/
theorem parseMessage_document (h : Serialized lib proto message .legacyJson bytes)
    (hdoc : document ∈ message.document?) (hdet : detectRaftWireFormat bytes = .ok .legacyJson)
    (hparse : parseLegacyJson lib bytes = .ok document) :
    parseMessage lib proto message.kind bytes = .ok message := by
  cases h with
  | requestVote args _ _ h =>
    obtain ⟨_, hval, _⟩ := bind_ok_iff.mp h
    cases hdoc
    rw [requestVoteDocument_eq] at hparse
    have hread : readRequestVote lib proto bytes = .ok args := bind_ok hdet (bind_ok hparse rfl)
    have hparsed : parseRequestVote lib proto bytes = .ok args := bind_ok hread (bind_ok hval rfl)
    exact congrArg (Except.map _) hparsed
  | requestVoteReply reply =>
    cases hdoc
    rw [requestVoteReplyDocument_eq] at hparse
    have hparsed : parseRequestVoteReply lib proto bytes = .ok reply :=
      bind_ok hdet (bind_ok hparse rfl)
    exact congrArg (Except.map _) hparsed
  | appendEntries args _ _ h =>
    obtain ⟨_, hval, _⟩ := bind_ok_iff.mp h
    cases hdoc
    have hparsed : parseAppendEntries lib proto bytes = .ok args :=
      bind_ok (readAppendEntries_document hdet hparse) (bind_ok hval rfl)
    exact congrArg (Except.map _) hparsed
  | appendEntriesReply reply =>
    cases hdoc
    rw [appendEntriesReplyDocument_eq] at hparse
    have hparsed : parseAppendEntriesReply lib proto bytes = .ok reply :=
      bind_ok hdet (bind_ok hparse rfl)
    exact congrArg (Except.map _) hparsed

/-- A JSON message is read back if its text is not too long. -/
theorem readBack_legacyJson (hlib : lib.Lawful) (htext : lib.WritesText) (hrange : message.InRange)
    (h : Serialized lib proto message .legacyJson bytes) :
    ReadBack lib proto message .legacyJson bytes ↔ Readable proto message .legacyJson := by
  obtain ⟨document, hdoc, hdump⟩ := h.legacyJson
  obtain ⟨fields, rfl⟩ := exists_document_eq hdoc
  have hbytes := htext _ _ hdump
  constructor
  · rintro ⟨_, hdet, _⟩ other hother
    rw [Option.mem_unique hother hdoc, ← hbytes]
    exact length_le_of_detect hdet
  · intro hreadable
    have hdet := detectRaftWireFormat_text hbytes (hbytes ▸ hreadable _ hdoc)
    have hparse := parseLegacyJson_text hlib (canonical_document hrange hdoc) hdump hdet
    exact ⟨parseMessage_document h hdoc hdet hparse, hdet,
      detectRaftRpcKind_document hdoc hdet hparse⟩

end Legacy

/-! ## Framed envelopes -/

section Framed

variable {lib : Libraries} {proto : Codec WireEnvelope} {bytes : Bytes}

def RaftMessage.payload : RaftMessage → WirePayload
  | .requestVote args => .requestVote (fillRequestVote args)
  | .requestVoteReply reply =>
    .requestVoteReply { term := .ofNat reply.term, voteGranted := reply.voteGranted }
  | .appendEntries args => .appendEntries (fillAppendEntries args)
  | .appendEntriesReply reply => .appendEntriesReply {
      term := .ofNat reply.term
      success := reply.success
      matchIndex := .ofNat reply.matchIndex }
  | .capabilityRequest request => .capabilityRequest {
      nodeId := request.nodeId
      supportedProtocolVersions := request.supportedProtocolVersions }
  | .capabilityReply reply => .capabilityReply {
      nodeId := reply.nodeId
      selectedProtocolVersion := reply.selectedProtocolVersion
      protobufSupported := reply.protobufSupported }

def RaftMessage.envelope (message : RaftMessage) : WireEnvelope where
  protocolVersion := protocolVersion
  payload := some message.payload

theorem RaftMessage.strings_envelope (message : RaftMessage) :
    message.envelope.strings = message.identities := by cases message <;> rfl

theorem RaftMessage.payloadKind_payload (message : RaftMessage) :
    payloadKind message.payload = message.kind := by cases message <;> rfl

variable {message : RaftMessage}

theorem Serialized.protobufV1 (h : Serialized lib proto message .protobufV1 bytes) :
    encodeProtobuf proto message.envelope = .ok bytes := by
  cases h with
  | requestVote args _ _ h | appendEntries args _ _ h =>
    obtain ⟨_, _, h⟩ := bind_ok_iff.mp h
    exact h
  | requestVoteReply reply _ _ h | appendEntriesReply reply _ _ h => exact h
  | capabilityRequest request _ h | capabilityReply reply _ h =>
    obtain ⟨_, _, h⟩ := bind_ok_iff.mp h
    obtain ⟨_, _, h⟩ := bind_ok_iff.mp h
    exact h

theorem encodeProtobuf_ok_iff {env : WireEnvelope} :
    encodeProtobuf proto env = .ok bytes ↔
      bytes = protobufMagic ++ proto.serialize env ∧ 0 < (proto.serialize env).length ∧
        (proto.serialize env).length ≤ maxWireBytes - 4 := by
  have hmagic : protobufMagic.length = 4 := rfl
  have hbounds : maxWireBytes - 4 ≤ maxInt := by decide
  simp only [encodeProtobuf, bind_ok_iff, wireCheck_ok_iff, decide_eq_false_iff_not, hmagic,
    exists_const, pure, Except.pure, Except.ok.injEq]
  constructor
  · rintro ⟨hsize, rfl⟩
    exact ⟨rfl, by omega, by omega⟩
  · rintro ⟨rfl, hpos, hsize⟩
    exact ⟨by omega, rfl⟩

theorem validateWireSize_frame {env : WireEnvelope}
    (h : encodeProtobuf proto env = .ok bytes) : validateWireSize bytes.length = .ok () := by
  obtain ⟨hbytes, hpos, hsize⟩ := encodeProtobuf_ok_iff.mp h
  have hmagic : protobufMagic.length = 4 := rfl
  rw [validateWireSize_ok_iff, hbytes, length_append]
  omega

theorem detectRaftWireFormat_frame {env : WireEnvelope} (h : encodeProtobuf proto env = .ok bytes) :
    detectRaftWireFormat bytes = .ok .protobufV1 := by
  obtain ⟨hbytes, _, _⟩ := encodeProtobuf_ok_iff.mp h
  have hmagic : protobufMagic.length ≤ bytes.length ∧
      bytes.take protobufMagic.length = protobufMagic := by simp [hbytes]
  refine bind_ok (a := ()) (validateWireSize_frame h) ?_
  rw [if_pos hmagic]
  rfl

theorem parseProtobufEnvelope_frame (hproto : proto.Lawful WireEnvelope.strings)
    (h : encodeProtobuf proto message.envelope = .ok bytes) :
    parseProtobufEnvelope proto bytes =
      if proto.refuses WireEnvelope.strings message.envelope
      then wireError "malformed or truncated protobuf payload" else .ok message.payload := by
  obtain ⟨hbytes, hpos, hsize⟩ := encodeProtobuf_ok_iff.mp h
  have hbounds : maxWireBytes - 4 ≤ maxInt ∧ maxInt < 2 ^ 31 := by decide
  have hlen : bytes.length = protobufMagic.length + (proto.serialize message.envelope).length := by
    rw [hbytes, length_append]
  have hmagic : wireCheck (bytes.length ≤ protobufMagic.length ∨
      bytes.take protobufMagic.length ≠ protobufMagic) "protobuf framing magic is missing" =
        .ok () := by
    refine wireCheck_ok_iff.mpr (decide_eq_false ?_)
    rintro (hshort | htake)
    · omega
    · exact htake (by simp [hbytes])
  have hint : wireCheck (maxInt < bytes.length - protobufMagic.length)
      "protobuf payload is too large" = .ok () :=
    wireCheck_ok_iff.mpr (decide_eq_false (by omega))
  have hdrop : bytes.drop protobufMagic.length = proto.serialize message.envelope := by
    simp [hbytes]
  have hparse := hproto message.envelope (by omega)
  simp only [parseProtobufEnvelope, validateWireSize_frame h, hmagic, hint, hdrop, hparse, bind,
    Except.bind]
  cases proto.refuses WireEnvelope.strings message.envelope <;> rfl

theorem toNat_ofNat {n : Nat} (h : n < 2 ^ 64) : (UInt64.ofNat n).toNat = n := by
  rw [UInt64.toNat_ofNat', Nat.mod_eq_of_lt h]

theorem map_entries {entries : List LogEntry} (h : ∀ entry ∈ entries, entry.term < 2 ^ 64) :
    (entries.map fun entry =>
      ({ term := .ofNat entry.term, command := entry.command } : Proto.LogEntry)).map
        (fun entry => ({ term := entry.term.toNat, command := entry.command } : LogEntry)) =
      entries := by
  rw [map_map]
  refine (map_congr_left fun entry hentry => ?_).trans entries.map_id
  simp [toNat_ofNat (h entry hentry)]

/-- The payload is read, but for a reply's version. -/
theorem parseMessage_payload (hrange : message.InRange)
    (h : Serialized lib proto message .protobufV1 bytes)
    (hparse : parseProtobufEnvelope proto bytes = .ok message.payload) :
    parseMessage lib proto message.kind bytes = .ok message ↔
      message.selectsNothingUnsupported = true := by
  have hdet := detectRaftWireFormat_frame h.protobufV1
  cases h with
  | requestVote args _ _ h =>
    obtain ⟨hterm, hlast, hidx⟩ := hrange
    obtain ⟨_, hval, _⟩ := bind_ok_iff.mp h
    have hread : readRequestVote lib proto bytes = .ok args := by
      refine bind_ok hdet (bind_ok hparse ?_)
      simp [RaftMessage.payload, fillRequestVote, toNat_ofNat hterm, toNat_ofNat hlast,
        toNat_ofNat hidx, pure, Except.pure]
    have hparsed : parseRequestVote lib proto bytes = .ok args := bind_ok hread (bind_ok hval rfl)
    exact iff_of_true (congrArg (Except.map _) hparsed) rfl
  | requestVoteReply reply =>
    have hparsed : parseRequestVoteReply lib proto bytes = .ok reply := by
      refine bind_ok hdet (bind_ok hparse ?_)
      simp [RaftMessage.payload, toNat_ofNat (show reply.term < 2 ^ 64 from hrange), pure,
        Except.pure]
    exact iff_of_true (congrArg (Except.map _) hparsed) rfl
  | appendEntries args _ _ h =>
    obtain ⟨hterm, hidx, hprev, hcom, hentries⟩ := hrange
    obtain ⟨_, hval, _⟩ := bind_ok_iff.mp h
    have hread : readAppendEntries lib proto bytes = .ok args := by
      refine bind_ok hdet (bind_ok hparse ?_)
      simp [RaftMessage.payload, fillAppendEntries, toNat_ofNat hterm, toNat_ofNat hidx,
        toNat_ofNat hprev, toNat_ofNat hcom, map_entries hentries, pure, Except.pure]
    have hparsed : parseAppendEntries lib proto bytes = .ok args := bind_ok hread (bind_ok hval rfl)
    exact iff_of_true (congrArg (Except.map _) hparsed) rfl
  | appendEntriesReply reply =>
    obtain ⟨hterm, hidx⟩ := hrange
    have hparsed : parseAppendEntriesReply lib proto bytes = .ok reply := by
      refine bind_ok hdet (bind_ok hparse ?_)
      simp [RaftMessage.payload, toNat_ofNat hterm, toNat_ofNat hidx, pure, Except.pure]
    exact iff_of_true (congrArg (Except.map _) hparsed) rfl
  | capabilityRequest request _ h =>
    obtain ⟨_, hval, h⟩ := bind_ok_iff.mp h
    obtain ⟨_, hver, _⟩ := bind_ok_iff.mp h
    -- A list that holds the version is not empty.
    have hversions : request.supportedProtocolVersions.isEmpty = false := by
      rw [isEmpty_eq_false_iff]
      intro hempty
      simp [hempty] at hver
    have hparsed : parseRaftCapabilityRequest proto bytes = .ok request := by
      refine bind_ok hparse (bind_ok hval ?_)
      exact bind_ok (a := ()) (wireCheck_ok_iff.mpr hversions) rfl
    exact iff_of_true (congrArg (Except.map _) hparsed) rfl
  | capabilityReply reply _ h =>
    obtain ⟨nodeId, selected, supported⟩ := reply
    obtain ⟨_, hval, h⟩ := bind_ok_iff.mp h
    obtain ⟨_, hver, _⟩ := bind_ok_iff.mp h
    have hparsed : parseRaftCapabilityReply proto bytes =
        if supported || selected == 0 then .ok ⟨nodeId, selected, supported⟩
        else wireError "capability reply is internally inconsistent" := by
      simp only [parseRaftCapabilityReply, hparse, RaftMessage.payload, bind, Except.bind, hval,
        wireCheck_ok_iff.mp hver, Bool.false_or]
      cases supported <;> cases hzero : selected == 0 <;>
        simp [wireCheck, wireError, hzero, bne, pure, Except.pure]
    simp only [parseMessage, RaftMessage.kind, hparsed, RaftMessage.selectsNothingUnsupported]
    split_ifs with hselects <;> simp [hselects, Except.map, wireError]

/-- A framed message is read back if strings and version are accepted. -/
theorem readBack_protobufV1 (hproto : proto.Lawful WireEnvelope.strings)
    (hrange : message.InRange) (h : Serialized lib proto message .protobufV1 bytes) :
    ReadBack lib proto message .protobufV1 bytes ↔ Readable proto message .protobufV1 := by
  have hdet := detectRaftWireFormat_frame h.protobufV1
  have hframe := parseProtobufEnvelope_frame hproto h.protobufV1
  have hkind : detectRaftRpcKind lib proto bytes =
      (parseProtobufEnvelope proto bytes).map payloadKind := by
    simp only [detectRaftRpcKind, hdet, bind, Except.bind]
    cases parseProtobufEnvelope proto bytes <;> rfl
  have hstrings : proto.refuses WireEnvelope.strings message.envelope = false ↔
      (proto.checksUtf8 = true → message.identities.all utf8Valid = true) := by
    rw [Codec.refuses, message.strings_envelope]
    cases proto.checksUtf8 <;> simp
  cases hrefuses : proto.refuses WireEnvelope.strings message.envelope with
  | false =>
    rw [hrefuses, if_neg Bool.false_ne_true] at hframe
    have hkind : detectRaftRpcKind lib proto bytes = .ok message.kind := by
      rw [hkind, hframe, Except.map, message.payloadKind_payload]
    have hmsg := parseMessage_payload hrange h hframe
    constructor
    · rintro ⟨hparse, _, _⟩
      exact ⟨hstrings.mp hrefuses, hmsg.mp hparse⟩
    · rintro ⟨_, hselects⟩
      exact ⟨hmsg.mpr hselects, hdet, hkind⟩
  | true =>
    rw [hrefuses, if_pos rfl] at hframe
    constructor
    · rintro ⟨_, _, hok⟩
      rw [hkind, hframe] at hok
      cases hok
    · rintro ⟨hutf8, _⟩
      rw [hstrings.mpr hutf8] at hrefuses
      cases hrefuses

end Framed

/-! ## Round trips -/

/-- Written bytes are read as the same message, format and kind if and only if the message is
readable in that format: its JSON text is at most 64 MiB long, the protobuf runtime accepts its
identities, and a capability reply that does not announce protobuf selects version zero. A message
that is readable in both formats is read as the same message. -/
theorem wire_round_trip {lib : Libraries} {proto : Codec WireEnvelope} (hlib : lib.Lawful)
    (htext : lib.WritesText) (hproto : proto.Lawful WireEnvelope.strings)
    {message : RaftMessage} (hrange : message.InRange) :
    (∀ format bytes, Serialized lib proto message format bytes →
      (ReadBack lib proto message format bytes ↔ Readable proto message format)) ∧
    ∀ text frame, Serialized lib proto message .legacyJson text →
      Serialized lib proto message .protobufV1 frame → Readable proto message .legacyJson →
      Readable proto message .protobufV1 →
      parseMessage lib proto message.kind text = parseMessage lib proto message.kind frame := by
  have hboth : ∀ format bytes, Serialized lib proto message format bytes →
      (ReadBack lib proto message format bytes ↔ Readable proto message format) := by
    intro format bytes h
    cases format with
    | legacyJson => exact readBack_legacyJson hlib htext hrange h
    | protobufV1 => exact readBack_protobufV1 hproto hrange h
  refine ⟨hboth, fun text frame htext hframe hjson hprotobuf => ?_⟩
  rw [((hboth _ _ htext).mpr hjson).1, ((hboth _ _ hframe).mpr hprotobuf).1]

theorem reference_writesText : reference.WritesText := by
  intro document bytes hdump
  cases hutf8 : document.utf8 with
  | false => simp [reference, hutf8] at hdump
  | true => simpa [reference, hutf8] using hdump.symm

def sampleVote : RequestVoteArgs where
  term := 7
  candidateId := ascii "node-a"
  lastLogTerm := 6
  lastLogIndex := 9

/-- The frame of the sample, as the test fixture has it. -/
def sampleFrame : Bytes :=
  [0x42, 0x47, 0x52, 0x54, 0x08, 0x01, 0x52, 0x0E, 0x08, 0x07, 0x12, 0x06, 0x6E, 0x6F, 0x64, 0x65,
    0x2D, 0x61, 0x18, 0x06, 0x20, 0x09]

theorem serialize_sampleVote : serializeRequestVote reference wireReference sampleVote
    .protobufV1 = .ok sampleFrame := by decide +kernel

theorem wire_round_trip_sampleVote :
    Serialized reference wireReference (.requestVote sampleVote) .protobufV1 sampleFrame ∧
      ReadBack reference wireReference (.requestVote sampleVote) .protobufV1 sampleFrame := by
  have hwrite : Serialized reference wireReference (.requestVote sampleVote) .protobufV1
      sampleFrame := .requestVote _ _ _ serialize_sampleVote
  have hrange : RaftMessage.InRange (.requestVote sampleVote) := ⟨by decide, by decide, by decide⟩
  have hreadable : Readable wireReference (.requestVote sampleVote) .protobufV1 :=
    ⟨fun _ => by decide, rfl⟩
  exact ⟨hwrite, ((wire_round_trip reference_lawful reference_writesText
    wireReference_lawful hrange).1 _ _ hwrite).mpr hreadable⟩

/-- A reply of version one without protobuf. -/
def inconsistentReply : RaftCapabilityReply where
  nodeId := ascii "node-a"
  selectedProtocolVersion := 1
  protobufSupported := false

def inconsistentFrame : Bytes :=
  (serializeRaftCapabilityReply wireReference inconsistentReply).toOption.getD []

theorem wire_round_trip_inconsistentReply :
    Serialized reference wireReference (.capabilityReply inconsistentReply) .protobufV1
        inconsistentFrame ∧
      ¬ ReadBack reference wireReference (.capabilityReply inconsistentReply) .protobufV1
        inconsistentFrame := by
  have hwrite : serializeRaftCapabilityReply wireReference inconsistentReply =
      .ok inconsistentFrame := by decide +kernel
  refine ⟨.capabilityReply _ _ hwrite, ?_⟩
  rintro ⟨hparse, _, _⟩
  have herr : (parseMessage reference wireReference .capabilityReply
      inconsistentFrame).isOk = false := by decide +kernel
  rw [show parseMessage reference wireReference .capabilityReply inconsistentFrame = _ from
    hparse] at herr
  cases herr

end BoostGateway.Raft
