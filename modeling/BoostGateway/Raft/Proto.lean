import BoostGateway.Protobuf

/-!
# The messages of `raft.proto`

The generated code of `WireEnvelope` and `CommandEnvelope` is a parameter of the codecs.
`wireReference` and `commandReference` are lawful implementations of it, which write the fields by
number as `raft.proto` gives them.
-/

namespace BoostGateway.Raft.Proto

open Option List Protobuf

/-! ## `WireEnvelope` -/

structure LogEntry where
  term : UInt64
  command : Bytes

structure RequestVote where
  term : UInt64
  candidateId : Bytes
  lastLogTerm : UInt64
  lastLogIndex : UInt64

structure RequestVoteReply where
  term : UInt64
  voteGranted : Bool

structure AppendEntries where
  term : UInt64
  leaderId : Bytes
  prevLogIndex : UInt64
  prevLogTerm : UInt64
  entries : List LogEntry
  leaderCommit : UInt64

structure AppendEntriesReply where
  term : UInt64
  success : Bool
  matchIndex : UInt64

structure CapabilityRequest where
  nodeId : Bytes
  supportedProtocolVersions : List UInt32

structure CapabilityReply where
  nodeId : Bytes
  selectedProtocolVersion : UInt32
  protobufSupported : Bool

inductive WirePayload where
  | requestVote (message : RequestVote)
  | requestVoteReply (message : RequestVoteReply)
  | appendEntries (message : AppendEntries)
  | appendEntriesReply (message : AppendEntriesReply)
  | capabilityRequest (message : CapabilityRequest)
  | capabilityReply (message : CapabilityReply)

structure WireEnvelope where
  protocolVersion : UInt32
  payload : Option WirePayload

/-- The `string` fields; a `LogEntry.command` is `bytes`. -/
def WirePayload.strings : WirePayload → List Bytes
  | .requestVote message => [message.candidateId]
  | .requestVoteReply _ => []
  | .appendEntries message => [message.leaderId]
  | .appendEntriesReply _ => []
  | .capabilityRequest message => [message.nodeId]
  | .capabilityReply message => [message.nodeId]

@[inherit_doc WirePayload.strings]
def WireEnvelope.strings (envelope : WireEnvelope) : List Bytes :=
  (envelope.payload.map WirePayload.strings).getD []

/-! ## `CommandEnvelope` -/

abbrev MatchMode := UInt32

def matchModeOneVOne : MatchMode := 1

def matchModeTwoVTwo : MatchMode := 2

def matchModeFourVFour : MatchMode := 3

structure MatchJoinCommand where
  userId : Bytes
  mmr : Int64
  queuedAtMs : UInt64
  mode : MatchMode

structure MatchLeaveCommand where
  userId : Bytes
  mode : MatchMode

structure MatchFoundCommand where
  matchId : Bytes
  mode : MatchMode
  playerIds : List Bytes
  avgMmr : Int64

structure MatchPurgeCommand where
  mode : MatchMode
  userIds : List Bytes

structure LeaderboardSubmitCommand where
  userId : Bytes
  displayName : Bytes
  score : Int64

inductive CommandPayload where
  | matchJoin (message : MatchJoinCommand)
  | matchLeave (message : MatchLeaveCommand)
  | matchFound (message : MatchFoundCommand)
  | matchPurge (message : MatchPurgeCommand)
  | leaderboardSubmit (message : LeaderboardSubmitCommand)

structure CommandEnvelope where
  commandVersion : UInt32
  payload : Option CommandPayload

/-- The fields of type `string`. -/
def CommandPayload.strings : CommandPayload → List Bytes
  | .matchJoin message => [message.userId]
  | .matchLeave message => [message.userId]
  | .matchFound message => message.matchId :: message.playerIds
  | .matchPurge message => message.userIds
  | .leaderboardSubmit message => [message.userId, message.displayName]

@[inherit_doc CommandPayload.strings]
def CommandEnvelope.strings (envelope : CommandEnvelope) : List Bytes :=
  (envelope.payload.map CommandPayload.strings).getD []

/-! ## Envelopes on the wire -/

def envelopeFields (version : UInt32) (payload : Option (Nat × List Field)) : List Field :=
  varintField 1 version.toUInt64 ++
    (payload.map fun (number, fields) => ⟨number, .bytes (writeFields fields)⟩).toList

def messagesOf (fields : List Field) : List (Nat × Bytes) :=
  fields.filterMap fun field => match field.value with
    | .varint _ => none
    | .bytes value => some (field.number, value)

/-- The version and the last message of an envelope. -/
def readEnvelope (bytes : Bytes) : Option (UInt32 × Option (Nat × List Field)) := do
  let fields ← readFields bytes
  let version := (lastVarint 1 fields).toUInt32
  match (messagesOf fields).getLast? with
  | none => some (version, none)
  | some (number, value) =>
    let inner ← readFields value
    some (version, some (number, inner))

theorem messagesOf_varintField (number : Nat) (value : UInt64) :
    messagesOf (varintField number value) = [] := by
  unfold varintField singleField messagesOf
  split_ifs <;> simp

/-- The numbers of message and fields are in range. -/
def Numbered (message : Nat × List Field) : Prop :=
  message.1 < 2 ^ 29 ∧ ∀ field ∈ message.2, field.number < 2 ^ 29

variable {version : UInt32} {payload : Option (Nat × List Field)}

theorem number_lt_of_envelope (hpay : ∀ msg ∈ payload, Numbered msg) :
    ∀ field ∈ envelopeFields version payload, field.number < 2 ^ 29 := by
  rw [envelopeFields, forall_mem_append, forall_mem_singleField]
  refine ⟨.inr (by decide), fun field hfield => ?_⟩
  obtain ⟨msg, hmsg, rfl⟩ := map_eq_some_iff.mp (mem_toList.mp hfield)
  exact (hpay msg hmsg).1

theorem fits_of_envelope (hpay : ∀ msg ∈ payload, Numbered msg)
    (h : ∀ field ∈ envelopeFields version payload, field.fits) :
    ∀ msg ∈ payload, ∀ field ∈ msg.2, field.fits := by
  intro msg hmsg
  refine fits_of_length_lt (hpay msg hmsg).2 ?_
  refine (h ⟨msg.1, .bytes (writeFields msg.2)⟩ ?_).2 _ rfl
  rw [mem_def.mp hmsg]
  exact mem_append_right _ mem_cons_self

theorem readEnvelope_envelopeFields (h : ∀ field ∈ envelopeFields version payload, field.fits)
    (hpay : ∀ msg ∈ payload, ∀ field ∈ msg.2, field.fits) :
    readEnvelope (writeFields (envelopeFields version payload)) = some (version, payload) := by
  have hread := readFields_writeFields h
  have hver : (lastVarint 1 (envelopeFields version payload)).toUInt32 = version := by
    have hmsg : select Value.varint? 1 (payload.map fun (number, fields) =>
        (⟨number, .bytes (writeFields fields)⟩ : Field)).toList = [] := by
      cases payload <;> simp [select]
    simp [lastVarint, envelopeFields, hmsg]
  unfold readEnvelope
  rw [hread, bind_eq_bind, bind_some]
  simp only [hver]
  cases payload with
  | none => simp [envelopeFields, messagesOf_varintField]
  | some msg =>
    obtain ⟨number, fields⟩ := msg
    have hinner : readFields (writeFields fields) = some fields :=
      readFields_writeFields (hpay _ rfl)
    have hmessages : messagesOf (envelopeFields version (some (number, fields))) =
        [(number, writeFields fields)] := by
      have hvarint := messagesOf_varintField 1 version.toUInt64
      simp only [envelopeFields, messagesOf, filterMap_append] at hvarint ⊢
      simp [hvarint]
    simp [hmessages, hinner]

/-- The version of an envelope and its payload, read by number. -/
def readPayload {P : Type} (ofFields : Nat → List Field → Option P) (bytes : Bytes) :
    Option (UInt32 × Option P) := do
  let (version, payload) ← readEnvelope bytes
  match payload with
  | none => some (version, none)
  | some (number, fields) =>
    let payload ← ofFields number fields
    some (version, some payload)

theorem readPayload_envelopeFields {P : Type} {fields : P → Nat × List Field}
    {ofFields : Nat → List Field → Option P} (hnumbered : ∀ payload, Numbered (fields payload))
    (hpay : ∀ payload, (∀ field ∈ (fields payload).2, field.fits) →
      ofFields (fields payload).1 (fields payload).2 = some payload) {payload : Option P}
    (h : (writeFields (envelopeFields version (payload.map fields))).length < 2 ^ 31) :
    readPayload ofFields (writeFields (envelopeFields version (payload.map fields))) =
      some (version, payload) := by
  have hmsg : ∀ message ∈ payload.map fields, Numbered message := by
    intro message hmsg
    obtain ⟨payload, _, rfl⟩ := map_eq_some_iff.mp hmsg
    exact hnumbered payload
  have hfits := fits_of_length_lt (number_lt_of_envelope hmsg) h
  have hinner := fits_of_envelope hmsg hfits
  rw [readPayload, readEnvelope_envelopeFields hfits hinner]
  cases payload with
  | none => rfl
  | some payload => simp [hpay payload (hinner _ rfl)]

/-! ## A reader and a writer of the wire messages -/

def LogEntry.fields (message : LogEntry) : List Field :=
  varintField 1 message.term ++ bytesField 2 message.command

def LogEntry.ofFields (fields : List Field) : LogEntry where
  term := lastVarint 1 fields
  command := lastString 2 fields

def WirePayload.fields : WirePayload → Nat × List Field
  | .requestVote message =>
    (10, varintField 1 message.term ++ bytesField 2 message.candidateId ++
      varintField 3 message.lastLogTerm ++ varintField 4 message.lastLogIndex)
  | .requestVoteReply message =>
    (11, varintField 1 message.term ++ varintField 2 message.voteGranted.toUInt64)
  | .appendEntries message =>
    (12, varintField 1 message.term ++ bytesField 2 message.leaderId ++
      varintField 3 message.prevLogIndex ++ varintField 4 message.prevLogTerm ++
      repeatedField 5 (message.entries.map fun entry => writeFields entry.fields) ++
      varintField 6 message.leaderCommit)
  | .appendEntriesReply message =>
    (13, varintField 1 message.term ++ varintField 2 message.success.toUInt64 ++
      varintField 3 message.matchIndex)
  | .capabilityRequest message =>
    (14, bytesField 1 message.nodeId ++
      bytesField 2 (writePacked message.supportedProtocolVersions))
  | .capabilityReply message =>
    (15, bytesField 1 message.nodeId ++ varintField 2 message.selectedProtocolVersion.toUInt64 ++
      varintField 3 message.protobufSupported.toUInt64)

/-- The payload with this number and these fields. -/
def WirePayload.ofFields (number : Nat) (fields : List Field) : Option WirePayload :=
  match number with
  | 10 => some (.requestVote {
      term := lastVarint 1 fields
      candidateId := lastString 2 fields
      lastLogTerm := lastVarint 3 fields
      lastLogIndex := lastVarint 4 fields })
  | 11 => some (.requestVoteReply {
      term := lastVarint 1 fields
      voteGranted := lastVarint 2 fields != 0 })
  | 12 => do
    let entries ← (Protobuf.strings 5 fields).mapM fun bytes =>
      (readFields bytes).map LogEntry.ofFields
    some (.appendEntries {
      term := lastVarint 1 fields
      leaderId := lastString 2 fields
      prevLogIndex := lastVarint 3 fields
      prevLogTerm := lastVarint 4 fields
      entries
      leaderCommit := lastVarint 6 fields })
  | 13 => some (.appendEntriesReply {
      term := lastVarint 1 fields
      success := lastVarint 2 fields != 0
      matchIndex := lastVarint 3 fields })
  | 14 => do
    let supportedProtocolVersions ← readPacked (lastString 2 fields)
    some (.capabilityRequest { nodeId := lastString 1 fields, supportedProtocolVersions })
  | 15 => some (.capabilityReply {
      nodeId := lastString 1 fields
      selectedProtocolVersion := (lastVarint 2 fields).toUInt32
      protobufSupported := lastVarint 3 fields != 0 })
  | _ => none

def WireEnvelope.fields (envelope : WireEnvelope) : List Field :=
  envelopeFields envelope.protocolVersion (envelope.payload.map WirePayload.fields)

def WireEnvelope.read (bytes : Bytes) : Option WireEnvelope :=
  (readPayload WirePayload.ofFields bytes).map fun (protocolVersion, payload) =>
    { protocolVersion, payload }

/-- Generated code for `WireEnvelope`. -/
def wireReference : Codec WireEnvelope :=
  .reference WireEnvelope.fields WireEnvelope.read WireEnvelope.strings

theorem LogEntry.ofFields_fields (message : LogEntry) : ofFields message.fields = message := by
  simp [ofFields, fields, lastVarint, lastString]

@[simp] theorem toUInt64_bne_zero (b : Bool) : (b.toUInt64 != 0) = b := by cases b <;> rfl

theorem LogEntry.number_lt (entry : LogEntry) : ∀ field ∈ entry.fields, field.number < 2 ^ 29 := by
  simp only [fields, forall_mem_append, forall_mem_singleField]
  simp

theorem LogEntry.read_fields {entry : LogEntry} (h : (writeFields entry.fields).length < 2 ^ 31) :
    (readFields (writeFields entry.fields)).map LogEntry.ofFields = some entry := by
  rw [readFields_writeFields (fits_of_length_lt entry.number_lt h), map_some, ofFields_fields]

theorem LogEntry.mapM_read_fields {entries : List LogEntry}
    (h : ∀ entry ∈ entries, (writeFields entry.fields).length < 2 ^ 31) :
    (entries.map fun entry => writeFields entry.fields).mapM
      (fun bytes => (readFields bytes).map LogEntry.ofFields) = some entries := by
  induction entries with
  | nil => rfl
  | cons entry entries ih =>
    obtain ⟨hentry, hentries⟩ := forall_mem_cons.mp h
    rw [map_cons, mapM_cons, LogEntry.read_fields hentry, ih hentries]
    rfl

theorem WirePayload.ofFields_fields {payload : WirePayload}
    (h : ∀ field ∈ payload.fields.2, field.fits) :
    ofFields payload.fields.1 payload.fields.2 = some payload := by
  cases payload with
  | appendEntries message =>
    have hentries : ∀ entry ∈ message.entries, (writeFields entry.fields).length < 2 ^ 31 := by
      intro entry hentry
      refine (h ⟨5, .bytes (writeFields entry.fields)⟩ ?_).2 _ rfl
      simp only [fields, mem_append, repeatedField, List.mem_map]
      exact .inl (.inr ⟨_, ⟨entry, hentry, rfl⟩, rfl⟩)
    simp [ofFields, fields, lastVarint, lastString, LogEntry.mapM_read_fields hentries]
  | capabilityRequest => simp [ofFields, fields, lastString, readPacked_writePacked]
  | _ => simp [ofFields, fields, lastVarint, lastString]

theorem WirePayload.numbered (payload : WirePayload) : Numbered payload.fields := by
  cases payload <;>
    simp only [Numbered, fields, forall_mem_append, forall_mem_singleField,
      forall_mem_repeatedField] <;>
    simp

theorem WireEnvelope.read_fields {envelope : WireEnvelope}
    (h : (writeFields envelope.fields).length < 2 ^ 31) :
    WireEnvelope.read (writeFields envelope.fields) = some envelope := by
  have hread := readPayload_envelopeFields WirePayload.numbered
    (fun _ h => WirePayload.ofFields_fields h) h
  simp [read, fields, hread, map_some]

theorem wireReference_lawful : wireReference.Lawful WireEnvelope.strings :=
  Codec.reference_lawful _ _ _ fun _ h => WireEnvelope.read_fields h

/-! ## A reader and a writer of the commands -/

def CommandPayload.fields : CommandPayload → Nat × List Field
  | .matchJoin message =>
    (10, bytesField 1 message.userId ++ varintField 2 message.mmr.toUInt64 ++
      varintField 3 message.queuedAtMs ++ varintField 4 message.mode.toUInt64)
  | .matchLeave message =>
    (11, bytesField 1 message.userId ++ varintField 2 message.mode.toUInt64)
  | .matchFound message =>
    (12, bytesField 1 message.matchId ++ varintField 2 message.mode.toUInt64 ++
      repeatedField 3 message.playerIds ++ varintField 4 message.avgMmr.toUInt64)
  | .matchPurge message =>
    (13, varintField 1 message.mode.toUInt64 ++ repeatedField 2 message.userIds)
  | .leaderboardSubmit message =>
    (14, bytesField 1 message.userId ++ bytesField 2 message.displayName ++
      varintField 3 message.score.toUInt64)

/-- The command with this number and these fields. -/
def CommandPayload.ofFields (number : Nat) (fields : List Field) : Option CommandPayload :=
  match number with
  | 10 => some (.matchJoin {
      userId := lastString 1 fields
      mmr := (lastVarint 2 fields).toInt64
      queuedAtMs := lastVarint 3 fields
      mode := (lastVarint 4 fields).toUInt32 })
  | 11 => some (.matchLeave {
      userId := lastString 1 fields
      mode := (lastVarint 2 fields).toUInt32 })
  | 12 => some (.matchFound {
      matchId := lastString 1 fields
      mode := (lastVarint 2 fields).toUInt32
      playerIds := Protobuf.strings 3 fields
      avgMmr := (lastVarint 4 fields).toInt64 })
  | 13 => some (.matchPurge {
      mode := (lastVarint 1 fields).toUInt32
      userIds := Protobuf.strings 2 fields })
  | 14 => some (.leaderboardSubmit {
      userId := lastString 1 fields
      displayName := lastString 2 fields
      score := (lastVarint 3 fields).toInt64 })
  | _ => none

def CommandEnvelope.fields (envelope : CommandEnvelope) : List Field :=
  envelopeFields envelope.commandVersion (envelope.payload.map CommandPayload.fields)

def CommandEnvelope.read (bytes : Bytes) : Option CommandEnvelope :=
  (readPayload CommandPayload.ofFields bytes).map fun (commandVersion, payload) =>
    { commandVersion, payload }

/-- Generated code for `CommandEnvelope`. -/
def commandReference : Codec CommandEnvelope :=
  .reference CommandEnvelope.fields CommandEnvelope.read CommandEnvelope.strings

theorem CommandPayload.numbered (payload : CommandPayload) : Numbered payload.fields := by
  cases payload <;>
    simp only [Numbered, fields, forall_mem_append, forall_mem_singleField,
      forall_mem_repeatedField] <;>
    simp

theorem CommandPayload.ofFields_fields (payload : CommandPayload) :
    ofFields payload.fields.1 payload.fields.2 = some payload := by
  cases payload <;> simp [ofFields, fields, lastVarint, lastString]

theorem CommandEnvelope.read_fields {envelope : CommandEnvelope}
    (h : (writeFields envelope.fields).length < 2 ^ 31) :
    CommandEnvelope.read (writeFields envelope.fields) = some envelope := by
  have hread := readPayload_envelopeFields CommandPayload.numbered
    (fun payload _ => payload.ofFields_fields) h
  simp [read, fields, hread, map_some]

theorem commandReference_lawful : commandReference.Lawful CommandEnvelope.strings :=
  Codec.reference_lawful _ _ _ fun _ h => CommandEnvelope.read_fields h

end BoostGateway.Raft.Proto
