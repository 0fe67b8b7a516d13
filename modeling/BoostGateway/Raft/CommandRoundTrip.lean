import BoostGateway.Raft.CommandCodec
import BoostGateway.Raft.WireRoundTrip

/-!
# What is read of a serialized command

`command_codec` says when `parse_raft_command` reads the command that was written, and when the
integers of a legacy document are those of the command. The writer of JSON does not bound its text,
the protobuf writer does not look at UTF-8, and a signed integer is read from any 64 bits.
-/

namespace BoostGateway.Raft

open List Protobuf Json RaftCommand Proto

namespace RaftCommand

/-- The fields of the kind; the others are defaults. -/
def relevant (command : RaftCommand) : RaftCommand :=
  match command.kind with
  | .matchJoin => {
      kind := .matchJoin
      userId := command.userId
      mmr := command.mmr
      queuedAtMs := command.queuedAtMs
      mode := command.mode }
  | .matchLeave => { kind := .matchLeave, userId := command.userId, mode := command.mode }
  | .matchFound => {
      kind := .matchFound
      matchId := command.matchId
      mode := command.mode
      userIds := command.userIds
      avgMmr := command.avgMmr }
  | .matchPurge => { kind := .matchPurge, mode := command.mode, userIds := command.userIds }
  | .leaderboardSubmit => {
      kind := .leaderboardSubmit
      userId := command.userId
      displayName := command.displayName
      score := command.score }

/-- The same kind, and the same fields of it. -/
def Agrees (result command : RaftCommand) : Prop := result.kind = command.kind ∧
    match command.kind with
    | .matchJoin => result.userId = command.userId ∧ result.mmr = command.mmr ∧
        result.queuedAtMs = command.queuedAtMs ∧ result.mode = command.mode
    | .matchLeave => result.userId = command.userId ∧ result.mode = command.mode
    | .matchFound => result.matchId = command.matchId ∧ result.mode = command.mode ∧
        result.userIds = command.userIds ∧ result.avgMmr = command.avgMmr
    | .matchPurge => result.mode = command.mode ∧ result.userIds = command.userIds
    | .leaderboardSubmit => result.userId = command.userId ∧
        result.displayName = command.displayName ∧ result.score = command.score

def strings (command : RaftCommand) : List Bytes :=
  match command.kind with
  | .matchJoin | .matchLeave => [command.userId]
  | .matchFound => command.matchId :: command.userIds
  | .matchPurge => command.userIds
  | .leaderboardSubmit => [command.userId, command.displayName]

theorem relevant_agrees (command : RaftCommand) : command.relevant.Agrees command := by
  unfold relevant Agrees
  cases command.kind <;> simp

theorem validateCommand_relevant (command : RaftCommand) :
    validateCommand command.relevant = validateCommand command := by
  unfold relevant validateCommand
  cases command.kind <;> rfl

end RaftCommand

/-- What the reader asks of a command and the writer does not. -/
def CommandReadable (proto : Codec CommandEnvelope) (command : RaftCommand) :
    RaftWireFormat → Prop
  | .legacyJson => ∀ document, commandDocument command = .ok document →
      document.text.length ≤ defaultLimits.maxCommandBytes
  | .protobufV1 => proto.checksUtf8 = true → command.strings.all utf8Valid = true

/-! ## Modes and numbers -/

variable {mode : RaftMatchMode}

theorem parseModeString_modeString {text : Bytes} (h : modeString mode = .ok text) :
    parseModeString text = .ok mode := by
  cases mode with
  | other => cases h
  | _ =>
    cases h
    decide

theorem decodeMode_encodeMode {number : MatchMode} (h : encodeMode mode = .ok number) :
    decodeMode number = .ok mode := by
  cases mode with
  | other => cases h
  | _ =>
    cases h
    decide

theorem signedOf_readBackNumber (value : Int64) :
    signedOf (integer value.toInt).readBackNumber = some value := by
  by_cases h : 0 ≤ value.toInt
  · have hnat : ((value.toInt.toNat : Nat) : Int) = value.toInt := Int.toNat_of_nonneg h
    rw [readBackNumber, if_pos h, signedOf, ← Int64.ofInt_eq_ofNat, hnat, Int64.ofInt_toInt]
  · simp [readBackNumber, h, signedOf]

@[simp] theorem canonical_readBack_integer (value : Int64) :
    (integer value.toInt).readBackNumber.canonical = true := by
  have hlow := value.le_toInt
  have hhigh := value.toInt_lt
  by_cases h : 0 ≤ value.toInt
  · simp only [readBackNumber, h, if_true, canonical, decide_eq_true_eq]
    omega
  · simp only [readBackNumber, h, if_false, canonical, Bool.and_eq_true, decide_eq_true_eq]
    omega

@[simp] theorem commandCheck_ok_iff {failed : Bool} {detail : String} {u : Unit} :
    commandCheck failed detail = .ok u ↔ failed = false := by
  cases failed <;> simp [commandCheck, commandError]

/-! ## Documents -/

/-- What `parse_legacy` finds. -/
structure Legible (command : RaftCommand) (fields : List (String × Json)) (op : Bytes) : Prop where
  canonical : (object (readBackFields fields)).canonical = true
  version : (object (readBackFields fields)).field? "v" = some (.unsigned 1)
  operation : (object (readBackFields fields)).field? "op" = some (.string op)
  read : readOperation (.object (readBackFields fields)) op = .ok command.relevant

theorem mapM_requireUser (key : String) (users : List Bytes) :
    (users.map string).mapM (requireUser key) = .ok users := by
  induction users with
  | nil => rfl
  | cons user users ih =>
    rw [map_cons, mapM_cons]
    exact bind_ok rfl (bind_ok ih rfl)

@[simp] theorem canonical_readBack_string (value : Bytes) :
    (string value).readBackNumber.canonical = true := rfl

@[simp] theorem canonical_readBack_unsigned (value : UInt64) :
    (unsigned value.toNat).readBackNumber.canonical = true :=
  decide_eq_true value.toNat_lt

@[simp] theorem canonical_readBack_users (users : List Bytes) :
    (array (users.map string)).readBackNumber.canonical = true := by
  refine canonicalItems_iff.mpr fun item hitem => ?_
  obtain ⟨user, _, rfl⟩ := mem_map.mp hitem
  rfl

def IsLegible (command : RaftCommand) (document : Json) : Prop :=
  ∃ fields op, document = .object fields ∧ Legible command fields op

section Legible

variable {command : RaftCommand} {document : Json}

theorem isLegible_of_sorted {new : List (String × Json)} (fields : List (String × Json))
    {op : Bytes} (h : ofFields (("v", .integer 1) :: new) = .object fields)
    (hkeys : (new.map Prod.fst).all asciiKey = true)
    (hvalues : ∀ field ∈ new, field.2.readBackNumber.canonical = true)
    (hver : (object (readBackFields fields)).field? "v" = some (.unsigned 1))
    (hop : (object (readBackFields fields)).field? "op" = some (.string op))
    (hread : readOperation (.object (readBackFields fields)) op = .ok command.relevant) :
    IsLegible command (.ofFields (("v", .integer 1) :: new)) := by
  refine ⟨fields, op, h, ?_, hver, hop, hread⟩
  refine canonical_readBack_ofFields h ?_ (forall_mem_cons.mpr ⟨rfl, hvalues⟩)
  rw [map_cons, all_cons, hkeys]
  decide

theorem exists_legible (h : commandDocument command = .ok document) :
    IsLegible command document := by
  obtain ⟨new, hfields, hdoc⟩ := bind_ok_iff.mp h
  obtain rfl := Except.ok.inj hdoc
  cases hkind : command.kind <;> simp only [commandFields, hkind] at hfields
  case leaderboardSubmit =>
    obtain rfl := Except.ok.inj hfields
    refine isLegible_of_sorted [ ("display_name", .string command.displayName),
      ("op", .string (ascii "leaderboard_submit")), ("score", .integer command.score.toInt),
      ("user_id", .string command.userId), ("v", .integer 1)]
      (by simp [ofFields, insertField, -String.lt_iff_ltb]) (by simp [asciiKey])
      (by simp) rfl rfl ?_
    refine bind_ok (a := ()) rfl (bind_ok rfl ?_)
    refine bind_ok rfl ?_
    refine bind_ok (required_of_field rfl (signedOf_readBackNumber command.score)) ?_
    simp [relevant, hkind, pure, Except.pure]
  all_goals
    obtain ⟨mode, hmode, hfields⟩ := bind_ok_iff.mp hfields
    obtain rfl := Except.ok.inj hfields
    replace hmode := parseModeString_modeString hmode
  case matchJoin =>
    refine isLegible_of_sorted [ ("mmr", .integer command.mmr.toInt), ("mode", .string mode),
      ("op", .string (ascii "match_join")), ("queued_at_ms", .unsigned command.queuedAtMs.toNat),
      ("user_id", .string command.userId), ("v", .integer 1)]
      (by simp [ofFields, insertField, -String.lt_iff_ltb]) (by simp [asciiKey])
      (by simp) rfl rfl ?_
    refine bind_ok (a := ()) rfl (bind_ok rfl ?_)
    refine bind_ok (required_of_field rfl (signedOf_readBackNumber command.mmr)) ?_
    refine bind_ok (a := command.queuedAtMs) ?_ ?_
    · exact required_of_field rfl (by simp [readBackNumber, Json.unsigned?])
    refine bind_ok rfl (bind_ok hmode ?_)
    simp [relevant, hkind, pure, Except.pure]
  case matchLeave =>
    refine isLegible_of_sorted [ ("mode", .string mode), ("op", .string (ascii "match_leave")),
      ("user_id", .string command.userId), ("v", .integer 1)]
      (by simp [ofFields, insertField, -String.lt_iff_ltb]) (by simp [asciiKey])
      (by simp) rfl rfl ?_
    refine bind_ok (a := ()) rfl (bind_ok rfl ?_)
    refine bind_ok rfl (bind_ok hmode ?_)
    simp [relevant, hkind, pure, Except.pure]
  case matchFound =>
    refine isLegible_of_sorted [ ("avg_mmr", .integer command.avgMmr.toInt),
      ("match_id", .string command.matchId), ("mode", .string mode),
      ("op", .string (ascii "match_found")),
      ("player_ids", .array (command.userIds.map string)), ("v", .integer 1)]
      (by simp [ofFields, insertField, -String.lt_iff_ltb]) (by simp [asciiKey])
      (by simp) rfl rfl ?_
    refine bind_ok (a := ()) rfl (bind_ok rfl ?_)
    refine bind_ok rfl (bind_ok hmode ?_)
    refine bind_ok (bind_ok rfl (mapM_requireUser "player_ids" command.userIds)) ?_
    refine bind_ok (required_of_field rfl (signedOf_readBackNumber command.avgMmr)) ?_
    simp [relevant, hkind, pure, Except.pure]
  case matchPurge =>
    refine isLegible_of_sorted [ ("mode", .string mode), ("op", .string (ascii "match_purge")),
      ("user_ids", .array (command.userIds.map string)), ("v", .integer 1)]
      (by simp [ofFields, insertField, -String.lt_iff_ltb]) (by simp [asciiKey])
      (by simp) rfl rfl ?_
    refine bind_ok (a := ()) rfl (bind_ok rfl (bind_ok hmode ?_))
    refine bind_ok (bind_ok rfl (mapM_requireUser "user_ids" command.userIds)) ?_
    simp [relevant, hkind, pure, Except.pure]

end Legible

/-! ## Texts and frames -/

section RoundTrip

variable {lib : Libraries} {proto : Codec CommandEnvelope} {command : RaftCommand}
  {bytes : Bytes}

theorem detectRaftCommandFormat_text {fields : List (String × Json)}
    (h : bytes = (object fields).text) (hsize : bytes.length ≤ defaultLimits.maxCommandBytes) :
    detectRaftCommandFormat bytes = .ok .legacyJson := by
  obtain ⟨rest, hrest⟩ := exists_text_object fields
  have hmagic : ¬ (commandMagic.length < bytes.length ∧
      bytes.take commandMagic.length = commandMagic) := by
    rintro ⟨_, htake⟩
    rw [h, hrest] at htake
    simp [commandMagic] at htake
  have hopens : opensObject bytes = true := by simp [opensObject, h, hrest, isSpace]
  refine bind_ok (a := ()) (commandCheck_ok_iff.mpr ?_) ?_
  · rw [Bool.or_eq_false_iff]
    exact ⟨by simp [h, hrest], decide_eq_false (by omega)⟩
  · rw [if_neg hmagic, if_pos hopens]
    rfl

variable {format : RaftWireFormat}

theorem length_le_of_detectCommand (h : detectRaftCommandFormat bytes = .ok format) :
    bytes.length ≤ defaultLimits.maxCommandBytes := by
  obtain ⟨_, hcheck, _⟩ := bind_ok_iff.mp h
  simp only [commandCheck_ok_iff, Bool.or_eq_false_iff, decide_eq_false_iff_not] at hcheck
  omega

theorem parseLegacy_text (hlib : lib.Lawful) (htext : lib.WritesText) {document : Json}
    (hval : validateCommand command = .ok ()) (hdoc : commandDocument command = .ok document)
    (hdump : lib.dump document = .ok bytes) : parseLegacy lib bytes = .ok command.relevant := by
  obtain ⟨fields, op, rfl, hlegible⟩ := exists_legible hdoc
  have hparse := parse_dump_object hlib htext hlegible.canonical hdump
  simp only [parseLegacy, hparse]
  refine bind_ok (a := ()) ?_ ?_
  · simp [hlegible.version, isObject, Json.unsigned?]
  refine bind_ok (required_of_field hlegible.operation rfl) ?_
  refine bind_ok hlegible.read ?_
  exact bind_ok (a := ()) (command.validateCommand_relevant.trans hval) rfl

theorem encodePayload_eq_ok {payload : CommandPayload} (h : encodePayload command = .ok payload) :
    payload.strings = command.strings ∧ decodePayload payload = .ok command.relevant := by
  cases hkind : command.kind with
  | leaderboardSubmit =>
    simp only [encodePayload, hkind] at h
    cases h
    simp [CommandPayload.strings, RaftCommand.strings, decodePayload,
      relevant, hkind, pure, Except.pure]
  | _ =>
    simp only [encodePayload, hkind] at h
    obtain ⟨mode, hmode, h⟩ := bind_ok_iff.mp h
    cases h
    simp [CommandPayload.strings, RaftCommand.strings, decodePayload, relevant, hkind,
      decodeMode_encodeMode hmode, bind, Except.bind, pure, Except.pure]

theorem parseRaftCommand_frame (hproto : proto.Lawful CommandEnvelope.strings)
    (hval : validateCommand command = .ok ())
    (h : encodeCommandProtobuf proto command = .ok bytes) :
    parseRaftCommand lib proto bytes =
      if proto.checksUtf8 && !command.strings.all utf8Valid
      then commandError "malformed or truncated protobuf" else .ok command.relevant := by
  obtain ⟨payload, hpay, h⟩ := bind_ok_iff.mp h
  obtain ⟨hstrings, hdec⟩ := encodePayload_eq_ok hpay
  obtain ⟨_, hcheck, hbytes⟩ := bind_ok_iff.mp h
  simp only [commandCheck_ok_iff, decide_eq_false_iff_not, not_or, Nat.not_lt] at hcheck
  replace hbytes : commandMagic ++ proto.serialize
      { commandVersion, payload := some payload } = bytes := Except.ok.inj hbytes
  have hmagic : commandMagic.length = 4 := rfl
  have hbounds : 4 ≤ defaultLimits.maxCommandBytes ∧ maxInt < 2 ^ 31 := by decide
  have hlen : bytes.length = 4 + (proto.serialize
      { commandVersion, payload := some payload }).length := by rw [← hbytes, length_append, hmagic]
  have hdet : detectRaftCommandFormat bytes = .ok .protobufV1 := by
    refine bind_ok (a := ()) (commandCheck_ok_iff.mpr ?_) ?_
    · rw [Bool.or_eq_false_iff, isEmpty_eq_false_iff, ← length_pos_iff]
      exact ⟨by omega, decide_eq_false (by omega)⟩
    · rw [if_pos ⟨by omega, by simp [← hbytes]⟩]
      rfl
  have hdrop : bytes.drop commandMagic.length = proto.serialize
      { commandVersion, payload := some payload } := by simp [← hbytes]
  have hparse := hproto { commandVersion, payload := some payload } (by omega)
  have hrefuses : proto.refuses CommandEnvelope.strings
      { commandVersion, payload := some payload } =
        (proto.checksUtf8 && !command.strings.all utf8Valid) := by
    simp [Codec.refuses, CommandEnvelope.strings, hstrings]
  have hroom : ¬ maxInt < bytes.length - commandMagic.length := by omega
  simp only [parseRaftCommand, hdet, bind, Except.bind, parseCommandProtobuf, hroom, if_false,
    hdrop, hparse, hrefuses]
  cases proto.checksUtf8 && !command.strings.all utf8Valid with
  | true => rfl
  | false => simp [commandCheck, hdec, command.validateCommand_relevant, hval, pure, Except.pure]

section

variable (hlib : lib.Lawful) (htext : lib.WritesText)
  (hproto : proto.Lawful CommandEnvelope.strings)
  (h : serializeRaftCommand lib proto command format = .ok bytes)

include htext hproto h

theorem readable_of_parse {res : RaftCommand}
    (hparse : parseRaftCommand lib proto bytes = .ok res) :
    CommandReadable proto command format := by
  obtain ⟨_, hval, hwrite⟩ := bind_ok_iff.mp h
  cases format with
  | legacyJson =>
    intro document hdoc
    obtain ⟨other, hother, hdump⟩ := bind_ok_iff.mp hwrite
    cases hdoc.symm.trans hother
    obtain ⟨_, hdet, _⟩ := bind_ok_iff.mp hparse
    exact htext _ _ (dumped_ok_iff.mp hdump) ▸ length_le_of_detectCommand hdet
  | protobufV1 =>
    intro hchecks
    by_contra hstrings
    rw [parseRaftCommand_frame hproto hval hwrite, hchecks, Bool.true_and,
      if_pos (by simpa using hstrings)] at hparse
    cases hparse

include hlib

theorem parse_of_readable (hreadable : CommandReadable proto command format) :
    parseRaftCommand lib proto bytes = .ok command.relevant := by
  obtain ⟨_, hval, hwrite⟩ := bind_ok_iff.mp h
  cases format with
  | legacyJson =>
    obtain ⟨document, hdoc, hdump⟩ := bind_ok_iff.mp hwrite
    rw [dumped_ok_iff] at hdump
    obtain ⟨fields, op, rfl, _⟩ := exists_legible hdoc
    have hbytes := htext _ _ hdump
    exact bind_ok (detectRaftCommandFormat_text hbytes (hbytes ▸ hreadable _ hdoc))
      (parseLegacy_text hlib htext hval hdoc hdump)
  | protobufV1 =>
    rw [parseRaftCommand_frame hproto hval hwrite, if_neg]
    rw [Bool.and_eq_true_iff]
    rintro ⟨hchecks, hstrings⟩
    simp [hreadable hchecks] at hstrings

theorem agrees_of_parse {res : RaftCommand}
    (hparse : parseRaftCommand lib proto bytes = .ok res) : res.Agrees command := by
  have hreadable := readable_of_parse htext hproto h hparse
  cases hparse.symm.trans (parse_of_readable hlib htext hproto h hreadable)
  exact command.relevant_agrees

end

end RoundTrip

/-! ## Integers of legacy documents -/

def writtenInteger (document : Json) (key : String) : Option Int :=
  (document.field? key).bind Json.integer?

/-- The integers of the command's kind, by their keys. -/
def RaftCommand.integers (command : RaftCommand) : List (String × Int) :=
  match command.kind with
  | .matchJoin => [("mmr", command.mmr.toInt), ("queued_at_ms", command.queuedAtMs.toNat)]
  | .matchFound => [("avg_mmr", command.avgMmr.toInt)]
  | .leaderboardSubmit => [("score", command.score.toInt)]
  | .matchLeave | .matchPurge => []

/-- The integers of the command are those of the document. -/
def Transcribes (document : Json) (command : RaftCommand) : Prop :=
  ∀ entry ∈ command.integers, writtenInteger document entry.1 = some entry.2

def integerRanges : RaftCommandKind → List (String × Int × Int)
  | .matchJoin => [("mmr", -2 ^ 63, 2 ^ 63), ("queued_at_ms", 0, 2 ^ 64)]
  | .matchFound => [("avg_mmr", -2 ^ 63, 2 ^ 63)]
  | .leaderboardSubmit => [("score", -2 ^ 63, 2 ^ 63)]
  | .matchLeave | .matchPurge => []

/-- The document's integers are in the ranges of their types. -/
def IntegersFit (document : Json) (kind : RaftCommandKind) : Prop :=
  ∀ range ∈ integerRanges kind, ∀ written, writtenInteger document range.1 = some written →
    range.2.1 ≤ written ∧ written < range.2.2

section Integers

variable {lib : Libraries} {proto : Codec CommandEnvelope} {document : Json} {key : String}
variable {value : Int64} {command : RaftCommand}

theorem requireCommandInteger_eq_ok (h : requireCommandInteger document key = .ok value) :
    ∃ written, writtenInteger document key = some written ∧ value = .ofInt written := by
  obtain ⟨field, hfield, hread⟩ := required_ok_iff.mp h
  cases field with
  | unsigned number =>
    refine ⟨number, by simp [writtenInteger, hfield, Json.integer?], ?_⟩
    exact (Option.some.inj hread).symm
  | integer number =>
    refine ⟨number, by simp [writtenInteger, hfield, Json.integer?], ?_⟩
    exact (Option.some.inj hread).symm
  | _ => cases hread

theorem requireCommandUnsigned_eq_ok {value : UInt64}
    (h : requireCommandUnsigned document key = .ok value) :
    ∃ written : Nat, writtenInteger document key = some ↑written ∧ value = .ofNat written := by
  obtain ⟨field, hfield, hread⟩ := required_ok_iff.mp h
  cases field with
  | unsigned number =>
    refine ⟨number, by simp [writtenInteger, hfield, Json.integer?], ?_⟩
    exact (Option.some.inj hread).symm
  | _ => cases hread

theorem toInt_ofInt_eq_iff {number : Int} :
    (Int64.ofInt number).toInt = number ↔ -2 ^ 63 ≤ number ∧ number < 2 ^ 63 := by
  constructor
  · have hlow := (Int64.ofInt number).le_toInt
    have hhigh := (Int64.ofInt number).toInt_lt
    omega
  · rintro ⟨hlow, hhigh⟩
    exact Int64.toInt_ofInt_of_le hlow hhigh

theorem toNat_ofNat_eq_iff {number : Nat} :
    ((UInt64.ofNat number).toNat : Int) = number ↔
      0 ≤ (number : Int) ∧ (number : Int) < 2 ^ 64 := by
  rw [UInt64.toNat_ofNat']
  omega

theorem transcribes_signed (hread : requireCommandInteger document key = .ok value)
    (hintegers : command.integers = [(key, value.toInt)])
    (hranges : integerRanges command.kind = [(key, -2 ^ 63, 2 ^ 63)]) :
    Transcribes document command ↔ IntegersFit document command.kind := by
  obtain ⟨number, hnum, rfl⟩ := requireCommandInteger_eq_ok hread
  simp only [Transcribes, hintegers, IntegersFit, hranges, forall_mem_cons, hnum,
    Option.some.injEq, forall_eq', not_mem_nil, false_imp_iff, implies_true, and_true]
  rw [eq_comm, toInt_ofInt_eq_iff]

/-- What an operation reads into the integers of a command. -/
theorem readOperation_integers {op : Bytes} (h : readOperation document op = .ok command) :
    Transcribes document command ↔ IntegersFit document command.kind := by
  unfold readOperation at h
  split_ifs at h <;> try simp only [bind_ok_iff] at h
  case pos => -- `match_join`
    obtain ⟨_, _, _, _, mmr, hmmr, queuedAtMs, hqueued, _, _, _, _, h⟩ := h
    obtain ⟨number, hnum, rfl⟩ := requireCommandInteger_eq_ok hmmr
    obtain ⟨time, htime, rfl⟩ := requireCommandUnsigned_eq_ok hqueued
    cases h
    simp only [Transcribes, integers, IntegersFit, integerRanges, forall_mem_cons, hnum, htime,
      Option.some.injEq, forall_eq', not_mem_nil, false_imp_iff, implies_true, and_true]
    rw [eq_comm, toInt_ofInt_eq_iff, eq_comm, toNat_ofNat_eq_iff]
  case pos => -- `match_leave`
    obtain ⟨_, _, _, _, _, _, _, _, h⟩ := h
    cases h
    simp [Transcribes, integers, IntegersFit, integerRanges]
  case pos => -- `match_found`
    obtain ⟨_, _, _, _, _, _, _, _, _, _, avgMmr, havg, h⟩ := h
    cases h
    exact transcribes_signed havg rfl rfl
  case pos => -- `match_purge`
    obtain ⟨_, _, _, _, _, _, _, _, h⟩ := h
    cases h
    simp [Transcribes, integers, IntegersFit, integerRanges]
  case pos => -- `leaderboard_submit`
    obtain ⟨_, _, _, _, _, _, score, hscore, h⟩ := h
    cases h
    exact transcribes_signed hscore rfl rfl
  case neg => cases h

theorem legacy_integers {data : Bytes} (hformat : detectRaftCommandFormat data = .ok .legacyJson)
    (h : parseRaftCommand lib proto data = .ok command) :
    ∃ document, lib.parse data = .ok document ∧
      (Transcribes document command ↔ IntegersFit document command.kind) := by
  obtain ⟨format, hdet, h⟩ := bind_ok_iff.mp h
  cases hformat.symm.trans hdet
  simp only [parseLegacy] at h
  cases hparse : lib.parse data with
  | error => simp [hparse, commandError] at h
  | ok document =>
    simp only [hparse, bind_ok_iff] at h
    obtain ⟨_, _, op, _, result, hread, _, _, h⟩ := h
    cases h
    exact ⟨document, rfl, readOperation_integers hread⟩

end Integers

/-- Written bytes are read as the same kind and fields if and only if the JSON text is at most 1 MiB
long or, for protobuf, the runtime accepts the strings; and integers read from a legacy document are
those of the document if and only if they are within the ranges of their types. -/
theorem command_codec {lib : Libraries} {proto : Codec CommandEnvelope} (hlib : lib.Lawful)
    (htext : lib.WritesText) (hproto : proto.Lawful CommandEnvelope.strings) :
    (∀ command format bytes, serializeRaftCommand lib proto command format = .ok bytes →
      ((∃ result, parseRaftCommand lib proto bytes = .ok result ∧ result.Agrees command) ↔
        CommandReadable proto command format)) ∧
    ∀ data command, detectRaftCommandFormat data = .ok .legacyJson →
      parseRaftCommand lib proto data = .ok command →
      ∃ document, lib.parse data = .ok document ∧
        (Transcribes document command ↔ IntegersFit document command.kind) :=
  ⟨fun command _ _ h => ⟨fun ⟨_, hparse, _⟩ => readable_of_parse htext hproto h hparse,
      fun hreadable =>
        ⟨_, parse_of_readable hlib htext hproto h hreadable, command.relevant_agrees⟩⟩,
    fun _ _ hformat h => legacy_integers hformat h⟩

def sampleSubmit : RaftCommand where
  kind := .leaderboardSubmit
  userId := ascii "user-1"
  displayName := ascii "Alice"
  score := 42

def sampleSubmitFrame : Bytes :=
  [0x42, 0x47, 0x52, 0x43, 0x08, 0x01, 0x72, 0x11, 0x0A, 0x06, 0x75, 0x73, 0x65, 0x72, 0x2D, 0x31,
    0x12, 0x05, 0x41, 0x6C, 0x69, 0x63, 0x65, 0x18, 0x2A]

theorem serialize_sampleSubmit : serializeRaftCommand reference commandReference sampleSubmit
    .protobufV1 = .ok sampleSubmitFrame := by decide +kernel

theorem command_codec_sampleSubmit :
    ∃ result, parseRaftCommand reference commandReference sampleSubmitFrame = .ok result ∧
      result.Agrees sampleSubmit := by
  have hreadable : CommandReadable commandReference sampleSubmit .protobufV1 := fun _ => by decide
  exact ((command_codec reference_lawful reference_writesText commandReference_lawful).1
    _ _ _ serialize_sampleSubmit).mpr hreadable

/-- A legacy document with a score of 2 ^ 63. -/
def overflowingSubmit : Bytes :=
  ascii "\x7b\"v\":1,\"op\":\"leaderboard_submit\",\"user_id\":\"u\"," ++
    ascii "\"display_name\":\"\",\"score\":9223372036854775808\x7d"

def latinLeave : RaftCommand where
  kind := .matchLeave
  userId := [0xE9]

def latinFrame : Bytes :=
  (serializeRaftCommand reference commandReference latinLeave .protobufV1).toOption.getD []

theorem command_codec_overflowingSubmit :
    (detectRaftCommandFormat overflowingSubmit = .ok .legacyJson ∧
      ∃ document command, reference.parse overflowingSubmit = .ok document ∧
        parseRaftCommand reference commandReference overflowingSubmit = .ok command ∧
        writtenInteger document "score" = some (2 ^ 63) ∧ command.score.toInt = -2 ^ 63 ∧
        ¬ Transcribes document command) ∧
    serializeRaftCommand reference commandReference latinLeave .protobufV1 = .ok latinFrame ∧
    ¬ ∃ result, parseRaftCommand reference commandReference latinFrame = .ok result ∧
      result.Agrees latinLeave := by
  refine ⟨⟨by decide +kernel, ?_⟩, by decide +kernel, ?_⟩
  · have hparse : (reference.parse overflowingSubmit).toOption.bind
        (writtenInteger · "score") = some (2 ^ 63) := by decide +kernel
    have hread : parseRaftCommand reference commandReference overflowingSubmit =
        .ok { kind := .leaderboardSubmit, userId := ascii "u", score := Int64.minValue } := by
      decide +kernel
    cases hdoc : reference.parse overflowingSubmit with
    | error => simp [hdoc, Except.toOption] at hparse
    | ok document =>
      have hscore : writtenInteger document "score" = some (2 ^ 63) := by
        simpa [hdoc, Except.toOption] using hparse
      refine ⟨document, _, rfl, hread, hscore, by decide, fun htranscribes => ?_⟩
      have hsame := htranscribes ("score", Int64.minValue.toInt) mem_cons_self
      rw [hscore] at hsame
      exact absurd (Option.some.inj hsame) (by decide)
  · rintro ⟨result, hres, _⟩
    have herr : (parseRaftCommand reference commandReference latinFrame).isOk = false := by
      decide +kernel
    rw [hres] at herr
    cases herr

end BoostGateway.Raft
