import BoostGateway.Gateway.Commands
import BoostGateway.Leaderboard.Service
import BoostGateway.Match.Cluster

/-!
# Numbers in requests

The gateway reads ratings and scores as 64-bit integers and passes them on as JSON. The services
read them with a default of type `int`, so that only 32 bits arrive (`numbers_survive_iff`).
-/

namespace BoostGateway.Gateway

open Raft Protobuf Match Leaderboard

def intValue (number : Int) : Int32 := Int32.ofInt number

def parseMode (mode : Bytes) : MatchMode :=
  if mode = ascii "2v2" then .twoVsTwo else if mode = ascii "4v4" then .fourVsFour else .oneVsOne

/-- The player that `handle_match_join` makes of a request. -/
def joiningPlayer (now : UInt64) (body : MatchBody) : MatchPlayer where
  userId := body.userId
  mmr := (intValue body.mmr).toInt64
  queuedAtMs := now
  mode := parseMode body.mode

/-- What `handle_submit` reads of the request of the gateway. -/
def submitRequest (body : LeaderboardSubmitBody) : SubmitRequest where
  userId := body.userId
  displayName := body.displayName
  score := intValue body.score

/-- What a service applies: the command, or with Raft what it reads of the stored entry. -/
def appliedCommand (lib : Libraries) (proto : Codec Proto.CommandEnvelope)
    (writer : Option RaftWireFormat) (command : RaftCommand) : Except CodecException RaftCommand :=
  match writer with
  | none => .ok command
  | some format => do
    let bytes ← serializeRaftCommand lib proto command format
    parseRaftCommand lib proto bytes

/-- The rating with which a user waits. -/
def ratingOf (userId : Bytes) (mode : MatchMode) (queues : Queues) : Option Int64 :=
  ((queues mode).find? (·.userId == userId)).map (·.mmr)

theorem ratingOf_add (player : MatchPlayer) (queues : Queues) :
    ratingOf player.userId player.mode ((QueueOp.add player).apply queues) = some player.mmr := by
  have hnone : ((queues player.mode).filter (·.userId != player.userId)).find?
      (·.userId == player.userId) = none := by simp
  simp [ratingOf, QueueOp.apply, Queues.modify, List.find?_append, hnone]

theorem toInt64_intValue_iff {number : Int} (h : int64Range.holds number = true) :
    (intValue number).toInt64 = Int64.ofInt number ↔ int32Range.holds number = true := by
  simp only [IntegerRange.holds, int64Range, int32Range, Bool.and_eq_true] at h ⊢
  rw [← Int64.toInt_inj, Int32.toInt_toInt64, intValue, Int32.toInt_ofInt, Int64.toInt_ofInt]
  grind

theorem holds_of_parseNumber {range : IntegerRange} {text : Bytes} {number : Int}
    (h : parseNumber range text = some number) : range.holds number = true := by
  unfold parseNumber fromChars at h
  grind

theorem holds_of_parseMatchBody {body : Bytes} {parsed : MatchBody}
    (h : parseMatchBody body = some parsed) : int64Range.holds parsed.mmr = true := by
  have hitems := (Option.filter_eq_some_iff.mp h).1
  revert hitems
  fun_cases parseMatchItems (split 124 body) with
  | case3 userId rest hne mmr =>
    intro hitems
    obtain ⟨number, hnum, rfl⟩ := Option.map_eq_some_iff.mp hitems
    dsimp only [mmr] at hnum
    split at hnum
    · split at hnum
      · cases hnum
        rfl
      · exact holds_of_parseNumber hnum
    · cases hnum
      rfl
  | _ => exact nofun

theorem holds_of_parseLeaderboardSubmitBody {body : Bytes} {parsed : LeaderboardSubmitBody}
    (h : parseLeaderboardSubmitBody body = some parsed) : int64Range.holds parsed.score = true := by
  revert h
  fun_cases parseLeaderboardSubmitBody body with
  | case2 =>
    intro h
    obtain ⟨number, hnum, rfl⟩ := Option.map_eq_some_iff.mp h
    exact holds_of_parseNumber hnum
  | _ => exact nofun

section Applied

variable {lib : Libraries} {proto : Codec Proto.CommandEnvelope} {command applied : RaftCommand}

theorem appliedCommand_agrees (hlib : lib.Lawful) (htext : lib.WritesText)
    (hproto : proto.Lawful Proto.CommandEnvelope.strings) {writer : Option RaftWireFormat}
    (h : appliedCommand lib proto writer command = .ok applied) : applied.Agrees command := by
  cases writer with
  | none =>
    cases h
    unfold RaftCommand.Agrees
    cases command.kind <;> simp
  | some =>
    obtain ⟨bytes, hbytes, hread⟩ := bind_ok_iff.mp h
    exact agrees_of_parse hlib htext hproto hbytes hread

theorem queueOp_of_agrees {player : MatchPlayer} {op : QueueOp}
    (h : applied.Agrees (makeJoinCommand player)) (hop : queueOp applied = .ok op) :
    op = .add player := by
  obtain ⟨hkind, huser, hmmr, htime, hmode⟩ := h
  have hback : fromRaftMode applied.mode = .ok player.mode := by
    rw [hmode]
    cases hplayer : player.mode <;> simp [makeJoinCommand, toRaftMode, fromRaftMode, hplayer]
  simp only [queueOp, hkind, hback] at hop
  cases hop
  rw [huser, hmmr, htime]
  rfl

/-- A rating is stored as it was sent, and so is a score, if it has 32 bits. -/
theorem numbers_survive_iff (hlib : lib.Lawful) (htext : lib.WritesText)
    (hproto : proto.Lawful Proto.CommandEnvelope.strings) (writer : Option RaftWireFormat)
    (body : Bytes) :
    (∀ parsed now op queues, parseMatchBody body = some parsed →
      (appliedCommand lib proto writer (makeJoinCommand (joiningPlayer now parsed)) >>= queueOp) =
        .ok op →
      (ratingOf parsed.userId (parseMode parsed.mode) (op.apply queues) =
        some (Int64.ofInt parsed.mmr) ↔ int32Range.holds parsed.mmr = true)) ∧
    ∀ parsed command (set : SortedSet), parseLeaderboardSubmitBody body = some parsed →
      appliedCommand lib proto writer (makeSubmitCommand (submitRequest parsed)) = .ok command →
      ((set.submit command.userId command.displayName command.score).userScores.lookup
        parsed.userId = some (Int64.ofInt parsed.score) ↔
          int32Range.holds parsed.score = true) := by
  refine ⟨fun parsed now op queues hparse hop => ?_, fun parsed command set hparse hcmd => ?_⟩
  · obtain ⟨applied, happ, hop⟩ := bind_ok_iff.mp hop
    rw [queueOp_of_agrees (appliedCommand_agrees hlib htext hproto happ) hop,
      ← toInt64_intValue_iff (holds_of_parseMatchBody hparse)]
    have hrating := ratingOf_add (joiningPlayer now parsed) queues
    exact (Eq.congr_left hrating).trans Option.some_inj
  · obtain ⟨_, huser, _, hscore⟩ := appliedCommand_agrees hlib htext hproto hcmd
    rw [← toInt64_intValue_iff (holds_of_parseLeaderboardSubmitBody hparse), huser, hscore]
    exact (Eq.congr_left (AList.lookup_insert _)).trans Option.some_inj

end Applied

theorem numbers_survive_iff_ann :
    ratingOf (ascii "ann") .oneVsOne
      ((QueueOp.add { userId := ascii "ann", mmr := 1200 }).apply fun _ => []) = some 1200 :=
  ((numbers_survive_iff reference_lawful reference_writesText Proto.commandReference_lawful none
    (ascii "ann|1200")).1 { userId := ascii "ann", mmr := 1200 } 0 _ _ rfl rfl).mpr (by decide)

/-- A rating of five billion is stored as another one. -/
theorem rating_truncated :
    (parseMatchBody (ascii "ann|5000000000")).map (fun parsed =>
      (parsed.mmr, ratingOf parsed.userId (parseMode parsed.mode)
        ((QueueOp.add (joiningPlayer 0 parsed)).apply fun _ => []))) =
      some (5000000000, some 705032704) := by decide +kernel

end BoostGateway.Gateway
