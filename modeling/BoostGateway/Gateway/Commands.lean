import BoostGateway.Battle.World
import BoostGateway.Gateway.SessionLookup

/-!
# Commands of the clients

The messages that clients send to the gateway and get back from it, the readers of the command
bodies, and the texts of the answers.
-/

namespace BoostGateway.Gateway

open Battle (BattleFinishReason)

/-! ## Messages -/

inductive ErrorCode where
  | ok | authRequired | invalidUserId | invalidToken | duplicateLogin | tokenExpired
  | invalidRoomId | roomAlreadyExists | roomNotFound | roomInBattle | notInRoom | notRoomOwner
  | notAllReady | loginBackendUnavailable | roomBackendUnavailable | notEnoughPlayers
  | battleAlreadyStarted | battleNotStarted | playerNotInBattle | battleBackendUnavailable
  | battleRouteOverloaded | rateLimited | sessionNotFound

/-- `net::protocol::to_string` for the codes in use. -/
def ErrorCode.text : ErrorCode → Bytes
  | .authRequired => ascii "auth_required"
  | .invalidUserId => ascii "invalid_user_id"
  | .invalidRoomId => ascii "invalid_room_id"
  | .notInRoom => ascii "not_in_room"
  | .battleNotStarted => ascii "battle_not_started"
  | .battleRouteOverloaded => ascii "battle_route_overloaded"
  | _ => ascii "unknown_error"

/-- `GatewayCommandType`. -/
inductive CommandType where
  | heartbeat | echo | login | register
  | roomCreate | roomJoin | roomReady | roomLeave | roomList | roomDetail | roomKick
  | roomTransferOwner
  | battleStart | battleInput | battleState | replayLoad
  | matchJoin | matchLeave | matchStatus
  | leaderboardSubmit | leaderboardTop | leaderboardRank

structure Command where
  sessionId : SessionId
  type : CommandType
  requestId : UInt32
  flags : UInt8 := 0
  body : Bytes := []

inductive ServerMessage where
  | heartbeatResponse | echoResponse | errorResponse
  | sessionKickedPush | sessionResumedPush
  | loginResponse | registerResponse
  | roomCreateResponse | roomJoinResponse | roomReadyResponse | roomLeaveResponse
  | roomListResponse | roomDetailResponse | roomKickResponse | roomTransferOwnerResponse
  | battleStartResponse | battleInputResponse | battleInputPush | battleStatePush
  | battleStateResponse | replayLoadResponse
  | matchJoinResponse | matchLeaveResponse | matchStatusResponse | matchFoundPush
  | leaderboardSubmitResponse | leaderboardTopResponse | leaderboardRankResponse
  deriving DecidableEq

structure PushDoc where
  kind : Bytes := []
  battleId : Option Bytes := none
  frameNumber : Nat := 0
  reason : Option Bytes := none
  scores : Option (List (Bytes × Int64)) := none

inductive Body where
  | text (bytes : Bytes)
  | push (document : PushDoc)

structure SessionWrite where
  message : ServerMessage
  sessionId : SessionId
  requestId : UInt32
  errorCode : ErrorCode := .ok
  flags : UInt8 := 0
  body : Body := .text []

/-! ## Reading the bodies of commands -/

def splitItems (delimiter : UInt8) : Bytes → Bytes → List Bytes
  | item, [] => [item]
  | item, [c] => if c = delimiter then [item] else [item ++ [c]]
  | item, c :: rest =>
    if c = delimiter then item :: splitItems delimiter [] rest
    else splitItems delimiter (item ++ [c]) rest

def split (delimiter : UInt8) (body : Bytes) : List Bytes :=
  if body = [] then [] else splitItems delimiter [] body

structure LoginBody where
  userId : Bytes
  token : Bytes := []
  displayName : Option Bytes := none

def parseLoginItems : List Bytes → Option LoginBody
  | [] => none
  | [userId] => some { userId }
  | [userId, token] => some { userId, token }
  | userId :: token :: displayName :: _ =>
    some
      { userId
        token
        displayName := if displayName = [] then none else some displayName }

def parseLoginBody (body : Bytes) : Option LoginBody :=
  (parseLoginItems (split 124 body)).filter (·.userId ≠ [])

def parseRoomIdBody (body : Bytes) : Option Bytes :=
  if body = [] then none else some body

def parseRoomReadyBody (body : Bytes) : Option Bool :=
  if body = ascii "true" then some true
  else if body = ascii "false" then some false
  else none

def boolText (value : Bool) : Bytes :=
  if value then ascii "true" else ascii "false"

def parseBattleFinishRequest (body : Bytes) : Option BattleFinishReason :=
  if (ascii "finish:").isPrefixOf body then
    let reason := body.drop 7
    if reason = ascii "surrender" then some .surrender
    else if reason = ascii "timeout" then some .timeout
    else if reason = ascii "user_requested" then some .userRequested
    else some .finished
  else none

def strtoul (text : Bytes) : UInt64 :=
  let (negative, rest) := strtoSign (text.dropWhile isSpace)
  let n := digitsValue (rest.takeWhile isDigit)
  if 2 ^ 64 ≤ n then UInt64.ofNat (2 ^ 64 - 1)
  else if negative then 0 - UInt64.ofNat n
  else UInt64.ofNat n

structure BattleInputBody where
  finishReason : Option BattleFinishReason := none
  score : Int64 := 0
  submittedFrame : UInt32 := 0
  inputData : Bytes

/-- One of the fields before the colon of an input. -/
def BattleInputBody.readField (parsed : BattleInputBody) (field : Bytes) : BattleInputBody :=
  if (ascii "score=").isPrefixOf field then
    { parsed with score := Int64.ofInt (strtoInteger int64Range (field.drop 6)).1 }
  else if (ascii "frame=").isPrefixOf field then
    { parsed with submittedFrame := (strtoul (field.drop 6)).toUInt32 }
  else parsed

/-- `parse_battle_input_command_body`, with its validation. -/
def parseBattleInputBody (body : Bytes) : Option BattleInputBody :=
  if body = [] then none
  else
    match parseBattleFinishRequest body with
    | some reason => some { finishReason := some reason, inputData := body }
    | none =>
      if (ascii "score=").isPrefixOf body || (ascii "frame=").isPrefixOf body then
        if 58 ∈ body then
          let inputData := (body.dropWhile (· ≠ 58)).drop 1
          if inputData = [] then none
          else
            some ((split 44 (body.takeWhile (· ≠ 58))).foldl BattleInputBody.readField
              { inputData })
        else some { inputData := body }
      else some { inputData := body }

structure MatchBody where
  userId : Bytes
  mmr : Int := 1000
  mode : Bytes := ascii "1v1"

def parseNumber (range : IntegerRange) (text : Bytes) : Option Int :=
  match fromChars range text with
  | (value, []) => value
  | _ => none

/-- `parse_match_command_body`, on the items between the bars. -/
def parseMatchItems : List Bytes → Option MatchBody
  | [] => none
  | userId :: rest =>
    if userId = [] then none
    else
      let mmr := match rest with
        | mmr :: _ => if mmr = [] then some 1000 else parseNumber int64Range mmr
        | [] => some 1000
      let mode := match rest with
        | _ :: mode :: _ => if mode = [] then ascii "1v1" else mode
        | _ => ascii "1v1"
      mmr.map fun mmr => { userId, mmr, mode }

/-- `parse_match_command_body`, with its validation. -/
def parseMatchBody (body : Bytes) : Option MatchBody :=
  (parseMatchItems (split 124 body)).filter fun parsed =>
    parsed.mode = ascii "1v1" || parsed.mode = ascii "2v2" || parsed.mode = ascii "4v4"

structure LeaderboardSubmitBody where
  userId : Bytes
  displayName : Bytes
  score : Int

/-- `parse_leaderboard_submit_command_body`. -/
def parseLeaderboardSubmitBody (body : Bytes) : Option LeaderboardSubmitBody :=
  match split 124 body with
  | userId :: displayName :: score :: _ =>
    if userId = [] then none
    else
      (parseNumber int64Range score).map fun score =>
        { userId, displayName, score }
  | _ => none

def parseLeaderboardTopBody (body : Bytes) : Option Int :=
  if body = [] then some 10 else parseNumber uint64Range body

/-! ## Texts -/

def battleStartedText (roomId battleId : Bytes) : Bytes :=
  ascii "battle_started:room_id=" ++ roomId ++ ascii ":battle_id=" ++ battleId

def battleStateText (roomId battleId : Bytes) : Bytes :=
  ascii "battle_state:kind=started:room_id=" ++ roomId ++ ascii ":battle_id=" ++ battleId

def battleInputResponseText (inputSeq : UInt64) : Bytes :=
  ascii "input_seq:seq=" ++ decimal inputSeq.toNat

def battleEndAcceptedText (reason : BattleFinishReason) : Bytes :=
  ascii "battle_end_accepted:" ++ reason.toString

end BoostGateway.Gateway
