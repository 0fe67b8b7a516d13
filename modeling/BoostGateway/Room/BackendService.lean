import Mathlib.Data.List.AList
import BoostGateway.Gateway.ServiceBridge

/-!
# The room service

The handlers of `RoomBackendService` that change a room, each under the mutex of the room manager. A
request and a reply are modelled by the fields of their JSON bodies; what only the listing of rooms
reads is left out.
-/

namespace BoostGateway.Room

open Gateway (ServiceErrorCode)

/-! ## Rooms -/

structure RoomMember where
  userId : Bytes
  ready : Bool := false
  deriving DecidableEq

inductive RoomStatus where
  | waiting
  | inInstance
  | closed
  deriving DecidableEq

/-- `RoomState`. A capacity of zero is no limit. -/
structure RoomState where
  ownerUserId : Bytes
  members : List RoomMember
  activeBattleId : Bytes := []
  capacity : UInt32 := 0
  version : UInt32 := 0
  status : RoomStatus := .waiting
  lastActivityAt : Option Int := none
  deriving DecidableEq

def RoomState.hasMember (userId : Bytes) (room : RoomState) : Bool :=
  room.members.any (·.userId = userId)

def RoomState.allMembersReady (room : RoomState) : Bool :=
  2 ≤ room.members.length && room.members.all (·.ready)

def RoomState.touch (now : Int) (room : RoomState) : RoomState :=
  { room with version := room.version + 1, lastActivityAt := some now }

/-- `RoomBackendService::Impl`. The next battle's number wraps. -/
structure RoomService where
  rooms : AList fun _ : Bytes => RoomState := ∅
  nextBattleId : Int32 := 1
  battleMaxFrames : UInt32 := 3
  roomTtlMs : UInt32 := 300000

/-! ## Requests and replies -/

inductive RoomRequest where
  | create (userId roomId : Bytes) (capacity : UInt32)
  | join (userId roomId : Bytes)
  | ready (userId roomId : Bytes) (ready : Bool)
  | startBattle (userId roomId : Bytes)
  | leave (userId roomId : Bytes)
  | battleFinished (roomId battleId : Bytes)
  | kick (userId roomId targetUserId : Bytes)
  | transferOwner (userId roomId newOwnerId : Bytes)

structure ForwardPayload where
  battleId : Bytes
  roomId : Bytes
  playerIds : List Bytes
  maxFrames : UInt32

inductive RoomReply where
  | error (code : ServiceErrorCode) (reason : Bytes)
  | created (roomId : Bytes) (memberCount : Nat) (version : UInt32)
  | joined (roomId : Bytes) (memberCount : Nat)
  | ready (roomId : Bytes) (allReady : Bool) (version : UInt32)
  | started (roomId : Bytes) (playerIds : List Bytes) (version : UInt32) (forward : ForwardPayload)
  | left (roomId : Bytes) (wasOwner : Bool) (newOwnerId : Bytes)
  | battleFinished (roomId battleId : Bytes) (version : UInt32)
  | kicked (roomId kickedUserId : Bytes) (memberCount : Nat)
  | transferred (roomId newOwnerId : Bytes) (version : UInt32)

namespace RoomService

def setRoom (roomId : Bytes) (room : RoomState) (s : RoomService) : RoomService :=
  { s with rooms := s.rooms.insert roomId room }

def battleName (s : RoomService) : Bytes := ascii "battle_" ++ decimalInt s.nextBattleId.toInt

/-! ## Handlers -/

def handleRoomCreate (now : Int) (userId roomId : Bytes) (capacity : UInt32) (s : RoomService) :
    RoomService × RoomReply :=
  if userId = [] ∨ roomId = [] then (s, .error .invalidRequest (ascii "empty_fields"))
  else if (s.rooms.lookup roomId).isSome then (s, .error .rejected (ascii "room_already_exists"))
  else
    (s.setRoom roomId
        { ownerUserId := userId
          members := [{ userId }]
          capacity
          version := 1
          lastActivityAt := some now },
      .created roomId 1 1)

def handleRoomJoin (now : Int) (userId roomId : Bytes) (s : RoomService) :
    RoomService × RoomReply :=
  match s.rooms.lookup roomId with
  | none => (s, .error .roomNotFound (ascii "room_not_found"))
  | some room =>
    if room.status = .inInstance then (s, .error .roomInInstance (ascii "room_in_instance"))
    else if room.status = .closed then (s, .error .roomClosed (ascii "room_closed"))
    else if room.hasMember userId then (s, .joined roomId room.members.length)
    else if 0 < room.capacity ∧ room.capacity.toNat ≤ room.members.length then
      (s, .error .roomFull (ascii "room_full"))
    else
      let members := room.members ++ [{ userId }]
      (s.setRoom roomId ({ room with members }.touch now), .joined roomId members.length)

def handleRoomReady (now : Int) (userId roomId : Bytes) (ready : Bool) (s : RoomService) :
    RoomService × RoomReply :=
  match s.rooms.lookup roomId with
  | none => (s, .error .roomNotFound (ascii "room_not_found"))
  | some room =>
    if !room.hasMember userId then (s, .error .notRoomMember (ascii "not_in_room"))
    else
      -- members have different names, so the first one found is the only one
      let members := room.members.map fun m =>
        if m.userId = userId then { m with ready } else m
      let room := { room with members }.touch now
      (s.setRoom roomId room, .ready roomId room.allMembersReady room.version)

def handleRoomStartBattle (now : Int) (userId roomId : Bytes) (s : RoomService) :
    RoomService × RoomReply :=
  match s.rooms.lookup roomId with
  | none => (s, .error .roomNotFound (ascii "room_not_found"))
  | some room =>
    if userId ≠ room.ownerUserId then (s, .error .notRoomOwner (ascii "not_room_owner"))
    else if room.activeBattleId ≠ [] then
      (s, .error .rejected (ascii "battle_already_started"))
    else if room.members.length < 2 then (s, .error .rejected (ascii "not_enough_players"))
    else if !room.allMembersReady then (s, .error .rejected (ascii "not_all_ready"))
    else
      let battleId := s.battleName
      let room := { room with activeBattleId := battleId, status := .inInstance }.touch now
      let playerIds := room.members.map (·.userId)
      ({ s.setRoom roomId room with nextBattleId := s.nextBattleId + 1 },
        .started roomId playerIds room.version
          { battleId, roomId, playerIds, maxFrames := s.battleMaxFrames })

/-- `handle_room_leave`. A room without members is deleted. -/
def handleRoomLeave (now : Int) (userId roomId : Bytes) (s : RoomService) :
    RoomService × RoomReply :=
  match s.rooms.lookup roomId with
  | none => (s, .error .roomNotFound (ascii "room_not_found"))
  | some room =>
    let wasOwner := room.ownerUserId == userId
    if !room.hasMember userId then (s, .error .notRoomMember (ascii "not_in_room"))
    else
      match room.members.filter (·.userId ≠ userId) with
      | [] => ({ s with rooms := s.rooms.erase roomId }, .left roomId wasOwner [])
      | first :: rest =>
        let owner := if wasOwner then first.userId else room.ownerUserId
        (s.setRoom roomId ({ room with members := first :: rest, ownerUserId := owner }.touch now),
          .left roomId wasOwner (if wasOwner then first.userId else []))

def handleRoomBattleFinished (now : Int) (roomId battleId : Bytes) (s : RoomService) :
    RoomService × RoomReply :=
  match s.rooms.lookup roomId with
  | none => (s, .error .roomNotFound (ascii "room_not_found"))
  | some room =>
    if room.activeBattleId ≠ [] ∧ room.activeBattleId ≠ battleId then
      (s, .error .rejected (ascii "battle_mismatch"))
    else
      let members := room.members.map fun m => { userId := m.userId, ready := false }
      let room := { room with activeBattleId := [], status := .waiting, members }
      let room := room.touch now
      (s.setRoom roomId room, .battleFinished roomId battleId room.version)

def handleRoomKick (now : Int) (userId roomId targetUserId : Bytes) (s : RoomService) :
    RoomService × RoomReply :=
  match s.rooms.lookup roomId with
  | none => (s, .error .roomNotFound (ascii "room_not_found"))
  | some room =>
    if userId ≠ room.ownerUserId then (s, .error .notRoomOwner (ascii "not_room_owner"))
    else if targetUserId = room.ownerUserId then
      (s, .error .rejected (ascii "cannot_kick_self"))
    else if !room.hasMember targetUserId then
      (s, .error .notRoomMember (ascii "target_not_in_room"))
    else
      let members := room.members.filter (·.userId ≠ targetUserId)
      (s.setRoom roomId ({ room with members }.touch now),
        .kicked roomId targetUserId members.length)

def handleRoomTransferOwner (now : Int) (userId roomId newOwnerId : Bytes) (s : RoomService) :
    RoomService × RoomReply :=
  match s.rooms.lookup roomId with
  | none => (s, .error .roomNotFound (ascii "room_not_found"))
  | some room =>
    if userId ≠ room.ownerUserId then (s, .error .notRoomOwner (ascii "not_room_owner"))
    else if !room.hasMember newOwnerId then
      (s, .error .notRoomMember (ascii "new_owner_not_in_room"))
    else if newOwnerId = userId then (s, .error .rejected (ascii "already_owner"))
    else
      let room := { room with ownerUserId := newOwnerId }.touch now
      (s.setRoom roomId room, .transferred roomId newOwnerId room.version)

def handle (now : Int) (s : RoomService) : RoomRequest → RoomService × RoomReply
  | .create userId roomId capacity => s.handleRoomCreate now userId roomId capacity
  | .join userId roomId => s.handleRoomJoin now userId roomId
  | .ready userId roomId ready => s.handleRoomReady now userId roomId ready
  | .startBattle userId roomId => s.handleRoomStartBattle now userId roomId
  | .leave userId roomId => s.handleRoomLeave now userId roomId
  | .battleFinished roomId battleId => s.handleRoomBattleFinished now roomId battleId
  | .kick userId roomId targetUserId => s.handleRoomKick now userId roomId targetUserId
  | .transferOwner userId roomId newOwnerId =>
    s.handleRoomTransferOwner now userId roomId newOwnerId

def cleanupExpiredRooms (now : Int) (s : RoomService) : RoomService :=
  let expired := s.rooms.keys.filter fun roomId =>
    match s.rooms.lookup roomId with
    | none => false
    | some room =>
      room.status = .waiting && room.lastActivityAt.any (s.roomTtlMs.toNat ≤ now - ·)
  { s with rooms := expired.foldl (fun rooms roomId => rooms.erase roomId) s.rooms }

end RoomService

end BoostGateway.Room
