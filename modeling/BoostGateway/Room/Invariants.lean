import BoostGateway.JsonReader
import BoostGateway.Room.BackendService

/-!
# The invariant of the room service

Every handler leaves the rooms alone, creates one, edits one or deletes one. `Effect` says so once,
with the checks the handler made before.
-/

namespace BoostGateway.Room

open List

/-- What holds of every room; capacity zero is no limit. -/
structure RoomState.WellFormed (room : RoomState) : Prop where
  distinct : (room.members.map (·.userId)).Nodup
  owner : room.hasMember room.ownerUserId = true
  withinCapacity : 0 < room.capacity → room.members.length ≤ room.capacity.toNat
  inInstance_iff : room.status = .inInstance ↔ room.activeBattleId ≠ []

namespace RoomState

variable {room : RoomState} {userId : Bytes}

theorem hasMember_iff : room.hasMember userId = true ↔ userId ∈ room.members.map (·.userId) := by
  simp [hasMember]

theorem WellFormed.members_ne_nil (h : room.WellFormed) : room.members ≠ [] := by
  intro hnil
  have hown := h.owner
  rw [hasMember_iff, hnil] at hown
  cases hown

theorem WellFormed.touch (now : Int) (h : room.WellFormed) : (room.touch now).WellFormed :=
  ⟨h.distinct, h.owner, h.withinCapacity, h.inInstance_iff⟩

/-! ## Edits of one room -/

/-- What a handler does to a room but for its version. -/
inductive Edit (room : RoomState) : RoomState → Prop
  | join {userId : Bytes} (hnew : room.hasMember userId = false)
      (hspace : ¬(0 < room.capacity ∧ room.capacity.toNat ≤ room.members.length)) :
      Edit room { room with members := room.members ++ [{ userId }] }
  | ready (userId : Bytes) (ready : Bool) :
      Edit room { room with members := room.members.map fun m =>
        if m.userId = userId then { m with ready } else m }
  | leave {userId : Bytes} {first : RoomMember} {rest : List RoomMember}
      (hrest : room.members.filter (·.userId ≠ userId) = first :: rest) :
      Edit room { room with
        members := first :: rest
        ownerUserId := if room.ownerUserId == userId then first.userId else room.ownerUserId }
  | finish : Edit room { room with
        activeBattleId := []
        status := .waiting
        members := room.members.map fun m => { userId := m.userId, ready := false } }
  | kick {targetUserId : Bytes} (htarget : targetUserId ≠ room.ownerUserId) :
      Edit room { room with members := room.members.filter (·.userId ≠ targetUserId) }
  | transfer {newOwnerId : Bytes} (hmember : room.hasMember newOwnerId = true) :
      Edit room { room with ownerUserId := newOwnerId }

variable {edited : RoomState} {owner : Bytes}

theorem WellFormed.of_ids_eq (h : room.WellFormed)
    (hids : edited.members.map (·.userId) = room.members.map (·.userId))
    (hown : edited.ownerUserId = room.ownerUserId) (hcap : edited.capacity = room.capacity)
    (hstatus : edited.status = .inInstance ↔ edited.activeBattleId ≠ []) : edited.WellFormed where
  distinct := hids ▸ h.distinct
  owner := by
    rw [hasMember_iff, hids, hown]
    exact hasMember_iff.mp h.owner
  withinCapacity hlimited := by
    have hlen : edited.members.length = room.members.length := by
      simpa using congrArg List.length hids
    rw [hlen, hcap]
    exact h.withinCapacity (hcap ▸ hlimited)
  inInstance_iff := hstatus

theorem WellFormed.of_sublist (h : room.WellFormed) {members : List RoomMember}
    (hsub : members.Sublist room.members) (hown : owner ∈ members.map (·.userId)) :
    { room with members, ownerUserId := owner }.WellFormed where
  distinct := h.distinct.sublist (hsub.map _)
  owner := hasMember_iff.mpr hown
  withinCapacity hcap := hsub.length_le.trans (h.withinCapacity hcap)
  inInstance_iff := h.inInstance_iff

theorem mem_filter_of_ne (hown : room.hasMember owner = true) (hne : owner ≠ userId) :
    owner ∈ (room.members.filter (·.userId ≠ userId)).map (·.userId) := by
  obtain ⟨m, hm, rfl⟩ := mem_map.mp (hasMember_iff.mp hown)
  exact mem_map_of_mem (mem_filter.mpr ⟨hm, by simpa using hne⟩)

theorem WellFormed.edit (h : room.WellFormed) (hedit : room.Edit edited) : edited.WellFormed := by
  cases hedit with
  | @join userId hnew hspace =>
    have hnew : userId ∉ room.members.map (·.userId) := fun hmem => by
      rw [hasMember_iff.mpr hmem] at hnew
      cases hnew
    refine ⟨?_, ?_, fun hcap => ?_, h.inInstance_iff⟩
    · rw [map_append]
      exact h.distinct.append (nodup_singleton _) (disjoint_singleton.mpr hnew)
    · rw [hasMember_iff, map_append]
      exact mem_append_left _ (hasMember_iff.mp h.owner)
    · have hroom : room.members.length < room.capacity.toNat :=
        not_le.mp fun hle => hspace ⟨hcap, hle⟩
      rw [length_append]
      exact hroom
  | ready =>
    refine h.of_ids_eq ?_ rfl rfl h.inInstance_iff
    rw [map_map]
    refine map_congr_left fun m _ => ?_
    dsimp only [Function.comp_apply]
    split <;> rfl
  | @leave userId first rest hrest =>
    have hsub : (first :: rest).Sublist room.members := hrest ▸ filter_sublist
    refine h.of_sublist hsub ?_
    split
    · exact mem_cons_self
    · rename_i hne
      rw [← hrest]
      exact mem_filter_of_ne h.owner (by simpa using hne)
  | finish => exact h.of_ids_eq (by rw [map_map]; rfl) rfl rfl (by simp)
  | kick htarget => exact h.of_sublist filter_sublist (mem_filter_of_ne h.owner htarget.symm)
  | transfer hmember => exact h.of_sublist (List.Sublist.refl _) (hasMember_iff.mp hmember)

end RoomState

/-! ## Effects on the service -/

def RoomReply.battleId : RoomReply → Option Bytes
  | .started _ _ _ forward => some forward.battleId
  | _ => none

namespace RoomService

theorem battleName_ne_nil (s : RoomService) : s.battleName ≠ [] := by
  intro h
  have hhead := congrArg List.head? h
  cases hhead

inductive Effect (now : Int) (s : RoomService) : RoomService × RoomReply → Prop
  | unchanged {reply : RoomReply} (hid : reply.battleId = none) : Effect now s (s, reply)
  | created {userId roomId : Bytes} {capacity : UInt32} {reply : RoomReply}
      (hfree : s.rooms.lookup roomId = none) (hid : reply.battleId = none) :
      Effect now s (s.setRoom roomId
          { ownerUserId := userId
            members := [{ userId }]
            capacity
            version := 1
            lastActivityAt := some now }, reply)
  | edited {roomId : Bytes} {room edited : RoomState} {reply : RoomReply}
      (hroom : s.rooms.lookup roomId = some room) (hedit : room.Edit edited)
      (hid : reply.battleId = none) :
      Effect now s (s.setRoom roomId (edited.touch now), reply)
  | started {roomId : Bytes} {room : RoomState} {reply : RoomReply}
      (hroom : s.rooms.lookup roomId = some room) (hid : reply.battleId = some s.battleName) :
      Effect now s ({ s.setRoom roomId ({ room with
              activeBattleId := s.battleName
              status := .inInstance }.touch now) with
            nextBattleId := s.nextBattleId + 1 }, reply)
  | deleted {roomId : Bytes} {reply : RoomReply} (hid : reply.battleId = none) :
      Effect now s ({ s with rooms := s.rooms.erase roomId }, reply)

theorem handle_effect (now : Int) (s : RoomService) (req : RoomRequest) :
    Effect now s (s.handle now req) := by
  cases req <;> dsimp only [handle]
  case create userId roomId capacity =>
    fun_cases handleRoomCreate now userId roomId capacity s with
    | case3 _ hfree => exact .created (by simpa using hfree) rfl
    | _ => exact .unchanged rfl
  case join userId roomId =>
    fun_cases handleRoomJoin now userId roomId s with
    | case6 room hroom _ _ hnew hspace =>
      exact .edited hroom (.join (by simpa using hnew) hspace) rfl
    | _ => exact .unchanged rfl
  case ready userId roomId ready =>
    fun_cases handleRoomReady now userId roomId ready s with
    | case3 room hroom => exact .edited hroom (.ready userId ready) rfl
    | _ => exact .unchanged rfl
  case startBattle userId roomId =>
    fun_cases handleRoomStartBattle now userId roomId s with
    | case6 room hroom => exact .started hroom rfl
    | _ => exact .unchanged rfl
  case leave userId roomId =>
    fun_cases handleRoomLeave now userId roomId s with
    | case3 => exact .deleted rfl
    | case4 room hroom _ _ first rest hrest => exact .edited hroom (.leave hrest) rfl
    | _ => exact .unchanged rfl
  case battleFinished roomId battleId =>
    fun_cases handleRoomBattleFinished now roomId battleId s with
    | case3 room hroom => exact .edited hroom .finish rfl
    | _ => exact .unchanged rfl
  case kick userId roomId targetUserId =>
    fun_cases handleRoomKick now userId roomId targetUserId s with
    | case5 room hroom _ htarget => exact .edited hroom (.kick htarget) rfl
    | _ => exact .unchanged rfl
  case transferOwner userId roomId newOwnerId =>
    fun_cases handleRoomTransferOwner now userId roomId newOwnerId s with
    | case5 room hroom _ hmember => exact .edited hroom (.transfer (by simpa using hmember)) rfl
    | _ => exact .unchanged rfl

variable {now : Int} {room : RoomState}

theorem lookup_cleanupExpiredRooms {s : RoomService} {roomId : Bytes}
    (h : (s.cleanupExpiredRooms now).rooms.lookup roomId = some room) :
    s.rooms.lookup roomId = some room := by
  have herase : ∀ (expired : List Bytes) (rooms : AList fun _ : Bytes => RoomState),
      (expired.foldl (fun rooms roomId => rooms.erase roomId) rooms).lookup roomId = some room →
      rooms.lookup roomId = some room := by
    intro expired
    induction expired with
    | nil => exact fun _ h => h
    | cons other expired ih =>
      intro rooms h
      have herased := ih _ h
      by_cases heq : roomId = other
      · rw [heq, AList.lookup_erase] at herased
        cases herased
      · rwa [AList.lookup_erase_ne heq] at herased
  exact herase _ _ h

/-! ## Runs -/

inductive Event where
  | request (now : Int) (request : RoomRequest)
  | cleanup (now : Int)

def step (s : RoomService) : Event → RoomService
  | .request now request => (s.handle now request).1
  | .cleanup now => s.cleanupExpiredRooms now

def handsOut (s : RoomService) : Event → Option Bytes
  | .request now request => (s.handle now request).2.battleId
  | .cleanup _ => none

def run (s : RoomService) (events : List Event) : RoomService := events.foldl step s

def battleIds : List Event → RoomService → List Bytes
  | [], _ => []
  | event :: events, s => (s.handsOut event).toList ++ battleIds events (s.step event)

def countChange (before after : Option RoomState) (n : Nat) : Nat :=
  match before, after with
  | some room, some room' => if room = room' then n else n + 1
  | none, some _ => 1
  | _, none => 0

/-- The changes of the room that is stored after a run. -/
def changes (roomId : Bytes) : List Event → RoomService → Nat → Nat
  | [], _, n => n
  | event :: events, s, n =>
    changes roomId events (s.step event)
      (countChange (s.rooms.lookup roomId) ((s.step event).rooms.lookup roomId) n)

/-- What a step does to the entry of one room. -/
inductive EntryStep : Option RoomState → Option RoomState → Prop
  | same (room : Option RoomState) : EntryStep room room
  | removed (room : Option RoomState) : EntryStep room none
  | created {room : RoomState} (hversion : room.version = 1) (hwell : room.WellFormed) :
      EntryStep none (some room)
  | changed {room room' : RoomState} (hversion : room'.version = room.version + 1)
      (hwell : room.WellFormed → room'.WellFormed) : EntryStep (some room) (some room')

theorem Effect.entryStep {s : RoomService} {after : RoomService × RoomReply}
    (h : Effect now s after) (roomId : Bytes) :
    EntryStep (s.rooms.lookup roomId) (after.1.rooms.lookup roomId) := by
  have hinsert : ∀ (other : Bytes) (room : RoomState),
      EntryStep (s.rooms.lookup other) (some room) →
      EntryStep (s.rooms.lookup roomId) ((s.rooms.insert other room).lookup roomId) := by
    intro other room hroom
    by_cases heq : roomId = other
    · subst heq
      rwa [AList.lookup_insert]
    · rw [AList.lookup_insert_ne heq]
      exact .same _
  cases h with
  | unchanged => exact .same _
  | created hfree =>
    refine hinsert _ _ ?_
    rw [hfree]
    exact .created rfl ⟨nodup_singleton _, by simp [RoomState.hasMember],
      fun h => UInt32.lt_iff_toNat_lt.mp h, by simp⟩
  | edited hroom hedit =>
    refine hinsert _ _ ?_
    rw [hroom]
    refine .changed ?_ fun hwell => (hwell.edit hedit).touch now
    cases hedit <;> rfl
  | started hroom =>
    refine hinsert _ _ ?_
    rw [hroom]
    refine .changed rfl fun hwell => RoomState.WellFormed.touch now ?_
    exact hwell.of_ids_eq rfl rfl rfl (by simp [battleName_ne_nil])
  | @deleted other =>
    by_cases heq : roomId = other
    · subst heq
      rw [AList.lookup_erase]
      exact .removed _
    · rw [AList.lookup_erase_ne heq]
      exact .same _

theorem entryStep_step (s : RoomService) (event : Event) (roomId : Bytes) :
    EntryStep (s.rooms.lookup roomId) ((s.step event).rooms.lookup roomId) := by
  cases event with
  | request now request => exact (handle_effect now s request).entryStep roomId
  | cleanup now =>
    cases hafter : (s.cleanupExpiredRooms now).rooms.lookup roomId with
    | none =>
      rw [step, hafter]
      exact .removed _
    | some =>
      rw [step, hafter, lookup_cleanupExpiredRooms hafter]
      exact .same _

/-! ## The rooms of a run -/

variable {s : RoomService} {roomId : Bytes}

theorem wellFormed_step (event : Event)
    (h : ∀ room, s.rooms.lookup roomId = some room → room.WellFormed)
    (hroom : (s.step event).rooms.lookup roomId = some room) : room.WellFormed := by
  have hstep := entryStep_step s event roomId
  rw [hroom] at hstep
  generalize hpre : s.rooms.lookup roomId = before at hstep
  cases hstep with
  | same => exact h room hpre
  | created _ hwell => exact hwell
  | changed _ hwell => exact hwell (h _ hpre)

variable (events : List Event)

theorem wellFormed_run :
    ∀ s : RoomService, (∀ room, s.rooms.lookup roomId = some room → room.WellFormed) →
      ∀ room, (s.run events).rooms.lookup roomId = some room → room.WellFormed := by
  induction events with
  | nil => exact fun _ h => h
  | cons event events ih => exact fun s h => ih (s.step event) fun _ => wellFormed_step event h

theorem changes_append (roomId : Bytes) (events : List Event) (event : Event) :
    ∀ (s : RoomService) (n : Nat), changes roomId (events ++ [event]) s n =
      countChange ((s.run events).rooms.lookup roomId)
        (((s.run events).step event).rooms.lookup roomId) (changes roomId events s n) := by
  induction events with
  | nil => exact fun _ _ => rfl
  | cons first events ih => exact fun s n => ih _ _

theorem version_of_change {event : Event} {room' : RoomState}
    (hpre : s.rooms.lookup roomId = some room)
    (hafter : (s.step event).rooms.lookup roomId = some room') (hchange : room' ≠ room) :
    room'.version = room.version + 1 := by
  have hstep := entryStep_step s event roomId
  rw [hpre, hafter] at hstep
  cases hstep with
  | same => exact absurd rfl hchange
  | changed hver => exact hver

def Counted (roomId : Bytes) (n : Nat) (s : RoomService) : Prop :=
  ∀ room, s.rooms.lookup roomId = some room → room.version = UInt32.ofNat n

theorem counted_step (event : Event) {n : Nat} (h : Counted roomId n s) :
    Counted roomId (countChange (s.rooms.lookup roomId) ((s.step event).rooms.lookup roomId) n)
      (s.step event) := by
  intro room hroom
  have hstep := entryStep_step s event roomId
  rw [hroom] at hstep ⊢
  generalize hpre : s.rooms.lookup roomId = before at hstep
  cases hstep with
  | same =>
    rw [countChange, if_pos rfl]
    exact h room hpre
  | created hver => exact hver
  | @changed earlier _ hver =>
    have hne : earlier ≠ room := by
      rintro rfl
      simp at hver
    rw [countChange, if_neg hne, hver, h earlier hpre]
    exact (UInt32.ofNat_add n 1).symm

theorem counted_run : ∀ (s : RoomService) (n : Nat), Counted roomId n s →
      Counted roomId (changes roomId events s n) (s.run events) := by
  induction events with
  | nil => exact fun _ _ h => h
  | cons event events ih => exact fun s n h => ih _ _ (counted_step event h)

/-! ## The ids of battles -/

theorem decimalInt_injective : Function.Injective decimalInt := by
  have hdecimal : ∀ m n : Nat, decimal m = decimal n → m = n := fun m n h => by
    rw [← Json.digitsValue_decimal m, h, Json.digitsValue_decimal]
  have hsign : ∀ m n : Nat, 45 :: decimal m ≠ decimal n := fun m n h => by
    have hdigit := Json.isDigit_of_mem_decimal (h ▸ mem_cons_self)
    exact absurd hdigit (by decide)
  intro a b h
  unfold decimalInt at h
  split at h <;> split at h
  · have := hdecimal _ _ (List.cons.inj h).2
    omega
  · exact absurd h (hsign _ _)
  · exact absurd h.symm (hsign _ _)
  · have := hdecimal _ _ h
    omega

theorem battleName_inj {s s' : RoomService} :
    s.battleName = s'.battleName ↔ s.nextBattleId = s'.nextBattleId := by
  refine ⟨fun h => ?_, fun h => by rw [battleName, battleName, h]⟩
  exact Int32.toInt_inj.mp (decimalInt_injective (append_cancel_left h))

theorem handsOut_step (s : RoomService) (event : Event) :
    s.handsOut event = none ∧ (s.step event).nextBattleId = s.nextBattleId ∨
      s.handsOut event = some s.battleName ∧ (s.step event).nextBattleId = s.nextBattleId + 1 := by
  cases event with
  | cleanup => exact .inl ⟨rfl, rfl⟩
  | request now request =>
    dsimp only [handsOut, step]
    have heffect := handle_effect now s request
    generalize s.handle now request = after at heffect
    cases heffect with
    | unchanged hid | created _ hid | edited _ _ hid | deleted hid => exact .inl ⟨hid, rfl⟩
    | started _ hid => exact .inr ⟨hid, rfl⟩

theorem battleIds_eq : ∀ s : RoomService, ∃ count, battleIds events s =
      (List.range count).map fun i =>
        battleName { s with nextBattleId := s.nextBattleId + Int32.ofNat i } := by
  induction events with
  | nil => exact fun s => ⟨0, rfl⟩
  | cons event events ih =>
    intro s
    obtain ⟨count, hcount⟩ := ih (s.step event)
    rw [battleIds, hcount]
    rcases handsOut_step s event with ⟨hid, hnext⟩ | ⟨hid, hnext⟩
    · refine ⟨count, ?_⟩
      rw [hid, hnext]
      rfl
    · refine ⟨count + 1, ?_⟩
      rw [hid, hnext, range_succ_eq_map, map_cons, map_map]
      refine congrArg₂ List.cons ?_ (map_congr_left fun i _ => ?_)
      · exact battleName_inj.mpr (by simp)
      · refine battleName_inj.mpr ?_
        change s.nextBattleId + 1 + Int32.ofNat i = s.nextBattleId + Int32.ofNat (i + 1)
        rw [Int32.ofNat_add, Int32.add_comm (Int32.ofNat i), ← Int32.add_assoc]
        rfl

theorem battleIds_nodup (s : RoomService)
    (h : (battleIds events s).length ≤ 2 ^ 32) : (battleIds events s).Nodup := by
  obtain ⟨count, hcount⟩ := battleIds_eq events s
  rw [hcount] at h ⊢
  rw [length_map, length_range] at h
  refine List.Nodup.map_on (fun i hi j hj hij => ?_) nodup_range
  have hnum := Int32.add_right_inj _ |>.mp (battleName_inj.mp hij)
  have hmod := congrArg (fun n : Int32 => n.toBitVec.toNat) hnum
  simp only [Int32.toBitVec_ofNat', BitVec.toNat_ofNat] at hmod
  have := mem_range.mp hi
  have := mem_range.mp hj
  omega

def fresh (battleMaxFrames roomTtlMs : UInt32) : RoomService where
  battleMaxFrames := battleMaxFrames
  roomTtlMs := roomTtlMs

/-- After every run the rooms are well formed, the next change of a room makes its version larger,
and no two battles have been given the same id. -/
theorem rooms_keep_invariant (battleMaxFrames roomTtlMs : UInt32) (events : List Event) :
    let service := fresh battleMaxFrames roomTtlMs
    let s := service.run events
    (∀ roomId room, s.rooms.lookup roomId = some room → room.WellFormed ∧ room.members ≠ []) ∧
    (∀ event roomId room room', s.rooms.lookup roomId = some room →
      (s.step event).rooms.lookup roomId = some room' → room' ≠ room →
      changes roomId (events ++ [event]) service 0 < 2 ^ 32 → room.version < room'.version) ∧
    ((battleIds events service).length ≤ 2 ^ 32 → (battleIds events service).Nodup) := by
  intro service s
  have hnone : ∀ roomId, service.rooms.lookup roomId = none := fun roomId => rfl
  refine ⟨fun roomId room hroom => ?_, fun event roomId room room' hpre hafter hchange hfew => ?_,
    battleIds_nodup events service⟩
  · have hwell : room.WellFormed :=
      wellFormed_run events service (fun room h => by rw [hnone] at h; cases h) room hroom
    exact ⟨hwell, hwell.members_ne_nil⟩
  · have hver : room.version = UInt32.ofNat (changes roomId events service 0) :=
      counted_run events service 0 (fun room h => by rw [hnone] at h; cases h) room hpre
    have hver' : room'.version = room.version + 1 := version_of_change hpre hafter hchange
    rw [changes_append, hpre, hafter, countChange, if_neg (Ne.symm hchange)] at hfew
    rw [UInt32.lt_iff_toNat_lt, hver', UInt32.toNat_add, hver, UInt32.toNat_ofNat',
      Nat.mod_eq_of_lt (by omega), UInt32.toNat_one, Nat.mod_eq_of_lt hfew]
    exact Nat.lt_succ_self _

/-- Two ready members, and the owner starts a battle. -/
def battleEvents : List Event :=
  let owner := ascii "a"
  let member := ascii "b"
  let roomId := ascii "r"
  [.request 0 (.create owner roomId 2), .request 1 (.join member roomId),
    .request 2 (.ready owner roomId true), .request 3 (.ready member roomId true),
    .request 4 (.startBattle owner roomId)]

theorem battleEvents_keep_invariant :
    ((fresh 3 300000).run battleEvents).rooms.lookup (ascii "r") = some
      { ownerUserId := ascii "a"
        members := [{ userId := ascii "a", ready := true }, { userId := ascii "b", ready := true }]
        activeBattleId := ascii "battle_1"
        capacity := 2
        version := 5
        status := .inInstance
        lastActivityAt := some 4 } ∧
    (battleIds battleEvents (fresh 3 300000)).Nodup :=
  ⟨by decide +kernel, (rooms_keep_invariant 3 300000 battleEvents).2.2 (by decide +kernel)⟩

end RoomService

end BoostGateway.Room
