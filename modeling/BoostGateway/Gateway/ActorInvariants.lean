import BoostGateway.Gateway.Actors
import BoostGateway.Runs

/-!
# Invariants of the room and the player actor

The owner of a room is a member, except that the owner's id stays behind when the last member
leaves. The lifecycle of a player keeps in step with its session, room and battle as long as no
message about rooms and battles meets a player who is away, and no login one who is in a battle.
-/

namespace BoostGateway.Gateway

open List

/-! ## Rooms -/

namespace RoomActor

def receive (a : RoomActor) (message : RoomMsg) : RoomActor := (a.onMessage message).1

def memberIds (a : RoomActor) : List Bytes := a.members.map (·.userId)

/-- Different members, one of whom is the owner if any. -/
structure Owned (a : RoomActor) : Prop where
  distinct : a.memberIds.Nodup
  owner : a.members ≠ [] → a.ownerUserId ∈ a.memberIds

/-- Only the last owner enters an empty room. -/
def OwnerReturns (a : RoomActor) (message : RoomMsg) : Prop :=
  ∀ userId playerActorId, message = .joinRoom userId playerActorId → a.members = [] →
    userId = a.ownerUserId

variable {a : RoomActor}

theorem hasMember_iff {userId : Bytes} : a.hasMember userId = true ↔ userId ∈ a.memberIds := by
  simp [hasMember, memberIds]

theorem setReadyOf_ids (userId : Bytes) (ready : Bool) (members : List RoomMemberState) :
    (setReadyOf userId ready members).map (·.userId) = members.map (·.userId) := by
  induction members with
  | nil => rfl
  | cons m members ih =>
    unfold setReadyOf
    split
    · rfl
    · rw [map_cons, map_cons, ih]

theorem mem_filter_of_ne {userId owner : Bytes} (hown : owner ∈ a.memberIds)
    (hne : owner ≠ userId) :
    owner ∈ (a.members.filter (·.userId ≠ userId)).map (·.userId) := by
  obtain ⟨m, hm, rfl⟩ := mem_map.mp hown
  exact mem_map_of_mem (mem_filter.mpr ⟨hm, by simpa using hne⟩)

section

variable (h : a.Owned)

include h

theorem Owned.of_ids_eq {b : RoomActor} (hids : b.memberIds = a.memberIds)
    (hown : b.ownerUserId = a.ownerUserId) : b.Owned where
  distinct := hids ▸ h.distinct
  owner hsome := by
    rw [hids, hown]
    refine h.owner fun hnone => hsome ?_
    have hlen := congrArg List.length hids
    simpa [memberIds, hnone] using hlen

theorem Owned.of_filter (userId : Bytes) {owner : Bytes}
    (hown : owner ∈ (a.members.filter (·.userId ≠ userId)).map (·.userId)) :
    { a with members := a.members.filter (·.userId ≠ userId), ownerUserId := owner }.Owned where
  distinct := h.distinct.sublist (filter_sublist.map _)
  owner _ := hown

theorem Owned.leaveRoom (userId : Bytes) : (a.handleLeaveRoom userId).1.Owned := by
  unfold handleLeaveRoom
  split
  · exact h
  rename_i hmember
  have hsome : a.members ≠ [] := fun hnone => hmember (by simp [hasMember, hnone])
  split
  · -- the owner leaves: the first of the others takes the room, if there is one
    cases hrest : a.members.filter (·.userId ≠ userId) with
    | nil => exact ⟨nodup_nil, fun hne => absurd rfl hne⟩
    | cons first =>
      have hfirst :
          first.userId ∈ (a.members.filter (·.userId ≠ userId)).map (·.userId) := by
        rw [hrest]
        exact mem_cons_self
      have howned := h.of_filter userId hfirst
      rwa [hrest] at howned
  · rename_i hne
    exact h.of_filter userId (mem_filter_of_ne (h.owner hsome) hne)

theorem Owned.kickMember (requesterUserId targetUserId : Bytes) :
    (a.handleKickMember requesterUserId targetUserId).1.Owned := by
  unfold handleKickMember
  split
  · exact h
  rename_i hkick
  have hkick := not_or.mp hkick
  have htarget : a.hasMember targetUserId = true := by simpa using (not_or.mp hkick.2).2
  have hsome : a.members ≠ [] := fun hnone => by simp [hasMember, hnone] at htarget
  exact h.of_filter targetUserId (mem_filter_of_ne (h.owner hsome) (Ne.symm (not_or.mp hkick.2).1))

theorem Owned.transferOwner (requesterUserId newOwnerUserId : Bytes) :
    (a.handleTransferOwner requesterUserId newOwnerUserId).1.Owned := by
  unfold handleTransferOwner
  split
  · exact h
  · rename_i htransfer
    have hmember : a.hasMember newOwnerUserId = true := by
      simpa using (not_or.mp (not_or.mp htransfer).2).2
    exact ⟨h.distinct, fun _ => hasMember_iff.mp hmember⟩

theorem owned_joinRoom_iff (userId : Bytes) (playerActorId : ActorId) :
    (a.receive (.joinRoom userId playerActorId)).Owned ↔
      (a.members = [] → userId = a.ownerUserId) := by
  dsimp only [receive, onMessage]
  by_cases hmember : a.hasMember userId = true
  · rw [if_pos hmember]
    refine iff_of_true h fun hnone => ?_
    simp [hasMember, hnone] at hmember
  rw [if_neg hmember]
  have hnew : userId ∉ a.memberIds := fun hmem => hmember (hasMember_iff.mpr hmem)
  constructor
  · intro howned hnone
    have hown := howned.owner (by simp)
    simpa [memberIds, hnone, eq_comm] using hown
  · intro hreturns
    constructor
    · rw [memberIds, map_append]
      exact h.distinct.append (nodup_singleton _) (disjoint_singleton.mpr hnew)
    · intro _
      rw [memberIds, map_append]
      by_cases hnone : a.members = []
      · exact mem_append_right _ (by simp [hreturns hnone])
      · exact mem_append_left _ (h.owner hnone)

/-- Only a joining user can be the wrong owner. -/
theorem Owned.receive {message : RoomMsg}
    (hjoin : ∀ userId playerActorId, message ≠ .joinRoom userId playerActorId) :
    (a.receive message).Owned := by
  cases message with
  | joinRoom userId playerActorId => exact absurd rfl (hjoin userId playerActorId)
  | createRoom => exact ⟨nodup_singleton _, fun _ => mem_singleton_self _⟩
  | setReady userId ready => exact h.of_ids_eq (setReadyOf_ids userId ready a.members) rfl
  | startBattle => exact h
  | battleStarted => exact h.of_ids_eq rfl rfl
  | battleSettlement =>
    dsimp only [RoomActor.receive, onMessage, handleBattleSettlement]
    split
    · exact h.of_ids_eq rfl rfl
    · exact h
  | battleEnded =>
    dsimp only [RoomActor.receive, onMessage, handleBattleEnded]
    split
    · exact h.of_ids_eq (by simp [memberIds]) rfl
    · exact h
  | leaveRoom userId => exact h.leaveRoom userId
  | kickMember => exact h.kickMember ..
  | transferOwner => exact h.transferOwner ..

theorem owned_receive_iff (message : RoomMsg) :
    (a.receive message).Owned ↔ a.OwnerReturns message := by
  cases message with
  | joinRoom userId playerActorId =>
    rw [owned_joinRoom_iff h]
    constructor
    · rintro hreturns _ _ ⟨⟩
      exact hreturns
    · exact fun hreturns => hreturns userId playerActorId rfl
  | _ => exact iff_of_true (h.receive nofun) nofun

end

def created (roomId ownerUserId : Bytes) (ownerActorId : ActorId) : RoomActor :=
  receive {} (.createRoom roomId ownerUserId ownerActorId)

/-- A room is always owned exactly if only its last owner enters it when it is empty. -/
theorem room_owned_iff (roomId ownerUserId : Bytes) (ownerActorId : ActorId)
    (messages : List RoomMsg) :
    Always receive Owned (created roomId ownerUserId ownerActorId) messages ↔
      Along receive OwnerReturns (created roomId ownerUserId ownerActorId) messages := by
  have hcreates : (created roomId ownerUserId ownerActorId).Owned :=
    ⟨nodup_singleton _, fun _ => mem_singleton_self _⟩
  rw [always_iff_along, and_iff_right hcreates]
  exact along_congr (fun _ message h => owned_receive_iff h message) (fun _ _ _ h => h) hcreates

/-- The owner leaves, the room is empty, and the next user to join is not its owner. -/
theorem owner_stays_behind : ¬Always receive Owned (created (ascii "r") (ascii "a") 1)
      [.leaveRoom (ascii "a"), .joinRoom (ascii "b") 2] := by
  intro h
  have howned := h _ [] (append_nil _).symm
  exact absurd (howned.owner (by decide +kernel)) (by decide +kernel)

end RoomActor

/-! ## Players -/

def PlayerMsg.binds : PlayerMsg → Bool
  | .bindSession .. => true
  | .loginRequest .. => true
  | _ => false

namespace PlayerActor

/-- The state after a message, given the next timer. -/
def receive (a : PlayerActor) (message : Nat × PlayerMsg) : PlayerActor :=
  (a.onMessage message.1 message.2).1

def Online (a : PlayerActor) : Prop :=
  a.lifecycle = .onlineIdle ∨ a.lifecycle = .inRoom ∨ a.lifecycle = .inBattle

def Away (a : PlayerActor) : Prop := a.lifecycle = .offline ∨ a.lifecycle = .suspended

structure Consistent (a : PlayerActor) : Prop where
  bound : a.Online → a.binding.isSome
  inBattle_iff : a.Online → (a.lifecycle = .inBattle ↔ a.battleId.isSome)
  inRoom_iff : a.Online → a.lifecycle ≠ .inBattle → (a.lifecycle = .inRoom ↔ a.roomId.isSome)

/-- Consistent, and nobody is online without a session. -/
def StaysConsistent (a : PlayerActor) (message : Nat × PlayerMsg) : Prop :=
  (a.receive message).Consistent ∧ (a.Away → (a.receive message).Online → message.2.binds = true)

/-- A login meets no battle; a room or battle meets a player who is not away, a room one without
battle; and an ending battle is another, or its player is not away. -/
def Expects (a : PlayerActor) (message : Nat × PlayerMsg) : Prop :=
  match message.2 with
  | .loginRequest .. => a.battleId = none
  | .roomAssigned .. => ¬a.Away ∧ a.battleId = none
  | .battleAssigned .. => ¬a.Away
  | .battleEnded battleId _ => ¬a.Away ∨ a.battleId.any (· ≠ battleId) = true
  | _ => True

structure Bound (a : PlayerActor) : Prop extends Consistent a where
  session : ¬a.Away → a.binding.isSome

variable {a : PlayerActor}

theorem Online.not_away (h : a.Online) : ¬a.Away := by
  rintro (haway | haway) <;> simp [Online, haway] at h

theorem consistent_of_not_online (h : ¬a.Online) : a.Consistent :=
  ⟨fun honline => absurd honline h, fun honline => absurd honline h,
    fun honline => absurd honline h⟩

theorem Consistent.stays {b : PlayerActor} {binds : Prop} (h : a.Consistent)
    (hlife : b.lifecycle = a.lifecycle) (hbinding : a.binding.isSome → b.binding.isSome)
    (hbattle : b.battleId = a.battleId) (hroom : b.roomId = a.roomId) :
    b.Consistent ∧ (a.Away → b.Online → binds) := by
  have honline : b.Online ↔ a.Online := by rw [Online, Online, hlife]
  refine ⟨⟨fun hb => hbinding (h.bound (honline.mp hb)), fun hb => ?_, fun hb => ?_⟩,
    fun haway hb => absurd haway (honline.mp hb).not_away⟩
  · rw [hlife, hbattle]
    exact h.inBattle_iff (honline.mp hb)
  · rw [hlife, hroom]
    exact h.inRoom_iff (honline.mp hb)

section

variable (h : a.Bound) (timerId : Nat)

theorem stays_loginRequest_iff (sessionId : SessionId) (userId : Bytes)
    (displayName : Option Bytes) :
    a.StaysConsistent (timerId, .loginRequest sessionId userId displayName) ↔
      a.battleId = none := by
  have hlife : ∀ b : Bool, (if b then PlayerLifecycle.inRoom else .onlineIdle) ≠ .inBattle := by
    decide
  constructor
  · rintro ⟨hcons, -⟩
    have hbattle := hcons.inBattle_iff (by
      dsimp only [receive, onMessage, handleLoginRequest, Online]
      split
      · exact .inr (.inl rfl)
      · exact .inl rfl)
    rw [← Option.not_isSome_iff_eq_none]
    exact fun hsome => hlife _ (hbattle.mpr hsome)
  · intro hbattle
    refine ⟨⟨fun _ => rfl, fun _ => ?_, fun _ _ => ?_⟩, fun _ _ => rfl⟩
    · exact iff_of_false (hlife _) (by simp [receive, onMessage, handleLoginRequest, hbattle])
    · dsimp only [receive, onMessage, handleLoginRequest]
      cases a.roomId with
      | none => decide
      | some => simp

include h

theorem stays_bindSession (sessionId : SessionId) (connectionId : Nat) :
    a.StaysConsistent (timerId, .bindSession sessionId connectionId) := by
  dsimp only [StaysConsistent, receive, onMessage, handleBindSession]
  split
  · exact ⟨consistent_of_not_online (by simp [Online]), fun _ _ => rfl⟩
  · split
    · exact h.stays rfl (fun _ => rfl) rfl rfl
    · exact h.stays rfl id rfl rfl

theorem stays_roomAssigned_iff (roomActorId : ActorId) (roomId : Bytes) :
    a.StaysConsistent (timerId, .roomAssigned roomActorId roomId) ↔
      ¬a.Away ∧ a.battleId = none := by
  constructor
  · rintro ⟨hcons, haway⟩
    have honline : (a.receive (timerId, .roomAssigned roomActorId roomId)).Online := .inr (.inl rfl)
    refine ⟨fun h => ?_, ?_⟩
    · cases haway h honline
    · rw [← Option.not_isSome_iff_eq_none]
      intro hsome
      cases (hcons.inBattle_iff honline).mpr hsome
  · rintro ⟨hpres, hbattle⟩
    refine ⟨⟨fun _ => h.session hpres, fun _ => ?_, fun _ _ => iff_of_true rfl rfl⟩,
      fun haway => absurd haway hpres⟩
    exact iff_of_false (by simp [receive, onMessage]) (by simp [receive, onMessage, hbattle])

theorem stays_battleAssigned_iff (battleActorId : ActorId) (battleId : Bytes) :
    a.StaysConsistent (timerId, .battleAssigned battleActorId battleId) ↔ ¬a.Away := by
  constructor
  · rintro ⟨-, haway⟩ h
    cases haway h (.inr (.inr rfl))
  · intro hpres
    exact ⟨⟨fun _ => h.session hpres, fun _ => iff_of_true rfl rfl, fun _ hne => absurd rfl hne⟩,
      fun haway => absurd haway hpres⟩

theorem stays_battleEnded_iff (battleId reason : Bytes) :
    a.StaysConsistent (timerId, .battleEnded battleId reason) ↔
      ¬a.Away ∨ a.battleId.any (· ≠ battleId) = true := by
  dsimp only [StaysConsistent, receive, onMessage, handleBattleEnded]
  by_cases hother : a.battleId.any (· ≠ battleId) = true
  · rw [if_pos hother]
    exact iff_of_true (h.stays rfl id rfl rfl) (.inr hother)
  rw [if_neg hother, or_iff_left hother]
  constructor
  · rintro ⟨-, haway⟩ h
    have := haway h (by
      split
      · exact .inr (.inl rfl)
      · exact .inl rfl)
    cases this
  · intro hpres
    refine ⟨⟨fun _ => h.session hpres, fun _ => ?_, fun _ _ => ?_⟩,
      fun haway => absurd haway hpres⟩
    · dsimp only
      split <;> decide
    · cases hroom : a.roomId <;> simp

theorem stays_sessionClosed (sessionId : SessionId) :
    a.StaysConsistent (timerId, .sessionClosed sessionId) := by
  have hoff : ∀ b : PlayerActor, b.Away → b.Consistent ∧ (a.Away → b.Online →
      (PlayerMsg.sessionClosed sessionId).binds = true) := fun b hb =>
    ⟨consistent_of_not_online fun honline => honline.not_away hb,
      fun _ honline => absurd hb honline.not_away⟩
  dsimp only [StaysConsistent, receive, onMessage]
  fun_cases handleSessionClosed timerId sessionId a with
  | case1 => exact hoff _ (.inr rfl)
  | case2 => exact hoff _ (.inl rfl)
  | case3 => exact h.stays rfl id rfl rfl

theorem stays_reconnectTimerExpired (userId : Bytes) :
    a.StaysConsistent (timerId, .reconnectTimerExpired userId) := by
  dsimp only [StaysConsistent, receive, onMessage]
  by_cases hsuspended : a.lifecycle = .suspended
  · rw [if_pos hsuspended]
    refine ⟨consistent_of_not_online (by simp [Online]), fun _ honline => ?_⟩
    simp [Online] at honline
  · rw [if_neg hsuspended]
    exact h.stays rfl id rfl rfl

variable (message : Nat × PlayerMsg)

theorem staysConsistent_iff : a.StaysConsistent message ↔ a.Expects message := by
  obtain ⟨timerId, message⟩ := message
  cases message with
  | bindSession => exact iff_of_true (stays_bindSession h timerId ..) trivial
  | loginRequest => exact stays_loginRequest_iff timerId ..
  | roomAssigned => exact stays_roomAssigned_iff h timerId ..
  | battleAssigned => exact stays_battleAssigned_iff h timerId ..
  | battleSettlement =>
    refine iff_of_true ?_ trivial
    dsimp only [StaysConsistent, receive, onMessage, handleBattleSettlement]
    split <;> exact h.stays rfl id rfl rfl
  | battleEnded => exact stays_battleEnded_iff h timerId ..
  | sessionClosed => exact iff_of_true (stays_sessionClosed h timerId _) trivial
  | reconnectTimerExpired => exact iff_of_true (stays_reconnectTimerExpired h timerId _) trivial
  | tokenRefresh => exact iff_of_true (h.stays rfl id rfl rfl) trivial

theorem binding_of_authenticating (hafter : (a.receive message).lifecycle = .authenticating) :
    (a.receive message).binding.isSome := by
  have hbound : a.lifecycle = .authenticating → a.binding.isSome := fun hlife =>
    h.session (by simp [Away, hlife])
  have hplace : (if a.roomId.isSome then PlayerLifecycle.inRoom else .onlineIdle) ≠
      .authenticating := by split <;> decide
  obtain ⟨timerId, message⟩ := message
  cases message with
  | bindSession sessionId connectionId =>
    have hbinding : (a.handleBindSession sessionId connectionId).binding.isSome := by
      unfold handleBindSession
      by_cases hnone : a.binding = none ∨ a.lifecycle = .offline ∨ a.lifecycle = .authenticating
      · simp only [if_pos hnone]
        split <;> rfl
      · have hsome := Option.isSome_iff_ne_none.mpr (not_or.mp hnone).1
        simp only [if_neg hnone]
        split <;> exact hsome
    exact hbinding
  | loginRequest => rfl
  | roomAssigned | battleAssigned => cases hafter
  | battleSettlement battleId reason =>
    revert hafter
    dsimp only [receive, onMessage]
    fun_cases handleBattleSettlement battleId reason a <;> exact hbound
  | battleEnded battleId =>
    revert hafter
    dsimp only [receive, onMessage]
    fun_cases handleBattleEnded battleId a with
    | case1 => exact hbound
    | case2 => exact fun hafter => absurd hafter hplace
  | sessionClosed sessionId =>
    revert hafter
    dsimp only [receive, onMessage]
    fun_cases handleSessionClosed timerId sessionId a with
    | case3 => exact hbound
    | _ => nofun
  | reconnectTimerExpired =>
    dsimp only [receive, onMessage] at hafter ⊢
    split at hafter
    · cases hafter
    · exact hbound hafter
  | tokenRefresh => exact hbound hafter

theorem Bound.receive (hstays : a.StaysConsistent message) : (a.receive message).Bound where
  toConsistent := hstays.1
  session hpres := by
    by_cases honline : (a.receive message).Online
    · exact hstays.1.bound honline
    · refine binding_of_authenticating h message ?_
      cases hlife : (a.receive message).lifecycle <;>
        simp_all [Online, Away]

end

/-- The lifecycle is right after every message exactly if every message meets a player who can take
it. -/
theorem lifecycle_consistent_iff (messages : List (Nat × PlayerMsg)) :
    Along receive StaysConsistent {} messages ↔ Along receive Expects {} messages := by
  have hfresh : ({} : PlayerActor).Bound :=
    ⟨consistent_of_not_online (by simp [Online]), fun h => absurd (.inl rfl) h⟩
  exact along_congr (fun _ message h => staysConsistent_iff h message)
    (fun _ message h hstays => h.receive message hstays) hfresh

/-- The battle of a player who is away ends: the player is back in the room, without a session. -/
theorem suspended_player_back_in_room : ¬Along receive StaysConsistent {}
      [(1, .bindSession 1 1), (1, .loginRequest 1 (ascii "u") none),
        (1, .roomAssigned 2 (ascii "r")), (1, .battleAssigned 3 (ascii "b")), (1, .sessionClosed 1),
        (2, .battleEnded (ascii "b") (ascii "finished"))] := by
  intro h
  obtain ⟨hcons, -⟩ := h [_, _, _, _, _] _ [] rfl
  exact absurd (hcons.bound (.inr (.inl (by decide +kernel)))) (by decide +kernel)

end PlayerActor

end BoostGateway.Gateway
