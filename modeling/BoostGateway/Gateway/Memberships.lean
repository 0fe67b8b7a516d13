import BoostGateway.Gateway.Services

/-!
# Memberships that outlive their session

The gateway remembers one room for a session and leaves it when the session closes; the room service
allows a user to be in many. So a membership ends exactly if its session leaves, or closes, while
the user and the room of the membership are remembered.
-/

namespace BoostGateway.Room.RoomService

/-! ## Members of rooms -/

def Member (userId roomId : Bytes) (s : RoomService) : Prop :=
  ∃ room, s.rooms.lookup roomId = some room ∧ room.hasMember userId = true

theorem member_setRoom (userId roomId other : Bytes) (room : RoomState) (s : RoomService) :
    (s.setRoom other room).Member userId roomId ↔
      if roomId = other then room.hasMember userId = true else s.Member userId roomId := by
  unfold Member setRoom
  split
  case isTrue h =>
    subst h
    simp [AList.lookup_insert]
  case isFalse h => rw [AList.lookup_insert_ne h]

theorem member_setRoom_add {userId roomId user other : Bytes} {room : RoomState} {s : RoomService}
    (h : room.hasMember userId = true ↔ s.Member userId other ∨ user = userId) :
    (s.Member userId roomId → (s.setRoom other room).Member userId roomId) ∧
    ((s.setRoom other room).Member userId roomId →
      s.Member userId roomId ∨ userId = user ∧ roomId = other) := by
  rw [member_setRoom]
  split
  case isTrue heq =>
    subst heq
    rw [h, and_iff_left rfl]
    exact ⟨.inl, Or.imp_right Eq.symm⟩
  case isFalse => exact ⟨id, .inl⟩

variable (now : Int) (userId roomId user room : Bytes) (s : RoomService)

theorem member_create (cap : UInt32) :
    (s.Member userId roomId → (s.handleRoomCreate now user room cap).1.Member userId roomId) ∧
    ((s.handleRoomCreate now user room cap).1.Member userId roomId →
      s.Member userId roomId ∨ userId = user ∧ roomId = room) := by
  fun_cases handleRoomCreate now user room cap s with
  | case3 => exact member_setRoom_add (by simp_all [Member, RoomState.hasMember])
  | _ => exact ⟨id, .inl⟩

theorem member_join :
    (s.Member userId roomId → (s.handleRoomJoin now user room).1.Member userId roomId) ∧
    ((s.handleRoomJoin now user room).1.Member userId roomId →
      s.Member userId roomId ∨ userId = user ∧ roomId = room) := by
  fun_cases handleRoomJoin now user room s with
  | case6 old hroom _ _ _ _ members =>
    exact member_setRoom_add
      (by simp [Member, hroom, RoomState.touch, RoomState.hasMember, members])
  | _ => exact ⟨id, .inl⟩

theorem member_leave : (s.handleRoomLeave now user room).1.Member userId roomId ↔
      s.Member userId roomId ∧ ¬(userId = user ∧ roomId = room) := by
  have hstay : ¬s.Member user room →
      (s.Member userId roomId ↔ s.Member userId roomId ∧ ¬(userId = user ∧ roomId = room)) := by
    refine fun hno => (and_iff_left_of_imp ?_).symm
    rintro h ⟨rfl, rfl⟩
    exact hno h
  have hrest : ∀ old members, s.rooms.lookup room = some old →
      old.members.filter (·.userId ≠ user) = members →
      (members.any (·.userId = userId) = true ↔ s.Member userId room ∧ userId ≠ user) := by
    rintro old members hroom rfl
    simp only [Member, hroom, RoomState.hasMember, List.any_eq_true, List.mem_filter,
      decide_eq_true_eq, Option.some.injEq, exists_eq_left']
    constructor
    · rintro ⟨m, ⟨hm, hne⟩, rfl⟩
      exact ⟨⟨m, hm, rfl⟩, hne⟩
    · rintro ⟨⟨m, hm, rfl⟩, hne⟩
      exact ⟨m, ⟨hm, hne⟩, rfl⟩
  fun_cases handleRoomLeave now user room s with
  | case1 hroom => exact hstay (by simp [Member, hroom])
  | case2 old hroom habs => exact hstay (by simpa [Member, hroom] using habs)
  | case3 old hroom _ _ hnil =>
    by_cases hsame : roomId = room
    · subst hsame
      rw [and_iff_left rfl, ← ne_eq, ← hrest old _ hroom hnil]
      simp [Member]
    · rw [and_iff_left fun h => hsame h.2, Member, AList.lookup_erase_ne hsame, Member]
  | case4 old hroom _ _ first rest hcons =>
    rw [member_setRoom]
    split
    case isTrue hsame =>
      subst hsame
      rw [and_iff_left rfl, ← ne_eq, ← hrest old _ hroom hcons]
      rfl
    case isFalse hsame => exact (and_iff_left fun h => hsame h.2).symm

end BoostGateway.Room.RoomService

namespace BoostGateway.Gateway

open Room (RoomService)

theorem parseRoomIdBody_ne_nil {body roomId : Bytes} (h : parseRoomIdBody body = some roomId) :
    roomId ≠ [] := by
  obtain ⟨hbody, ⟨⟩⟩ := Option.ite_none_left_eq_some.mp h
  exact hbody

/-! ## What a session does -/

inductive VisitKind where
  | login
  | create
  | join
  | leave

def VisitKind.type : VisitKind → CommandType
  | login => .login
  | create => .roomCreate
  | join => .roomJoin
  | leave => .roomLeave

structure Visit where
  kind : VisitKind
  body : Bytes := []
  requestId : UInt32 := 0
  flags : UInt8 := 0

def Visit.command (sessionId : SessionId) (visit : Visit) : Command where
  sessionId := sessionId
  type := visit.kind.type
  requestId := visit.requestId
  flags := visit.flags
  body := visit.body

namespace BridgeRuntime

section Ask

variable {β : Type} (serve : BackendRequest → β → Answer × β)

theorem ask_backend (req : BackendRequest) (g : BridgeRuntime β)
    (next : Answer → BridgeRuntime β → HandleOutcome × BridgeRuntime β)
    (hnext : ∀ answer g', (next answer g').2.backend = g'.backend) :
    (g.ask serve req next).2.backend =
      if req.dumps then (serve req g.backend).2 else g.backend := by
  unfold ask
  split
  · exact hnext _ _
  · rfl

end Ask

variable (o : Outside) (env : Environment) (sessionId : SessionId)

def visit (g : BridgeRuntime Services) (visit : Visit) : BridgeRuntime Services :=
  (g.handle (Services.serve o.reliable) env (visit.command sessionId)).2

/-- The commands of the session one after the other. -/
def afterVisits (g : BridgeRuntime Services) (visits : List Visit) : BridgeRuntime Services :=
  visits.foldl (visit o env sessionId) g

def close (g : BridgeRuntime Services) : BridgeRuntime Services :=
  g.onSessionClosed (Services.serve o.reliable) sessionId

def Member (userId roomId : Bytes) (g : BridgeRuntime Services) : Prop :=
  g.backend.rooms.Member userId roomId

def Remembers (userId roomId : Bytes) (g : BridgeRuntime Services) : Prop :=
  g.lookup.userIdFor sessionId = userId ∧ g.lookup.roomIdFor sessionId = roomId

def LeavesFor (userId roomId : Bytes) (v : Visit) (g : BridgeRuntime Services) : Prop :=
  v.kind = .leave ∧ g.isSessionAllowed env (v.command sessionId) = true ∧
    Remembers sessionId userId roomId g

def CanLeave (userId roomId : Bytes) : Prop :=
  userId ≠ [] ∧ roomId ≠ [] ∧ (BackendRequest.room (.leave userId roomId)).dumps = true

/-! ## What the handlers ask the room service -/

section Handlers

variable (c : Command) (g : BridgeRuntime Services)

theorem handleLogin_rooms :
    (g.handleLogin (Services.serve o.reliable) env c).2.backend.rooms = g.backend.rooms := by
  unfold handleLogin
  split
  · rfl
  dsimp only
  split
  · rfl
  rw [ask_backend]
  · split <;> rfl
  · intro answer g'
    dsimp only [acceptLogin]
    repeat' split
    all_goals rfl

theorem handleRoomCreate_rooms :
    let user := g.lookup.userIdFor c.sessionId
    let rooms := (g.handleRoomCreate (Services.serve o.reliable) c).2.backend.rooms
    rooms = g.backend.rooms ∨ ∃ room, CanLeave user room ∧
      rooms = (g.backend.rooms.handleRoomCreate (o.clock g.backend.calls) user room 0).1 := by
  fun_cases handleRoomCreate (Services.serve o.reliable) c g with
  | case3 userId room hroom huser =>
    rw [bridgeRoute, ask_backend]
    · split
      next hdumps => exact .inr ⟨room, ⟨huser, parseRoomIdBody_ne_nil hroom, hdumps⟩, rfl⟩
      · exact .inl rfl
    · intro answer g'
      repeat' split
      all_goals rfl
  | _ => exact .inl rfl

theorem handleRoomJoin_rooms :
    let user := g.lookup.userIdFor c.sessionId
    let rooms := (g.handleRoomJoin (Services.serve o.reliable) c).2.backend.rooms
    rooms = g.backend.rooms ∨ ∃ room, CanLeave user room ∧
      rooms = (g.backend.rooms.handleRoomJoin (o.clock g.backend.calls) user room).1 := by
  fun_cases handleRoomJoin (Services.serve o.reliable) c g with
  | case3 userId room hroom huser =>
    rw [ask_backend]
    · split
      next hdumps => exact .inr ⟨room, ⟨huser, parseRoomIdBody_ne_nil hroom, hdumps⟩, rfl⟩
      · exact .inl rfl
    · intro answer g'
      repeat' split
      all_goals rfl
  | _ => exact .inl rfl

theorem handleRoomLeave_rooms :
    let user := g.lookup.userIdFor c.sessionId
    let room := g.lookup.roomIdFor c.sessionId
    let rooms := (g.handleRoomLeave (Services.serve o.reliable) c).2.backend.rooms
    (CanLeave user room →
      rooms = (g.backend.rooms.handleRoomLeave (o.clock g.backend.calls) user room).1) ∧
    (¬CanLeave user room → rooms = g.backend.rooms) := by
  fun_cases handleRoomLeave (Services.serve o.reliable) c g with
  | case1 _ _ hempty => exact ⟨fun h => absurd hempty (not_or.mpr ⟨h.1, h.2.1⟩), fun _ => rfl⟩
  | case2 _ _ hempty =>
    obtain ⟨huser, hroom⟩ := not_or.mp hempty
    rw [ask_backend]
    · split
      next hdumps => exact ⟨fun _ => rfl, fun h => absurd ⟨huser, hroom, hdumps⟩ h⟩
      next hdumps => exact ⟨fun h => absurd h.2.2 hdumps, fun _ => rfl⟩
    · intro answer g'
      repeat' split
      all_goals rfl

end Handlers

/-! ## One command -/

section Step

variable (g : BridgeRuntime Services) (v : Visit)

/-- What a command of the session does to the rooms. -/
inductive RoomsAfter : RoomService → Prop
  | same : ¬(v.kind = .leave ∧ g.isSessionAllowed env (v.command sessionId) = true ∧
        CanLeave (g.lookup.userIdFor sessionId) (g.lookup.roomIdFor sessionId)) →
      RoomsAfter g.backend.rooms
  | created (room : Bytes) : v.kind ≠ .leave → CanLeave (g.lookup.userIdFor sessionId) room →
      RoomsAfter (g.backend.rooms.handleRoomCreate (o.clock g.backend.calls)
        (g.lookup.userIdFor sessionId) room 0).1
  | joined (room : Bytes) : v.kind ≠ .leave → CanLeave (g.lookup.userIdFor sessionId) room →
      RoomsAfter (g.backend.rooms.handleRoomJoin (o.clock g.backend.calls)
        (g.lookup.userIdFor sessionId) room).1
  | left : v.kind = .leave → g.isSessionAllowed env (v.command sessionId) = true →
      RoomsAfter (g.backend.rooms.handleRoomLeave (o.clock g.backend.calls)
        (g.lookup.userIdFor sessionId) (g.lookup.roomIdFor sessionId)).1

theorem rooms_visit : RoomsAfter o env sessionId g v (visit o env sessionId g v).backend.rooms := by
  unfold visit handle
  cases hallow : g.isSessionAllowed env (v.command sessionId) with
  | false => exact .same fun h => Bool.false_ne_true (hallow.symm.trans h.2.1)
  | true =>
    rw [Bool.not_true, if_neg Bool.false_ne_true]
    obtain ⟨kind, body, requestId, flags⟩ := v
    cases kind with
    | login =>
      dsimp only [Visit.command, VisitKind.type]
      rw [handleLogin_rooms]
      exact .same nofun
    | create =>
      obtain hsame | ⟨room, hcan, hcreates⟩ := handleRoomCreate_rooms o
        (Visit.command sessionId ⟨.create, body, requestId, flags⟩) g
      · exact hsame.symm ▸ .same nofun
      · exact hcreates.symm ▸ .created room nofun hcan
    | join =>
      obtain hsame | ⟨room, hcan, hjoined⟩ := handleRoomJoin_rooms o
        (Visit.command sessionId ⟨.join, body, requestId, flags⟩) g
      · exact hsame.symm ▸ .same nofun
      · exact hjoined.symm ▸ .joined room nofun hcan
    | leave =>
      obtain ⟨hleft, hsame⟩ := handleRoomLeave_rooms o
        (Visit.command sessionId ⟨.leave, body, requestId, flags⟩) g
      by_cases hcan : CanLeave (g.lookup.userIdFor sessionId) (g.lookup.roomIdFor sessionId)
      · exact (hleft hcan).symm ▸ .left rfl hallow
      · exact (hsame hcan).symm ▸ .same fun h => hcan h.2.2

variable {o env sessionId} {userId roomId : Bytes} {g v}

theorem canLeave_of_gains (hpre : ¬Member userId roomId g)
    (hafter : Member userId roomId (visit o env sessionId g v)) : CanLeave userId roomId := by
  have hrooms := rooms_visit o env sessionId g v
  unfold Member at hpre hafter
  generalize (visit o env sessionId g v).backend.rooms = rooms at hrooms hafter
  cases hrooms with
  | same => exact absurd hafter hpre
  | created room hkind hcan =>
    obtain hmember | ⟨rfl, rfl⟩ := (RoomService.member_create ..).2 hafter
    · exact absurd hmember hpre
    · exact hcan
  | joined room hkind hcan =>
    obtain hmember | ⟨rfl, rfl⟩ := (RoomService.member_join ..).2 hafter
    · exact absurd hmember hpre
    · exact hcan
  | left => exact absurd ((RoomService.member_leave ..).mp hafter).1 hpre

theorem member_visit (hpre : Member userId roomId g)
    (hstays : ¬LeavesFor env sessionId userId roomId v g) :
    Member userId roomId (visit o env sessionId g v) := by
  have hrooms := rooms_visit o env sessionId g v
  unfold Member at hpre ⊢
  generalize (visit o env sessionId g v).backend.rooms = rooms at hrooms ⊢
  cases hrooms with
  | same => exact hpre
  | created => exact (RoomService.member_create ..).1 hpre
  | joined => exact (RoomService.member_join ..).1 hpre
  | left hkind hallow =>
    refine (RoomService.member_leave ..).mpr ⟨hpre, ?_⟩
    rintro ⟨rfl, rfl⟩
    exact hstays ⟨hkind, hallow, rfl, rfl⟩

theorem not_member_visit (hcan : CanLeave userId roomId)
    (hleaves : LeavesFor env sessionId userId roomId v g) :
    ¬Member userId roomId (visit o env sessionId g v) := by
  have hrooms := rooms_visit o env sessionId g v
  obtain ⟨hkind, hallow, rfl, rfl⟩ := hleaves
  unfold Member
  generalize (visit o env sessionId g v).backend.rooms = rooms at hrooms
  cases hrooms with
  | same hnot => exact absurd ⟨hkind, hallow, hcan⟩ hnot
  | created _ hno | joined _ hno => exact absurd hkind hno
  | left => exact fun h => ((RoomService.member_leave ..).mp h).2 ⟨rfl, rfl⟩

theorem member_close (hcan : CanLeave userId roomId) : Member userId roomId (close o sessionId g) ↔
      Member userId roomId g ∧ ¬Remembers sessionId userId roomId g := by
  dsimp only [close, onSessionClosed, Member, Remembers]
  by_cases huser : g.lookup.userIdFor sessionId = []
  · rw [if_pos huser, if_pos (.inl huser)]
    exact (and_iff_left fun h => hcan.1 (h.1.symm.trans huser)).symm
  by_cases hroom : g.lookup.roomIdFor sessionId = []
  · rw [if_neg huser, if_pos (.inr hroom)]
    exact (and_iff_left fun h => hcan.2.1 (h.2.symm.trans hroom)).symm
  · rw [if_neg huser, if_neg (not_or.mpr ⟨huser, hroom⟩), eq_comm, @eq_comm _ _ roomId]
    exact RoomService.member_leave ..

end Step

/-! ## Whole runs -/

/-- A later command, or the closing, leaves the room. -/
def LeftIn (userId roomId : Bytes) : List Visit → BridgeRuntime Services → Prop
  | [], g => Remembers sessionId userId roomId g
  | v :: visits, g => LeavesFor env sessionId userId roomId v g ∨
      LeftIn userId roomId visits (visit o env sessionId g v)

/-- The commands up to and after one that makes a member. -/
structure Entry (userId roomId : Bytes) (visits : List Visit) (g : BridgeRuntime Services)
    (rest : List Visit) (entered : BridgeRuntime Services) : Prop where
  split : ∃ before v, visits = before ++ v :: rest ∧
    ¬Member userId roomId (afterVisits o env sessionId g before) ∧
    entered = visit o env sessionId (afterVisits o env sessionId g before) v
  member : Member userId roomId entered

section Run

variable {o env sessionId} {userId roomId : Bytes}

namespace Entry

variable {visits rest : List Visit} {g entered : BridgeRuntime Services}

section

variable (h : Entry o env sessionId userId roomId visits g rest entered)

include h

theorem after_eq :
    afterVisits o env sessionId g visits = afterVisits o env sessionId entered rest := by
  obtain ⟨before, v, rfl, -, rfl⟩ := h.split
  simp [afterVisits]

theorem canLeave : CanLeave userId roomId := by
  obtain ⟨⟨before, v, -, hnot, rfl⟩, hmember⟩ := h
  exact canLeave_of_gains hnot hmember

theorem trans {rest' : List Visit} {entered' : BridgeRuntime Services}
    (h' : Entry o env sessionId userId roomId rest entered rest' entered') :
    Entry o env sessionId userId roomId visits g rest' entered' := by
  obtain ⟨before, v, rfl, -, rfl⟩ := h.split
  obtain ⟨before', v', rfl, hnot, rfl⟩ := h'.split
  refine ⟨⟨before ++ v :: before', v', by simp, ?_, ?_⟩, h'.member⟩
  · simpa only [afterVisits, List.foldl_append, List.foldl_cons] using hnot
  · simp [afterVisits]

end

end Entry

variable {visits : List Visit} {g : BridgeRuntime Services}

theorem member_close_of_not_left (hcan : CanLeave userId roomId) (hmember : Member userId roomId g)
    (hstays : ¬LeftIn o env sessionId userId roomId visits g) :
    Member userId roomId (close o sessionId (afterVisits o env sessionId g visits)) := by
  induction visits generalizing g with
  | nil => exact (member_close hcan).mpr ⟨hmember, hstays⟩
  | cons v visits ih =>
    obtain ⟨hleaves, hrest⟩ := not_or.mp hstays
    exact ih (member_visit hmember hleaves) hrest

/-- A final membership was there, or was made and never ended. -/
theorem last_entry (hcan : CanLeave userId roomId)
    (hmember : Member userId roomId (close o sessionId (afterVisits o env sessionId g visits))) :
    Member userId roomId g ∧ ¬LeftIn o env sessionId userId roomId visits g ∨
      ∃ rest entered, Entry o env sessionId userId roomId visits g rest entered ∧
        ¬LeftIn o env sessionId userId roomId rest entered := by
  induction visits generalizing g with
  | nil => exact .inl ((member_close hcan).mp hmember)
  | cons v visits ih =>
    obtain ⟨hentered, hstays⟩ | ⟨rest, entered, ⟨⟨before, w, rfl, hnot, heq⟩, hin⟩, hstays⟩ :=
      ih hmember
    · by_cases hpre : Member userId roomId g
      · refine .inl ⟨hpre, not_or.mpr ⟨fun hleaves => ?_, hstays⟩⟩
        exact not_member_visit hcan hleaves hentered
      · exact .inr ⟨visits, _, ⟨⟨[], v, rfl, hpre, rfl⟩, hentered⟩, hstays⟩
    · exact .inr ⟨rest, entered, ⟨⟨v :: before, w, rfl, hnot, heq⟩, hin⟩, hstays⟩

end Run

end BridgeRuntime

open BridgeRuntime in
/-- No membership made through the session is left after it is closed exactly if each is followed by
a command to leave, or by the closing, at a time when the gateway remembers its user and its room.
-/
theorem no_ghost_members_iff (o : Outside) (env : Environment) (sessionId : SessionId)
    (visits : List Visit) (g : BridgeRuntime Services) :
    (∀ userId roomId rest entered, Entry o env sessionId userId roomId visits g rest entered →
      ¬Member userId roomId (close o sessionId (afterVisits o env sessionId g visits))) ↔
    ∀ userId roomId rest entered, Entry o env sessionId userId roomId visits g rest entered →
      LeftIn o env sessionId userId roomId rest entered := by
  constructor
  · intro hghosts userId roomId rest entered hentry
    refine not_not.mp fun hstays => hghosts userId roomId rest entered hentry ?_
    rw [hentry.after_eq]
    exact member_close_of_not_left hentry.canLeave hentry.member hstays
  · intro hleft userId roomId rest entered hentry hmember
    rw [hentry.after_eq] at hmember
    obtain ⟨-, hstays⟩ | ⟨rest', entered', hlater, hstays⟩ := last_entry hentry.canLeave hmember
    · exact hstays (hleft userId roomId rest entered hentry)
    · exact hstays (hleft userId roomId rest' entered' (hentry.trans hlater))

open BridgeRuntime in
/-- A user creates two rooms, and is still in the first one when the session is closed. -/
theorem first_room_keeps_ghost :
    let visits : List Visit :=
      [{ kind := .login, body := ascii "a|token:a" }, { kind := .create, body := ascii "r1" },
        { kind := .create, body := ascii "r2" }]
    let start : BridgeRuntime Services := { backend := {} }
    (afterVisits plainOutside plainEnvironment 1 start visits).writes.map (·.message) =
        [.loginResponse, .roomCreateResponse, .roomCreateResponse] ∧
      ¬∀ userId roomId rest entered,
        Entry plainOutside plainEnvironment 1 userId roomId visits start rest entered →
          ¬Member userId roomId
            (close plainOutside 1 (afterVisits plainOutside plainEnvironment 1 start visits)) := by
  refine ⟨by decide +kernel, fun h => ?_⟩
  refine h (ascii "a") (ascii "r1") [{ kind := .create, body := ascii "r2" }] _
    ⟨⟨[{ kind := .login, body := ascii "a|token:a" }], { kind := .create, body := ascii "r1" },
      rfl, ?_, rfl⟩, ⟨_, rfl, ?_⟩⟩ ⟨_, rfl, ?_⟩
  · rintro ⟨room, hroom, -⟩
    cases hroom
  · decide +kernel
  · decide +kernel

end BoostGateway.Gateway
