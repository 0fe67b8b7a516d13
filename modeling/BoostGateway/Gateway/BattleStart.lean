import BoostGateway.Gateway.Services
import BoostGateway.Room.Invariants

/-!
# Starting a battle on two services

The room service marks the room and gives the battle an id, then the battle service creates it.
Nothing undoes the first call when the second fails, and a call whose reply gets lost is sent again
and rejected as a repetition. So all agree exactly if both services take the request and both
replies arrive.
-/

namespace BoostGateway.Room

def RoomState.canStart (userId : Bytes) (room : RoomState) : Prop :=
  userId = room.ownerUserId ∧ room.activeBattleId = [] ∧ 2 ≤ room.members.length ∧
    room.allMembersReady = true

namespace RoomService

def accepts (userId roomId : Bytes) (s : RoomService) : Prop :=
  ∃ room, s.rooms.lookup roomId = some room ∧ room.canStart userId

theorem start_of_not_accepts (now : Int) {userId roomId : Bytes} {s : RoomService}
    (h : ¬s.accepts userId roomId) :
    ∃ code reason, s.handleRoomStartBattle now userId roomId = (s, .error code reason) := by
  fun_cases handleRoomStartBattle now userId roomId s with
  | case6 room hroom hown hactive hfew hready =>
    exact absurd ⟨room, hroom, not_not.mp hown, not_not.mp hactive, not_lt.mp hfew,
      by simpa using hready⟩ h
  | _ => exact ⟨_, _, rfl⟩

theorem start_of_accepts (now : Int) {userId roomId : Bytes} {s : RoomService}
    (h : s.accepts userId roomId) :
    ∃ room playerIds version, s.handleRoomStartBattle now userId roomId =
        ({ s.setRoom roomId room with nextBattleId := s.nextBattleId + 1 },
          .started roomId playerIds version
            { battleId := s.battleName, roomId, playerIds, maxFrames := s.battleMaxFrames }) ∧
      room.activeBattleId = s.battleName ∧ 2 ≤ playerIds.length := by
  obtain ⟨room, hroom, hown, hactive, hmany, hready⟩ := h
  unfold handleRoomStartBattle
  rw [hroom]
  dsimp only
  rw [if_neg (not_not.mpr hown), if_neg (not_not.mpr hactive), if_neg (not_lt.mpr hmany),
    if_neg (by simp [hready])]
  exact ⟨_, _, _, rfl, rfl, by simpa [RoomState.touch] using hmany⟩

end RoomService

end BoostGateway.Room

namespace BoostGateway.Gateway

open Battle (BattleRequest maxInstances)
open Room (RoomService)

/-! ## Calls that a service takes once -/

/-- The service executes the request at least once. -/
def Plan.reaches : Plan → Bool
  | .refused _ => false
  | .sent .notConnected _ => false
  | .sent .requestLost retry => retry = .replyLost || retry = .delivered
  | .sent .replyLost _ => true
  | .sent .delivered _ => true

/-- The reply to the first execution of the request arrives. -/
def Plan.confirms : Plan → Bool
  | .sent .delivered _ => true
  | .sent .requestLost .delivered => true
  | _ => false

theorem Plan.reaches_of_confirms {plan : Plan} (h : plan.confirms = true) :
    plan.reaches = true := by
  match plan, h with
  | .sent .delivered _, _ => rfl
  | .sent .requestLost .delivered, _ => rfl

theorem Answer.accepted_of_failed {answer : Answer} (h : answer.success = false) :
    answer.accepted = none := by rw [Answer.accepted, h, if_neg Bool.false_ne_true]

section Once

variable {σ : Type} (execute : σ → Reply × σ) (s : σ)

def Rejects : Prop := (execute s).1.failed = true ∧ (execute s).2 = s

variable {execute s}

theorem Rejects.answer (h : Rejects execute s) : (execute s).1.answer.success = false := by
  rw [Reply.answer, h.1, Bool.not_true]

theorem deliver_of_rejects (h : Rejects execute s) (plan : Plan) :
    (deliver execute plan s).1.success = false ∧ (deliver execute plan s).2 = s := by
  have hanswer := h.answer
  obtain ⟨-, hsame⟩ := h
  rcases plan with error | ⟨first, retry⟩
  · exact ⟨rfl, rfl⟩
  · cases first <;> cases retry <;> simp only [deliver, resend, hsame, hanswer, and_self]

theorem deliver_of_once (h : Rejects execute (execute s).2) (plan : Plan) :
    ((deliver execute plan s).2 = if plan.reaches then (execute s).2 else s) ∧
    (plan.confirms = true → (deliver execute plan s).1 = (execute s).1.answer) ∧
    (plan.confirms = false → (deliver execute plan s).1.success = false) := by
  have hanswer := h.answer
  obtain ⟨-, hsame⟩ := h
  rcases plan with error | ⟨first, retry⟩
  · exact ⟨rfl, nofun, fun _ => rfl⟩
  · cases first <;> cases retry <;>
      simp [deliver, resend, Plan.confirms, Plan.reaches, hsame, hanswer]

end Once

namespace Services

def hasSpaceFor (battleId roomId : Bytes) (s : Services) : Prop :=
  roomId ≠ [] ∧ s.battles.instances.lookup battleId = none ∧
    s.battles.instances.keys.length < maxInstances

/-- There is a battle with the id on the battle service. -/
def hasBattle (battleId : Bytes) (s : Services) : Prop :=
  (s.battles.instances.lookup battleId).isSome = true

def Marked (roomId : Bytes) (s s' : Services) : Prop :=
  s'.rooms.nextBattleId = s.rooms.nextBattleId + 1 ∧
    ∃ room, s'.rooms.rooms.lookup roomId = some room ∧ room.activeBattleId = s.rooms.battleName

theorem Marked.of_rooms {roomId : Bytes} {s s' s'' : Services} (h : Marked roomId s s')
    (hrooms : s''.rooms = s'.rooms) : Marked roomId s s'' := by
  rw [Marked, hrooms]
  exact h

/-! ## The call to the room service -/

variable (o : Outside) {s : Services} {userId roomId : Bytes}

theorem rejects_start (h : ¬s.rooms.accepts userId roomId) :
    Rejects (executeRoom o (.startBattle userId roomId)) s := by
  obtain ⟨code, reason, hstart⟩ := RoomService.start_of_not_accepts (o.clock s.calls) h
  dsimp only [Rejects, executeRoom, RoomService.handle]
  rw [hstart]
  exact ⟨rfl, rfl⟩

theorem not_accepts_of_marked {s' : Services} (h : Marked roomId s s') :
    ¬s'.rooms.accepts userId roomId := by
  obtain ⟨-, room, hroom, hactive⟩ := h
  rintro ⟨other, hother, -, hidle, -⟩
  cases hroom.symm.trans hother
  exact s.rooms.battleName_ne_nil (hactive.symm.trans hidle)

def Forwards (answer : Answer) (battleId roomId : Bytes) (maxFrames : UInt32) : Prop :=
  ∃ document playerIds, answer.accepted = some document ∧
    document.toBattle = some (ascii "battle_create", .create battleId roomId playerIds maxFrames) ∧
    2 ≤ playerIds.length

theorem executeRoom_start_of_accepts (h : s.rooms.accepts userId roomId) :
    let started := executeRoom o (.startBattle userId roomId) s
    Forwards started.1.answer s.rooms.battleName roomId s.rooms.battleMaxFrames ∧
      Marked roomId s started.2 ∧ started.2.battles = s.battles := by
  obtain ⟨room, playerIds, version, hstart, hactive, hmany⟩ :=
    RoomService.start_of_accepts (o.clock s.calls) h
  dsimp only [executeRoom, RoomService.handle]
  rw [hstart]
  exact ⟨⟨_, playerIds, rfl, rfl, hmany⟩, ⟨rfl, room, AList.lookup_insert _, hactive⟩, rfl⟩

theorem serve_start_of_not_accepts (h : ¬s.rooms.accepts userId roomId) :
    let called := s.serve o (.room (.startBattle userId roomId))
    called.1.accepted = none ∧ called.2.rooms = s.rooms ∧ called.2.battles = s.battles := by
  obtain ⟨hanswer, hstate⟩ := deliver_of_rejects (rejects_start o h) (o.plan s.calls)
  dsimp only [serve]
  rw [hstate]
  exact ⟨Answer.accepted_of_failed hanswer, rfl, rfl⟩

/-- Of a call to start a battle only the first run succeeds. -/
theorem serve_start_of_accepts (h : s.rooms.accepts userId roomId) :
    let called := s.serve o (.room (.startBattle userId roomId))
    called.2.battles = s.battles ∧
    ((o.plan s.calls).reaches = true → Marked roomId s called.2) ∧
    ((o.plan s.calls).reaches = false → called.2.rooms = s.rooms) ∧
    ((o.plan s.calls).confirms = true →
      Forwards called.1 s.rooms.battleName roomId s.rooms.battleMaxFrames) ∧
    ((o.plan s.calls).confirms = false → called.1.accepted = none) := by
  obtain ⟨hforwards, hmarked, hbattles⟩ := executeRoom_start_of_accepts o h
  obtain ⟨hstate, hconfirms, hnot⟩ :=
    deliver_of_once (rejects_start o (not_accepts_of_marked hmarked)) (o.plan s.calls)
  dsimp only [serve]
  rw [hstate]
  refine ⟨?_, fun hreaches => ?_, fun hreaches => ?_, fun hplan => ?_,
    fun hplan => Answer.accepted_of_failed (hnot hplan)⟩
  · split
    · exact hbattles
    · rfl
  · rw [if_pos hreaches]
    exact hmarked
  · rw [if_neg (by simp [hreaches])]
  · rw [hconfirms hplan]
    exact hforwards

/-! ## The call to the battle service -/

variable {battleId : Bytes} (playerIds : List Bytes) (maxFrames : UInt32)

theorem rejects_create (h : ¬s.hasSpaceFor battleId roomId) :
    Rejects (executeBattle o (.create battleId roomId playerIds maxFrames)) s := by
  dsimp only [Rejects, executeBattle, Battle.BattleBackend.handle]
  fun_cases Battle.handleBattleCreate o.spawns battleId roomId playerIds maxFrames s.battles with
  | case4 hempty hfew insts hcreate =>
    unfold Battle.createInstance at hcreate
    split_ifs at hcreate with htaken hfull
    exact absurd ⟨fun hnil => by simp [hnil] at hempty, by simpa using htaken, not_le.mp hfull⟩ h
  | _ => exact ⟨rfl, rfl⟩

theorem not_hasSpaceFor (h : s.hasBattle battleId) : ¬s.hasSpaceFor battleId roomId := by
  rintro ⟨-, hfree, -⟩
  rw [hasBattle, hfree] at h
  exact Bool.false_ne_true h

theorem executeBattle_create_of_hasSpaceFor (hbattle : battleId ≠ []) (hmany : 2 ≤ playerIds.length)
    (h : s.hasSpaceFor battleId roomId) :
    let created := executeBattle o (.create battleId roomId playerIds maxFrames) s
    (∃ document, created.1.answer.accepted = some document ∧ document.battleId = battleId) ∧
      created.2.rooms = s.rooms ∧ created.2.hasBattle battleId := by
  obtain ⟨hroom, hfree, hspace⟩ := h
  dsimp only [executeBattle, Battle.BattleBackend.handle, Battle.handleBattleCreate,
    Battle.createInstance]
  rw [if_neg (by simp [hbattle, hroom]), if_neg (not_lt.mpr hmany), if_neg (by simp [hfree]),
    if_neg (not_le.mpr hspace)]
  exact ⟨⟨_, rfl, rfl⟩, rfl, by simp [hasBattle]⟩

theorem serve_forward_create :
    s.serve o (.forward (ascii "battle_create") (.create battleId roomId playerIds maxFrames)) =
      let delivered := deliver (executeBattle o (.create battleId roomId playerIds maxFrames))
        (o.plan s.calls) s
      (delivered.1, { delivered.2 with calls := s.calls + 1 }) := by simp [serve, handlerName]

variable (roomId) in
/-- Of a call to create a battle only the first run succeeds. -/
theorem serve_create (hbattle : battleId ≠ []) (hmany : 2 ≤ playerIds.length) :
    let called := s.serve o
      (.forward (ascii "battle_create") (.create battleId roomId playerIds maxFrames))
    called.2.rooms = s.rooms ∧
    (called.2.hasBattle battleId ↔ s.hasBattle battleId ∨
      s.hasSpaceFor battleId roomId ∧ (o.plan s.calls).reaches = true) ∧
    (s.hasSpaceFor battleId roomId ∧ (o.plan s.calls).confirms = true →
      ∃ document, called.1.accepted = some document ∧ document.battleId = battleId) ∧
    (¬(s.hasSpaceFor battleId roomId ∧ (o.plan s.calls).confirms = true) →
      called.1.accepted = none) := by
  rw [serve_forward_create]
  dsimp only
  by_cases hspace : s.hasSpaceFor battleId roomId
  · obtain ⟨hdocument, hrooms, hcreated⟩ :=
      executeBattle_create_of_hasSpaceFor o playerIds maxFrames hbattle hmany hspace
    have hnew : ¬s.hasBattle battleId := by simp [hasBattle, hspace.2.1]
    obtain ⟨hstate, hconfirms, hnot⟩ :=
      deliver_of_once (rejects_create o playerIds maxFrames (not_hasSpaceFor hcreated))
        (o.plan s.calls)
    rw [hstate]
    refine ⟨?_, ?_, fun hplan => ?_, fun hplan => ?_⟩
    · split
      · exact hrooms
      · rfl
    · cases (o.plan s.calls).reaches with
      | true => exact iff_of_true hcreated (.inr ⟨hspace, rfl⟩)
      | false => exact iff_of_false hnew (by simp [hnew])
    · rw [hconfirms hplan.2]
      exact hdocument
    · exact Answer.accepted_of_failed (hnot (by simpa [hspace] using hplan))
  · obtain ⟨hanswer, hstate⟩ :=
      deliver_of_rejects (rejects_create o playerIds maxFrames hspace) (o.plan s.calls)
    rw [hstate]
    exact ⟨rfl, by simp [hasBattle, hspace], fun h => absurd h.1 hspace,
      fun _ => Answer.accepted_of_failed hanswer⟩

end Services

/-! ## The two calls together -/

namespace BridgeRuntime

section Same

variable {β : Type} (serve : BackendRequest → β → Answer × β)

/-- The command does what `start_battle_for_room` does. -/
theorem startBattle_eq (c : Command) (userId roomId : Bytes) (g : BridgeRuntime β) :
    (g.startBattle serve c userId roomId).2.backend =
        (g.startBattleForRoom serve roomId userId).backend ∧
      (g.startBattle serve c userId roomId).2.roomToBattleId =
        (g.startBattleForRoom serve roomId userId).roomToBattleId := by
  have hpushes : ∀ (pushes : List PushDoc) (battleId : Bytes) (g : BridgeRuntime β),
      let pushed := pushes.foldl (fun g push =>
        if push.kind = ascii "battle_started" then
          g.broadcastToRoom roomId .battleStatePush (.text (battleStateText roomId battleId))
        else g) g
      pushed.backend = g.backend ∧ pushed.roomToBattleId = g.roomToBattleId := by
    intro pushes battleId
    induction pushes with
    | nil => exact fun _ => ⟨rfl, rfl⟩
    | cons push pushes ih =>
      intro g
      rw [List.foldl_cons]
      split
      · exact ih (g.broadcastToRoom roomId .battleStatePush _)
      · exact ih g
  unfold startBattle startBattleForRoom ask
  by_cases hdumps : (BackendRequest.room (.startBattle userId roomId)).dumps = true
  · rw [if_pos hdumps, if_pos hdumps]
    generalize g.route serve (.room (.startBattle userId roomId)) = routed
    obtain ⟨answer, g⟩ := routed
    dsimp only
    cases hsucc : answer.success
    · rw [Answer.accepted_of_failed hsucc, Bool.not_false, if_pos rfl]
      split <;> exact ⟨rfl, rfl⟩
    · cases answer.accepted with
      | none => exact ⟨rfl, rfl⟩
      | some document =>
        dsimp only
        cases document.toBattle with
        | none => exact ⟨rfl, rfl⟩
        | some forward =>
          obtain ⟨messageType, request⟩ := forward
          dsimp only
          generalize g.route serve (.forward messageType request) = created
          obtain ⟨created, g⟩ := created
          cases created.accepted with
          | none => exact ⟨rfl, rfl⟩
          | some => exact hpushes _ _ _
  · rw [if_neg hdumps, if_neg hdumps]
    exact ⟨rfl, rfl⟩

end Same

section Effect

variable (o : Outside) (userId roomId : Bytes) (g : BridgeRuntime Services)

/-- The room service gets the request and accepts it. -/
def Begins : Prop := (BackendRequest.room (.startBattle userId roomId)).dumps = true ∧
    g.backend.rooms.accepts userId roomId ∧ (o.plan g.backend.calls).reaches = true

/-- The reply arrives, and the battle can be created. -/
def Proceeds : Prop := Begins o userId roomId g ∧ (o.plan g.backend.calls).confirms = true ∧
    g.backend.hasSpaceFor g.backend.rooms.battleName roomId

/-- The effect of the two calls. -/
theorem startBattleForRoom_effect :
    let after := g.startBattleForRoom (Services.serve o) roomId userId
    let battleId := g.backend.rooms.battleName
    (Begins o userId roomId g → Services.Marked roomId g.backend after.backend) ∧
    (¬Begins o userId roomId g → after.backend.rooms = g.backend.rooms) ∧
    (after.backend.hasBattle battleId ↔ g.backend.hasBattle battleId ∨
      Proceeds o userId roomId g ∧ (o.plan (g.backend.calls + 1)).reaches = true) ∧
    (after.roomToBattleId.lookup roomId = some battleId ↔
      g.roomToBattleId.lookup roomId = some battleId ∨
        Proceeds o userId roomId g ∧ (o.plan (g.backend.calls + 1)).confirms = true) := by
  dsimp only [startBattleForRoom, ask]
  by_cases hdumps : (BackendRequest.room (.startBattle userId roomId)).dumps = true
  swap
  · have hnot : ¬Begins o userId roomId g := fun h => hdumps h.1
    have hstop : ¬Proceeds o userId roomId g := fun h => hnot h.1
    rw [if_neg hdumps]
    simp [hnot, hstop]
  rw [if_pos hdumps]
  dsimp only [route]
  by_cases hacc : g.backend.rooms.accepts userId roomId
  swap
  · have hnot : ¬Begins o userId roomId g := fun h => hacc h.2.1
    have hstop : ¬Proceeds o userId roomId g := fun h => hnot h.1
    obtain ⟨hanswer, hrooms, hbattles⟩ := Services.serve_start_of_not_accepts o hacc
    rw [hanswer]
    simp [hrooms, hnot, hstop, Services.hasBattle, hbattles]
  obtain ⟨hbattles, hreach, hunreached, hconfirmed, hunconfirmed⟩ :=
    Services.serve_start_of_accepts o hacc
  cases hplan : (o.plan g.backend.calls).confirms with
  | false =>
    have hstop : ¬Proceeds o userId roomId g := fun h =>
      Bool.false_ne_true (hplan.symm.trans h.2.1)
    rw [hunconfirmed hplan]
    refine ⟨fun h => hreach h.2.2, fun h => hunreached ?_, ?_, ?_⟩
    · exact Bool.eq_false_iff.mpr fun hreaches => h ⟨hdumps, hacc, hreaches⟩
    · simp [Services.hasBattle, hbattles, hstop]
    · simp [hstop]
  | true =>
    have hreaches := Plan.reaches_of_confirms hplan
    have hbegins : Begins o userId roomId g := ⟨hdumps, hacc, hreaches⟩
    obtain ⟨document, playerIds, hdocument, hforward, hmany⟩ := hconfirmed hplan
    have hproceeds : ∀ s : Services, s.battles = g.backend.battles →
        (s.hasSpaceFor g.backend.rooms.battleName roomId ↔ Proceeds o userId roomId g) := by
      intro s hs
      rw [Services.hasSpaceFor, hs]
      exact ⟨fun h => ⟨hbegins, hplan, h⟩, fun h => h.2.2⟩
    rw [hdocument]
    dsimp only
    rw [hforward]
    dsimp only
    have hcreate := Services.serve_create o
      (s := (Services.serve o (.room (.startBattle userId roomId)) g.backend).2) roomId playerIds
      g.backend.rooms.battleMaxFrames g.backend.rooms.battleName_ne_nil hmany
    dsimp only at hcreate
    rw [hproceeds _ hbattles, Services.hasBattle, Services.hasBattle, hbattles] at hcreate
    obtain ⟨hrooms, hexists, hcreated, hfail⟩ := hcreate
    have hmarked := (hreach hreaches).of_rooms hrooms
    by_cases hannounced : Proceeds o userId roomId g ∧
        (o.plan (g.backend.calls + 1)).confirms = true
    · obtain ⟨battle, hbattle, hid⟩ := hcreated hannounced
      rw [hbattle]
      dsimp only [trackBattle]
      rw [hid, if_neg g.backend.rooms.battleName_ne_nil]
      exact ⟨fun _ => hmarked, fun h => absurd hbegins h, hexists,
        iff_of_true (AList.lookup_insert _) (.inr hannounced)⟩
    · rw [hfail hannounced]
      refine ⟨fun _ => hmarked, fun h => absurd hbegins h, hexists, ?_⟩
      simp [hannounced]

end Effect

end BridgeRuntime

/-! ## Requests to start a battle -/

inductive StartRequest where
  | command (c : Command)
  | forRoom (roomId userId : Bytes)

namespace StartRequest

variable (env : Environment) (o : Outside) (g : BridgeRuntime Services)

def roomId : StartRequest → Bytes
  | command c => g.lookup.roomIdFor c.sessionId
  | forRoom roomId _ => roomId

def userId : StartRequest → Bytes
  | command c => g.lookup.userIdFor c.sessionId
  | forRoom _ userId => userId

def perform : StartRequest → BridgeRuntime Services
  | command c => (g.handle (Services.serve o) env { c with type := .battleStart }).2
  | forRoom roomId userId => g.startBattleForRoom (Services.serve o) roomId userId

/-- The gateway sends the request to the room service. -/
def Admitted : StartRequest → Prop
  | command c =>
    g.isSessionAllowed env { c with type := .battleStart } = true ∧
      ¬(g.lookup.userIdFor c.sessionId = [] ∨ g.lookup.roomIdFor c.sessionId = []) ∧
      ¬(c.body ≠ [] ∧ c.body ≠ g.lookup.roomIdFor c.sessionId)
  | forRoom _ _ => True

theorem perform_of_not_admitted {req : StartRequest} (h : ¬req.Admitted env g) :
    (req.perform env o g).backend = g.backend := by
  cases req with
  | forRoom => exact absurd trivial h
  | command c =>
    dsimp only [perform, BridgeRuntime.handle]
    split
    · rfl
    next hallow =>
    fun_cases BridgeRuntime.handleBattleStart (Services.serve o)
      { c with type := .battleStart } g with
    | case3 userId roomId hempty hbody => exact absurd ⟨by simpa using hallow, hempty, hbody⟩ h
    | _ => rfl

theorem perform_of_admitted {req : StartRequest} (h : req.Admitted env g) :
    let started := g.startBattleForRoom (Services.serve o) (req.roomId g) (req.userId g)
    (req.perform env o g).backend = started.backend ∧
      (req.perform env o g).roomToBattleId = started.roomToBattleId := by
  cases req with
  | forRoom => exact ⟨rfl, rfl⟩
  | command =>
    obtain ⟨hallow, hempty, hbody⟩ := h
    dsimp only [perform, BridgeRuntime.handle]
    rw [if_neg (by simp [hallow])]
    dsimp only [BridgeRuntime.handleBattleStart]
    rw [if_neg hempty, if_neg hbody]
    exact BridgeRuntime.startBattle_eq _ _ _ _ g

end StartRequest

/-- Without the battle the room is free, and with it the gateway knows it. -/
def LeavesRoomFree (roomId : Bytes) (before after : BridgeRuntime Services) : Prop :=
  after.backend.rooms.nextBattleId ≠ before.backend.rooms.nextBattleId →
    (¬after.backend.hasBattle before.backend.rooms.battleName →
      ∀ room, after.backend.rooms.rooms.lookup roomId = some room →
        room.activeBattleId = [] ∧ room.status ≠ .inInstance) ∧
    (after.backend.hasBattle before.backend.rooms.battleName →
      after.roomToBattleId.lookup roomId = some before.backend.rooms.battleName)

/-- The room stays marked whatever happens to the second call, so an accepted request has to reach
the battle service and be confirmed by both. -/
theorem start_leaves_room_free_iff (env : Environment) (o : Outside) (g : BridgeRuntime Services)
    (request : StartRequest) :
    LeavesRoomFree (request.roomId g) g (request.perform env o g) ↔
      (request.Admitted env g → BridgeRuntime.Begins o (request.userId g) (request.roomId g) g →
        (g.backend.hasBattle g.backend.rooms.battleName ∨
          BridgeRuntime.Proceeds o (request.userId g) (request.roomId g) g ∧
            (o.plan (g.backend.calls + 1)).reaches = true) ∧
        (g.roomToBattleId.lookup (request.roomId g) = some g.backend.rooms.battleName ∨
          BridgeRuntime.Proceeds o (request.userId g) (request.roomId g) g ∧
            (o.plan (g.backend.calls + 1)).confirms = true)) := by
  by_cases hadmitted : request.Admitted env g
  swap
  · have hsame := request.perform_of_not_admitted env o g hadmitted
    refine iff_of_true (fun hnext => absurd ?_ hnext) fun h => absurd h hadmitted
    rw [hsame]
  obtain ⟨hbackend, hmap⟩ := request.perform_of_admitted env o g hadmitted
  obtain ⟨hmarked, hunmarked, hexists, hknown⟩ :=
    BridgeRuntime.startBattleForRoom_effect o (request.userId g) (request.roomId g) g
  rw [← hexists, ← hknown, LeavesRoomFree, hbackend, hmap]
  by_cases hbegins : BridgeRuntime.Begins o (request.userId g) (request.roomId g) g
  swap
  · refine iff_of_true (fun hnext => absurd ?_ hnext) fun _ h => absurd h hbegins
    rw [hunmarked hbegins]
  obtain ⟨hnext, room, hroom, hactive⟩ := hmarked hbegins
  constructor
  · intro h _ _
    obtain ⟨hfree, hmapped⟩ := h fun heq => by simp [hnext] at heq
    have hcreated := not_not.mp fun hno => g.backend.rooms.battleName_ne_nil
      (hactive.symm.trans (hfree hno room hroom).1)
    exact ⟨hcreated, hmapped hcreated⟩
  · intro h _
    obtain ⟨hcreated, hmapped⟩ := h hadmitted hbegins
    exact ⟨fun hno => absurd hcreated hno, fun _ => hmapped⟩

/-- A room whose owner, session 1, and member are ready. -/
def readyRoom : BridgeRuntime Services where
  backend :=
    { rooms :=
        { rooms := AList.insert (ascii "r")
            { ownerUserId := ascii "a"
              members := [{ userId := ascii "a", ready := true },
                { userId := ascii "b", ready := true }] } ∅ } }
  lookup := (({} : SessionLookup).setSessionUser 1 (ascii "a")).setSessionRoom 1 (ascii "r")

/-- Only the breaker of the battle service is open. -/
def battleServiceDown : Outside :=
  { plainOutside with
    plan := fun call => if call = 1 then .refused .circuitOpen else .sent .delivered .delivered }

/-- The battle service is not reached, and the room stays in a battle that does not exist. -/
theorem room_stuck_in_missing_battle : ¬LeavesRoomFree (ascii "r") readyRoom
      (StartRequest.perform plainEnvironment battleServiceDown readyRoom
        (.command { sessionId := 1, type := .battleStart, requestId := 7 })) := by
  intro h
  have hmissing : ¬Services.hasBattle (readyRoom.backend.rooms.battleName)
      (StartRequest.perform plainEnvironment battleServiceDown readyRoom
        (.command { sessionId := 1, type := .battleStart, requestId := 7 })).backend := by
    unfold Services.hasBattle
    decide +kernel
  have hfree := (h (by decide +kernel)).1 hmissing
  exact absurd (hfree _ rfl).1 (by decide +kernel)

end BoostGateway.Gateway
