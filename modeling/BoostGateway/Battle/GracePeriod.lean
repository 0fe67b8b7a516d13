import BoostGateway.Battle.Participants
import BoostGateway.Battle.Settlement
import Mathlib.Data.List.Nodup
import Mathlib.Data.List.Induction

/-!
# The grace period of a disconnected player

A battle actor with its mailbox and its timers. A battle ends with `kPlayerDisconnected` only for a
participant who was away for the whole grace period, if no grace timer is outrun
(`forfeit_needs_absence`).
-/

namespace BoostGateway.Battle

open List BattleActor

def disconnectGracePeriod : Nat := 15 * 10 ^ 9

structure GraceTimer where
  id : ScheduleId
  readyAt : Nat
  userId : Bytes

def BattleMsg.isExpiry : BattleMsg → Bool
  | .graceTimerExpired _ => true
  | _ => false

def ExternalMsg : Type := { msg : BattleMsg // msg.isExpiry = false }

/-- The battle actor, its mailbox, the clock and the timers. -/
structure BattleHost where
  now : Nat := 0
  actor : BattleActor := {}
  mailbox : List BattleMsg := []
  scheduled : List GraceTimer := []
  nextScheduleId : ScheduleId := 1

inductive HostStep where
  /-- `ActorSystem::send` -/
  | send (msg : ExternalMsg)
  /-- The clock moves. -/
  | wait (duration : Nat)
  /-- Another actor takes a schedule id. -/
  | scheduleElsewhere
  /-- `promote_scheduled_messages` -/
  | promote
  /-- The actor handles the message at the front of its mailbox. -/
  | handle

/-- `schedule_after` and `cancel_schedule`. -/
def BattleHost.perform (h : BattleHost) : BattleEffect → BattleHost
  | .push _ => h
  | .armGraceTimer id userId =>
    { h with
      scheduled := h.scheduled ++ [⟨id, h.now + disconnectGracePeriod, userId⟩]
      nextScheduleId := h.nextScheduleId + 1 }
  | .cancelSchedule id => { h with scheduled := h.scheduled.filter (·.id != id) }

def BattleHost.promote (h : BattleHost) : BattleHost :=
  { h with
    scheduled := h.scheduled.filter fun timer => !decide (timer.readyAt ≤ h.now)
    mailbox := h.mailbox ++
      (h.scheduled.filter fun timer => decide (timer.readyAt ≤ h.now)).map fun timer =>
        .graceTimerExpired timer.userId }

def BattleHost.handle (spawns : Spawns) (h : BattleHost) (msg : BattleMsg) (rest : List BattleMsg) :
    BattleHost × List BattleEffect :=
  let (actor, effects) := h.actor.onMessage spawns h.nextScheduleId msg
  (effects.foldl BattleHost.perform { h with actor, mailbox := rest }, effects)

/-- The host after a step, and the effects of its message. -/
def BattleHost.step (spawns : Spawns) (h : BattleHost) : HostStep → BattleHost × List BattleEffect
  | .send msg => ({ h with mailbox := h.mailbox ++ [msg.val] }, [])
  | .wait duration => ({ h with now := h.now + duration }, [])
  | .scheduleElsewhere => ({ h with nextScheduleId := h.nextScheduleId + 1 }, [])
  | .promote => (h.promote, [])
  | .handle =>
    match h.mailbox with
    | [] => (h, [])
    | msg :: rest => h.handle spawns msg rest

def hostAfter (spawns : Spawns) (steps : List HostStep) : BattleHost :=
  steps.foldl (fun h step => (h.step spawns step).1) {}

@[simp]
theorem hostAfter_concat (spawns : Spawns) (steps : List HostStep) (step : HostStep) :
    hostAfter spawns (steps ++ [step]) = ((hostAfter spawns steps).step spawns step).1 := by
  simp [hostAfter]

/-! ## Absence -/

def BattleWorld.Offline (w : BattleWorld) (userId : Bytes) : Prop :=
  userId ∈ w.userIds ∧ ∀ p ∈ w.participants, p.userId = userId → p.online = false

def BattleHost.Absent (h : BattleHost) (userId : Bytes) : Prop :=
  ∃ w, h.actor.world = some w ∧ w.Offline userId

/-- The user has been away since a disconnect at this time. -/
def AbsentSince (spawns : Spawns) (steps : List HostStep) (userId : Bytes) (time : Nat) : Prop :=
  ∃ before since, steps = before ++ .handle :: since ∧
    (hostAfter spawns before).mailbox.head? = some (.playerDisconnected userId) ∧
    (hostAfter spawns before).now = time ∧
    ∀ part, part <+: since → (hostAfter spawns (before ++ .handle :: part)).Absent userId

def RealAbsence (spawns : Spawns) (steps : List HostStep) (userId : Bytes) : Prop :=
  ∃ time, AbsentSince spawns steps userId time ∧
    time + disconnectGracePeriod ≤ (hostAfter spawns steps).now

variable {spawns : Spawns} {steps : List HostStep} {userId user : Bytes} {time : Nat}
  {w : BattleWorld} {a : BattleActor} {msg : BattleMsg} {rest : List BattleMsg}

theorem AbsentSince.absent (h : AbsentSince spawns steps userId time) :
    (hostAfter spawns steps).Absent userId := by
  obtain ⟨before, since, rfl, -, -, habs⟩ := h
  exact habs since prefix_rfl

theorem AbsentSince.carry (h : AbsentSince spawns steps userId time) {step : HostStep}
    (hkeep : (hostAfter spawns steps).Absent userId →
      (hostAfter spawns (steps ++ [step])).Absent userId) :
    AbsentSince spawns (steps ++ [step]) userId time := by
  have habs := hkeep h.absent
  obtain ⟨before, since, rfl, hhead, htime, hsince⟩ := h
  refine ⟨before, since ++ [step], by simp, hhead, htime, fun part hpart => ?_⟩
  rcases prefix_concat_iff.mp hpart with rfl | hshorter
  · simpa using habs
  · exact hsince part hshorter

theorem AbsentSince.begin
    (hhead : (hostAfter spawns steps).mailbox.head? = some (.playerDisconnected userId))
    (habs : (hostAfter spawns (steps ++ [.handle])).Absent userId) :
    AbsentSince spawns (steps ++ [.handle]) userId (hostAfter spawns steps).now := by
  refine ⟨steps, [], rfl, hhead, rfl, fun part hpart => ?_⟩
  rw [prefix_nil.mp hpart]
  exact habs

/-! ## Who stays offline -/

theorem move_online (p : Participant) : p.move.online = p.online := by
  unfold Participant.move
  split_ifs <;> rfl

variable {w' : BattleWorld}

theorem BattleWorld.Offline.of_entrywise (h : w.Offline userId)
    (hpass : Entrywise (fun _ p q => q.userId = p.userId ∧
      (q.userId = userId → p.online = false → q.online = false)) w.participants w'.participants) :
    w'.Offline userId := by
  have husers : w'.userIds = w.userIds := map_userId_of_entrywise (hpass.imp fun _ _ _ hpq => hpq.1)
  refine ⟨husers ▸ h.1, fun q hq hquser => ?_⟩
  obtain ⟨i, hi⟩ := mem_iff_getElem?.mp hq
  obtain ⟨p, hp, huser, honline⟩ := hpass.exists_left hi
  exact honline hquser (h.2 p (mem_of_getElem? hp) (huser ▸ hquser))

theorem handleDisconnect_takes_offline (hrun : w.lifecycle = .running)
    (huser : userId ∈ w.userIds) : (handleDisconnect userId w).Offline userId := by
  have husers : (handleDisconnect userId w).userIds = w.userIds :=
    after_userIds w (.disconnect userId)
  refine ⟨husers ▸ huser, fun q hq hquser => ?_⟩
  simp only [handleDisconnect, hrun, ne_eq, not_true_eq_false, if_false, markOffline] at hq
  obtain ⟨p, -, rfl⟩ := mem_map.mp hq
  split
  · rfl
  · rename_i hne
    simp [hne] at hquser
    exact absurd hquser (by simpa using hne)

theorem finishBattle_participants (reason : BattleFinishReason) (userId : Bytes)
    (w : BattleWorld) : (finishBattle reason userId w).1.participants = w.participants := by
  unfold finishBattle
  split <;> rfl

section

variable (h : w.Offline userId)

include h

theorem tick_offline (frame : UInt32) (trigger : Bytes) :
    (tick frame trigger w).Offline userId := by
  refine h.of_entrywise ((tick_keeps frame trigger w).imp fun _ p q hpq => ⟨?_, fun _ hp => ?_⟩)
  · rw [hpq.userId, move_userId, readInput_userId]
  · rw [hpq.online, move_online, readInput_online, hp]

theorem processInputForParticipant_offline (found : Option Nat) (user inputData : Bytes)
    (score : Int64) (frame : UInt32) :
    (processInputForParticipant found user inputData score frame w).1.Offline userId := by
  refine h.of_entrywise ((processInputForParticipant_idle found user inputData score frame
    w).2.imp fun _ p q hpq => ⟨hpq.1.userId, fun _ hp => ?_⟩)
  exact hpq.2.trans hp

theorem BattleWorld.Offline.of_map {f : Participant → Participant}
    (huser : ∀ p, (f p).userId = p.userId)
    (honline : ∀ p, p.userId = userId → p.online = false → (f p).online = false) :
    ({ w with participants := w.participants.map f } : BattleWorld).Offline userId :=
  h.of_entrywise (Entrywise.map f
    (fun _ p => ⟨huser p, fun hp => honline p ((huser p).symm.trans hp)⟩) _)

theorem recordFrameAck_offline (user : Bytes) (frame : UInt32) :
    (recordFrameAck user frame w).Offline userId :=
  h.of_map (fun p => by split <;> rfl) fun p _ hp => by split <;> exact hp

theorem handleDisconnect_offline (user : Bytes) : (handleDisconnect user w).Offline userId := by
  unfold handleDisconnect
  split
  · exact h
  · refine h.of_map (fun p => by split <;> rfl) fun p _ hp => ?_
    split
    · rfl
    · exact hp

theorem setOnline_offline (hne : user ≠ userId) : (setOnline user w).Offline userId := by
  refine h.of_map (fun p => by split <;> rfl) fun p hp hoffline => ?_
  split
  · rename_i hsame
    exact absurd ((by simpa using hsame : p.userId = user).symm.trans hp) hne
  · exact hoffline

theorem finishBattle_offline (reason : BattleFinishReason) (user : Bytes) :
    (finishBattle reason user w).1.Offline userId := by
  simpa only [BattleWorld.Offline, BattleWorld.userIds, finishBattle_participants] using h

theorem tickBattle_offline (trigger : Bytes) : (tickBattle trigger w).1.Offline userId := by
  have hadvanced : (advanceFrame (w.currentFrameNumber + 1) trigger w).1.Offline userId :=
    tick_offline h (w.currentFrameNumber + 1) trigger
  dsimp only [tickBattle]
  split
  · exact finishBattle_offline hadvanced _ _
  · exact hadvanced

theorem submitInput_offline (user : Bytes) (requestId : UInt32) (inputData : Bytes) (score : Int64)
    (frame : UInt32) : (submitInput user requestId inputData score frame w).1.Offline userId := by
  have hproc := processInputForParticipant_offline h (findParticipant user w) user inputData
    score frame
  unfold submitInput processInput
  split
  · exact h
  · dsimp only
    split
    · exact hproc
    · exact hproc

end

/-! ## What a message does to the timers -/

variable {h : BattleHost} {battleId roomId : Bytes}

/-- Only events; nobody comes back; the timers stay meanwhile. -/
structure QuietStep (a a' : BattleActor) (effects : List BattleEffect) : Prop where
  graceTimers : a'.In .running → a'.graceTimers = a.graceTimers
  events : ∀ effect ∈ effects, ∃ event, effect = .push event
  offline : ∀ userId w, a.world = some w → w.Offline userId →
    ∃ w', a'.world = some w' ∧ w'.Offline userId

theorem events_of_map_push (events : List BattleEvent) :
    ∀ effect ∈ events.map BattleEffect.push, ∃ event, effect = .push event := by
  intro effect heffect
  obtain ⟨event, -, rfl⟩ := mem_map.mp heffect
  exact ⟨event, rfl⟩

theorem QuietStep.of_world {timers : List (Bytes × ScheduleId)} (hw : a.world = some w)
    (events : List BattleEvent) (hoffline : ∀ userId, w.Offline userId → w'.Offline userId)
    (htimers : w'.lifecycle = .running → timers = a.graceTimers) :
    QuietStep a { world := some w', graceTimers := timers } (events.map .push) := by
  refine ⟨?_, events_of_map_push events, fun userId v hv h => ⟨w', rfl, hoffline userId ?_⟩⟩
  · rintro ⟨v, hv, hrun⟩
    cases hv
    exact htimers hrun
  · cases hw.symm.trans hv
    exact h

theorem QuietStep.refl (a : BattleActor) : QuietStep a a [] :=
  ⟨fun _ => rfl, by simp, fun _ w hw h => ⟨w, hw, h⟩⟩

theorem onMessage_quiet (spawns : Spawns) (sid : ScheduleId) (hw : a.world = some w)
    (hcreate : msg.isCreate = false) (hdisconnected : ∀ user, msg ≠ .playerDisconnected user)
    (hreconnected : ∀ user, msg ≠ .playerReconnected user) :
    QuietStep a (a.onMessage spawns sid msg).1 (a.onMessage spawns sid msg).2 := by
  cases msg with
  | create => cases hcreate
  | playerDisconnected user => exact absurd rfl (hdisconnected user)
  | playerReconnected user => exact absurd rfl (hreconnected user)
  | submitInput =>
    simp only [onMessage, hw]
    exact QuietStep.of_world hw _ (fun _ h => submitInput_offline h _ _ _ _ _) fun _ => rfl
  | tick =>
    simp only [onMessage, hw]
    exact QuietStep.of_world hw _ (fun _ h => tickBattle_offline h _) fun _ => rfl
  | endBattle =>
    simp only [onMessage, hw]
    split
    · exact QuietStep.of_world hw _ (fun _ h => finishBattle_offline h _ _) fun _ => rfl
    · exact QuietStep.refl a
  | frameAck userId frameNumber =>
    simp only [onMessage, hw, Option.map_some]
    exact QuietStep.of_world hw [.frameAck userId frameNumber]
      (fun _ h => recordFrameAck_offline h _ _) fun _ => rfl
  | graceTimerExpired userId =>
    simp only [onMessage, hw]
    split
    next hrun =>
      refine QuietStep.of_world hw _ (fun _ h => finishBattle_offline h _ _) fun hstill => ?_
      rw [(finishBattle_running .playerDisconnected userId hrun).1] at hstill
      cases hstill
    next hover => exact QuietStep.of_world hw [] (fun _ h => h) fun hrun => absurd hrun hover

theorem perform_events (h : BattleHost) {effs : List BattleEffect}
    (hevents : ∀ effect ∈ effs, ∃ event, effect = .push event) :
    effs.foldl BattleHost.perform h = h := by
  induction effs with
  | nil => rfl
  | cons effect rest ih =>
    obtain ⟨⟨event, rfl⟩, hrest⟩ := forall_mem_cons.mp hevents
    exact ih hrest

def BattleActor.Started (a : BattleActor) : Prop := ∀ w, a.world = some w → w.lifecycle ≠ .created

theorem onMessage_unborn (spawns : Spawns) (sid : ScheduleId) (ha : a.world = none)
    (msg : BattleMsg) : (a.onMessage spawns sid msg).1.Started ∧
      ∀ effect ∈ (a.onMessage spawns sid msg).2, ∃ event, effect = .push event := by
  cases msg with
  | create => simp [onMessage, Started, createBattleWorld]
  | submitInput | tick | endBattle | frameAck | playerDisconnected | playerReconnected
  | graceTimerExpired => simp [onMessage, Started, ha]

theorem onMessage_world (spawns : Spawns) (sid : ScheduleId) (hw : a.world = some w)
    (hstarted : w.lifecycle ≠ .created) (hmsg : msg.isCreate = false) :
    ∃ w', (a.onMessage spawns sid msg).1.world = some w' ∧ w'.lifecycle ≠ .created ∧
      (w'.lifecycle = .running → w.lifecycle = .running) := by
  cases hlife : w.lifecycle with
  | created => exact absurd hlife hstarted
  | running =>
    cases onMessage_running spawns sid hw hlife hmsg with
    | goesOn hin | settled hin | timedOut hin =>
      obtain ⟨w', hw', hst⟩ := hin
      exact ⟨w', hw', by simp [hst], fun _ => rfl⟩
  | finished =>
    obtain ⟨w', hw', hst⟩ := (onMessage_finished spawns sid hw hlife hmsg).finished
    exact ⟨w', hw', by simp [hst], by simp [hst]⟩

/-! ## The invariant -/

def expiryUsers (mailbox : List BattleMsg) : List Bytes := mailbox.filterMap fun
    | .graceTimerExpired userId => some userId
    | _ => none

@[simp]
theorem expiryUsers_append (mailbox mailbox' : List BattleMsg) :
    expiryUsers (mailbox ++ mailbox') = expiryUsers mailbox ++ expiryUsers mailbox' :=
  filterMap_append

@[simp]
theorem expiryUsers_cons (h : msg.isExpiry = false) (rest : List BattleMsg) :
    expiryUsers (msg :: rest) = expiryUsers rest := by
  cases msg with
  | graceTimerExpired => cases h
  | create | submitInput | tick | endBattle | frameAck | playerDisconnected
  | playerReconnected => rfl

@[simp]
theorem expiryUsers_promoted (timers : List GraceTimer) :
    expiryUsers (timers.map fun timer => .graceTimerExpired timer.userId) =
      timers.map (·.userId) := by
  simp [expiryUsers, filterMap_map]

theorem expiryUsers_subset_cons (msg : BattleMsg) (rest : List BattleMsg) :
    expiryUsers rest ⊆ expiryUsers (msg :: rest) := by
  rw [← singleton_append, expiryUsers_append]
  exact subset_append_right _ _

/-- While the battle runs, every timer has its entry, and stands for an absence, as every expiry
does. -/
structure GraceInv (spawns : Spawns) (steps : List HostStep) (h : BattleHost) : Prop where
  started : h.actor.Started
  /-- Nothing is on its way before there is a battle. -/
  unborn : h.actor.world = none → h.scheduled = [] ∧ expiryUsers h.mailbox = []
  entries : h.actor.In .running → ∀ timer ∈ h.scheduled,
    (timer.userId, timer.id) ∈ h.actor.graceTimers
  armed : h.actor.In .running → ∀ timer ∈ h.scheduled, ∃ time,
    AbsentSince spawns steps timer.userId time ∧ time + disconnectGracePeriod ≤ timer.readyAt
  due : h.actor.In .running → ∀ userId ∈ expiryUsers h.mailbox, ∃ time,
    AbsentSince spawns steps userId time ∧ time + disconnectGracePeriod ≤ h.now

theorem graceInv_init (spawns : Spawns) : GraceInv spawns [] (hostAfter spawns []) where
  started := nofun
  unborn := fun _ => ⟨rfl, rfl⟩
  entries := fun _ timer htimer => by cases htimer
  armed := fun _ timer htimer => by cases htimer
  due := fun _ userId huser => by cases huser

def BattleHost.taken (spawns : Spawns) (h : BattleHost) (msg : BattleMsg) (rest : List BattleMsg) :
    BattleHost :=
  { h with actor := (h.actor.onMessage spawns h.nextScheduleId msg).1, mailbox := rest }

section Steps

variable {h' : BattleHost} {scheduled : List GraceTimer}

theorem hostAfter_handle (hbefore : hostAfter spawns steps = h)
    (hmailbox : h.mailbox = msg :: rest) :
    hostAfter spawns (steps ++ [.handle]) =
      (h.actor.onMessage spawns h.nextScheduleId msg).2.foldl BattleHost.perform
        (h.taken spawns msg rest) := by
  rw [hostAfter_concat, hbefore]
  simp only [BattleHost.step, hmailbox]
  rfl

theorem hostAfter_handle_actor (hbefore : hostAfter spawns steps = h)
    (hmailbox : h.mailbox = msg :: rest) :
    (hostAfter spawns (steps ++ [.handle])).actor = (h.taken spawns msg rest).actor := by
  have hperform (effs : List BattleEffect) (h : BattleHost) :
      (effs.foldl BattleHost.perform h).actor = h.actor := by
    induction effs generalizing h with
    | nil => rfl
    | cons effect rest ih =>
      rw [foldl_cons, ih]
      cases effect <;> rfl
  rw [hostAfter_handle hbefore hmailbox]
  exact hperform _ _

theorem GraceInv.arm {timer : GraceTimer} {next : ScheduleId} (inv : GraceInv spawns steps h)
    (hborn : h.actor.world ≠ none) (hentry : (timer.userId, timer.id) ∈ h.actor.graceTimers)
    (haway : h.actor.In .running → ∃ time, AbsentSince spawns steps timer.userId time ∧
      time + disconnectGracePeriod ≤ timer.readyAt) :
    GraceInv spawns steps
      { h with scheduled := h.scheduled ++ [timer], nextScheduleId := next } where
  started := inv.started
  unborn := fun hnone => absurd hnone hborn
  entries := fun hin => forall_mem_append.mpr ⟨inv.entries hin, forall_mem_singleton.mpr hentry⟩
  armed := fun hin => forall_mem_append.mpr ⟨inv.armed hin, forall_mem_singleton.mpr (haway hin)⟩
  due := inv.due

theorem playerDisconnected_world (sid : ScheduleId) (user : Bytes) (w : BattleWorld)
    (a : BattleActor) :
    (playerDisconnected sid user w a).1.world = some (handleDisconnect user w) := by
  dsimp only [playerDisconnected]
  split <;> rfl

theorem perform_cancel (h : BattleHost) (ids : List ScheduleId) :
    (ids.map BattleEffect.cancelSchedule).foldl BattleHost.perform h =
      { h with scheduled := h.scheduled.filter fun timer => !ids.contains timer.id } := by
  induction ids generalizing h with
  | nil => simp
  | cons id rest ih =>
    rw [map_cons, foldl_cons, ih]
    simp only [BattleHost.perform, filter_filter, contains_cons, Bool.not_or, bne]
    simp [Bool.and_comm]

variable (inv : GraceInv spawns steps h) (hbefore : hostAfter spawns steps = h)

include inv hbefore

/-- Fewer timers and expiries, and nobody comes back. -/
theorem GraceInv.of_fewer {step : HostStep}
    (hafter : (hostAfter spawns (steps ++ [step])).actor = h'.actor) (hstarted : h'.actor.Started)
    (hworld : h'.actor.world = none → h.actor.world = none)
    (hrun : h'.actor.In .running → h.actor.In .running) (hscheduled : h'.scheduled ⊆ h.scheduled)
    (hexpired : expiryUsers h'.mailbox ⊆ expiryUsers h.mailbox) (hnow : h.now ≤ h'.now)
    (hentries : h'.actor.In .running → ∀ timer ∈ h'.scheduled,
      (timer.userId, timer.id) ∈ h.actor.graceTimers →
      (timer.userId, timer.id) ∈ h'.actor.graceTimers) (habs : h'.actor.In .running → ∀ userId,
      userId ∈ h'.scheduled.map (·.userId) ∨ userId ∈ expiryUsers h'.mailbox →
      h.Absent userId → h'.Absent userId) : GraceInv spawns (steps ++ [step]) h' where
  started := hstarted
  unborn := fun hnone => by
    obtain ⟨htimers, husers⟩ := inv.unborn (hworld hnone)
    rw [htimers] at hscheduled
    rw [husers] at hexpired
    exact ⟨subset_nil.mp hscheduled, subset_nil.mp hexpired⟩
  entries := fun hin timer htimer =>
    hentries hin timer htimer (inv.entries (hrun hin) timer (hscheduled htimer))
  armed := fun hin timer htimer => by
    obtain ⟨time, hsince, hready⟩ := inv.armed (hrun hin) timer (hscheduled htimer)
    refine ⟨time, hsince.carry fun h => ?_, hready⟩
    rw [BattleHost.Absent, hafter]
    exact habs hin timer.userId (.inl (mem_map_of_mem htimer)) (hbefore ▸ h)
  due := fun hin userId huser => by
    obtain ⟨time, hsince, hready⟩ := inv.due (hrun hin) userId (hexpired huser)
    refine ⟨time, hsince.carry fun h => ?_, hready.trans hnow⟩
    rw [BattleHost.Absent, hafter]
    exact habs hin userId (.inr huser) (hbefore ▸ h)

theorem GraceInv.of_same_actor {step : HostStep} (hafter : hostAfter spawns (steps ++ [step]) = h')
    (hactor : h'.actor = h.actor) (hscheduled : h'.scheduled = h.scheduled)
    (hexpired : expiryUsers h'.mailbox = expiryUsers h.mailbox) (hnow : h.now ≤ h'.now) :
    GraceInv spawns (steps ++ [step]) h' := by
  refine inv.of_fewer hbefore (congrArg _ hafter) (hactor ▸ inv.started)
    (fun hnone => hactor ▸ hnone) (fun hin => hactor ▸ hin) (fun _ => hscheduled ▸ id)
    (fun _ => hexpired ▸ id) hnow (fun _ _ _ hentry => hactor ▸ hentry)
    fun _ userId _ habs => ?_
  simpa only [BattleHost.Absent, hactor] using habs

omit hbefore in
theorem GraceInv.promote : GraceInv spawns (steps ++ [.promote]) h.promote := by
  have hcarry {userId : Bytes} {time : Nat} (hsince : AbsentSince spawns steps userId time) :
      AbsentSince spawns (steps ++ [.promote]) userId time := by
    refine hsince.carry fun habsent => ?_
    rw [hostAfter_concat]
    exact habsent
  refine ⟨inv.started, fun hnone => ?_, fun hin timer htimer => ?_, fun hin timer htimer => ?_,
    fun hin userId huser => ?_⟩
  · obtain ⟨htimers, husers⟩ := inv.unborn hnone
    simp [BattleHost.promote, htimers, husers]
  · exact inv.entries hin timer (mem_of_mem_filter htimer)
  · obtain ⟨time, hsince, hready⟩ := inv.armed hin timer (mem_of_mem_filter htimer)
    exact ⟨time, hcarry hsince, hready⟩
  · simp only [BattleHost.promote, expiryUsers_append, expiryUsers_promoted] at huser
    rcases mem_append.mp huser with hold | hnew
    · obtain ⟨time, hsince, hready⟩ := inv.due hin userId hold
      exact ⟨time, hcarry hsince, hready⟩
    · obtain ⟨timer, htimer, rfl⟩ := mem_map.mp hnew
      obtain ⟨hmem, hdue⟩ := mem_filter.mp htimer
      obtain ⟨time, hsince, hready⟩ := inv.armed hin timer hmem
      exact ⟨time, hcarry hsince, hready.trans (of_decide_eq_true hdue)⟩

/-! ## A message is handled -/

variable (hmailbox : h.mailbox = msg :: rest)

include hmailbox

/-- A message that creates no battle and leads to no new timer. -/
theorem GraceInv.of_message (hw : h.actor.world = some w) (hcreate : msg.isCreate = false)
    (hscheduled : scheduled ⊆ h.scheduled)
    (hentries : (h.taken spawns msg rest).actor.In .running → ∀ timer ∈ scheduled,
      (timer.userId, timer.id) ∈ h.actor.graceTimers →
      (timer.userId, timer.id) ∈ (h.taken spawns msg rest).actor.graceTimers)
    (habs : (h.taken spawns msg rest).actor.In .running → ∀ userId,
      userId ∈ scheduled.map (·.userId) ∨ userId ∈ expiryUsers rest →
      h.Absent userId → (h.taken spawns msg rest).Absent userId) :
    GraceInv spawns (steps ++ [.handle]) { h.taken spawns msg rest with scheduled } := by
  obtain ⟨w', hw', hstarted, hrun⟩ :=
    onMessage_world spawns h.nextScheduleId hw (inv.started w hw) hcreate
  have hafter {v : BattleWorld} (hv : (h.taken spawns msg rest).actor.world = some v) : w' = v :=
    Option.some.inj (hw'.symm.trans hv)
  refine inv.of_fewer hbefore (hostAfter_handle_actor hbefore hmailbox)
    (fun v hv => hafter hv ▸ hstarted) (fun hnone => ?_) (fun ⟨v, hv, hv'⟩ => ?_) hscheduled
    (hmailbox ▸ expiryUsers_subset_cons msg rest) le_rfl hentries habs
  · cases hw'.symm.trans hnone
  · exact ⟨w, hw, hrun (hafter hv ▸ hv')⟩

theorem GraceInv.handle_quiet (hw : h.actor.world = some w) (hcreate : msg.isCreate = false)
    (hquiet : QuietStep h.actor (h.actor.onMessage spawns h.nextScheduleId msg).1
      (h.actor.onMessage spawns h.nextScheduleId msg).2) :
    GraceInv spawns (steps ++ [.handle]) (hostAfter spawns (steps ++ [.handle])) := by
  rw [hostAfter_handle hbefore hmailbox, perform_events _ hquiet.events]
  refine inv.of_message hbefore hmailbox hw hcreate (fun _ => id)
    (fun hin _ _ hentry => (hquiet.graceTimers hin).symm ▸ hentry) fun _ userId _ habs => ?_
  obtain ⟨w, hw, hoffline⟩ := habs
  exact hquiet.offline userId w hw hoffline

theorem GraceInv.handle_unborn (hnone : h.actor.world = none) :
    GraceInv spawns (steps ++ [.handle]) (hostAfter spawns (steps ++ [.handle])) := by
  obtain ⟨htimers, husers⟩ := inv.unborn hnone
  rw [hmailbox] at husers
  have husers : expiryUsers rest = [] := subset_nil.mp (husers ▸ expiryUsers_subset_cons msg rest)
  obtain ⟨hstarted, hevents⟩ := onMessage_unborn spawns h.nextScheduleId hnone msg
  rw [hostAfter_handle hbefore hmailbox, perform_events _ hevents]
  refine ⟨hstarted, fun _ => ⟨htimers, husers⟩, fun _ timer htimer => ?_,
    fun _ timer htimer => ?_, fun _ userId huser => ?_⟩
  · cases htimers ▸ htimer
  · cases htimers ▸ htimer
  · cases husers ▸ huser

omit hmailbox in
/-- A disconnect arms a timer, unless one is armed. -/
theorem GraceInv.handle_disconnected (hmailbox : h.mailbox = .playerDisconnected user :: rest)
    (hw : h.actor.world = some w) (hparticipant : w.lifecycle = .running → user ∈ w.userIds) :
    GraceInv spawns (steps ++ [.handle]) (hostAfter spawns (steps ++ [.handle])) := by
  have hactor := hostAfter_handle_actor hbefore hmailbox
  set a := (playerDisconnected h.nextScheduleId user w h.actor).1 with ha
  have hmsg : h.actor.onMessage spawns h.nextScheduleId (.playerDisconnected user) =
      playerDisconnected h.nextScheduleId user w h.actor := by simp [onMessage, hw]
  have htaken : h.taken spawns (.playerDisconnected user) rest =
      { h with actor := a, mailbox := rest } := by rw [BattleHost.taken, hmsg]
  have hworld : a.world = some (handleDisconnect user w) := playerDisconnected_world ..
  have hkept : h.actor.graceTimers ⊆ a.graceTimers := by
    simp only [ha, playerDisconnected]
    split
    · exact fun _ => id
    · exact subset_cons_self _ _
  have hbase := inv.of_message hbefore hmailbox hw rfl (fun _ => id)
    (fun _ _ _ hmem => by rw [htaken]; exact hkept hmem) fun _ userId _ habsent => by
      obtain ⟨w', hw', hoffline⟩ := habsent
      cases hw.symm.trans hw'
      rw [htaken]
      exact ⟨_, hworld, handleDisconnect_offline hoffline user⟩
  rw [hostAfter_handle hbefore hmailbox, hmsg, htaken]
  rw [htaken] at hbase hactor
  cases hentry : h.actor.graceTimers.any (·.1 == user) with
  | true =>
    have heffects : (playerDisconnected h.nextScheduleId user w h.actor).2 = [] := by
      simp [playerDisconnected, hentry]
    rw [heffects]
    exact hbase
  | false =>
    have heffects : (playerDisconnected h.nextScheduleId user w h.actor).2 =
        [.armGraceTimer h.nextScheduleId user] := by simp [playerDisconnected, hentry]
    rw [heffects]
    refine hbase.arm (by simp [hworld]) (by simp [ha, playerDisconnected, hentry]) fun hin => ?_
    obtain ⟨w', hw', hrunning⟩ := hin
    cases hworld.symm.trans hw'
    have hlifecycle : w.lifecycle = .running := handleDisconnect_lifecycle user w ▸ hrunning
    have hbegin : AbsentSince spawns (steps ++ [.handle]) user (hostAfter spawns steps).now :=
      AbsentSince.begin (by rw [hbefore, hmailbox]; rfl) ⟨_, hactor ▸ hworld,
        handleDisconnect_takes_offline hlifecycle (hparticipant hlifecycle)⟩
    exact ⟨h.now, hbefore ▸ hbegin, le_rfl⟩

omit hmailbox in
/-- A reconnect cancels the timer of the user. -/
theorem GraceInv.handle_reconnected (hmailbox : h.mailbox = .playerReconnected user :: rest)
    (hw : h.actor.world = some w) (htime : w.lifecycle = .running → user ∉ expiryUsers rest) :
    GraceInv spawns (steps ++ [.handle]) (hostAfter spawns (steps ++ [.handle])) := by
  set ids := (h.actor.graceTimers.filter (·.1 == user)).map (·.2) with hids
  have hmsg : h.actor.onMessage spawns h.nextScheduleId (.playerReconnected user) =
      playerReconnected user w h.actor := by simp [onMessage, hw]
  have heffects : (playerReconnected user w h.actor).2 = ids.map .cancelSchedule := by
    simp [playerReconnected, hids]
  have htaken : h.taken spawns (.playerReconnected user) rest =
      { h with actor := (playerReconnected user w h.actor).1, mailbox := rest } := by
    rw [BattleHost.taken, hmsg]
  have hrunning (hin : (h.taken spawns (.playerReconnected user) rest).actor.In .running) :
      w.lifecycle = .running := by
    obtain ⟨w', hw', hrunning⟩ := hin
    rw [htaken] at hw'
    cases hw'
    exact hrunning
  have hgone (hin : w.lifecycle = .running) {timer : GraceTimer}
      (htimer : timer ∈ h.scheduled.filter fun timer => !ids.contains timer.id) :
      timer.userId ≠ user := by
    rintro rfl
    obtain ⟨hmem, hkept⟩ := mem_filter.mp htimer
    have hcancelled : timer.id ∈ ids :=
      mem_map.mpr ⟨_, mem_filter.mpr ⟨inv.entries ⟨w, hw, hin⟩ timer hmem, by simp⟩, rfl⟩
    simp [hcancelled] at hkept
  rw [hostAfter_handle hbefore hmailbox, hmsg, heffects, perform_cancel]
  refine inv.of_message hbefore hmailbox hw rfl (fun _ htimer => mem_of_mem_filter htimer)
    (fun hin timer htimer hentry => ?_) fun hin userId hpending habsent => ?_
  · rw [htaken]
    exact mem_filter.mpr ⟨hentry, by simpa using hgone (hrunning hin) htimer⟩
  · obtain ⟨w', hw', hoffline⟩ := habsent
    cases hw.symm.trans hw'
    have hne : user ≠ userId := by
      rcases hpending with hscheduled | hexpired
      · obtain ⟨timer, htimer, rfl⟩ := mem_map.mp hscheduled
        exact (hgone (hrunning hin) htimer).symm
      · rintro rfl
        exact htime (hrunning hin) hexpired
    rw [htaken]
    exact ⟨setOnline user w, rfl, setOnline_offline hoffline hne⟩

end Steps

/-! ## Runs -/

/-- A battle is created once; who disconnects in it takes part; who comes back has no expiry
waiting; and an end message does not give the reason of the grace timer. -/
def BattleHost.calm (h : BattleHost) : Bool :=
  match h.mailbox with
  | .create .. :: _ => h.actor.world.isNone
  | .endBattle reason _ :: _ => reason != .playerDisconnected
  | .playerDisconnected userId :: _ =>
    h.actor.world.all fun w => w.lifecycle != .running || w.userIds.contains userId
  | .playerReconnected userId :: rest =>
    h.actor.world.all fun w => w.lifecycle != .running || !(expiryUsers rest).contains userId
  | _ => true

/-- Every message of the run is handled when it may be. -/
def BattleHost.CalmThroughout (spawns : Spawns) : BattleHost → List HostStep → Prop
  | _, [] => True
  | h, .handle :: rest => h.calm = true ∧ CalmThroughout spawns (h.step spawns .handle).1 rest
  | h, step :: rest => CalmThroughout spawns (h.step spawns step).1 rest

theorem calmThroughout_append (spawns : Spawns) (h : BattleHost) (steps steps' : List HostStep) :
    h.CalmThroughout spawns (steps ++ steps') ↔ h.CalmThroughout spawns steps ∧
      (steps.foldl (fun h step => (h.step spawns step).1) h).CalmThroughout spawns steps' := by
  induction steps generalizing h with
  | nil => simp [BattleHost.CalmThroughout]
  | cons step rest ih =>
    cases step with
    | handle => simp [BattleHost.CalmThroughout, ih, and_assoc]
    | send | wait | scheduleElsewhere | promote => simp [BattleHost.CalmThroughout, ih]

theorem calmThroughout_handle (h : BattleHost.CalmThroughout spawns {} (steps ++ [.handle])) :
    (hostAfter spawns steps).calm = true :=
  ((calmThroughout_append spawns {} steps [.handle]).mp h).2.1

theorem GraceInv.handle (inv : GraceInv spawns steps h) (hbefore : hostAfter spawns steps = h)
    (hcalm : h.calm = true) :
    GraceInv spawns (steps ++ [.handle]) (hostAfter spawns (steps ++ [.handle])) := by
  cases hmailbox : h.mailbox with
  | nil =>
    have hsame : hostAfter spawns (steps ++ [.handle]) = h := by
      rw [hostAfter_concat, hbefore]
      simp [BattleHost.step, hmailbox]
    rw [hsame]
    exact inv.of_same_actor hbefore hsame rfl rfl rfl le_rfl
  | cons msg =>
    simp only [BattleHost.calm, hmailbox] at hcalm
    cases hw : h.actor.world with
    | none => exact inv.handle_unborn hbefore hmailbox hw
    | some =>
      cases msg with
      | create => simp [hw] at hcalm
      | submitInput | tick | endBattle | frameAck | graceTimerExpired =>
        exact inv.handle_quiet hbefore hmailbox hw rfl (onMessage_quiet spawns _ hw rfl nofun nofun)
      | playerDisconnected =>
        refine inv.handle_disconnected hbefore hmailbox hw fun hrun => ?_
        simpa [hw, hrun] using hcalm
      | playerReconnected =>
        refine inv.handle_reconnected hbefore hmailbox hw fun hrun => ?_
        simpa [hw, hrun] using hcalm

theorem graceInv_hostAfter (spawns : Spawns) (steps : List HostStep)
    (hcalm : BattleHost.CalmThroughout spawns {} steps) :
    GraceInv spawns steps (hostAfter spawns steps) := by
  induction steps using List.reverseRecOn with
  | nil => exact graceInv_init spawns
  | append_singleton steps step ih =>
    have inv := ih ((calmThroughout_append spawns {} steps [step]).mp hcalm).1
    cases step with
    | send msg =>
      rw [hostAfter_concat]
      refine inv.of_same_actor rfl (hostAfter_concat ..) rfl rfl ?_ le_rfl
      show expiryUsers ((hostAfter spawns steps).mailbox ++ [msg.val]) = _
      rw [expiryUsers_append, expiryUsers_cons msg.property]
      exact append_nil _
    | wait =>
      rw [hostAfter_concat]
      exact inv.of_same_actor rfl (hostAfter_concat ..) rfl rfl rfl (Nat.le_add_right _ _)
    | scheduleElsewhere =>
      rw [hostAfter_concat]
      exact inv.of_same_actor rfl (hostAfter_concat ..) rfl rfl rfl le_rfl
    | promote =>
      rw [hostAfter_concat]
      exact inv.promote
    | handle => exact inv.handle rfl (calmThroughout_handle hcalm)

/-! ## Forfeits -/

/-- The effects end the battle because the user was gone. -/
def Forfeits (effects : List BattleEffect) (userId : Bytes) : Prop :=
  ∃ battleId roomId, .push (.finished battleId roomId .playerDisconnected userId) ∈ effects

theorem finishBattle_reason {reason reason' : BattleFinishReason}
    (h : .finished battleId roomId reason' userId ∈ (finishBattle reason user w).2) :
    reason' = reason ∧ userId = user ∧ w.lifecycle ≠ .finished := by
  unfold finishBattle at h
  split at h
  · cases h
  · rename_i hnot
    simp at h
    exact ⟨h.2.2.1, h.2.2.2, hnot⟩

theorem mem_of_push_mem {event : BattleEvent} {events : List BattleEvent}
    (h : BattleEffect.push event ∈ events.map BattleEffect.push) : event ∈ events := by
  obtain ⟨event', hmem, heq⟩ := mem_map.mp h
  cases heq
  exact hmem

theorem tickBattle_not_forfeit (trigger : Bytes) (w : BattleWorld) (userId : Bytes) :
    ¬ Forfeits ((tickBattle trigger w).2.map .push) userId := by
  rintro ⟨battleId, roomId, h⟩
  have hevent := mem_of_push_mem h
  dsimp only [tickBattle] at hevent
  split at hevent
  · rename_i hlim
    have hframe : (advanceFrame (w.currentFrameNumber + 1) trigger w).2.finishReason =
        .frameLimitReached := if_pos hlim
    rcases mem_cons.mp hevent with heq | hmem
    · cases heq
    · cases (finishBattle_reason hmem).1.trans hframe
  · simp at hevent

theorem Settles.not_forfeit {effs : List BattleEffect} (h : Settles 0 effs) :
    ¬ Forfeits effs userId := by
  rintro ⟨_, _, hmem⟩
  exact countP_eq_zero.mp h.2 _ hmem rfl

/-- A forfeit is an expired grace timer, or an end message that says so. -/
theorem forfeits_cases {sid : ScheduleId} (h : Forfeits (a.onMessage spawns sid msg).2 userId) :
    (msg = .graceTimerExpired userId ∧ a.In .running) ∨
      ∃ user, msg = .endBattle .playerDisconnected user := by
  cases hw : a.world with
  | none =>
    obtain ⟨_, _, hmem⟩ := h
    cases msg <;> simp [onMessage, hw] at hmem
  | some w =>
    cases msg with
    | submitInput =>
      simp only [onMessage, hw] at h
      exact absurd h (submitInput_lifecycle ..).2.not_forfeit
    | tick trigger =>
      simp only [onMessage, hw] at h
      exact absurd h (tickBattle_not_forfeit trigger w _)
    | endBattle reason user =>
      obtain ⟨_, _, hmem⟩ := h
      simp only [onMessage, hw] at hmem
      split at hmem
      · obtain ⟨rfl, -, -⟩ := finishBattle_reason (mem_of_push_mem hmem)
        exact .inr ⟨user, rfl⟩
      · cases hmem
    | create | frameAck | playerReconnected =>
      obtain ⟨_, _, hmem⟩ := h
      simp [onMessage, hw, playerReconnected] at hmem
    | playerDisconnected =>
      simp only [onMessage, hw] at h
      exact absurd h (playerDisconnected_step ..).2.1.not_forfeit
    | graceTimerExpired user =>
      obtain ⟨_, _, hmem⟩ := h
      simp only [onMessage, hw] at hmem
      split at hmem
      · rename_i hrun
        obtain ⟨-, rfl, -⟩ := finishBattle_reason (mem_of_push_mem hmem)
        exact .inl ⟨rfl, w, hw, hrun⟩
      · cases hmem

/-- Whoever forfeits takes part and was away for the grace period. -/
def ForfeitsNeedAbsence (spawns : Spawns) (steps : List HostStep) : Prop :=
  ∀ before step, before ++ [step] <+: steps → ∀ userId,
    Forfeits ((hostAfter spawns before).step spawns step).2 userId →
      RealAbsence spawns before userId

/-- If all messages are handled when they may be, a battle ends because a user was gone only if the
user takes part and has been away since a disconnect at least the grace period ago. -/
theorem forfeit_needs_absence (spawns : Spawns) (steps : List HostStep)
    (hcalm : BattleHost.CalmThroughout spawns {} steps) : ForfeitsNeedAbsence spawns steps := by
  rintro before step ⟨since, rfl⟩ userId hforfeit
  have hbefore := ((calmThroughout_append spawns {} (before ++ [step]) since).mp hcalm).1
  have inv := graceInv_hostAfter spawns before
    ((calmThroughout_append spawns {} before [step]).mp hbefore).1
  cases step with
  | send | wait | scheduleElsewhere | promote =>
    obtain ⟨_, _, hmem⟩ := hforfeit
    cases hmem
  | handle =>
    have hnow := calmThroughout_handle hbefore
    cases hmailbox : (hostAfter spawns before).mailbox with
    | nil =>
      obtain ⟨_, _, hmem⟩ := hforfeit
      simp [BattleHost.step, hmailbox] at hmem
    | cons =>
      simp only [BattleHost.step, hmailbox, BattleHost.handle] at hforfeit
      rcases forfeits_cases hforfeit with ⟨rfl, hin⟩ | ⟨user, rfl⟩
      · exact inv.due hin userId (by rw [hmailbox]; exact mem_cons_self)
      · simp [BattleHost.calm, hmailbox] at hnow

/-- A player leaves and stays away until the timer expires. -/
def deserted : List HostStep :=
  [.send ⟨.create (ascii "b") (ascii "r") [ascii "ann"] 0, rfl⟩, .handle,
    .send ⟨.playerDisconnected (ascii "ann"), rfl⟩, .handle, .wait disconnectGracePeriod, .promote]

/-- The player who left forfeits, and was indeed away. -/
theorem forfeit_needs_absence_deserted :
    Forfeits ((hostAfter diagonalSpawns deserted).step diagonalSpawns .handle).2 (ascii "ann") ∧
      RealAbsence diagonalSpawns deserted (ascii "ann") := by
  have hforfeit : Forfeits ((hostAfter diagonalSpawns deserted).step diagonalSpawns .handle).2
      (ascii "ann") := ⟨ascii "b", ascii "r", by decide +kernel⟩
  have hcalm : BattleHost.CalmThroughout diagonalSpawns {} (deserted ++ [.handle]) :=
    ⟨by decide +kernel, by decide +kernel, by decide +kernel, trivial⟩
  exact ⟨hforfeit, forfeit_needs_absence diagonalSpawns _ hcalm deserted .handle prefix_rfl _
    hforfeit⟩

/-- An outsider disconnects, and their timer expires. -/
def outsiderLeaves : List HostStep :=
  [.send ⟨.create (ascii "b") (ascii "r") [ascii "ann"] 0, rfl⟩, .handle,
    .send ⟨.playerDisconnected (ascii "eve"), rfl⟩, .handle, .wait disconnectGracePeriod, .promote]

/-- The battle of the others ends by the outsider's forfeit. -/
theorem outsider_forfeits : ¬ ForfeitsNeedAbsence diagonalSpawns (outsiderLeaves ++ [.handle]) := by
  intro h
  have hforfeit : Forfeits
      ((hostAfter diagonalSpawns outsiderLeaves).step diagonalSpawns .handle).2 (ascii "eve") :=
    ⟨ascii "b", ascii "r", by decide +kernel⟩
  obtain ⟨time, hsince, -⟩ := h outsiderLeaves .handle prefix_rfl _ hforfeit
  obtain ⟨w, hw, huser, -⟩ := hsince.absent
  have husers : (hostAfter diagonalSpawns outsiderLeaves).actor.world.map (·.userIds) =
      some [ascii "ann"] := by decide +kernel
  rw [hw] at husers
  have hann : w.userIds = [ascii "ann"] := Option.some.inj husers
  rw [hann] at huser
  exact absurd huser (by decide)

end BoostGateway.Battle
