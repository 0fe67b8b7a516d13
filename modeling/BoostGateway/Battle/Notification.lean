import BoostGateway.Battle.BackendService
import Mathlib.Data.List.Induction

/-!
# Battle-finished notifications

The gateway settles a battle when a reply carries a `battle_finished` push. `notifies_once_iff` says
in which runs every battle is announced once, by the reply to the request that ended it.
-/

namespace BoostGateway.Battle

open Option List BattleBackend BattleReply

/-! ## Instances between requests -/

def BattleInstance.endsAt (inst : BattleInstance) (frame : UInt32) : Bool :=
  (0 < inst.maxFrames && inst.maxFrames ≤ frame) || inst.world.timesOut

structure BattleInstance.Ready (inst : BattleInstance) : Prop where
  active : inst.active = true
  running : inst.world.lifecycle = .running
  maxFrames : inst.world.maxFrames = inst.maxFrames

def Sound (instances : Table BattleInstance) : Prop :=
  ∀ id inst, instances.lookup id = some inst → id ≠ [] ∧ inst.Ready

variable {instances : Table BattleInstance} {id other battleId : Bytes} {inst : BattleInstance}
  {s : BattleBackend} {h : Handled}

theorem Sound.of_updated {instances' : Table BattleInstance} (h : Sound instances)
    (hothers : ∀ other, other ≠ id → instances'.lookup other = instances.lookup other)
    (hid : ∀ inst, instances'.lookup id = some inst → id ≠ [] ∧ inst.Ready) : Sound instances' := by
  intro other inst hget
  by_cases hsame : other = id
  · subst hsame
    exact hid inst hget
  · rw [hothers other hsame] at hget
    exact h other inst hget

/-! ## The world of an instance -/

theorem lifecycleSystem_frames (w : BattleWorld) :
    (lifecycleSystem w).frameNumber = w.frameNumber ∧
      (lifecycleSystem w).maxFrames = w.maxFrames := by
  unfold lifecycleSystem countOffline
  split
  · exact ⟨rfl, rfl⟩
  · exact ⟨rfl, rfl⟩
  · split_ifs <;> exact ⟨rfl, rfl⟩

theorem tick_frames (frame : UInt32) (trigger : Bytes) (w : BattleWorld) :
    (tick frame trigger w).frameNumber = frame ∧
      (tick frame trigger w).maxFrames = w.maxFrames := by
  simp only [tick, replaySystem, projectileSystem, combatSystem, movementSystem]
  exact lifecycleSystem_frames _

section Input

variable (userId payload : Bytes) (score : Int64) (submittedFrame : UInt32)

theorem processInputForParticipant_maxFrames (found : Option Nat) (w : BattleWorld) :
    (processInputForParticipant found userId payload score submittedFrame w).1.maxFrames =
      w.maxFrames := by
  unfold processInputForParticipant
  split_ifs
  case pos => rfl
  case pos => rfl
  case neg => cases found <;> rfl

/-- An input changes neither the lifecycle nor the frame limit. -/
theorem onInput_ready (h : inst.Ready) :
    (inst.onInput userId payload score submittedFrame).1.Ready := by
  have hworld : ∀ found,
      let w := (processInputForParticipant found userId payload score submittedFrame inst.world).1
      w.lifecycle = .running ∧ w.maxFrames = inst.maxFrames := fun found =>
    ⟨(processInputForParticipant_lifecycle userId payload score submittedFrame found _).trans
        h.running,
      (processInputForParticipant_maxFrames userId payload score submittedFrame found _).trans
        h.maxFrames⟩
  unfold BattleInstance.onInput
  cases inst.entity userId with
  | none => exact ⟨h.active, (hworld _).1, (hworld _).2⟩
  | some =>
    simp only [processInputAt]
    split
    · exact ⟨h.active, (hworld _).1, (hworld _).2⟩
    · exact ⟨h.active, (hworld _).1, (hworld _).2⟩

theorem lookup_processInputImmediate_ne (instances : Table BattleInstance) (hne : other ≠ id) :
    (processInputImmediate id userId payload score submittedFrame instances).1.lookup other =
      instances.lookup other := by
  fun_cases processInputImmediate id userId payload score submittedFrame instances with
  | case3 => exact AList.lookup_insert_ne hne
  | _ => rfl

theorem processInputImmediate_ready (hget : instances.lookup id = some inst)
    (hready : inst.Ready) : ∃ inst', inst'.Ready ∧
      (processInputImmediate id userId payload score submittedFrame instances).1.lookup id =
        some inst' := by
  refine ⟨_, onInput_ready userId payload score submittedFrame hready, ?_⟩
  simp [processInputImmediate, hget, hready.active]

end Input

/-! ## Ticks -/

theorem onTick_running (frame : UInt32) {w : BattleWorld} (h : w.lifecycle = .running) :
    (onTick frame w).2.shouldFinish = ((0 < w.maxFrames && w.maxFrames ≤ frame) || w.timesOut) ∧
      ((onTick frame w).2.shouldFinish = false →
        (onTick frame w).1.lifecycle = .running ∧ (onTick frame w).1.maxFrames = w.maxFrames) := by
  have hlim : (advanceFrame frame (ascii "tick") w).2.shouldFinish =
      (0 < w.maxFrames && w.maxFrames ≤ frame) := by simp [advanceFrame, (tick_frames _ _ _).1]
  have hlife := advanceFrame_running frame (ascii "tick") h
  have hmax : (advanceFrame frame (ascii "tick") w).1.maxFrames = w.maxFrames :=
    (tick_frames frame _ w).2
  unfold onTick
  simp only [hlim]
  cases htimeout : w.timesOut with
  | true =>
    rw [htimeout, if_pos rfl] at hlife
    simp [hlife]
  | false =>
    rw [htimeout, if_neg (by simp)] at hlife
    cases hreach : (0 < w.maxFrames && w.maxFrames ≤ frame : Bool) with
    | true => simp
    | false => simp [hlife, hmax]

theorem lookup_finishInstance_ne (hne : other ≠ id) (reason : FinishReason)
    (instances : Table BattleInstance) :
    (finishInstance id reason instances).1.lookup other = instances.lookup other := by
  fun_cases finishInstance id reason instances with
  | case3 => exact AList.lookup_insert_ne hne
  | _ => rfl

theorem finishInstance_active (hget : instances.lookup id = some inst)
    (hactive : inst.active = true) (reason : FinishReason) :
    (finishInstance id reason instances).2 =
      [.instanceFinished id (inst.buildSettlement reason)] := by
  have hgoing : (inst.state = .finished || inst.state = .closed : Bool) = false := by
    cases hst : inst.state with
    | creating | waitingPlayers | running | finishing => rfl
    | finished | closed => simp [BattleInstance.active, hst] at hactive
  simp [finishInstance, hget, hgoing]

theorem lookup_tickInstance_ne (hne : other ≠ id) (frame : UInt32)
    (instances : Table BattleInstance) :
    (tickInstance id frame instances).1.lookup other = instances.lookup other := by
  unfold tickInstance
  cases instances.lookup id with
  | none => rfl
  | some =>
    dsimp only
    split
    · rfl
    · split
      · exact (lookup_finishInstance_ne hne _ _).trans (AList.lookup_insert_ne hne)
      · exact AList.lookup_insert_ne hne

/-- The battle goes on, or it ends and is settled. -/
inductive TickOutcome (id : Bytes) (inst : BattleInstance) (frame : UInt32)
    (result : Table BattleInstance × TickStats × List InstanceEvent) : Prop where
  | goesOn (inst' : BattleInstance) (snapshot : BattleSnapshot) :
      inst.endsAt frame = false → result.2.1.shouldFinish = false → inst'.Ready →
      result.1.lookup id = some inst' → result.2.2 = [.snapshotAvailable id snapshot] →
      TickOutcome id inst frame result
  | ends (snapshot : BattleSnapshot) (settlement : BattleResultSummary) :
      inst.endsAt frame = true → result.2.1.shouldFinish = true →
      result.2.2 = [.snapshotAvailable id snapshot, .instanceFinished id settlement] →
      TickOutcome id inst frame result

theorem tickInstance_ready (hget : instances.lookup id = some inst) (hready : inst.Ready)
    (frame : UInt32) : TickOutcome id inst frame (tickInstance id frame instances) := by
  obtain ⟨hfinish, hworld⟩ := onTick_running frame hready.running
  rw [hready.maxFrames] at hfinish
  have hstats : ((onTick frame inst.world).2.limit frame inst.maxFrames).shouldFinish =
      inst.endsAt frame := by
    unfold TickStats.limit
    cases hlim : (0 < inst.maxFrames && inst.maxFrames ≤ frame : Bool) with
    | true | false => simp [BattleInstance.endsAt, hlim, hfinish]
  set ticked : BattleInstance :=
    { inst with state := .running, currentFrame := frame, world := (onTick frame inst.world).1 }
    with hticked
  cases hends : inst.endsAt frame with
  | false =>
    rw [hends] at hstats
    obtain ⟨hrun, hmax⟩ := hworld (hfinish.trans hends)
    refine .goesOn ticked (onTick frame inst.world).1.buildSnapshot hends ?_
      ⟨rfl, hrun, hmax.trans hready.maxFrames⟩ ?_ ?_ <;>
      simp [tickInstance, hget, hready.active, hstats, hticked]
  | true =>
    rw [hends] at hstats
    have hevents := finishInstance_active
      (AList.lookup_insert (a := id) (b := ticked) instances) rfl
      ((onTick frame inst.world).2.limit frame inst.maxFrames).finishReason
    refine .ends (onTick frame inst.world).1.buildSnapshot (ticked.buildSettlement
      ((onTick frame inst.world).2.limit frame inst.maxFrames).finishReason) hends ?_ ?_
    · simp [tickInstance, hget, hready.active, hstats]
    · simp only [tickInstance, hget, hready.active, Bool.not_true, Bool.false_eq_true,
        if_false, hstats, if_true]
      rw [hevents]

/-! ## The steps of a handler -/

@[simp]
theorem absorb_instances (s : BattleBackend) (instances : Table BattleInstance)
    (events : List InstanceEvent) : (s.absorb instances events).instances = instances := by
  have hkeep : ∀ (events : List InstanceEvent) (t : BattleBackend),
      (events.foldl capture t).instances = t.instances := by
    intro events
    induction events with
    | nil => exact fun _ => rfl
    | cons event rest ih =>
      intro t
      rw [foldl_cons, ih]
      cases event <;> rfl
  exact hkeep events _

@[simp]
theorem takeSnapshot_instances (s : BattleBackend) (battleId : Bytes) (pickup : Option Bytes) :
    (s.takeSnapshot battleId pickup).1.instances = s.instances := by
  unfold takeSnapshot
  split <;> rfl

@[simp]
theorem takeSnapshot_settlements (s : BattleBackend) (battleId : Bytes) (pickup : Option Bytes) :
    (s.takeSnapshot battleId pickup).1.settlements = s.settlements := by
  unfold takeSnapshot
  split <;> rfl

theorem absorb_settlement (s : BattleBackend) (instances : Table BattleInstance) (id : Bytes)
    (snapshots : List InstanceEvent) (settlement : BattleResultSummary) :
    (s.absorb instances (snapshots ++ [.instanceFinished id settlement])).settlements.lookup id =
      some settlement := by simp [absorb, capture]

/-! ## Notifications -/

def BattleBackend.live (s : BattleBackend) (battleId : Bytes) : Bool :=
  (s.instances.lookup battleId).isSome

def BattlePush.finishes (battleId : Bytes) : BattlePush → Option FinishedPush
  | .battleFinished push => if push.battleId = battleId then some push else none
  | _ => none

def BattleReply.finishedPushes (reply : BattleReply) (battleId : Bytes) : List FinishedPush :=
  reply.pushes.filterMap (BattlePush.finishes battleId)

def BattleReply.creates (battleId : Bytes) : BattleReply → Bool
  | .created id _ _ _ => id = battleId
  | _ => false

def BattleReply.announces (battleId : Bytes) (reply : BattleReply) : Bool :=
  !(reply.finishedPushes battleId).isEmpty

def InstanceEvent.settles (battleId : Bytes) : InstanceEvent → Option BattleResultSummary
  | .instanceFinished id settlement => if id = battleId then some settlement else none
  | _ => none

/-- One push with the scores of the settlement if the request ends the battle, else none. -/
def Notifies (battleId : Bytes) (s : BattleBackend) (h : Handled) : Prop :=
  if s.live battleId && !h.service.live battleId then
    ∃ push settlement, h.reply.finishedPushes battleId = [push] ∧
      h.events.filterMap (InstanceEvent.settles battleId) = [settlement] ∧
      push.scores = some settlement.scores
  else h.reply.finishedPushes battleId = []

theorem notifies_iff_of_quiet (hquiet : h.reply.finishedPushes battleId = []) :
    Notifies battleId s h ↔ (s.live battleId = true → h.service.live battleId = true) := by
  unfold Notifies
  cases hpre : s.live battleId <;> cases hafter : h.service.live battleId <;> simp [hquiet]

theorem Notifies.announces (hnotified : Notifies battleId s h) :
    h.reply.announces battleId = (s.live battleId && !h.service.live battleId) := by
  unfold Notifies at hnotified
  split at hnotified
  case isTrue hends =>
    obtain ⟨push, -, hpush, -⟩ := hnotified
    simp [BattleReply.announces, hpush, hends]
  case isFalse hstays => simp [BattleReply.announces, hnotified, hstays]

theorem notifies_of_others
    (hsame : h.service.instances.lookup battleId = s.instances.lookup battleId)
    (hquiet : h.reply.finishedPushes battleId = []) : Notifies battleId s h := by
  refine (notifies_iff_of_quiet hquiet).mpr fun hlive => ?_
  unfold live
  rw [hsame]
  exact hlive

theorem withSettlement_battleId (push : FinishedPush) (sett : Option BattleResultSummary) :
    (push.withSettlement sett).battleId = push.battleId := by cases sett <;> rfl

theorem notifies_of_settled {sett : BattleResultSummary} (hlive : s.live battleId = true)
    (hends : h.service.live battleId = false)
    (hpush : (h.reply.finishedPushes battleId).map (·.scores) = [some sett.scores])
    (hevents : h.events.filterMap (InstanceEvent.settles battleId) = [sett]) :
    Notifies battleId s h := by
  unfold Notifies
  rw [hlive, hends]
  obtain ⟨push, hrep, hscores⟩ := map_eq_singleton_iff.mp hpush
  exact ⟨push, sett, hrep, hevents, hscores⟩

theorem live_release (s : BattleBackend) (battleId : Bytes) :
    (s.release battleId).live battleId = false := by simp [live, release]

/-! ## Handlers -/

/-- A battle is created under a new id, or nothing happens. -/
theorem handleBattleCreate_cases (spawns : Spawns) (id roomId : Bytes) (players : List Bytes)
    (frames : UInt32) (s : BattleBackend) :
    let h := handleBattleCreate spawns id roomId players frames s
    (h.service = s ∧ ∃ errorCode detailCode reason, h.reply = .error errorCode detailCode reason) ∨
      (s.live id = false ∧
        h.reply = .created id roomId players [.battleStarted id roomId players] ∧
        ∃ inst : BattleInstance, id ≠ [] ∧ inst.Ready ∧
          h.service.instances = s.instances.insert id inst) := by
  intro h
  simp only [h, handleBattleCreate]
  split
  case isTrue => exact .inl ⟨rfl, _, _, _, rfl⟩
  case isFalse hfields =>
    split
    case isTrue => exact .inl ⟨rfl, _, _, _, rfl⟩
    case isFalse =>
      cases hcreates : createInstance spawns id roomId players frames s.instances with
      | none => exact .inl ⟨rfl, _, _, _, rfl⟩
      | some =>
        unfold createInstance at hcreates
        split at hcreates
        case isTrue => cases hcreates
        case isFalse hknown =>
          split at hcreates
          case isTrue => cases hcreates
          case isFalse =>
            cases hcreates
            refine .inr ⟨by simpa [live] using hknown, rfl, _, ?_, ⟨?_, rfl, rfl⟩, rfl⟩
            · rintro rfl
              exact hfields rfl
            · rfl

/-- The other battles stay, and one that is left is ready. -/
structure Touches (id : Bytes) (s : BattleBackend) (h : Handled) : Prop where
  others : ∀ other, other ≠ id → h.service.instances.lookup other = s.instances.lookup other
  quiet : ∀ other, other ≠ id → h.reply.finishedPushes other = []
  creates : ∀ other, h.reply.creates other = false
  ready : ∀ inst, h.service.instances.lookup id = some inst → s.live id = true ∧ inst.Ready

theorem live_of_lookup (h : s.instances.lookup id = some inst) : s.live id = true := by
  simp [live, h]

theorem Touches.notifies_iff {P : Prop} (h' : Touches id s h) (hown : Notifies id s h ↔ P) :
    Notifies battleId s h ↔ (id = battleId → P) := by
  by_cases hsame : id = battleId
  · subst hsame
    exact hown.trans ⟨fun hp _ => hp, fun hp => hp rfl⟩
  · exact iff_of_true (notifies_of_others (h'.others battleId (Ne.symm hsame))
      (h'.quiet battleId (Ne.symm hsame))) fun heq => absurd heq hsame

theorem handleBattleFinish_touches (id : Bytes) (hasReason : Bool) :
    Touches id s (handleBattleFinish id hasReason s) := by
  refine ⟨fun other hne => ?_, fun other hne => ?_, fun _ => rfl, ?_⟩
  · simp [handleBattleFinish, release, consumeSettlement,
      AList.lookup_erase_ne hne, lookup_finishInstance_ne hne]
  · simp [handleBattleFinish, finishedPushes, pushes, BattlePush.finishes,
      withSettlement_battleId, Ne.symm hne]
  · simp [handleBattleFinish, release]

theorem touches_of_ready (hlive : s.live id = true) (hready : inst.Ready)
    (hthere : h.service.instances.lookup id = some inst)
    (hothers : ∀ other, other ≠ id → h.service.instances.lookup other = s.instances.lookup other)
    (hquiet : ∀ other, h.reply.finishedPushes other = [])
    (hcreates : ∀ other, h.reply.creates other = false) : Touches id s h ∧ Notifies id s h := by
  refine ⟨⟨hothers, fun other _ => hquiet other, hcreates, fun res hres => ⟨hlive, ?_⟩⟩,
    (notifies_iff_of_quiet (hquiet id)).mpr fun _ => live_of_lookup hthere⟩
  exact Option.some.inj (hthere.symm.trans hres) ▸ hready

variable (spawns : Spawns) (hsound : Sound s.instances)

include hsound

theorem touches_of_same {reply : BattleReply} {events : List InstanceEvent}
    (hquiet : ∀ other, reply.finishedPushes other = [])
    (hcreates : ∀ other, reply.creates other = false) :
    Touches id s { service := s, reply, events } ∧ Notifies id s { service := s, reply, events } :=
  ⟨⟨fun _ _ => rfl, fun other _ => hquiet other, hcreates,
    fun inst hget => ⟨live_of_lookup hget, (hsound id inst hget).2⟩⟩,
    notifies_of_others rfl (hquiet id)⟩

/-- An input that ends the battle is answered with its settlement. -/
theorem handleBattleInput_spec (userId id inputData : Bytes) (score : Int64)
    (submittedFrame : UInt32) :
    Touches id s (handleBattleInput userId id inputData score submittedFrame s) ∧
      Notifies id s (handleBattleInput userId id inputData score submittedFrame s) := by
  cases hget : s.instances.lookup id with
  | none =>
    simp only [handleBattleInput, hget, isNone_none, if_true]
    exact touches_of_same hsound (fun _ => rfl) fun _ => rfl
  | some inst =>
    have hlive := live_of_lookup hget
    obtain ⟨inst', hready, hinput⟩ := processInputImmediate_ready userId inputData score
      submittedFrame hget (hsound id inst hget).2
    have hinputs (other : Bytes) (hne : other ≠ id) := lookup_processInputImmediate_ne userId
      inputData score submittedFrame s.instances hne
    simp only [handleBattleInput, hget, isNone_some, Bool.false_eq_true, if_false]
    generalize processInputImmediate id userId inputData score submittedFrame s.instances = result
      at hinput hinputs ⊢
    have hticks (other : Bytes) (hne : other ≠ id) :=
      (lookup_tickInstance_ne hne (s.instanceFrame id + 1) result.1).trans (hinputs other hne)
    split
    case isTrue => exact touches_of_ready hlive hready hinput hinputs (fun _ => rfl) fun _ => rfl
    case isFalse =>
      cases tickInstance_ready hinput hready (s.instanceFrame id + 1) with
      | goesOn inst'' snapshot _ hgoes hready' hthere =>
        simp only [hgoes, Bool.false_eq_true, if_false]
        exact touches_of_ready hlive hready' (by simpa using hthere) (by simpa using hticks)
          (fun _ => rfl) fun _ => rfl
      | ends snapshot settlement _ hends hevents =>
        simp only [hends, if_true]
        have hset : (tickInstance id (s.instanceFrame id + 1) result.1).2.2.filterMap
            (InstanceEvent.settles id) = [settlement] := by
          simp [hevents, filterMap_cons, InstanceEvent.settles]
        refine ⟨⟨fun other hne => ?_, fun other hne => ?_, fun _ => rfl, ?_⟩,
          notifies_of_settled hlive (live_release _ _) ?_ hset⟩
        · simp [release, consumeSettlement, AList.lookup_erase_ne hne, hticks other hne]
        · simp [finishedPushes, pushes, BattlePush.finishes, withSettlement_battleId, Ne.symm hne]
        · simp [release]
        · have hcons := absorb_settlement s (tickInstance id (s.instanceFrame id + 1)
            result.1).1 id [.snapshotAvailable id snapshot] settlement
          rw [singleton_append, ← hevents] at hcons
          simp only [finishedPushes, pushes, filterMap_cons, filterMap_nil, BattlePush.finishes,
            withSettlement_battleId, if_true, consumeSettlement, takeSnapshot_settlements, hcons]
          rfl

/-- A query must not end the battle, as it is answered alike. -/
theorem handleBattleState_spec (id : Bytes) (nowMs : Int) :
    Touches id s (handleBattleState id nowMs s) ∧ (Notifies id s (handleBattleState id nowMs s) ↔
      ∀ inst, s.instances.lookup id = some inst → s.dueForTick id nowMs = true →
        inst.endsAt (s.instanceFrame id + 1) = false) := by
  cases hget : s.instances.lookup id with
  | none =>
    refine And.imp_right (iff_of_true · nofun) ?_
    simp only [handleBattleState, hget, isNone_none, if_true]
    split
    · exact touches_of_same hsound (fun _ => rfl) fun _ => rfl
    · split <;> exact touches_of_same hsound (fun _ => rfl) fun _ => rfl
  | some inst =>
    have hlive := live_of_lookup hget
    obtain ⟨hid, hready⟩ := hsound id inst hget
    have hnamed : List.isEmpty id = false := by simpa using hid
    have hticks (other : Bytes) (hne : other ≠ id) :=
      lookup_tickInstance_ne hne (s.instanceFrame id + 1) s.instances
    simp only [handleBattleState, hnamed, hget, isNone_some, Bool.false_eq_true,
      if_false, Option.some.injEq, forall_eq']
    cases hdue : s.dueForTick id nowMs with
    | false =>
      refine And.imp_right (iff_of_true · nofun) ?_
      exact touches_of_same hsound (fun _ => rfl) fun _ => rfl
    | true =>
      simp only [Bool.not_true, Bool.false_eq_true, if_false, true_implies]
      cases tickInstance_ready hget hready (s.instanceFrame id + 1) with
      | goesOn inst' snapshot hgoes hstats hready' hthere =>
        simp only [hstats, Bool.false_eq_true, if_false]
        refine And.imp_right (iff_of_true · hgoes) ?_
        exact touches_of_ready hlive hready' (by simpa using hthere) (by simpa using hticks)
          (fun _ => rfl) fun _ => rfl
      | ends snapshot sett hends hstats =>
        simp only [hstats, if_true]
        refine ⟨⟨fun other hne => ?_, fun _ _ => rfl, fun _ => rfl, ?_⟩, ?_⟩
        · simp [release, consumeSettlement, AList.lookup_erase_ne hne, hticks other hne]
        · simp [release]
        · rw [notifies_iff_of_quiet rfl, live_release, hends]
          simp [hlive]

theorem handle_touches (nowMs : Int) (req : BattleRequest) :
    (∃ id roomId players frames, req = .create id roomId players frames) ∨
      ∃ id, Touches id s (s.handle spawns nowMs req) := by
  cases req with
  | create id roomId players frames => exact .inl ⟨id, roomId, players, frames, rfl⟩
  | input userId id inputData score submittedFrame =>
    exact .inr ⟨id, (handleBattleInput_spec hsound userId id inputData score submittedFrame).1⟩
  | state id => exact .inr ⟨id, (handleBattleState_spec hsound id nowMs).1⟩
  | finish userId id hasReason => exact .inr ⟨id, handleBattleFinish_touches id hasReason⟩
  | unreadable throws =>
    refine .inr ⟨[], (touches_of_same hsound (fun _ => ?_) fun _ => ?_).1⟩ <;> cases throws <;> rfl

/-- A request to finish is right if there is a battle. -/
theorem handleBattleFinish_notifies_iff (id : Bytes) (hasReason : Bool) :
    Notifies id s (handleBattleFinish id hasReason s) ↔ s.live id = true := by
  refine ⟨fun hnotified => ?_, fun hlive => ?_⟩
  · have hannounces : (handleBattleFinish id hasReason s).reply.announces id = true := by
      simp [handleBattleFinish, BattleReply.announces, finishedPushes,
        pushes, BattlePush.finishes, withSettlement_battleId]
    exact (Bool.and_eq_true_iff.mp (hnotified.announces.symm.trans hannounces)).1
  · obtain ⟨inst, hget⟩ := isSome_iff_exists.mp hlive
    have hevents := finishInstance_active hget (hsound id inst hget).2.active .userRequested
    have hcons := absorb_settlement s (finishInstance id .userRequested s.instances).1 id []
      (inst.buildSettlement .userRequested)
    rw [nil_append, ← hevents] at hcons
    refine notifies_of_settled hlive (live_release _ _)
      (?_ : _ = [some (inst.buildSettlement .userRequested).scores]) ?_
    · simp only [handleBattleFinish, finishedPushes, pushes, filterMap_cons, filterMap_nil,
        BattlePush.finishes, withSettlement_battleId, if_true, consumeSettlement, hcons]
      rfl
    · simp [handleBattleFinish, hevents, InstanceEvent.settles]

/-! ## Soundness -/

theorem handleBattleCreate_sound (id roomId : Bytes) (players : List Bytes) (frames : UInt32) :
    Sound (handleBattleCreate spawns id roomId players frames s).service.instances := by
  rcases handleBattleCreate_cases spawns id roomId players frames s with
    ⟨hsame, -⟩ | ⟨-, -, inst, hid, hready, hinserted⟩
  · rw [hsame]
    exact hsound
  · rw [hinserted]
    refine hsound.of_updated (fun other hne => AList.lookup_insert_ne hne) fun inst' hget => ?_
    rw [AList.lookup_insert] at hget
    exact ⟨hid, Option.some.inj hget ▸ hready⟩

theorem handle_sound (nowMs : Int) (req : BattleRequest) :
    Sound (s.handle spawns nowMs req).service.instances := by
  rcases handle_touches spawns hsound nowMs req with ⟨id, roomId, playerIds, maxFrames, rfl⟩ |
    ⟨id, h⟩
  · exact handleBattleCreate_sound spawns hsound id roomId playerIds maxFrames
  · refine hsound.of_updated h.others fun inst hget => ?_
    obtain ⟨hlive, hready⟩ := h.ready inst hget
    obtain ⟨before, hpre⟩ := isSome_iff_exists.mp hlive
    exact ⟨(hsound id before hpre).1, hready⟩

/-! ## One request -/

/-- No query ends the battle, and a finish finds it. -/
def BattleBackend.InTime (battleId : Bytes) (s : BattleBackend) (nowMs : Int) : BattleRequest → Prop
  | .state id => id = battleId → ∀ inst, s.instances.lookup id = some inst →
      s.dueForTick id nowMs = true → inst.endsAt (s.instanceFrame id + 1) = false
  | .finish _ id _ => id = battleId → s.live id = true
  | _ => True

theorem handle_notifies_iff (nowMs : Int) (battleId : Bytes) (request : BattleRequest) :
    Notifies battleId s (s.handle spawns nowMs request) ↔ s.InTime battleId nowMs request := by
  cases request with
  | create id roomId playerIds maxFrames =>
    refine iff_of_true ?_ trivial
    rcases handleBattleCreate_cases spawns id roomId playerIds maxFrames s with
      ⟨hsame, _, _, _, hrep⟩ | ⟨hnew, hrep, inst, -, -, hinserted⟩
    · exact notifies_of_others (congrArg (·.instances.lookup battleId) hsame)
        (congrArg (·.finishedPushes battleId) hrep)
    · refine (notifies_iff_of_quiet (congrArg (·.finishedPushes battleId) hrep)).mpr fun hlive => ?_
      have hne : battleId ≠ id := by
        rintro rfl
        rw [hnew] at hlive
        cases hlive
      have hkept : (s.instances.insert id inst).lookup battleId = s.instances.lookup battleId :=
        AList.lookup_insert_ne hne
      show ((handleBattleCreate spawns id roomId playerIds maxFrames
        s).service.instances.lookup battleId).isSome = true
      rw [hinserted, hkept]
      exact hlive
  | input userId id inputData score submittedFrame =>
    obtain ⟨htouches, hnotified⟩ :=
      handleBattleInput_spec hsound userId id inputData score submittedFrame
    exact (htouches.notifies_iff (iff_of_true hnotified trivial)).trans (imp_true_iff _)
  | state id =>
    obtain ⟨htouches, hnotified⟩ := handleBattleState_spec hsound id nowMs
    exact htouches.notifies_iff hnotified
  | finish userId id hasReason =>
    exact (handleBattleFinish_touches id hasReason).notifies_iff
      (handleBattleFinish_notifies_iff hsound id hasReason)
  | unreadable throws =>
    refine iff_of_true (notifies_of_others rfl ?_) trivial
    cases throws <;> rfl

/-! ## Runs -/

structure TimedRequest where
  nowMs : Int
  request : BattleRequest

def BattleBackend.afterAll (spawns : Spawns) (s : BattleBackend) (requests : List TimedRequest) :
    BattleBackend :=
  requests.foldl (fun s next => (s.handle spawns next.nowMs next.request).service) s

def BattleBackend.replies (spawns : Spawns) : BattleBackend → List TimedRequest → List BattleReply
  | _, [] => []
  | s, next :: rest =>
    (s.handle spawns next.nowMs next.request).reply ::
      replies spawns (s.handle spawns next.nowMs next.request).service rest

/-- Every request of the run has the property. -/
def BattleBackend.Throughout (spawns : Spawns) (P : BattleBackend → TimedRequest → Prop) :
    BattleBackend → List TimedRequest → Prop
  | _, [] => True
  | s, next :: rest =>
    P s next ∧ Throughout spawns P (s.handle spawns next.nowMs next.request).service rest

theorem sound_afterAll (reqs : List TimedRequest) : Sound (s.afterAll spawns reqs).instances := by
  induction reqs generalizing s with
  | nil => exact hsound
  | cons next rest ih => exact ih (handle_sound spawns hsound next.nowMs next.request)

theorem throughout_congr {P Q : BattleBackend → TimedRequest → Prop}
    (h : ∀ s next, Sound s.instances → (P s next ↔ Q s next)) (requests : List TimedRequest) :
    s.Throughout spawns P requests ↔ s.Throughout spawns Q requests := by
  induction requests generalizing s with
  | nil => exact Iff.rfl
  | cons next rest ih =>
    exact and_congr (h s next hsound) (ih (handle_sound spawns hsound next.nowMs next.request))

theorem creates_iff (nowMs : Int) (battleId : Bytes) (req : BattleRequest) :
    (s.handle spawns nowMs req).reply.creates battleId = true ↔
      s.live battleId = false ∧ (s.handle spawns nowMs req).service.live battleId = true := by
  have hstays {h : Handled} (hrep : h.reply.creates battleId = false)
      (hlive : h.service.live battleId = true → s.live battleId = true) :
      h.reply.creates battleId = true ↔
        s.live battleId = false ∧ h.service.live battleId = true := by
    rw [hrep]
    refine iff_of_false (by simp) fun ⟨hpre, hafter⟩ => ?_
    rw [hlive hafter] at hpre
    cases hpre
  rcases handle_touches spawns hsound nowMs req with ⟨id, roomId, playerIds, maxFrames, rfl⟩ |
    ⟨id, h⟩
  · simp only [handle]
    rcases handleBattleCreate_cases spawns id roomId playerIds maxFrames s with
      ⟨hsame, _, _, _, hrep⟩ | ⟨hnew, hrep, inst, -, -, hinserted⟩
    · exact hstays (by rw [hrep]; rfl) (by rw [hsame]; exact fun h => h)
    · by_cases hid : id = battleId
      · subst hid
        rw [hrep]
        refine iff_of_true (decide_eq_true rfl) ⟨hnew, ?_⟩
        simp [live, hinserted]
      · refine hstays (by rw [hrep]; exact decide_eq_false hid) ?_
        rw [live, hinserted, AList.lookup_insert_ne (Ne.symm hid)]
        exact fun h => h
  · refine hstays (h.creates battleId) fun hlive => ?_
    by_cases hid : battleId = id
    · subst hid
      obtain ⟨inst, hget⟩ := isSome_iff_exists.mp hlive
      exact (h.ready inst hget).1
    · rwa [live, h.others battleId hid] at hlive

/-- Between creations, announcements count ends. -/
theorem announcements_between (battleId : Bytes) (reqs : List TimedRequest)
    (hnotified : s.Throughout spawns
      (fun s next => Notifies battleId s (s.handle spawns next.nowMs next.request)) reqs)
    (hnone : ∀ reply ∈ s.replies spawns reqs, reply.creates battleId = false) :
    (s.replies spawns reqs).countP (·.announces battleId) +
      ((s.afterAll spawns reqs).live battleId).toNat = (s.live battleId).toNat := by
  induction reqs generalizing s with
  | nil => simp [replies, afterAll]
  | cons next rest ih =>
    obtain ⟨hnow, hrest⟩ := hnotified
    obtain ⟨hrep, hreplies⟩ := forall_mem_cons.mp hnone
    have hlater := ih (handle_sound spawns hsound next.nowMs next.request) hrest hreplies
    set h := s.handle spawns next.nowMs next.request with hh
    have hstep : (h.reply.announces battleId).toNat + (h.service.live battleId).toNat =
        (s.live battleId).toNat := by
      have hcreates := creates_iff spawns hsound next.nowMs battleId next.request
      rw [← hh, hrep] at hcreates
      rw [hnow.announces]
      cases hpre : s.live battleId <;> cases hafter : h.service.live battleId
      case false.true => simp [hpre, hafter] at hcreates
      all_goals rfl
    have hcount : (s.replies spawns (next :: rest)).countP (·.announces battleId) =
        (h.service.replies spawns rest).countP (·.announces battleId) +
          (h.reply.announces battleId).toNat := by
      simp only [replies, countP_cons, ← hh]
      cases h.reply.announces battleId <;> rfl
    have hafterAll : s.afterAll spawns (next :: rest) = h.service.afterAll spawns rest := rfl
    rw [hcount, hafterAll]
    omega

omit hsound

theorem throughout_append (P : BattleBackend → TimedRequest → Prop) (s : BattleBackend)
    (requests requests' : List TimedRequest) :
    s.Throughout spawns P (requests ++ requests') ↔ s.Throughout spawns P requests ∧
      (s.afterAll spawns requests).Throughout spawns P requests' := by
  induction requests generalizing s with
  | nil => simp [Throughout, afterAll]
  | cons next rest ih => simp [Throughout, ih, afterAll, and_assoc]

theorem afterAll_append (s : BattleBackend) (requests requests' : List TimedRequest) :
    s.afterAll spawns (requests ++ requests') =
      (s.afterAll spawns requests).afterAll spawns requests' :=
  foldl_append

/-- Announced rightly throughout, so once between two creations. -/
structure NotifiesOnce (spawns : Spawns) (battleId : Bytes) (requests : List TimedRequest) :
    Prop where
  each : Throughout spawns
    (fun s next => Notifies battleId s (s.handle spawns next.nowMs next.request)) {} requests
  between : ∀ before created next rest, requests = before ++ created ++ next :: rest →
    (afterAll spawns {} before).live battleId = true →
    (∀ reply ∈ (afterAll spawns {} before).replies spawns created,
      reply.creates battleId = false) →
    ((afterAll spawns {} (before ++ created)).handle spawns next.nowMs
      next.request).reply.creates battleId = true →
    ((afterAll spawns {} before).replies spawns created).countP
      (·.announces battleId) = 1

/-- The end of each battle is announced exactly once, by the reply to the request that ended it and
with the scores of its settlement, and nothing else is announced, exactly if no query ends the
battle and every request to finish it finds it. -/
theorem notifies_once_iff (spawns : Spawns) (battleId : Bytes) (requests : List TimedRequest) :
    NotifiesOnce spawns battleId requests ↔ Throughout spawns
        (fun s next => s.InTime battleId next.nowMs next.request) {} requests := by
  have hempty : Sound ({} : BattleBackend).instances := by
    intro id inst hget
    cases hget
  rw [← throughout_congr spawns hempty (fun s next hsound =>
    handle_notifies_iff spawns hsound next.nowMs battleId next.request) requests]
  refine ⟨fun h => h.each, fun h => ⟨h, ?_⟩⟩
  rintro before created next rest rfl hlive hnone hcreation
  obtain ⟨hpre, -⟩ := (throughout_append spawns _ {} (before ++ created) _).mp h
  obtain ⟨-, hcreates⟩ := (throughout_append spawns _ {} before created).mp hpre
  have hcount := announcements_between spawns (sound_afterAll spawns hempty before) battleId
    created hcreates hnone
  obtain ⟨hdead, -⟩ :=
    (creates_iff spawns (sound_afterAll spawns hempty _) _ battleId _).mp hcreation
  rw [afterAll_append] at hdead
  rw [hlive, hdead] at hcount
  exact hcount

/-- Two players, and one of them ends the battle. -/
theorem notifies_once_finish : NotifiesOnce diagonalSpawns (ascii "b")
      [⟨1, .create (ascii "b") (ascii "r") [ascii "ann", ascii "bob"] 0⟩,
        ⟨2, .finish (ascii "ann") (ascii "b") false⟩] := by
  refine (notifies_once_iff diagonalSpawns (ascii "b") _).mpr ⟨trivial, fun _ => ?_, trivial⟩
  decide +kernel

/-- A battle of one frame ends in a query, and nobody hears of it. -/
theorem query_ends_battle_silently : ¬ NotifiesOnce diagonalSpawns (ascii "b")
      [⟨1, .create (ascii "b") (ascii "r") [ascii "ann", ascii "bob"] 1⟩,
        ⟨2, .state (ascii "b")⟩] := by
  intro h
  have hquiet : (handle diagonalSpawns 2 (handle diagonalSpawns 1 {}
        (.create (ascii "b") (ascii "r") [ascii "ann", ascii "bob"] 1)).service
      (.state (ascii "b"))).reply.finishedPushes (ascii "b") = [] := by decide +kernel
  have hlive := (notifies_iff_of_quiet hquiet).mp h.each.2.1 (by decide +kernel)
  exact absurd hlive (by decide +kernel)

example : (handle diagonalSpawns 1 {}
    (.finish (ascii "ann") (ascii "b") false)).reply.announces (ascii "b") = true := by
  decide +kernel

end BoostGateway.Battle
