import BoostGateway.Battle.WorldFrame
import Mathlib.Data.List.Induction
import Mathlib.Data.List.Nodup

/-!
# Safety of the battle world

What a tick may do to a participant, for arbitrary inputs. `tick_participants` composes what each
system does to a row of the participant table; the bounds on health, position, movement and
cooldown follow from it.
-/

namespace BoostGateway.Battle

open List Participant

def Participant.InField (p : Participant) : Prop :=
  0 ≤ p.x ∧ p.x ≤ maxPosition ∧ 0 ≤ p.y ∧ p.y ≤ maxPosition

def Participant.Healthy (p : Participant) : Prop := 0 ≤ p.hp ∧ p.hp ≤ p.maxHp

structure Stays (p q : Participant) : Prop where
  x : q.x = p.x
  y : q.y = p.y
  maxHp : q.maxHp = p.maxHp
  cooldownFrames : q.cooldownFrames = p.cooldownFrames
  healthy : p.Healthy → q.Healthy

structure Rests (p q : Participant) : Prop extends Stays p q where
  lastAttackFrame : q.lastAttackFrame = p.lastAttackFrame

theorem Stays.refl (p : Participant) : Stays p p := ⟨rfl, rfl, rfl, rfl, id⟩

variable {p q r : Participant} {frame : UInt32} {w : BattleWorld} {ticks : Nat}
  {record : List UInt32}

theorem Stays.trans (h : Stays p q) (h' : Stays q r) : Stays p r :=
  ⟨h'.x.trans h.x, h'.y.trans h.y, h'.maxHp.trans h.maxHp,
    h'.cooldownFrames.trans h.cooldownFrames, h'.healthy ∘ h.healthy⟩

theorem Rests.refl (p : Participant) : Rests p p := ⟨Stays.refl p, rfl⟩

theorem Rests.trans (h : Rests p q) (h' : Rests q r) : Rests p r :=
  ⟨h.toStays.trans h'.toStays, h'.lastAttackFrame.trans h.lastAttackFrame⟩

theorem Rests.of_eq (hx : q.x = p.x) (hy : q.y = p.y) (hhp : q.hp = p.hp) (hmax : q.maxHp = p.maxHp)
    (hc : q.cooldownFrames = p.cooldownFrames) (hl : q.lastAttackFrame = p.lastAttackFrame) :
    Rests p q := by
  refine ⟨⟨hx, hy, hmax, hc, fun h => ?_⟩, hl⟩
  simpa only [Healthy, hhp, hmax] using h

structure Moves (p q : Participant) : Prop where
  distance : |q.x - p.x| + |q.y - p.y| ≤ maxMoveDelta
  inField : p.InField → q.InField
  healthy : p.Healthy → q.Healthy
  cooldownFrames : q.cooldownFrames = p.cooldownFrames
  lastAttackFrame : q.lastAttackFrame = p.lastAttackFrame

theorem Rests.moves (h : Rests p q) : Moves p q := by
  refine ⟨?_, fun hp => ?_, h.healthy, h.cooldownFrames, h.lastAttackFrame⟩
  · simp [h.x, h.y, maxMoveDelta]
  · simpa only [InField, h.x, h.y] using hp

theorem Rests.trans_moves (h : Rests p q) (h' : Moves q r) : Moves p r := by
  refine ⟨?_, fun hp => h'.inField (h.moves.inField hp), h'.healthy ∘ h.healthy,
    h'.cooldownFrames.trans h.cooldownFrames, h'.lastAttackFrame.trans h.lastAttackFrame⟩
  simpa only [h.x, h.y] using h'.distance

/-! ## Inputs and movement -/

variable (p)

theorem readAttack_rests : Rests p p.readAttack := by
  unfold readAttack
  split <;> exact Rests.of_eq rfl rfl rfl rfl rfl rfl

theorem readMove_rests : Rests p p.readMove := by
  unfold readMove
  split <;> exact Rests.of_eq rfl rfl rfl rfl rfl rfl

theorem readFire_rests : Rests p p.readFire := by
  unfold readFire
  split <;> exact Rests.of_eq rfl rfl rfl rfl rfl rfl

theorem readInput_rests : Rests p p.readInput := by
  unfold readInput
  split
  · exact Rests.refl p
  · have h := ((readAttack_rests p).trans (readMove_rests _)).trans (readFire_rests _)
    exact h.trans (Rests.of_eq rfl rfl rfl rfl rfl rfl)

theorem move_moves : Moves p p.move := by
  unfold move
  split_ifs with hidle hout hfast
  case pos => exact (Rests.refl p).moves
  case pos => exact Rests.moves (Rests.of_eq rfl rfl rfl rfl rfl rfl)
  case pos => exact Rests.moves (Rests.of_eq rfl rfl rfl rfl rfl rfl)
  case neg =>
    -- the target passed both checks of the movement system
    have htarget : 0 ≤ p.pendingMoveX ∧ p.pendingMoveX ≤ maxPosition ∧
        0 ≤ p.pendingMoveY ∧ p.pendingMoveY ≤ maxPosition := by
      simp only [not_or, not_lt] at hout
      exact ⟨hout.1, hout.2.1, hout.2.2.1, hout.2.2.2⟩
    exact ⟨not_lt.mp hfast, fun _ => htarget, id, rfl, rfl⟩

/-! ## Combat -/

structure Fights (frame : UInt32) (p q : Participant) : Prop extends Stays p q where
  lastAttackFrame : q.lastAttackFrame = p.lastAttackFrame ∨
    q.lastAttackFrame = frame ∧ p.cooledDown frame

theorem hurt_rests {damage : Int} (hdamage : 0 ≤ damage) : Rests p (p.hurt damage) := by
  refine ⟨⟨rfl, rfl, rfl, rfl, fun h => ?_⟩, rfl⟩
  simp only [Healthy, hurt] at h ⊢
  omega

theorem fire_cases (frame : UInt32) :
    (p.fire frame).2 = none ∧ Rests p (p.fire frame).1 ∨
      (p.fire frame).2.isSome ∧ p.cooledDown frame ∧ Stays p (p.fire frame).1 ∧
        (p.fire frame).1.lastAttackFrame = frame := by
  unfold fire
  split_ifs with hpend hcool
  case pos => exact .inr ⟨rfl, hcool, ⟨rfl, rfl, rfl, rfl, id⟩, rfl⟩
  case neg => exact .inl ⟨rfl, Rests.of_eq rfl rfl rfl rfl rfl rfl⟩
  case neg => exact .inl ⟨rfl, Rests.refl p⟩

theorem aim_cases (frame : UInt32) :
    Rests p (p.aim frame).1 ∧ ((p.aim frame).2.isSome → p.cooledDown frame) := by
  unfold aim
  split_ifs with hidle hlim hcool
  case pos => exact ⟨Rests.refl p, by simp⟩
  case pos => exact ⟨Rests.of_eq rfl rfl rfl rfl rfl rfl, by simp⟩
  case pos => exact ⟨Rests.of_eq rfl rfl rfl rfl rfl rfl, by simp⟩
  case neg =>
    refine ⟨Rests.of_eq rfl rfl rfl rfl rfl rfl, fun _ => ?_⟩
    simp only [cooledDown, Bool.or_eq_true, beq_iff_eq, decide_eq_true_eq]
    rw [not_and_or] at hcool
    rcases hcool with hzero | hlong
    · exact .inl (by simpa [UInt32.pos_iff_ne_zero] using hzero)
    · exact .inr (UInt32.not_lt.mp hlong)

/-- Who shoots does not attack as well. -/
theorem engage_cases (hframe : 0 < frame) (hcooldown : 0 < p.cooldownFrames) :
    Fights frame p (p.engage frame).participant ∧
      ((p.engage frame).shot.isSome → (p.engage frame).target = none ∧ p.cooledDown frame ∧
        (p.engage frame).participant.lastAttackFrame = frame) ∧
      ((p.engage frame).target.isSome → p.cooledDown frame) := by
  obtain ⟨haim, htarget⟩ := aim_cases (p.fire frame).1 frame
  rcases fire_cases p frame with ⟨hnone, hrest⟩ | ⟨hsome, hcool, hstay, hlast⟩
  · have hrests : Rests p (p.engage frame).participant := hrest.trans haim
    refine ⟨⟨hrests.toStays, .inl hrests.lastAttackFrame⟩, fun h => ?_, fun h => ?_⟩
    · simp [engage, hnone] at h
    · have hcool := htarget h
      simpa only [cooledDown, hrest.lastAttackFrame, hrest.cooldownFrames] using hcool
  · -- the shot has just started the cooldown, so the attack is dropped
    have hhot : ¬ (p.fire frame).1.cooledDown frame := by
      have hne : frame ≠ 0 := UInt32.pos_iff_ne_zero.mp hframe
      have hpos : ¬ p.cooldownFrames ≤ 0 := UInt32.not_le.mpr hcooldown
      simp [cooledDown, hlast, hstay.cooldownFrames, hne, hpos]
    have hnoTarget : (p.engage frame).target = none := by
      by_contra h
      exact hhot (htarget (Option.isSome_iff_ne_none.mpr h))
    have hlast' : (p.engage frame).participant.lastAttackFrame = frame :=
      haim.lastAttackFrame.trans hlast
    refine ⟨⟨hstay.trans haim.toStays, .inr ⟨hlast', hcool⟩⟩, fun _ => ⟨hnoTarget, hcool, hlast'⟩,
      fun h => ?_⟩
    simp [hnoTarget] at h

variable {p}

structure Resolves (frame : UInt32) (source : Nat) (landed : Bool) (i : Nat) (p q : Participant) :
    Prop extends Stays p q where
  lastAttackFrame :
    q.lastAttackFrame = if landed = true ∧ i = source then frame else p.lastAttackFrame

variable {intent : AttackIntent} {actions i : Nat} {calls : List WorldCall} {call : WorldCall}

theorem damage_of_lands {ps : List Participant} {source : Participant}
    (hsrc : ps[intent.source]? = some source) (hland : lands ps intent) :
    minDamage ≤ source.damage := by
  simp only [lands, hsrc, Bool.and_eq_true, decide_eq_true_eq] at hland
  exact hland.1.1

theorem resolveAttack_entrywise (frame : UInt32) (ps : List Participant) (intent : AttackIntent) :
    Entrywise (Resolves frame intent.source (lands ps intent)) ps
      (resolveAttack frame ps intent) := by
  have hmiss : lands ps intent = false →
      Entrywise (Resolves frame intent.source (lands ps intent)) ps ps := fun hmiss =>
    Entrywise.refl (fun i p => ⟨Stays.refl p, by simp [hmiss]⟩) ps
  cases hsrc : ps[intent.source]? with
  | none =>
    simp only [resolveAttack, hsrc]
    exact hmiss (by simp [lands, hsrc])
  | some source =>
    simp only [resolveAttack, hsrc]
    split
    case isTrue hland =>
      have hdamage : 0 ≤ source.damage := le_trans (by decide) (damage_of_lands hsrc hland)
      have hhurt := Entrywise.map (R := fun _ => Rests) (fun tgt =>
          if source.reaches intent.targetUserId tgt then tgt.hurt source.damage
          else tgt)
        (fun _ p => by
          split
          · exact hurt_rests p hdamage
          · exact Rests.refl p) ps
      refine hhurt.comp (Entrywise.modify (R := Resolves frame intent.source (lands ps intent))
        _ _ (fun i p => ?_) _) (fun i p q r hpq hqr => ?_)
      · by_cases hi : i = intent.source
        · exact ⟨by simpa [hi] using ⟨rfl, rfl, rfl, rfl, id⟩, by simp [hi, hland]⟩
        · exact ⟨by simpa [hi] using Stays.refl p, by simp [hi]⟩
      · refine ⟨hpq.toStays.trans hqr.toStays, ?_⟩
        rw [hqr.lastAttackFrame, hpq.lastAttackFrame]
    case isFalse hland => exact hmiss (by simpa using hland)

def landed (frame : UInt32) : List Participant → List AttackIntent → List AttackIntent
  | _, [] => []
  | ps, intent :: rest =>
    (if lands ps intent then [intent] else []) ++ landed frame (resolveAttack frame ps intent) rest

/-- Resolving attacks marks exactly those whose attack lands. -/
theorem resolveAttacks_entrywise (frame : UInt32) (intents : List AttackIntent)
    (ps : List Participant) :
    Entrywise (fun i p q => Stays p q ∧ q.lastAttackFrame =
        if i ∈ (landed frame ps intents).map (·.source) then frame else p.lastAttackFrame)
      ps (intents.foldl (resolveAttack frame) ps) := by
  induction intents generalizing ps with
  | nil => exact Entrywise.refl (fun i p => ⟨Stays.refl p, by simp [landed]⟩) ps
  | cons intent rest ih =>
    refine (resolveAttack_entrywise frame ps intent).comp (ih _) fun i p q r hpq hqr => ?_
    refine ⟨hpq.toStays.trans hqr.1, ?_⟩
    rw [hqr.2, hpq.lastAttackFrame]
    cases hland : lands ps intent with
    | true =>
      by_cases hi : i = intent.source
      · simp [landed, hland, hi]
      · simp [landed, hland, hi]
    | false => simp [landed, hland]

theorem landed_sublist (frame : UInt32) (intents : List AttackIntent) (ps : List Participant) :
    (landed frame ps intents).Sublist intents := by
  induction intents generalizing ps with
  | nil => exact List.Sublist.refl _
  | cons intent rest ih =>
    simp only [landed]
    split
    · exact (ih _).cons_cons intent
    · exact (ih _).cons intent

theorem attackIntents_sources (engaged : List Engagement) :
    ((attackIntents engaged).map (·.source)).Sublist (List.range engaged.length) := by
  have hsources : (attackIntents engaged).map (·.source) =
      (engaged.zipIdx.filter (·.1.target.isSome)).map (·.2) := by
    simp only [attackIntents, map_filterMap, ← filterMap_eq_filter, map_filterMap]
    refine filterMap_congr fun entry _ => ?_
    cases htarget : entry.1.target <;> simp [Option.guard, htarget]
  rw [hsources]
  have hrange : engaged.zipIdx.map (·.2) = List.range engaged.length := by
    simp [zipIdx_map_snd, range_eq_range']
  rw [← hrange]
  exact filter_sublist.map _

theorem target_of_mem_attackIntents {engaged : List Engagement}
    (h : intent ∈ attackIntents engaged) :
    ∃ e, engaged[intent.source]? = some e ∧ e.target = some intent.targetUserId := by
  simp only [attackIntents, mem_filterMap, Option.map_eq_some_iff] at h
  obtain ⟨⟨e, i⟩, hmem, target, htarget, rfl⟩ := h
  exact ⟨e, mem_zipIdx_iff_getElem?.mp hmem, htarget⟩

def effectiveActions (frame : UInt32) (ps : List Participant) (i : Nat) : Nat :=
  let engaged := ps.map (·.engage frame)
  ((engaged[i]?).bind (·.shot)).toList.length +
    ((landed frame (engaged.map (·.participant)) (attackIntents engaged)).map (·.source)).count i

structure Engages (frame : UInt32) (actions : Nat) (p q : Participant) : Prop
    extends Fights frame p q where
  once : actions ≤ 1
  marks : 0 < actions → p.cooledDown frame ∧ q.lastAttackFrame = frame

theorem combatSystem_entrywise (hframe : 0 < frame) (w : BattleWorld)
    (hcooldown : ∀ p ∈ w.participants, 0 < p.cooldownFrames) :
    Entrywise (fun i => Engages frame (effectiveActions frame w.participants i))
      w.participants (combatSystem frame w).participants := by
  have hresolve := resolveAttacks_entrywise frame
    (attackIntents (w.participants.map (·.engage frame)))
    ((w.participants.map (·.engage frame)).map (·.participant))
  refine ⟨by simpa [combatSystem] using hresolve.length_eq, fun i p q hp hq => ?_⟩
  set engaged := w.participants.map (·.engage frame) with hengaged
  have hei : engaged[i]? = some (p.engage frame) := by simp [hengaged, hp]
  have hpi : (engaged.map (·.participant))[i]? = some (p.engage frame).participant := by simp [hei]
  obtain ⟨hstay, hlast⟩ := hresolve.rel i _ q hpi hq
  obtain ⟨hfight, hshot, htarget⟩ := engage_cases p hframe (hcooldown p (mem_of_getElem? hp))
  set sources := (landed frame (engaged.map (·.participant)) (attackIntents engaged)).map (·.source)
    with hsources
  have hactions : effectiveActions frame w.participants i =
      (p.engage frame).shot.toList.length + sources.count i := by
    simp [effectiveActions, ← hengaged, hei, hsources]
  -- a landed attack of this participant comes from its own aim
  have haimed : i ∈ sources → (p.engage frame).target.isSome := by
    intro hi
    obtain ⟨intent, hintent, rfl⟩ := mem_map.mp hi
    obtain ⟨e, he, het⟩ := target_of_mem_attackIntents ((landed_sublist _ _ _).subset hintent)
    cases hei.symm.trans he
    simp [het]
  have hcount : sources.count i ≤ 1 := by
    have hnodup : sources.Nodup :=
      (((landed_sublist _ _ _).map _).trans (attackIntents_sources engaged)).nodup nodup_range
    exact nodup_iff_count_le_one.mp hnodup i
  by_cases hi : i ∈ sources
  · -- it attacks, so it did not shoot
    have hcool := htarget (haimed hi)
    have hnoShot : (p.engage frame).shot = none := by
      by_contra h
      have hnone := (hshot (Option.isSome_iff_ne_none.mpr h)).1
      have hsome := haimed hi
      simp [hnone] at hsome
    have hq : q.lastAttackFrame = frame := by simpa [hi] using hlast
    refine ⟨⟨hfight.toStays.trans hstay, .inr ⟨hq, hcool⟩⟩, ?_, fun _ => ⟨hcool, hq⟩⟩
    simpa [hactions, hnoShot] using hcount
  · have hzero : sources.count i = 0 := count_eq_zero.mpr hi
    have hq : q.lastAttackFrame = (p.engage frame).participant.lastAttackFrame := by
      simpa [hi] using hlast
    refine ⟨⟨hfight.toStays.trans hstay, ?_⟩, ?_, fun hpos => ?_⟩
    · rw [hq]
      exact hfight.lastAttackFrame
    · rw [hactions, hzero]
      cases (p.engage frame).shot <;> simp
    · have hsome : (p.engage frame).shot.isSome := by
        rw [hactions, hzero] at hpos
        cases hs : (p.engage frame).shot with
        | none => simp [hs] at hpos
        | some => rfl
      obtain ⟨-, hcool, hmark⟩ := hshot hsome
      exact ⟨hcool, hq.trans hmark⟩

/-! ## Projectiles -/

theorem fly_damage (proj : Projectile) (ps : List Participant) :
    (proj.fly ps).1.damage = proj.damage := by
  unfold Projectile.fly
  split <;> rfl

theorem flyAll_damage (projs : List Projectile) (hdamage : ∀ proj ∈ projs, 0 ≤ proj.damage)
    (ps : List Participant) : ∀ proj ∈ (flyAll projs ps).1, 0 ≤ proj.damage := by
  induction projs generalizing ps with
  | nil => simp [flyAll]
  | cons proj rest ih =>
    obtain ⟨hproj, hrest⟩ := forall_mem_cons.mp hdamage
    simp only [flyAll, forall_mem_cons]
    exact ⟨by simpa only [fly_damage] using hproj, ih hrest _⟩

/-! ## The tick -/

theorem lifecycleSystem_projectiles (w : BattleWorld) :
    (lifecycleSystem w).projectiles = w.projectiles ∨ (lifecycleSystem w).projectiles = [] := by
  unfold lifecycleSystem countOffline
  split
  · exact .inl rfl
  · exact .inr rfl
  · split_ifs <;> exact .inl rfl

def beforeCombat (frame : UInt32) (trigger : Bytes) (w : BattleWorld) : BattleWorld :=
  movementSystem (lifecycleSystem (inputSystem (clockSystem frame trigger w)))

theorem beforeCombat_entrywise (frame : UInt32) (trigger : Bytes) (w : BattleWorld) :
    Entrywise (fun _ => Moves) w.participants (beforeCombat frame trigger w).participants := by
  have hread := Entrywise.map (R := fun _ => Rests) (·.readInput) (fun _ => readInput_rests)
    w.participants
  have hmove := Entrywise.map (R := fun _ => Moves) (·.move) (fun _ => move_moves)
    (w.participants.map (·.readInput))
  have h := hread.comp hmove (T := fun _ => Moves) fun _ _ _ _ => Rests.trans_moves
  simpa [beforeCombat, movementSystem, inputSystem, clockSystem] using h

/-- What a tick does to the participant at a place. -/
structure Ticks (frame : UInt32) (actions : Nat) (p q : Participant) : Prop where
  distance : |q.x - p.x| + |q.y - p.y| ≤ maxMoveDelta
  inField : p.InField → q.InField
  healthy : p.Healthy → q.Healthy
  cooldownFrames : q.cooldownFrames = p.cooldownFrames
  lastAttackFrame : q.lastAttackFrame = p.lastAttackFrame ∨ q.lastAttackFrame = frame
  once : actions ≤ 1
  marks : 0 < actions → p.cooledDown frame ∧ q.lastAttackFrame = frame

theorem Ticks.of_moves_engages_rests {s : Participant} (hmove : Moves p q)
    (hfight : Engages frame actions q r) (hrest : Rests r s) : Ticks frame actions p s := by
  refine ⟨?_, fun hp => ?_, fun hp => hrest.healthy (hfight.healthy (hmove.healthy hp)),
    ?_, ?_, hfight.once, fun hpos => ?_⟩
  · simpa only [hrest.x, hrest.y, hfight.x, hfight.y] using hmove.distance
  · simpa only [InField, hrest.x, hrest.y, hfight.x, hfight.y] using hmove.inField hp
  · rw [hrest.cooldownFrames, hfight.cooldownFrames, hmove.cooldownFrames]
  · rw [hrest.lastAttackFrame, ← hmove.lastAttackFrame]
    exact hfight.lastAttackFrame.imp_right And.left
  · obtain ⟨hcool, hmark⟩ := hfight.marks hpos
    rw [cooledDown, hmove.lastAttackFrame, hmove.cooldownFrames] at hcool
    exact ⟨hcool, hrest.lastAttackFrame.trans hmark⟩

theorem shots_damage (frame : UInt32) (ps : List Participant) :
    ∀ proj ∈ (ps.map (·.engage frame)).filterMap (·.shot), 0 ≤ proj.damage := by
  intro proj hproj
  obtain ⟨e, he, hshot⟩ := mem_filterMap.mp hproj
  obtain ⟨p, -, rfl⟩ := mem_map.mp he
  simp only [engage, fire] at hshot
  split_ifs at hshot
  cases hshot
  show 0 ≤ projectileDamage
  decide

def BattleWorld.Armed (w : BattleWorld) : Prop := ∀ proj ∈ w.projectiles, 0 ≤ proj.damage

theorem combatSystem_armed (frame : UInt32) (trigger : Bytes) (h : w.Armed) :
    (combatSystem frame (beforeCombat frame trigger w)).Armed := by
  have hpre : (beforeCombat frame trigger w).Armed := by
    intro proj hproj
    have hproj' :
        proj ∈ (lifecycleSystem (inputSystem (clockSystem frame trigger w))).projectiles := hproj
    rcases lifecycleSystem_projectiles (inputSystem (clockSystem frame trigger w)) with
      hsame | hnone
    · rw [hsame] at hproj'
      exact h proj hproj'
    · simp [hnone] at hproj'
  intro proj hproj
  rcases mem_append.mp hproj with hold | hshot
  · exact hpre proj hold
  · exact shots_damage frame _ proj hshot

theorem tick_participants (hframe : 0 < frame) (trigger : Bytes) (harmed : w.Armed)
    (hcool : ∀ p ∈ w.participants, 0 < p.cooldownFrames) :
    Entrywise
      (fun i => Ticks frame (effectiveActions frame (beforeCombat frame trigger w).participants i))
      w.participants (tick frame trigger w).participants := by
  have hmove := beforeCombat_entrywise frame trigger w
  have hcool' := hmove.forall_mem (P := fun p => 0 < p.cooldownFrames)
    (fun _ p q hpq hp => by simpa only [hpq.cooldownFrames] using hp) hcool
  have hfight := combatSystem_entrywise hframe (beforeCombat frame trigger w) hcool'
  have hfly := flyAll_entrywise Rests.refl Rests.trans
    (fun _ _ => Rests.of_eq rfl rfl rfl rfl rfl rfl) _
    (fun proj hproj p => hurt_rests p (combatSystem_armed frame trigger harmed proj hproj))
    (combatSystem frame (beforeCombat frame trigger w)).participants
  refine (hmove.comp (T := fun i p r => ∃ q, Moves p q ∧
      Engages frame (effectiveActions frame (beforeCombat frame trigger w).participants i) q r)
    hfight fun i p q r hpq hqr => ⟨q, hpq, hqr⟩).comp hfly ?_
  rintro i p r s ⟨q, hpq, hqr⟩ hrs
  exact Ticks.of_moves_engages_rests hpq hqr hrs

theorem tick_armed (frame : UInt32) (trigger : Bytes) (h : w.Armed) :
    (tick frame trigger w).Armed :=
  flyAll_damage _ (combatSystem_armed frame trigger h) _

/-! ## Runs -/

def BattleWorld.actionsIn (w : BattleWorld) (i : Nat) : WorldCall → List UInt32
  | .advance frame trigger =>
    List.replicate (effectiveActions frame (beforeCombat frame trigger w).participants i) frame
  | _ => []

/-- The frames of the effective actions in a run. -/
def BattleWorld.actionFrames (i : Nat) : BattleWorld → List WorldCall → List UInt32
  | _, [] => []
  | w, call :: calls => w.actionsIn i call ++ actionFrames i (w.after call) calls

def frameNumbers (calls : List WorldCall) : List UInt32 := calls.filterMap fun
    | .advance frame _ => some frame
    | _ => none

/-- The ticks have the frame numbers 1, 2, 3 and so on. -/
def FramesInOrder (calls : List WorldCall) : Prop :=
  ∀ k frame, (frameNumbers calls)[k]? = some frame → frame.toNat = k + 1

theorem actionFrames_append (i : Nat) (w : BattleWorld) (calls calls' : List WorldCall) :
    w.actionFrames i (calls ++ calls') =
      w.actionFrames i calls ++ (w.afterAll calls).actionFrames i calls' := by
  induction calls generalizing w with
  | nil => rfl
  | cons call calls ih =>
    simp only [cons_append, BattleWorld.actionFrames, ih, append_assoc]
    rfl

/-- The participant is sound, and the record, a cooldown apart, ends by its last attack. -/
structure Participant.Sound (ticks : Nat) (record : List UInt32) (p : Participant) : Prop where
  healthy : p.Healthy
  inField : p.InField
  cooldownFrames : 0 < p.cooldownFrames
  upTo : p.lastAttackFrame.toNat ≤ ticks
  recorded : ∀ f ∈ record, 0 < f.toNat ∧ f.toNat ≤ p.lastAttackFrame.toNat
  apart : record.Pairwise fun f g => f.toNat + p.cooldownFrames.toNat ≤ g.toNat

theorem Participant.apart_of_cooledDown (hcool : p.cooledDown frame)
    (hpos : 0 < p.lastAttackFrame.toNat) (hle : p.lastAttackFrame.toNat ≤ frame.toNat) :
    p.lastAttackFrame.toNat + p.cooldownFrames.toNat ≤ frame.toNat := by
  have hne : p.lastAttackFrame ≠ 0 := by
    rintro hzero
    simp [hzero] at hpos
  have hlong : p.cooldownFrames ≤ frame - p.lastAttackFrame := by
    simpa [cooledDown, hne] using hcool
  -- the subtraction of the source does not wrap around here
  have hsub : (frame - p.lastAttackFrame).toNat = frame.toNat - p.lastAttackFrame.toNat :=
    UInt32.toNat_sub_of_le _ _ (UInt32.le_iff_toNat_le.mpr hle)
  have hlong' := UInt32.le_iff_toNat_le.mp hlong
  omega

theorem Participant.Sound.tick (hp : p.Sound ticks record) (hframe : frame.toNat = ticks + 1)
    (h : Ticks frame actions p q) :
    q.Sound (ticks + 1) (record ++ List.replicate actions frame) := by
  have hcooldown := h.cooldownFrames
  have hlater : p.lastAttackFrame.toNat ≤ q.lastAttackFrame.toNat ∧
      q.lastAttackFrame.toNat ≤ ticks + 1 := by
    have hle := hp.upTo
    rcases h.lastAttackFrame with hsame | hnow
    · rw [hsame]
      omega
    · rw [hnow]
      omega
  refine ⟨h.healthy hp.healthy, h.inField hp.inField, hcooldown ▸ hp.cooldownFrames, hlater.2,
    fun f hf => ?_, ?_⟩
  · rcases mem_append.mp hf with hold | hnew
    · have hrecord := hp.recorded f hold
      omega
    · obtain ⟨hne, rfl⟩ := mem_replicate.mp hnew
      have hmark := (h.marks (Nat.pos_of_ne_zero hne)).2
      rw [hmark]
      omega
  · have honce := h.once
    refine pairwise_append.mpr ⟨hcooldown ▸ hp.apart, ?_, fun f hf g hg => ?_⟩
    · exact pairwise_replicate.mpr (.inl (by omega))
    · obtain ⟨hne, rfl⟩ := mem_replicate.mp hg
      obtain ⟨hcool, -⟩ := h.marks (Nat.pos_of_ne_zero hne)
      have hrecord := hp.recorded f hf
      have hfar := apart_of_cooledDown hcool (by omega) (by omega)
      rw [hcooldown]
      omega

structure BattleWorld.Sound (i ticks : Nat) (record : List UInt32) (w : BattleWorld) : Prop where
  armed : w.Armed
  cooldownFrames : ∀ p ∈ w.participants, 0 < p.cooldownFrames
  participant : ∀ p, w.participants[i]? = some p → p.Sound ticks record

structure Idles (w w' : BattleWorld) : Prop where
  projectiles : w'.projectiles = w.projectiles
  participants : Entrywise (fun _ => Rests) w.participants w'.participants

theorem after_idles (w : BattleWorld) (call : WorldCall) (hcall : call.NoTick) :
    Idles w (w.after call) := by
  obtain ⟨hproj, hparticipants⟩ := after_idle w hcall
  refine ⟨hproj, hparticipants.imp fun _ p q hpq => ?_⟩
  exact Rests.of_eq hpq.x hpq.y hpq.hp hpq.maxHp hpq.cooldownFrames hpq.lastAttackFrame

theorem Participant.Sound.rests (hp : p.Sound ticks record) (h : Rests p q) :
    q.Sound ticks record :=
  ⟨h.healthy hp.healthy, h.moves.inField hp.inField, h.cooldownFrames ▸ hp.cooldownFrames,
    h.lastAttackFrame ▸ hp.upTo, h.lastAttackFrame ▸ hp.recorded, h.cooldownFrames ▸ hp.apart⟩

theorem BattleWorld.Sound.idles {w' : BattleWorld} (hw : w.Sound i ticks record) (h : Idles w w') :
    w'.Sound i ticks record := by
  refine ⟨?_, ?_, fun q hq => ?_⟩
  · simpa only [BattleWorld.Armed, h.projectiles] using hw.armed
  · exact h.participants.forall_mem (P := fun p => 0 < p.cooldownFrames)
      (fun _ p q hpq hp => hpq.cooldownFrames ▸ hp) hw.cooldownFrames
  · obtain ⟨p, hp, hpq⟩ := h.participants.exists_left hq
    exact (hw.participant p hp).rests hpq

theorem BattleWorld.Sound.advance (hw : w.Sound i ticks record) (hframe : frame.toNat = ticks + 1)
    (trigger : Bytes) :
    (w.after (.advance frame trigger)).Sound i (ticks + 1)
      (record ++ w.actionsIn i (.advance frame trigger)) := by
  have hpos : 0 < frame := UInt32.lt_iff_toNat_lt.mpr (by simp [hframe])
  have htick := tick_participants hpos trigger hw.armed hw.cooldownFrames
  refine ⟨tick_armed frame trigger hw.armed, ?_, fun q hq => ?_⟩
  · exact htick.forall_mem (P := fun p => 0 < p.cooldownFrames)
      (fun _ p q hpq hp => hpq.cooldownFrames ▸ hp) hw.cooldownFrames
  · obtain ⟨p, hp, hpq⟩ := htick.exists_left hq
    exact (hw.participant p hp).tick hframe hpq

theorem spawn_inField (spawns : Spawns) (battleId : Bytes) (index : Nat) :
    0 ≤ (spawns.position battleId index).1 ∧ (spawns.position battleId index).1 ≤ maxPosition ∧
      0 ≤ (spawns.position battleId index).2 ∧
      (spawns.position battleId index).2 ≤ maxPosition := by
  simp only [Spawns.position, maxPosition]
  omega

theorem createBattleWorld_sound (spawns : Spawns) (battleId roomId : Bytes)
    (players : List Bytes) (frames : UInt32) (i : Nat) :
    (createBattleWorld spawns battleId roomId players frames).Sound i 0 [] := by
  have hnew : ∀ p ∈ (createBattleWorld spawns battleId roomId players frames).participants,
      p.Sound 0 [] := by
    intro p hp
    obtain ⟨⟨userId, index⟩, -, rfl⟩ := mem_map.mp hp
    exact ⟨by simp [Healthy], spawn_inField spawns battleId index, by simp, by simp,
      by simp, List.Pairwise.nil⟩
  exact ⟨by simp [BattleWorld.Armed, createBattleWorld], fun p hp => (hnew p hp).cooldownFrames,
    fun p hp => hnew p (mem_of_getElem? hp)⟩

theorem frameNumbers_append (calls calls' : List WorldCall) :
    frameNumbers (calls ++ calls') = frameNumbers calls ++ frameNumbers calls' :=
  filterMap_append

theorem FramesInOrder.of_append {calls' : List WorldCall} (h : FramesInOrder (calls ++ calls')) :
    FramesInOrder calls := by
  intro k frame hk
  obtain ⟨hlt, -⟩ := List.getElem?_eq_some_iff.mp hk
  exact h k frame (by rw [frameNumbers_append, List.getElem?_append_left hlt, hk])

theorem FramesInOrder.next {trigger : Bytes}
    (h : FramesInOrder (calls ++ [.advance frame trigger])) :
    frame.toNat = (frameNumbers calls).length + 1 :=
  h _ frame (by simp [frameNumbers])

theorem frameNumbers_concat_of_noTick (h : call.NoTick) (calls : List WorldCall) :
    frameNumbers (calls ++ [call]) = frameNumbers calls := by
  cases call with
  | advance frame trigger => exact absurd rfl (h frame trigger)
  | input | inputAt | disconnect | reconnect | acknowledge => simp [frameNumbers]

theorem actionsIn_of_noTick (h : call.NoTick) (i : Nat) (w : BattleWorld) :
    w.actionsIn i call = [] := by
  cases call with
  | advance frame trigger => exact absurd rfl (h frame trigger)
  | input | inputAt | disconnect | reconnect | acknowledge => rfl

/-- Soundness along a run, by induction from its end. -/
theorem afterAll_sound (i : Nat) (hw : w.Sound i 0 []) (calls : List WorldCall)
    (h : FramesInOrder calls) :
    (w.afterAll calls).Sound i (frameNumbers calls).length (w.actionFrames i calls) := by
  induction calls using List.reverseRecOn with
  | nil => exact hw
  | append_singleton calls call ih =>
    have hcalls := ih h.of_append
    have hrec : w.actionFrames i (calls ++ [call]) =
        w.actionFrames i calls ++ (w.afterAll calls).actionsIn i call := by
      simp [actionFrames_append, BattleWorld.actionFrames]
    rw [BattleWorld.afterAll_concat, hrec]
    rcases call.noTick_or with hcall | ⟨frame, trigger, rfl⟩
    · rw [frameNumbers_concat_of_noTick hcall, actionsIn_of_noTick hcall, append_nil]
      exact hcalls.idles (after_idles _ call hcall)
    · have hlen : (frameNumbers (calls ++ [.advance frame trigger])).length =
          (frameNumbers calls).length + 1 := by simp [frameNumbers]
      rw [hlen]
      exact hcalls.advance h.next trigger

/-- If the ticks are numbered 1, 2, 3 and so on, every participant has after each tick its health in
range and its position on the field, has moved by at most `maxMoveDelta`, and its effective attacks
and shots are at least its cooldown apart. -/
theorem battle_world_safety (spawns : Spawns) (battleId roomId : Bytes) (playerIds : List Bytes)
    (maxFrames : UInt32) (calls : List WorldCall) (frame : UInt32) (trigger : Bytes)
    (hframes : FramesInOrder (calls ++ [.advance frame trigger])) (i : Nat) (q : Participant) :
    let created := createBattleWorld spawns battleId roomId playerIds maxFrames
    let before := created.afterAll calls
    let ticked := before.after (.advance frame trigger)
    ticked.participants[i]? = some q → (0 ≤ q.hp ∧ q.hp ≤ q.maxHp) ∧
      (0 ≤ q.x ∧ q.x ≤ 1000 ∧ 0 ≤ q.y ∧ q.y ≤ 1000) ∧
      (∃ p, before.participants[i]? = some p ∧ |q.x - p.x| + |q.y - p.y| ≤ 200) ∧
      (created.actionFrames i (calls ++ [.advance frame trigger])).Pairwise fun f g =>
        f.toNat + q.cooldownFrames.toNat ≤ g.toNat := by
  intro created before ticked hq
  have hcreates := createBattleWorld_sound spawns battleId roomId playerIds maxFrames i
  have hpre : before.Sound i _ _ := afterAll_sound i hcreates calls hframes.of_append
  have hticked := afterAll_sound i hcreates (calls ++ [.advance frame trigger]) hframes
  have hsound := hticked.participant q (by rw [BattleWorld.afterAll_concat]; exact hq)
  have hpos : 0 < frame := UInt32.lt_iff_toNat_lt.mpr (by simp [hframes.next])
  obtain ⟨p, hp, hpq⟩ :=
    (tick_participants hpos trigger hpre.armed hpre.cooldownFrames).exists_left hq
  exact ⟨hsound.healthy, hsound.inField, ⟨p, hp, hpq.distance⟩, hsound.apart⟩

/-- Two players; one comes near and shoots. -/
def duelCalls : List WorldCall :=
  [.input (ascii "ann") (ascii "move:70,60") 0 0, .advance 1 (ascii "tick"),
    .input (ascii "ann") (ascii "fire:1,0") 0 0]

theorem battle_world_safety_duel :
    ∃ q, (((createBattleWorld diagonalSpawns (ascii "b") (ascii "r") [ascii "ann", ascii "bob"]
        0).afterAll duelCalls).after (.advance 2 (ascii "tick"))).participants[0]? = some q ∧
      q.x = 70 ∧ q.lastAttackFrame = 2 ∧ 0 ≤ q.hp ∧ q.hp ≤ q.maxHp := by
  refine ⟨_, rfl, by decide +kernel, by decide +kernel, ?_⟩
  refine (battle_world_safety diagonalSpawns (ascii "b") (ascii "r") [ascii "ann", ascii "bob"] 0
    duelCalls 2 (ascii "tick") ?_ 0 _ rfl).1
  intro k frame hk
  match k with
  | 0 =>
    obtain rfl : 1 = frame := by simpa [frameNumbers, duelCalls] using hk
    rfl
  | 1 =>
    obtain rfl : 2 = frame := by simpa [frameNumbers, duelCalls] using hk
    rfl
  | k + 2 => simp [frameNumbers, duelCalls] at hk

end BoostGateway.Battle
