import BoostGateway.Battle.World
import BoostGateway.Entrywise

/-!
# What the calls of the world leave alone

Combat and projectiles change nothing of what `Keeps` lists, so up to health, score and cooldown a
tick does to a participant what reading its input and moving do (`tick_keeps`). The calls between
the ticks leave what `Idle` lists alone (`after_idle`).
-/

namespace BoostGateway.Battle

open Entrywise

structure Keeps (p q : Participant) : Prop where
  userId : q.userId = p.userId
  online : q.online = p.online
  x : q.x = p.x
  y : q.y = p.y
  hasPendingMove : q.hasPendingMove = p.hasPendingMove
  pendingInputData : q.pendingInputData = p.pendingInputData

variable (p : Participant)

theorem Keeps.refl : Keeps p p := ⟨rfl, rfl, rfl, rfl, rfl, rfl⟩

theorem Keeps.trans {p q r : Participant} (h : Keeps p q) (h' : Keeps q r) : Keeps p r :=
  ⟨h'.userId.trans h.userId, h'.online.trans h.online, h'.x.trans h.x, h'.y.trans h.y,
    h'.hasPendingMove.trans h.hasPendingMove, h'.pendingInputData.trans h.pendingInputData⟩

variable (frame : UInt32)

theorem fire_keeps : Keeps p (p.fire frame).1 := by
  unfold Participant.fire
  split_ifs <;> exact ⟨rfl, rfl, rfl, rfl, rfl, rfl⟩

theorem aim_keeps : Keeps p (p.aim frame).1 := by
  unfold Participant.aim
  split_ifs <;> exact ⟨rfl, rfl, rfl, rfl, rfl, rfl⟩

theorem engage_keeps : Keeps p (p.engage frame).participant :=
  (fire_keeps p frame).trans (aim_keeps _ frame)

theorem hurt_keeps (damage : Int) : Keeps p (p.hurt damage) := ⟨rfl, rfl, rfl, rfl, rfl, rfl⟩

theorem resolveAttack_keeps (ps : List Participant) (intent : AttackIntent) :
    Entrywise (fun _ => Keeps) ps (resolveAttack frame ps intent) := by
  unfold resolveAttack
  split
  · exact Entrywise.refl (fun _ => Keeps.refl) ps
  · split
    · refine (map (R := fun _ => Keeps) _ (fun _ p => ?_) ps).comp
        (modify (R := fun _ => Keeps) _ _ (fun _ p => ?_) _) fun _ _ _ _ => Keeps.trans
      · split
        · exact hurt_keeps p _
        · exact Keeps.refl p
      · split
        · exact ⟨rfl, rfl, rfl, rfl, rfl, rfl⟩
        · exact Keeps.refl p
    · exact Entrywise.refl (fun _ => Keeps.refl) ps

theorem combatSystem_keeps (w : BattleWorld) :
    Entrywise (fun _ => Keeps) w.participants (combatSystem frame w).participants := by
  have hengage := map (R := fun _ => Keeps) (fun p => (p.engage frame).participant)
    (fun _ p => engage_keeps p frame) w.participants
  have hresolve := foldl (R := fun _ => Keeps) (fun _ => Keeps.refl)
    (fun _ _ _ _ => Keeps.trans) (resolveAttack_keeps frame)
    (attackIntents (w.participants.map (·.engage frame)))
    (w.participants.map fun p => (p.engage frame).participant)
  have h := hengage.comp hresolve (T := fun _ => Keeps) fun _ _ _ _ => Keeps.trans
  simpa [combatSystem, Function.comp_def] using h

/-! ## Projectiles -/

section Flight

variable {R : Participant → Participant → Prop} (hrefl : ∀ p, R p p)
  (htrans : ∀ {p q r}, R p q → R q r → R p r) (hscore : ∀ p score, R p { p with score })

include hrefl

theorem strike_entrywise (proj : Projectile) (hhurt : ∀ p, R p (p.hurt proj.damage))
    (ps : List Participant) : Entrywise (fun _ => R) ps (proj.strike ps).1 := by
  induction ps with
  | nil => exact Entrywise.refl (fun _ => hrefl) []
  | cons p rest ih =>
    simp only [Projectile.strike]
    split
    · exact cons (hhurt p) (Entrywise.refl (fun _ => hrefl) rest)
    · exact cons (hrefl p) ih

include htrans hscore

theorem fly_entrywise (proj : Projectile) (hhurt : ∀ p, R p (p.hurt proj.damage))
    (ps : List Participant) : Entrywise (fun _ => R) ps (proj.fly ps).2 := by
  unfold Projectile.fly
  split
  · exact Entrywise.refl (fun _ => hrefl) ps
  · dsimp only
    split
    · refine (strike_entrywise hrefl _ (by exact hhurt) ps).comp
        (map (R := fun _ => R) _ (fun _ p => ?_) _) fun _ _ _ _ => htrans
      split
      · exact hscore p _
      · exact hrefl p
    · exact strike_entrywise hrefl _ (by exact hhurt) ps

theorem flyAll_entrywise (projs : List Projectile)
    (hhurt : ∀ proj ∈ projs, ∀ p, R p (p.hurt proj.damage)) (ps : List Participant) :
    Entrywise (fun _ => R) ps (flyAll projs ps).2 := by
  induction projs generalizing ps with
  | nil => exact Entrywise.refl (fun _ => hrefl) ps
  | cons proj rest ih =>
    obtain ⟨hproj, hrest⟩ := List.forall_mem_cons.mp hhurt
    exact (fly_entrywise hrefl htrans hscore proj hproj ps).comp (ih hrest _) fun _ _ _ _ => htrans

end Flight

@[simp]
theorem lifecycleSystem_participants (w : BattleWorld) :
    (lifecycleSystem w).participants = w.participants := by
  unfold lifecycleSystem countOffline
  split
  · rfl
  · rfl
  · split_ifs <;> rfl

/-- Up to combat, a tick only reads the input and moves. -/
theorem tick_keeps (trigger : Bytes) (w : BattleWorld) :
    Entrywise (fun _ p q => Keeps p.readInput.move q) w.participants
      (tick frame trigger w).participants := by
  have hmove := map (R := fun _ p q => q = p.readInput.move) (fun p => p.readInput.move)
    (fun _ _ => rfl) w.participants
  have hmoved : (movementSystem (lifecycleSystem (inputSystem
      (clockSystem frame trigger w)))).participants =
        w.participants.map fun p => p.readInput.move := by
    simp [movementSystem, inputSystem, clockSystem, Function.comp_def]
  rw [← hmoved] at hmove
  have hfly := flyAll_entrywise Keeps.refl Keeps.trans (fun _ _ => ⟨rfl, rfl, rfl, rfl, rfl, rfl⟩)
  refine (hmove.comp (combatSystem_keeps frame _) (T := fun _ p q => Keeps p.readInput.move q)
    ?_).comp (hfly _ (fun _ _ p => hurt_keeps p _) _) fun _ _ _ _ => Keeps.trans
  rintro _ p q r rfl hqr
  exact hqr

/-! ## Calls between ticks -/

def WorldCall.NoTick (call : WorldCall) : Prop := ∀ frame trigger, call ≠ .advance frame trigger

theorem WorldCall.noTick_or (call : WorldCall) :
    call.NoTick ∨ ∃ frame trigger, call = .advance frame trigger := by
  by_cases h : call.NoTick
  · exact .inl h
  · exact .inr (by simpa [WorldCall.NoTick] using h)

/-- What the calls between ticks leave alone. -/
structure Idle (p q : Participant) : Prop where
  userId : q.userId = p.userId
  x : q.x = p.x
  y : q.y = p.y
  hp : q.hp = p.hp
  maxHp : q.maxHp = p.maxHp
  cooldownFrames : q.cooldownFrames = p.cooldownFrames
  lastAttackFrame : q.lastAttackFrame = p.lastAttackFrame
  hasPendingMove : q.hasPendingMove = p.hasPendingMove

theorem Idle.refl : Idle p p := ⟨rfl, rfl, rfl, rfl, rfl, rfl, rfl, rfl⟩

/-- An input is stored with its participant. -/
theorem processInputForParticipant_idle (found : Option Nat) (userId inputData : Bytes)
    (score : Int64) (submittedFrame : UInt32) (w : BattleWorld) :
    let w' := (processInputForParticipant found userId inputData score submittedFrame w).1
    w'.projectiles = w.projectiles ∧
      Entrywise (fun _ p q => Idle p q ∧ q.online = p.online) w.participants w'.participants := by
  have hrefl := Entrywise.refl (R := fun _ p q => Idle p q ∧ q.online = p.online)
    (fun _ p => ⟨Idle.refl p, rfl⟩) w.participants
  unfold processInputForParticipant
  split_ifs with hlife hdup
  case pos => exact ⟨rfl, hrefl⟩
  case pos => exact ⟨rfl, hrefl⟩
  case neg =>
    cases found with
    | none => exact ⟨rfl, hrefl⟩
    | some index =>
      refine ⟨rfl, modify _ index (fun i p => ?_) w.participants⟩
      split <;> exact ⟨⟨rfl, rfl, rfl, rfl, rfl, rfl, rfl, rfl⟩, rfl⟩

/-- Between ticks only inputs, connections and acknowledgements change. -/
theorem after_idle (w : BattleWorld) {call : WorldCall} (hcall : call.NoTick) :
    (w.after call).projectiles = w.projectiles ∧
      Entrywise (fun _ => Idle) w.participants (w.after call).participants := by
  have hinput : ∀ found userId inputData score submittedFrame,
      let w' := (processInputForParticipant found userId inputData score submittedFrame w).1
      w'.projectiles = w.projectiles ∧
        Entrywise (fun _ => Idle) w.participants w'.participants := by
    intro found userId inputData score submittedFrame
    obtain ⟨hproj, hinput⟩ :=
      processInputForParticipant_idle found userId inputData score submittedFrame w
    exact ⟨hproj, hinput.imp fun _ _ _ => And.left⟩
  have hmap : ∀ (f : Participant → Participant) (userId : Bytes), (∀ p, Idle p (f p)) →
      Entrywise (fun _ => Idle) w.participants
        (w.participants.map fun p => if p.userId == userId then f p else p) := by
    refine fun f userId hf => map _ (fun _ p => ?_) _
    split
    · exact hf p
    · exact Idle.refl p
  cases call with
  | input => exact hinput _ _ _ _ _
  | inputAt =>
    simp only [BattleWorld.after, processInputAt]
    split
    · exact hinput _ _ _ _ _
    · exact hinput _ _ _ _ _
  | disconnect userId =>
    simp only [BattleWorld.after, handleDisconnect]
    split
    · exact ⟨rfl, Entrywise.refl (fun _ => Idle.refl) _⟩
    · exact ⟨rfl, hmap _ userId fun _ => ⟨rfl, rfl, rfl, rfl, rfl, rfl, rfl, rfl⟩⟩
  | reconnect userId | acknowledge userId frame =>
    exact ⟨rfl, hmap _ userId fun _ => ⟨rfl, rfl, rfl, rfl, rfl, rfl, rfl, rfl⟩⟩
  | advance frame trigger => exact absurd rfl (hcall frame trigger)

end BoostGateway.Battle
