import BoostGateway.Numerals

/-!
# The battle world

The components of `v2/battle/runtime_components.h`, the systems of `game_systems.cpp` and
`runtime_world.cpp` in the order in which the executor runs them, and the entry points of a battle.

A participant entity has all its components from its creation on, so these are fields here, and the
order of the participants is that of the component store. Left out are area of interest views,
statistics of the audit log, and the effects of projectiles that need a target, a radius or a
duration: `CombatSystem` spawns every projectile without.
-/

namespace BoostGateway.Battle

inductive BattleLifecycleState where
  | created
  | running
  | finished
  deriving DecidableEq

inductive BattleFinishReason where
  | finished
  | surrender
  | timeout
  | frameLimitReached
  | playerDisconnected
  | userRequested
  deriving DecidableEq

/-- `to_string(BattleFinishReason)`. -/
def BattleFinishReason.toString : BattleFinishReason → Bytes
  | .finished => ascii "finished"
  | .surrender => ascii "surrender"
  | .timeout => ascii "timeout"
  | .frameLimitReached => ascii "frame_limit_reached"
  | .playerDisconnected => ascii "player_disconnected"
  | .userRequested => ascii "user_requested"

/-- A participant entity with its components. -/
structure Participant where
  userId : Bytes
  online : Bool := true
  score : Int64 := 0
  lastSubmittedFrame : UInt32 := 0
  lastAckedFrame : UInt32 := 0
  pendingInputData : Bytes := []
  pendingTargetUserId : Bytes := []
  pendingMoveX : Int := 0
  pendingMoveY : Int := 0
  hasPendingMove : Bool := false
  facingDx : Int := 1
  facingDy : Int := 0
  hasPendingFire : Bool := false
  pendingFireDx : Int := 1
  pendingFireDy : Int := 0
  x : Int := 0
  y : Int := 0
  hp : Int := 100
  maxHp : Int := 100
  damage : Int := 10
  range : Int := 1
  lastAttackFrame : UInt32 := 0
  cooldownFrames : UInt32 := 3
  attacksThisFrame : UInt32 := 0

structure Projectile where
  projectileId : Bytes
  ownerUserId : Bytes
  startX : Int
  startY : Int
  targetX : Int
  targetY : Int
  dirX : Int
  dirY : Int
  damage : Int
  speed : Int
  currentFrame : UInt32 := 0
  active : Bool := true
  x : Int
  y : Int

structure ReplayInput where
  inputSeq : UInt64
  frameNumber : UInt32
  userId : Bytes
  inputData : Bytes
  score : Int64
  trigger : Bytes := []
  deriving DecidableEq

structure FrameParticipant where
  userId : Bytes
  x : Int
  y : Int
  hp : Int
  score : Int64
  online : Bool

structure FrameRecord where
  frameNumber : UInt32
  participants : List FrameParticipant
  lifecycle : BattleLifecycleState

/-- The entities of a battle, with the counters of `BattleLifecycleSystem`. -/
structure BattleWorld where
  frameNumber : UInt32 := 0
  lastTrigger : Bytes := []
  battleId : Bytes
  roomId : Bytes
  lifecycle : BattleLifecycleState := .created
  nextInputSeq : UInt64 := 1
  maxFrames : UInt32 := 0
  currentFrameNumber : UInt32 := 0
  replayInputs : List ReplayInput := []
  frameSnapshots : List FrameRecord := []
  participants : List Participant := []
  projectiles : List Projectile := []
  idleFrames : UInt32 := 0
  offlineFrames : UInt32 := 0
  lastInputSeq : UInt64 := 0

/-! ## Constants -/

def maxPosition : Int := 1000

def maxMoveDelta : Int := 200

def projectileRange : Int := 1400

def projectileDamage : Int := 25

def projectileSpeed : Int := 100

def projectileReach : Int := 60

def minDamage : Int := 1

def maxDamage : Int := 50

def maxAttacksPerFrame : UInt32 := 1

def maxIdleFrames : UInt32 := 300

def maxOfflineFrames : UInt32 := 60

/-! ## Reading inputs -/

def abs32 (value : Int) : Int :=
  if value = -2 ^ 31 then value else |value|

def normalizeDirection (dx dy : Int) : Int × Int :=
  if abs32 dy ≤ abs32 dx ∧ dx ≠ 0 then (if 0 < dx then 1 else -1, 0)
  else if dy ≠ 0 then (0, if 0 < dy then 1 else -1)
  else (1, 0)

def parseInt32 (value : Bytes) : Int :=
  (fromChars int32Range value).1.getD 0

def splitComma (text : Bytes) : Option (Bytes × Bytes) :=
  if 44 ∈ text then some (text.takeWhile (· != 44), (text.dropWhile (· != 44)).drop 1)
  else none

def afterMarker (marker text : Bytes) : Option Bytes :=
  if marker.isPrefixOf text then some (text.drop marker.length) else none

def Participant.readAttack (p : Participant) : Participant :=
  match afterMarker (ascii "attack:") p.pendingInputData with
  | some target => { p with pendingTargetUserId := target }
  | none => p

def Participant.readMove (p : Participant) : Participant :=
  match (afterMarker (ascii "move:") p.pendingInputData).bind splitComma with
  | some (x, y) =>
    { p with pendingMoveX := parseInt32 x, pendingMoveY := parseInt32 y, hasPendingMove := true }
  | none => p

/-- The `fire:` case of `BattleInputSystem::run`. -/
def Participant.readFire (p : Participant) : Participant :=
  match (afterMarker (ascii "fire:") p.pendingInputData).bind splitComma with
  | some (dx, dy) =>
    let (dx, dy) := normalizeDirection (parseInt32 dx) (parseInt32 dy)
    { p with pendingFireDx := dx, pendingFireDy := dy, hasPendingFire := true }
  | none => p

def Participant.readInput (p : Participant) : Participant :=
  if !p.online || p.pendingInputData.isEmpty then p
  else { p.readAttack.readMove.readFire with pendingInputData := [] }

/-! ## Movement -/

def Participant.refuseMove (p : Participant) : Participant :=
  { p with hasPendingMove := false, pendingMoveX := p.x, pendingMoveY := p.y }

def Participant.takeMove (p : Participant) : Participant :=
  let (facingDx, facingDy) :=
    if p.pendingMoveX ≠ p.x ∨ p.pendingMoveY ≠ p.y then
      normalizeDirection (p.pendingMoveX - p.x) (p.pendingMoveY - p.y)
    else (p.facingDx, p.facingDy)
  { p with x := p.pendingMoveX, y := p.pendingMoveY, facingDx, facingDy, hasPendingMove := false }

/-- `MovementSystem::run` on one participant. -/
def Participant.move (p : Participant) : Participant :=
  if !p.online || !p.hasPendingMove then p
  else if p.pendingMoveX < 0 ∨ maxPosition < p.pendingMoveX ∨
      p.pendingMoveY < 0 ∨ maxPosition < p.pendingMoveY then p.refuseMove
  else if maxMoveDelta < |p.pendingMoveX - p.x| + |p.pendingMoveY - p.y| then p.refuseMove
  else p.takeMove

/-! ## Combat -/

def direction (start target : Int) : Int :=
  if start < target then 1 else if target < start then -1 else 0

def clampPosition (value : Int) : Int :=
  max 0 (min value maxPosition)

/-- `spawn_projectile` as `CombatSystem` calls it. -/
def spawnProjectile (p : Participant) (frame : UInt32) (dx dy : Int) : Projectile :=
  let targetX := clampPosition (p.x + dx * projectileRange)
  let targetY := clampPosition (p.y + dy * projectileRange)
  { projectileId := p.userId ++ ascii "_shot_" ++ decimal frame.toNat
    ownerUserId := p.userId
    startX := p.x
    startY := p.y
    targetX
    targetY
    dirX := direction p.x targetX
    dirY := direction p.y targetY
    damage := projectileDamage
    speed := projectileSpeed
    x := p.x
    y := p.y }

def Participant.cooledDown (p : Participant) (frame : UInt32) : Bool :=
  p.lastAttackFrame == 0 || p.cooldownFrames ≤ frame - p.lastAttackFrame

/-- The pending shot of a participant in `CombatSystem::run`. -/
def Participant.fire (p : Participant) (frame : UInt32) : Participant × Option Projectile :=
  if p.hasPendingFire then
    if p.cooledDown frame then
      let (dx, dy) := normalizeDirection p.pendingFireDx p.pendingFireDy
      ({ p with facingDx := dx, facingDy := dy, lastAttackFrame := frame, hasPendingFire := false },
        some (spawnProjectile p frame dx dy))
    else ({ p with hasPendingFire := false }, none)
  else (p, none)

/-- The target of the attack intent, if there is one. -/
def Participant.aim (p : Participant) (frame : UInt32) : Participant × Option Bytes :=
  if !p.online || p.pendingTargetUserId.isEmpty then (p, none)
  else if maxAttacksPerFrame ≤ p.attacksThisFrame then
    ({ p with pendingTargetUserId := [] }, none)
  else if 0 < p.lastAttackFrame ∧ frame - p.lastAttackFrame < p.cooldownFrames then
    ({ p with pendingTargetUserId := [] }, none)
  else
    ({ p with attacksThisFrame := p.attacksThisFrame + 1, pendingTargetUserId := [] },
      some p.pendingTargetUserId)

structure Engagement where
  participant : Participant
  shot : Option Projectile
  target : Option Bytes

def Participant.engage (p : Participant) (frame : UInt32) : Engagement :=
  let fired := p.fire frame
  let aimed := fired.1.aim frame
  ⟨aimed.1, fired.2, aimed.2⟩

structure AttackIntent where
  source : Nat
  targetUserId : Bytes

def Participant.reaches (source : Participant) (targetUserId : Bytes) (target : Participant) :
    Bool :=
  target.userId == targetUserId && target.online && |source.x - target.x| ≤ source.range &&
    |source.y - target.y| ≤ source.range

def Participant.hurt (p : Participant) (damage : Int) : Participant :=
  { p with hp := max 0 (p.hp - damage) }

def lands (participants : List Participant) (intent : AttackIntent) : Bool :=
  match participants[intent.source]? with
  | none => false
  | some source =>
    minDamage ≤ source.damage && source.damage ≤ maxDamage &&
      participants.any (source.reaches intent.targetUserId)

/-- Every target in range is hurt, and the attacker cools down. -/
def resolveAttack (frame : UInt32) (participants : List Participant) (intent : AttackIntent) :
    List Participant :=
  match participants[intent.source]? with
  | none => participants
  | some source =>
    if lands participants intent then
      (participants.map fun target =>
          if source.reaches intent.targetUserId target then target.hurt source.damage
          else target).modify intent.source fun attacker =>
        { attacker with lastAttackFrame := frame }
    else participants

def attackIntents (engaged : List Engagement) : List AttackIntent :=
  engaged.zipIdx.filterMap fun entry => entry.1.target.map fun target => ⟨entry.2, target⟩

def combatSystem (frame : UInt32) (w : BattleWorld) : BattleWorld :=
  let engaged := w.participants.map (·.engage frame)
  { w with
    participants :=
      (attackIntents engaged).foldl (resolveAttack frame) (engaged.map (·.participant))
    projectiles := w.projectiles ++ engaged.filterMap (·.shot) }

/-! ## Projectiles -/

def Projectile.threatens (proj : Projectile) (p : Participant) : Bool :=
  p.userId != proj.ownerUserId && p.online && 0 < p.hp &&
    |p.x - proj.x| + |p.y - proj.y| ≤ projectileReach

/-- The participants after the first hit, and the health left. -/
def Projectile.strike (proj : Projectile) : List Participant → List Participant × Option Int
  | [] => ([], none)
  | p :: rest =>
    if proj.threatens p && (p.hurt proj.damage).hp != p.hp then
      (p.hurt proj.damage :: rest, some (p.hurt proj.damage).hp)
    else
      let (struck, hit) := proj.strike rest
      (p :: struck, hit)

def award (ownerUserId : Bytes) (points : Int64) (participants : List Participant) :
    List Participant :=
  participants.map fun p =>
    if p.userId == ownerUserId then { p with score := p.score + points } else p

def Projectile.outOfBounds (proj : Projectile) : Bool :=
  proj.x < 0 || maxPosition < proj.x || proj.y < 0 || maxPosition < proj.y

/-- The first phase of `ProjectileSystem::run`. -/
def Projectile.fly (proj : Projectile) (participants : List Participant) :
    Projectile × List Participant :=
  if !proj.active then (proj, participants)
  else
    let flown : Projectile :=
      { proj with
        currentFrame := proj.currentFrame + 1
        x := proj.x + proj.dirX * proj.speed
        y := proj.y + proj.dirY * proj.speed }
    let (struck, hit) := flown.strike participants
    ({ flown with active := !(hit.isSome || flown.outOfBounds) },
      match hit with
      | some hp => award proj.ownerUserId (if hp = 0 then 5 else 1) struck
      | none => struck)

def flyAll : List Projectile → List Participant → List Projectile × List Participant
  | [], participants => ([], participants)
  | proj :: rest, participants =>
    let flown := proj.fly participants
    let others := flyAll rest flown.2
    (flown.1 :: others.1, others.2)

def projectileSystem (w : BattleWorld) : BattleWorld :=
  let flown := flyAll w.projectiles w.participants
  { w with projectiles := flown.1, participants := flown.2 }

/-! ## The other systems -/

def clockSystem (frame : UInt32) (trigger : Bytes) (w : BattleWorld) : BattleWorld :=
  { w with frameNumber := frame, lastTrigger := trigger, currentFrameNumber := frame }

def inputSystem (w : BattleWorld) : BattleWorld :=
  { w with participants := w.participants.map (·.readInput) }

def movementSystem (w : BattleWorld) : BattleWorld :=
  { w with participants := w.participants.map (·.move) }

def countIdle (w : BattleWorld) : BattleWorld :=
  { w with
    lastInputSeq := w.nextInputSeq
    idleFrames := if w.lastInputSeq < w.nextInputSeq then 0 else w.idleFrames + 1 }

/-- Step 5 of `BattleLifecycleSystem::run`. -/
def countOffline (w : BattleWorld) : BattleWorld :=
  if w.participants.isEmpty then w
  else if w.participants.all (!·.online) then
    { w with
      offlineFrames := w.offlineFrames + 1
      lifecycle := if maxOfflineFrames ≤ w.offlineFrames + 1 then .finished else w.lifecycle }
  else { w with offlineFrames := 0 }

/-- `BattleLifecycleSystem::run`. -/
def lifecycleSystem (w : BattleWorld) : BattleWorld :=
  match w.lifecycle with
  | .created =>
    { w with
      lifecycle := .running, idleFrames := 0, offlineFrames := 0, lastInputSeq := w.nextInputSeq }
  | .finished => { w with projectiles := [] }
  | .running =>
    if maxIdleFrames ≤ (countIdle w).idleFrames then { countIdle w with lifecycle := .finished }
    else countOffline (countIdle w)

def replaySystem (frame : UInt32) (w : BattleWorld) : BattleWorld :=
  { w with
    frameSnapshots := w.frameSnapshots ++
      [{ frameNumber := frame
         participants := w.participants.map fun p => ⟨p.userId, p.x, p.y, p.hp, p.score, p.online⟩
         lifecycle := w.lifecycle }] }

/-- `World::tick`: the systems, stage by stage. -/
def tick (frame : UInt32) (trigger : Bytes) (w : BattleWorld) : BattleWorld :=
  replaySystem frame (projectileSystem (combatSystem frame (movementSystem (lifecycleSystem
    (inputSystem (clockSystem frame trigger w))))))

/-! ## Entry points -/

structure Spawns where
  column : Bytes → Nat → Fin 18
  row : Bytes → Nat → Fin 13

def Spawns.position (spawns : Spawns) (battleId : Bytes) (index : Nat) : Int × Int :=
  (((spawns.column battleId index).val + 1 : Int) * 50,
    ((spawns.row battleId index).val + 1 : Int) * 50)

def diagonalSpawns : Spawns where
  column _ index := Fin.ofNat 18 index
  row _ index := Fin.ofNat 13 index

def createBattleWorld (spawns : Spawns) (battleId roomId : Bytes) (playerIds : List Bytes)
    (maxFrames : UInt32) : BattleWorld :=
  { battleId
    roomId
    lifecycle := .running
    maxFrames
    participants := playerIds.zipIdx.map fun (userId, index) =>
      let (x, y) := spawns.position battleId index
      { userId, x, y } }

structure InputResult where
  accepted : Bool := false
  rejectReason : Bytes := []
  inputSeq : UInt64 := 0

def appendReplayInput (frame : UInt32) (userId inputData : Bytes) (score : Int64)
    (w : BattleWorld) : BattleWorld :=
  { w with
    nextInputSeq := w.nextInputSeq + 1
    replayInputs := w.replayInputs ++
      [{ inputSeq := w.nextInputSeq, frameNumber := frame, userId
         inputData, score }] }

def findParticipant (userId : Bytes) (w : BattleWorld) : Option Nat :=
  w.participants.findIdx? (·.userId == userId)

def duplicateFrame (found : Option Nat) (submittedFrame : UInt32) (w : BattleWorld) : Bool :=
  match found.bind (w.participants[·]?) with
  | some p => 0 < submittedFrame && submittedFrame ≤ p.lastSubmittedFrame
  | none => false

def Participant.takeInput (p : Participant) (inputData : Bytes) (score : Int64)
    (submittedFrame : UInt32) : Participant :=
  { p with
    lastSubmittedFrame := if 0 < submittedFrame then submittedFrame else p.lastSubmittedFrame
    score := p.score + score
    pendingInputData := inputData }

/-- `process_input_for_participant`. For nobody, an input is only recorded. -/
def processInputForParticipant (found : Option Nat) (userId inputData : Bytes) (score : Int64)
    (submittedFrame : UInt32) (w : BattleWorld) : BattleWorld × InputResult :=
  if w.lifecycle ≠ .running then (w, { rejectReason := ascii "battle_not_running" })
  else if duplicateFrame found submittedFrame w then
    (w, { rejectReason := ascii "duplicate_frame" })
  else
    let stored : BattleWorld :=
      match found with
      | some index =>
        { w with
          participants :=
            w.participants.modify index (·.takeInput inputData score submittedFrame) }
      | none => w
    (appendReplayInput (w.currentFrameNumber + 1) userId inputData score stored,
      { accepted := true, inputSeq := w.nextInputSeq })

def processInput (userId inputData : Bytes) (score : Int64) (submittedFrame : UInt32)
    (w : BattleWorld) : BattleWorld × InputResult :=
  processInputForParticipant (findParticipant userId w) userId inputData score submittedFrame w

/-- `battle_world_process_input`: the entity must have the user id. -/
def processInputAt (entity : Nat) (userId inputData : Bytes) (score : Int64)
    (submittedFrame : UInt32) (w : BattleWorld) : BattleWorld × InputResult :=
  if (w.participants[entity]?).any (·.userId == userId) then
    processInputForParticipant (some entity) userId inputData score submittedFrame w
  else processInput userId inputData score submittedFrame w

structure FrameResult where
  frameNumber : UInt32
  trigger : Bytes
  shouldFinish : Bool
  finishReason : BattleFinishReason := .finished

/-- `battle_world_advance_frame`. -/
def advanceFrame (nextFrame : UInt32) (trigger : Bytes) (w : BattleWorld) :
    BattleWorld × FrameResult :=
  let ticked := tick nextFrame trigger w
  let shouldFinish : Bool := 0 < w.maxFrames && w.maxFrames ≤ ticked.frameNumber
  ({ ticked with
      replayInputs := ticked.replayInputs.map fun input =>
        if input.frameNumber = ticked.frameNumber then { input with trigger }
        else input },
    { frameNumber := ticked.frameNumber
      trigger
      shouldFinish
      finishReason := if shouldFinish then .frameLimitReached else .finished })

def setLifecycle (lifecycle : BattleLifecycleState) (w : BattleWorld) : BattleWorld :=
  { w with lifecycle }

def markOffline (userId : Bytes) (w : BattleWorld) : BattleWorld :=
  { w with
    participants := w.participants.map fun p =>
      if p.userId == userId then { p with online := false } else p }

def handleDisconnect (userId : Bytes) (w : BattleWorld) : BattleWorld :=
  if w.lifecycle ≠ .running then w else markOffline userId w

def setOnline (userId : Bytes) (w : BattleWorld) : BattleWorld :=
  { w with
    participants := w.participants.map fun p =>
      if p.userId == userId then { p with online := true } else p }

def recordFrameAck (userId : Bytes) (frame : UInt32) (w : BattleWorld) : BattleWorld :=
  { w with
    participants := w.participants.map fun p =>
      if p.userId == userId then { p with lastAckedFrame := frame } else p }

/-! ## The result of a battle -/

structure BattleScore where
  userId : Bytes
  score : Int64
  deriving DecidableEq

structure BattleResultSummary where
  battleId : Bytes
  roomId : Bytes
  reason : BattleFinishReason
  winnerUserId : Option Bytes
  scores : List BattleScore
  totalFrames : UInt32
  deriving DecidableEq

def collectScores (w : BattleWorld) : List BattleScore :=
  w.participants.map fun p =>
    { userId := p.userId
      score := w.participants.foldl (fun s q => if q.userId == p.userId then q.score else s) 0 }

def winner (scores : List BattleScore) : Option BattleScore :=
  scores.foldl (fun best s =>
    match best with
    | none => some s
    | some b => if b.score < s.score then some s else some b) none

def buildResultSummary (reason : BattleFinishReason) (totalFrames : UInt32) (w : BattleWorld) :
    BattleResultSummary :=
  { battleId := w.battleId
    roomId := w.roomId
    reason
    winnerUserId := (winner (collectScores w)).map (·.userId)
    scores := collectScores w
    totalFrames }

/-! ## Calls of the entry points -/

inductive WorldCall where
  | input (userId inputData : Bytes) (score : Int64) (submittedFrame : UInt32)
  | inputAt (entity : Nat) (userId inputData : Bytes) (score : Int64) (submittedFrame : UInt32)
  | disconnect (userId : Bytes)
  | reconnect (userId : Bytes)
  | acknowledge (userId : Bytes) (frame : UInt32)
  | advance (frame : UInt32) (trigger : Bytes)

def BattleWorld.after (w : BattleWorld) : WorldCall → BattleWorld
  | .input userId inputData score submittedFrame =>
    (processInput userId inputData score submittedFrame w).1
  | .inputAt entity userId inputData score submittedFrame =>
    (processInputAt entity userId inputData score submittedFrame w).1
  | .disconnect userId => handleDisconnect userId w
  | .reconnect userId => setOnline userId w
  | .acknowledge userId frame => recordFrameAck userId frame w
  | .advance frame trigger => (advanceFrame frame trigger w).1

def BattleWorld.afterAll (w : BattleWorld) (calls : List WorldCall) : BattleWorld :=
  calls.foldl BattleWorld.after w

@[simp]
theorem BattleWorld.afterAll_concat (w : BattleWorld) (calls : List WorldCall) (call : WorldCall) :
    w.afterAll (calls ++ [call]) = (w.afterAll calls).after call := by simp [BattleWorld.afterAll]

end BoostGateway.Battle
