import BoostGateway.Battle.Settlement
import Mathlib.Data.List.AList

/-!
# Battle instances

`InstanceRuntime` with `BattleInstancePlugin`: a table of instances with their battle worlds. The
battle service hands inputs over with `process_input_immediate`, so the input queue is always empty
and left out, and nothing sets `finish_requested` of this plugin.
-/

namespace BoostGateway.Battle

abbrev Table (β : Type) := AList fun _ : Bytes => β

inductive InstanceState where
  | creating
  | waitingPlayers
  | running
  | finishing
  | finished
  | closed
  deriving DecidableEq

inductive FinishReason where
  | normal
  | allPlayersDone
  | timeout
  | frameLimit
  | playerDisconnected
  | userRequested
  | error

def mapToRealtime : BattleFinishReason → FinishReason
  | .finished => .normal
  | .surrender => .allPlayersDone
  | .timeout => .timeout
  | .frameLimitReached => .frameLimit
  | .playerDisconnected => .playerDisconnected
  | .userRequested => .userRequested

def mapToBattle : FinishReason → BattleFinishReason
  | .normal => .finished
  | .allPlayersDone => .finished
  | .timeout => .timeout
  | .frameLimit => .frameLimitReached
  | .playerDisconnected => .playerDisconnected
  | .userRequested => .userRequested
  | .error => .finished

structure TickStats where
  frameNumber : UInt32
  shouldFinish : Bool := false
  finishReason : FinishReason := .normal

/-- What `build_snapshot` reads of the world. -/
structure BattleSnapshot where
  frame : UInt32
  trigger : Bytes
  participants : List Participant
  bullets : List Projectile

inductive InstanceEvent where
  | snapshotAvailable (instanceId : Bytes) (snapshot : BattleSnapshot)
  | instanceFinished (instanceId : Bytes) (settlement : BattleResultSummary)

/-- `InternalInstance` with the state of `BattleInstancePlugin`. -/
structure BattleInstance where
  roomId : Bytes
  players : List Bytes
  maxFrames : UInt32
  state : InstanceState
  currentFrame : UInt32 := 0
  world : BattleWorld

def BattleInstance.active (inst : BattleInstance) : Bool :=
  inst.state = .running || inst.state = .waitingPlayers

/-! ## The plugin -/

def BattleInstance.entity (inst : BattleInstance) (userId : Bytes) : Option Nat :=
  inst.players.findIdx? (· == userId)

def BattleInstance.onInput (inst : BattleInstance) (userId payload : Bytes) (score : Int64)
    (submittedFrame : UInt32) : BattleInstance × InputResult :=
  let (world, result) :=
    match inst.entity userId with
    | some entity => processInputAt entity userId payload score submittedFrame inst.world
    | none => processInput userId payload score submittedFrame inst.world
  ({ inst with world }, result)

def onTick (frame : UInt32) (w : BattleWorld) : BattleWorld × TickStats :=
  let (w', result) := advanceFrame frame (ascii "tick") w
  let lifecycleFinished : Bool := w'.lifecycle = .finished
  if result.shouldFinish || lifecycleFinished then
    (if lifecycleFinished then w' else setLifecycle .finished w',
      { frameNumber := result.frameNumber
        shouldFinish := true
        finishReason :=
          if result.shouldFinish then mapToRealtime result.finishReason else .normal })
  else (w', { frameNumber := result.frameNumber })

def BattleWorld.buildSnapshot (w : BattleWorld) : BattleSnapshot :=
  { frame := w.frameNumber
    trigger := w.lastTrigger
    participants := w.participants
    bullets := w.projectiles }

def BattleInstance.buildSettlement (inst : BattleInstance) (reason : FinishReason) :
    BattleResultSummary :=
  buildResultSummary (mapToBattle reason) inst.currentFrame inst.world

/-! ## The runtime -/

def maxInstances : Nat := 1024

/-- `InstanceRuntime::create_instance`: none if the id is taken or the table full. -/
def createInstance (spawns : Spawns) (instanceId roomId : Bytes) (players : List Bytes)
    (maxFrames : UInt32) (instances : Table BattleInstance) : Option (Table BattleInstance) :=
  if (instances.lookup instanceId).isSome then none
  else if maxInstances ≤ instances.keys.length then none
  else
    some (instances.insert instanceId
      { roomId
        players
        maxFrames
        state := .waitingPlayers
        world := createBattleWorld spawns instanceId roomId players maxFrames })

def processInputImmediate (instanceId userId payload : Bytes) (score : Int64)
    (submittedFrame : UInt32) (instances : Table BattleInstance) :
    Table BattleInstance × InputResult :=
  match instances.lookup instanceId with
  | none => (instances, { rejectReason := ascii "instance_not_found" })
  | some inst =>
    if !inst.active then (instances, { rejectReason := ascii "instance_not_active" })
    else
      let (inst', result) := inst.onInput userId payload score submittedFrame
      (instances.insert instanceId inst', result)

def finishInstance (instanceId : Bytes) (reason : FinishReason)
    (instances : Table BattleInstance) : Table BattleInstance × List InstanceEvent :=
  match instances.lookup instanceId with
  | none => (instances, [])
  | some inst =>
    if inst.state = .finished || inst.state = .closed then (instances, [])
    else
      (instances.insert instanceId { inst with state := .finished },
        [.instanceFinished instanceId (inst.buildSettlement reason)])

def TickStats.limit (stats : TickStats) (frame maxFrames : UInt32) : TickStats :=
  if 0 < maxFrames && maxFrames ≤ frame && !stats.shouldFinish then
    { stats with shouldFinish := true, finishReason := .frameLimit }
  else stats

def tickInstance (instanceId : Bytes) (frame : UInt32) (instances : Table BattleInstance) :
    Table BattleInstance × TickStats × List InstanceEvent :=
  match instances.lookup instanceId with
  | none => (instances, { frameNumber := frame, shouldFinish := true, finishReason := .error }, [])
  | some inst =>
    if !inst.active then (instances, { frameNumber := frame }, [])
    else
      let (world, result) := onTick frame inst.world
      let stats := result.limit frame inst.maxFrames
      let ticked :=
        instances.insert instanceId
          { inst with state := .running, currentFrame := frame, world }
      let snapshot := InstanceEvent.snapshotAvailable instanceId world.buildSnapshot
      if stats.shouldFinish then
        let (finished, events) := finishInstance instanceId stats.finishReason ticked
        (finished, stats, snapshot :: events)
      else (ticked, stats, [snapshot])

end BoostGateway.Battle
