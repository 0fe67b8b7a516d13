import BoostGateway.Gateway.Routing
import BoostGateway.Runs

/-!
# The connections of the service bridge

`ensure_connection` hands out a pointer to a connection that a pool of a node owns, and `route` uses
it without a lock. Every block under the mutex and every `send_request` is a step here, and any
number of calls interleave with registrations and updates of configurations.
-/

namespace BoostGateway.Gateway

open List

/-! ## Registration -/

/-- The instance replaces the one on its node, or is added. -/
def RouteEntry.register (inst : ServiceInstance) (entry : RouteEntry) : RouteEntry where
  instances :=
    if inst.node.nodeName ∈ entry.instances.map (·.node.nodeName) then
      entry.instances.map fun old => if old.node.nodeName = inst.node.nodeName then inst else old
    else entry.instances ++ [inst]
  roundRobinIndex := entry.roundRobinIndex
  distinct := by
    split
    · have hnames : (fun inst : ServiceInstance => inst.node.nodeName) ∘ (fun old =>
          if old.node.nodeName = inst.node.nodeName then inst else old) =
          fun inst => inst.node.nodeName := by
        funext old
        simp only [Function.comp_apply]
        split
        · rename_i heq
          exact heq.symm
        · rfl
      rw [map_map, hnames]
      exact entry.distinct
    · rename_i hnew
      rw [map_append]
      exact entry.distinct.append (nodup_singleton _) (disjoint_singleton.mpr hnew)

def RouteEntry.deregister (nodeName : Bytes) (entry : RouteEntry) : RouteEntry where
  instances := entry.instances.filter (·.node.nodeName ≠ nodeName)
  roundRobinIndex := entry.roundRobinIndex
  distinct := entry.distinct.sublist (filter_sublist.map _)

def ClusterRouter.registerService (serviceName : Bytes) (inst : ServiceInstance)
    (router : ClusterRouter) : ClusterRouter :=
  let inst := if inst.state = .unknown then { inst with state := .healthy } else inst
  let entry := (router.routes.lookup serviceName).getD {}
  { routes := router.routes.insert serviceName (entry.register inst) }

def ClusterRouter.deregisterService (serviceName nodeName : Bytes) (router : ClusterRouter) :
    ClusterRouter :=
  match router.routes.lookup serviceName with
  | none => router
  | some entry =>
    { routes := router.routes.insert serviceName (entry.deregister nodeName) }

/-! ## Pools -/

abbrev ConnectionId := Nat

abbrev PoolId := ServiceId × Option Bytes

inductive Owner where
  | call (id : Nat)
  | pool (id : PoolId)
  /-- It is not created yet, or destroyed. -/
  | nobody
  deriving DecidableEq

structure BackendConnection where
  config : BackendConfig := {}
  connected : Bool := false
  owner : Owner := .nobody

inductive Availability where
  | connected
  | busy
  | disconnected
  deriving DecidableEq

structure Pool where
  connections : List ConnectionId := []
  nextIndex : Nat := 0

namespace Pool

def order (pool : Pool) : List Nat := (List.range pool.connections.length).map fun attempt =>
    (pool.nextIndex + attempt) % pool.connections.length

def search (p : ConnectionId → Bool) (pool : Pool) : Option (Nat × ConnectionId) :=
  pool.order.findSome? fun index =>
    (pool.connections[index]?).bind fun conn => if p conn then some (index, conn) else none

/-- The first block of `ensure_connection`: a full pool of connected ones. -/
def select (availability : ConnectionId → Availability) (poolSize : Nat) (pool : Pool) :
    Option ConnectionId × Pool :=
  let full := poolSize ≤ pool.connections.length ∧
    ∀ conn ∈ pool.connections, availability conn ≠ .disconnected
  match pool.search (availability · = .connected) with
  | some (index, conn) =>
    (if full then some conn else none,
      { pool with nextIndex := (index + 1) % pool.connections.length })
  | none =>
    match pool.search (availability · = .busy) with
    | some (_, conn) =>
      (if full then some conn else none,
        { pool with nextIndex := (pool.nextIndex + 1) % pool.connections.length })
    | none => (none, pool)

structure Stored where
  pool : Pool
  returned : ConnectionId
  destroyed : Option ConnectionId

def replace (index : Nat) (conn : ConnectionId) (pool : Pool) : Stored where
  pool :=
    { connections := pool.connections.set index conn
      nextIndex := (index + 1) % pool.connections.length }
  returned := conn
  destroyed := pool.connections[index]?

/-- The second block of `ensure_connection`. -/
def store (connected : ConnectionId → Bool) (poolSize : Nat) (conn : ConnectionId) (pool : Pool) :
    Stored :=
  if pool.connections.length < poolSize then
    { pool :=
        { connections := pool.connections ++ [conn]
          nextIndex := pool.nextIndex % (pool.connections.length + 1) }
      returned := conn
      destroyed := none }
  else
    match pool.search (!connected ·) with
    | some (index, _) => pool.replace index conn
    | none =>
      match pool.search connected with
      | some (index, other) =>
        -- the new connection is not stored
        { pool := { pool with nextIndex := (index + 1) % pool.connections.length }
          returned := other
          destroyed := some conn }
      | none => pool.replace (pool.nextIndex % pool.connections.length) conn

end Pool

/-! ## What a search finds -/

namespace Pool

variable {pool : Pool} {p : ConnectionId → Bool}
variable {index poolSize : Nat} {conn : ConnectionId}

theorem search_some (h : pool.search p = some (index, conn)) :
    pool.connections[index]? = some conn ∧ p conn = true := by
  obtain ⟨_, -, hfind⟩ := exists_of_findSome?_eq_some h
  obtain ⟨found, hfind, hif⟩ := Option.bind_eq_some_iff.mp hfind
  split at hif
  · cases hif
    exact ⟨hfind, by assumption⟩
  · cases hif

theorem mem_order (h : index < pool.connections.length) : index ∈ pool.order := by
  have hpos : 0 < pool.connections.length := Nat.zero_lt_of_lt h
  have hnext : pool.nextIndex % pool.connections.length < pool.connections.length :=
    Nat.mod_lt _ hpos
  refine mem_map.mpr ⟨(index + pool.connections.length -
    pool.nextIndex % pool.connections.length) % pool.connections.length,
    mem_range.mpr (Nat.mod_lt _ hpos), ?_⟩
  rw [Nat.add_mod_mod, ← Nat.mod_add_mod, Nat.add_sub_of_le (by omega), Nat.add_mod_right,
    Nat.mod_eq_of_lt h]

theorem search_none (h : pool.search p = none) (hconn : conn ∈ pool.connections) :
    p conn = false := by
  obtain ⟨index, hidx, rfl⟩ := getElem_of_mem hconn
  have hvisit := List.findSome?_eq_none_iff.mp h index (mem_order hidx)
  rw [List.getElem?_eq_getElem hidx, Option.bind_some] at hvisit
  split at hvisit
  · cases hvisit
  · rename_i hnot
    simpa using hnot

/-- What storing a connection can do to a pool. -/
inductive StoreCase (connected : ConnectionId → Bool) (poolSize : Nat) (conn : ConnectionId)
    (pool : Pool) : Stored → Prop
  | added (nextIndex : Nat) (hspace : pool.connections.length < poolSize) :
      StoreCase connected poolSize conn pool
        { pool := { connections := pool.connections ++ [conn], nextIndex }
          returned := conn
          destroyed := none }
  | replaced (nextIndex : Nat) {index : Nat} {old : ConnectionId}
      (hfull : poolSize ≤ pool.connections.length) (hold : pool.connections[index]? = some old)
      (hclosed : connected old = false) :
      StoreCase connected poolSize conn pool
        { pool := { connections := pool.connections.set index conn, nextIndex }
          returned := conn
          destroyed := some old }
  | reused (nextIndex : Nat) {other : ConnectionId} (hfull : poolSize ≤ pool.connections.length)
      (hother : other ∈ pool.connections) :
      StoreCase connected poolSize conn pool
        { pool := { pool with nextIndex }, returned := other, destroyed := some conn }

theorem store_case (connected : ConnectionId → Bool) (hsize : 0 < poolSize) (conn : ConnectionId)
    (pool : Pool) :
    StoreCase connected poolSize conn pool (pool.store connected poolSize conn) := by
  unfold store
  split
  · exact .added _ ‹_›
  rename_i hfull
  have hfull := not_lt.mp hfull
  split
  · rename_i index old hsearch
    obtain ⟨hold, hclosed⟩ := search_some hsearch
    unfold replace
    rw [hold]
    exact .replaced _ hfull hold (by simpa using hclosed)
  rename_i hallConnected
  split
  · rename_i index other hsearch
    exact .reused _ hfull (mem_of_getElem? (search_some hsearch).1)
  · -- a connection of the pool is connected or not, so the pool would be empty
    rename_i hnoneConnected
    obtain ⟨other, hother⟩ := exists_mem_of_length_pos (Nat.lt_of_lt_of_le hsize hfull)
    have hcond := search_none hallConnected hother
    have hclosed := search_none hnoneConnected hother
    simp [hclosed] at hcond

theorem select_some {availability : ConnectionId → Availability}
    (h : (pool.select availability poolSize).1 = some conn) : conn ∈ pool.connections := by
  dsimp only [select] at h
  split at h
  · rename_i index found hsearch
    split at h
    · cases h
      exact mem_of_getElem? (search_some hsearch).1
    · cases h
  · split at h
    · rename_i index found hsearch
      split at h
      · cases h
        exact mem_of_getElem? (search_some hsearch).1
      · cases h
    · cases h

theorem select_connections (availability : ConnectionId → Availability) (poolSize : Nat) :
    (pool.select availability poolSize).2.connections = pool.connections := by
  dsimp only [select]
  split
  · rfl
  · split <;> rfl

end Pool

/-- `backend_connection_pool_size` of the environment variable. -/
def backendConnectionPoolSize (parsed : Option Nat) : Nat :=
  match parsed with
  | none => 8
  | some size => if 0 < size then size else 1

theorem backendConnectionPoolSize_pos (parsed : Option Nat) :
    0 < backendConnectionPoolSize parsed := by
  unfold backendConnectionPoolSize
  split
  · decide
  · split
    · assumption
    · decide

/-! ## Calls -/

def slotFor : ServiceId → ServiceId
  | .gateway => .login
  | service => service

def poolFor (service : ServiceId) (target : ResolvedBackend) : PoolId :=
  (slotFor service, if target.fromCluster then some target.connectionKey else none)

/-- Where a call of `route` is. -/
inductive Stage where
  /-- before `resolve_backend` -/
  | resolving
  /-- before the first block of `ensure_connection` -/
  | resolved (target : ResolvedBackend)
  /-- before `connect` -/
  | connecting (target : ResolvedBackend)
  /-- before the second block of `ensure_connection` -/
  | opened (target : ResolvedBackend) (conn : ConnectionId)
  /-- `ensure_connection` has returned, before `send_request` -/
  | holding (target : ResolvedBackend) (conn : ConnectionId)
  /-- there was no response, before `last_failure_stage` and, at the first attempt, `close` -/
  | failed (conn : ConnectionId)
  deriving DecidableEq

/-- A call of `route` that the breaker has let through. -/
structure Call where
  service : ServiceId
  shardKey : Bytes
  retry : Bool := false
  stage : Stage := .resolving
  deriving DecidableEq

/-- The connection that the call has got and still uses. -/
def Call.uses (call : Call) : Option ConnectionId :=
  match call.stage with
  | .holding _ conn => some conn
  | .failed conn => some conn
  | _ => none

/-- The bridge, its pools and connections, the calls in flight, and the nodes registered so far. -/
structure BridgeState where
  bridge : ServiceBridge
  pools : PoolId → Pool := fun _ => {}
  objects : ConnectionId → BackendConnection := fun _ => {}
  created : Nat := 0
  calls : Nat → Option Call := fun _ => none
  known : List (Bytes × NodeId) := []

inductive BridgeEvent where
  /-- `route` is called. -/
  | start (id : Nat) (service : ServiceId) (shardKey : Bytes)
  | resolve (id : Nat)
  /-- Some connections are locked by a request. -/
  | select (id : Nat) (busy : ConnectionId → Bool)
  | connect (id : Nat) (ok : Bool)
  | store (id : Nat)
  | send (id : Nat) (answered : Bool)
  /-- `last_failure_stage`, and `close` at the first attempt -/
  | recover (id : Nat)
  | register (serviceName : Bytes) (inst : ServiceInstance)
  | deregister (serviceName nodeName : Bytes)
  /-- `update_backend_config` -/
  | update (service : ServiceId) (config : Option BackendConfig)

namespace BridgeState

def setCall (id : Nat) (call : Option Call) (s : BridgeState) : BridgeState :=
  { s with calls := fun other => if other = id then call else s.calls other }

def setPool (id : PoolId) (pool : Pool) (s : BridgeState) : BridgeState :=
  { s with pools := fun other => if other = id then pool else s.pools other }

def setObject (conn : ConnectionId) (object : BackendConnection) (s : BridgeState) : BridgeState :=
  { s with objects := fun other => if other = conn then object else s.objects other }

def close (conn : ConnectionId) (s : BridgeState) : BridgeState :=
  s.setObject conn { s.objects conn with connected := false }

def destroy (conn : ConnectionId) (s : BridgeState) : BridgeState :=
  s.setObject conn { s.objects conn with connected := false, owner := .nobody }

def moveInto (poolId : PoolId) (conn : ConnectionId) (dropped : Option ConnectionId)
    (s : BridgeState) : BridgeState :=
  let owned := s.setObject conn { s.objects conn with owner := .pool poolId }
  match dropped with
  | some old => owned.destroy old
  | none => owned

def availability (busy : ConnectionId → Bool) (s : BridgeState) (conn : ConnectionId) :
    Availability :=
  if busy conn then .busy
  else if (s.objects conn).connected then .connected
  else .disconnected

def advance (id : Nat) (s : BridgeState) (next : Call → BridgeState) : BridgeState :=
  match s.calls id with
  | none => s
  | some call => next call

theorem advance_cases {P : BridgeState → Prop} {id : Nat} {s : BridgeState}
    {next : Call → BridgeState} (h : P s)
    (hnext : ∀ call, s.calls id = some call → P (next call)) : P (s.advance id next) := by
  unfold advance
  split
  · exact h
  · exact hnext _ ‹_›

def resolve (id : Nat) (s : BridgeState) : BridgeState := s.advance id fun call =>
    match call.stage with
    | .resolving =>
      let (target, bridge) := s.bridge.resolveBackend call.service call.shardKey
      { s with bridge }.setCall id
        (target.map fun target => { call with stage := .resolved target })
    | _ => s

variable (poolSize : Nat)

def select (id : Nat) (busy : ConnectionId → Bool) (s : BridgeState) : BridgeState :=
  s.advance id fun call =>
    match call.stage with
    | .resolved target =>
      let poolId := poolFor call.service target
      let (conn, pool) := (s.pools poolId).select (s.availability busy) poolSize
      let stage := match conn with
        | some conn => Stage.holding target conn
        | none => .connecting target
      (s.setPool poolId pool).setCall id (some { call with stage })
    | _ => s

def connect (id : Nat) (ok : Bool) (s : BridgeState) : BridgeState := s.advance id fun call =>
    match call.stage with
    | .connecting target =>
      if ok then
        let s' := s.setObject s.created
          { config := target.config, connected := true, owner := .call id }
        { s' with created := s.created + 1 }.setCall id
          (some { call with stage := .opened target s.created })
      else
        let router := match target.node with
          | some node =>
            s.bridge.clusterRouter.map
              (·.mark .unhealthy (serviceNameFor call.service) node.nodeName)
          | none => s.bridge.clusterRouter
        { s with bridge := { s.bridge with clusterRouter := router } }.setCall id none
    | _ => s

def store (id : Nat) (s : BridgeState) : BridgeState := s.advance id fun call =>
    match call.stage with
    | .opened target conn =>
      let poolId := poolFor call.service target
      let stored := (s.pools poolId).store (fun conn => (s.objects conn).connected) poolSize conn
      ((s.moveInto poolId conn stored.destroyed).setPool poolId stored.pool).setCall id
        (some { call with stage := .holding target stored.returned })
    | _ => s

def send (id : Nat) (answered : Bool) (s : BridgeState) : BridgeState := s.advance id fun call =>
    match call.stage with
    | .holding _ conn =>
      if answered && (s.objects conn).connected then s.setCall id none
      else (s.close conn).setCall id (some { call with stage := .failed conn })
    | _ => s

def recover (id : Nat) (s : BridgeState) : BridgeState := s.advance id fun call =>
    match call.stage with
    | .failed conn =>
      if call.retry then s.setCall id none
      else (s.close conn).setCall id (some { call with retry := true, stage := .resolving })
    | _ => s

/-- The connections of the slot are closed and destroyed. -/
def update (service : ServiceId) (config : Option BackendConfig) (s : BridgeState) : BridgeState :=
  let ofSlot (owner : Owner) : Bool :=
    match owner with
    | .pool id => id.1 = slotFor service
    | _ => false
  { s with
    bridge := { s.bridge with
      slotConfig := fun other =>
        if slotFor other = slotFor service then config else s.bridge.slotConfig other }
    pools := fun id => if id.1 = slotFor service then {} else s.pools id
    objects := fun conn =>
      if ofSlot (s.objects conn).owner then
        { s.objects conn with connected := false, owner := .nobody }
      else s.objects conn }

def step (s : BridgeState) : BridgeEvent → BridgeState
  | .start id service shardKey =>
    match s.calls id with
    | none => s.setCall id (some { service, shardKey })
    | some _ => s
  | .resolve id => s.resolve id
  | .select id busy => s.select poolSize id busy
  | .connect id ok => s.connect id ok
  | .store id => s.store poolSize id
  | .send id answered => s.send id answered
  | .recover id => s.recover id
  | .register serviceName inst =>
    { s with
      bridge := { s.bridge with
        clusterRouter := s.bridge.clusterRouter.map (·.registerService serviceName inst) }
      known := (serviceName, inst.node) :: s.known }
  | .deregister serviceName nodeName =>
    { s with
      bridge := { s.bridge with
        clusterRouter := s.bridge.clusterRouter.map (·.deregisterService serviceName nodeName) } }
  | .update service config => s.update service config

end BridgeState

end BoostGateway.Gateway
