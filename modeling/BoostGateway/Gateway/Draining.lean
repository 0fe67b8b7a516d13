import BoostGateway.Gateway.PooledConnections

/-!
# Draining an instance

`start_drain` takes an instance out of the rotation. After `drain_timeout` a health check makes it
unhealthy, and an unhealthy instance is taken in again once enough of its checks have succeeded, so
a drained node that is still up comes back (`drained_gets_no_traffic`).
-/

namespace BoostGateway.Gateway

structure HealthCheckConfig where
  failureThreshold : UInt32 := 3
  recoveryThreshold : UInt32 := 2
  drainTimeout : Int := 30000

/-- `ClusterRouter` with its checks, and one watched instance. -/
structure CheckedRouter where
  router : ClusterRouter := {}
  lastHeartbeat : Bytes → Bytes → Int := fun _ _ => 0
  successCounts : Bytes → UInt32 := fun _ => 0
  failureCounts : Bytes → UInt32 := fun _ => 0
  /-- The watched instance was drained, and neither registered nor marked healthy since. -/
  drained : Bool := false

inductive RouterCall where
  | registerService (serviceName : Bytes) (inst : ServiceInstance) (now : Int)
  | deregisterService (serviceName nodeName : Bytes)
  | discover (serviceName : Bytes)
  | markHealthy (serviceName nodeName : Bytes)
  | markUnhealthy (serviceName nodeName : Bytes)
  | startDrain (serviceName nodeName : Bytes) (now : Int)
  /-- A turn of the loops of `run_health_checks`, which makes one for every instance. -/
  | check (serviceName nodeName : Bytes) (alive : Bool) (now : Int)

def ClusterRouter.stateOf (serviceName nodeName : Bytes) (router : ClusterRouter) :
    Option ServiceState :=
  (router.routes.lookup serviceName).bind fun entry =>
    (entry.instances.find? (·.node.nodeName = nodeName)).map (·.state)

namespace CheckedRouter

def mark (state : ServiceState) (serviceName nodeName : Bytes) (s : CheckedRouter) :
    CheckedRouter :=
  { s with router := s.router.mark state serviceName nodeName }

def beat (serviceName nodeName : Bytes) (now : Int) (s : CheckedRouter) : CheckedRouter :=
  { s with
    lastHeartbeat := fun service node =>
      if service = serviceName ∧ node = nodeName then now else s.lastHeartbeat service node }

def countKey (serviceName nodeName : Bytes) : Bytes := serviceName ++ ascii ":" ++ nodeName

def setCounts (key : Bytes) (successes failures : UInt32) (s : CheckedRouter) : CheckedRouter :=
  { s with
    successCounts := Function.update s.successCounts key successes
    failureCounts := Function.update s.failureCounts key failures }

def check (config : HealthCheckConfig) (serviceName nodeName : Bytes) (alive : Bool) (now : Int)
    (s : CheckedRouter) : CheckedRouter :=
  let key := countKey serviceName nodeName
  match s.router.stateOf serviceName nodeName with
  | none => s
  | some .draining =>
    if config.drainTimeout < now - s.lastHeartbeat serviceName nodeName then
      s.mark .unhealthy serviceName nodeName
    else s
  | some state =>
    if alive then
      let count := s.successCounts key + 1
      if state = .unhealthy ∧ config.recoveryThreshold ≤ count then
        ((s.mark .healthy serviceName nodeName).setCounts key 0 0).beat serviceName nodeName now
      else (s.setCounts key count 0).beat serviceName nodeName now
    else
      let count := s.failureCounts key + 1
      if config.failureThreshold ≤ count then
        (s.mark .unhealthy serviceName nodeName).setCounts key 0 count
      else s.setCounts key 0 count

/-- A call, with the instance that is watched. -/
def step (config : HealthCheckConfig) (service node : Bytes) (s : CheckedRouter) :
    RouterCall → CheckedRouter
  | .registerService serviceName inst now =>
    { s with
      router := s.router.registerService serviceName inst
      drained := s.drained && !decide (serviceName = service ∧ inst.node.nodeName = node) }.beat
        serviceName inst.node.nodeName now
  | .deregisterService serviceName nodeName =>
    { s with router := s.router.deregisterService serviceName nodeName }
  | .discover serviceName => { s with router := (s.router.discover serviceName).2 }
  | .markHealthy serviceName nodeName =>
    { s.mark .healthy serviceName nodeName with
      drained := s.drained && !decide (serviceName = service ∧ nodeName = node) }
  | .markUnhealthy serviceName nodeName => s.mark .unhealthy serviceName nodeName
  | .startDrain serviceName nodeName now =>
    -- an instance that there is not has no heartbeat either
    { (s.mark .draining serviceName nodeName).beat serviceName nodeName now with
      drained := s.drained || decide (serviceName = service ∧ nodeName = node) }
  | .check serviceName nodeName alive now => s.check config serviceName nodeName alive now

/-- A drained instance gets no traffic. -/
def NoTraffic (service node : Bytes) (s : CheckedRouter) : Prop :=
  s.drained = true → (∀ inst ∈ s.router.discoverAll service, inst.node.nodeName ≠ node) ∧
    ∀ inst, (s.router.discover service).1 = some inst → inst.node.nodeName ≠ node

/-- No successful check takes the drained instance in again. -/
def NotRecovered (config : HealthCheckConfig) (service node : Bytes) (s : CheckedRouter) :
    RouterCall → Prop
  | .check serviceName nodeName true _ =>
    s.drained = true → serviceName = service → nodeName = node →
      s.router.stateOf service node = some .unhealthy →
        s.successCounts (countKey service node) + 1 < config.recoveryThreshold
  | _ => True

def Out (service node : Bytes) (s : CheckedRouter) : Prop :=
  s.drained = true → ∀ inst ∈ s.router.discoverAll service, inst.node.nodeName ≠ node

variable {config : HealthCheckConfig} {service node serviceName nodeName : Bytes}
  {s : CheckedRouter} {state : ServiceState}

theorem Out.mark (h : s.Out service node)
    (hst : state = .healthy → serviceName = service → nodeName ≠ node) :
    (s.mark state serviceName nodeName).Out service node := by
  intro hdrain inst hinst
  rcases discoverAll_mark hinst with ⟨hold, -⟩ | ⟨hup, hservice, hnode⟩
  · exact h hdrain inst hold
  · exact hnode ▸ hst hup hservice.symm

theorem Out.check (h : s.Out service node) (alive : Bool) (now : Int)
    (hcheck : s.NotRecovered config service node (.check serviceName nodeName alive now)) :
    (s.check config serviceName nodeName alive now).Out service node := by
  have hdown : (s.mark .unhealthy serviceName nodeName).Out service node := h.mark nofun
  fun_cases CheckedRouter.check config serviceName nodeName alive now s with
  | case1 | case3 | case5 | case7 => exact h
  | case2 | case6 => exact hdown
  | case4 key state _ hfind halive count hrecovers =>
    -- the instance that is watched has not enough successes
    have hother : s.drained = true → serviceName = service → nodeName ≠ node := by
      rintro hdrain rfl rfl
      subst halive
      exact UInt32.not_lt.mpr hrecovers.2 (hcheck hdrain rfl rfl (hrecovers.1 ▸ hfind))
    exact fun hdrain => h.mark (fun _ => hother hdrain) hdrain

theorem Out.step (h : s.Out service node) {call : RouterCall}
    (hcall : s.NotRecovered config service node call) :
    (s.step config service node call).Out service node := by
  cases call with
  | registerService serviceName inst =>
    intro hdrain found hfind hnode
    obtain ⟨hpre, hother⟩ :
        s.drained = true ∧ ¬(serviceName = service ∧ inst.node.nodeName = node) := by
      simpa [CheckedRouter.step, beat, imp_iff_not_or] using hdrain
    rcases discoverAll_registerService hfind with hold | ⟨hservice, hnew⟩
    · exact h hpre found hold hnode
    · exact hother ⟨hservice.symm, hnew ▸ hnode⟩
  | deregisterService =>
    exact fun hdrain found hfind => h hdrain found (discoverAll_deregisterService hfind)
  | discover serviceName =>
    intro hdrain found hfind
    exact h hdrain found (discoverAll_discover serviceName service s.router ▸ hfind)
  | markHealthy serviceName nodeName =>
    intro hdrain found hfind
    obtain ⟨hpre, hother⟩ : s.drained = true ∧ ¬(serviceName = service ∧ nodeName = node) := by
      simpa [CheckedRouter.step, imp_iff_not_or] using hdrain
    exact h.mark (fun _ hservice hnode => hother ⟨hservice, hnode⟩) hpre found hfind
  | markUnhealthy => exact h.mark nofun
  | startDrain serviceName nodeName =>
    intro hdrain found hfind
    rcases discoverAll_mark hfind with ⟨hold, hne⟩ | ⟨hst, -⟩
    · have hcases : s.drained = true ∨ serviceName = service ∧ nodeName = node := by
        simpa [CheckedRouter.step] using hdrain
      rcases hcases with hpre | ⟨rfl, rfl⟩
      · exact h hpre found hold
      · exact hne rfl
    · cases hst
  | check serviceName nodeName alive now => exact h.check alive now hcall

theorem Out.noTraffic (h : s.Out service node) : s.NoTraffic service node := by
  refine fun hdrain => ⟨h hdrain, fun inst hinst => ?_⟩
  by_cases hnil : s.router.discoverAll service = []
  · rw [discover_none hnil] at hinst
    cases hinst
  · obtain ⟨found, hmem, hfind⟩ := discover_mem hnil
    rw [hfind] at hinst
    exact Option.some.inj hinst ▸ h hdrain found hmem

/-- A drained instance gets no traffic in every run in which no health check takes it in again. -/
theorem drained_gets_no_traffic (config : HealthCheckConfig) (service node : Bytes)
    (calls : List RouterCall)
    (h : Along (step config service node) (NotRecovered config service node) {} calls) :
    Always (step config service node) (NoTraffic service node) {} calls := by
  have hinit : Out service node {} := nofun
  exact h.always (fun _ _ hs => hs.step) (fun _ hs => hs.noTraffic) hinit

/-- The instance is drained, and the timeout has passed. -/
def drainBattleNode : List RouterCall :=
  [.registerService (ascii "battle") { node := { host := [], nodeName := ascii "b1" } } 0,
    .check (ascii "battle") (ascii "b1") true 1, .startDrain (ascii "battle") (ascii "b1") 2,
    .check (ascii "battle") (ascii "b1") true 40000]

theorem drained_gets_no_traffic_b1 :
    Always (step {} (ascii "battle") (ascii "b1")) (NoTraffic (ascii "battle") (ascii "b1")) {}
      drainBattleNode :=
  drained_gets_no_traffic _ _ _ _ (by
    simp only [drainBattleNode, along_cons, along_nil, NotRecovered, and_true, true_and]
    decide +kernel)

/-- The next check finds the node alive, and the success from before the drain counts. -/
theorem drained_node_recovered :
    ¬ Always (step {} (ascii "battle") (ascii "b1")) (NoTraffic (ascii "battle") (ascii "b1")) {}
      (drainBattleNode ++ [.check (ascii "battle") (ascii "b1") true 45000]) := by
  intro h
  have hlast := h _ [] (List.append_nil _).symm (by decide +kernel)
  exact hlast.1 { node := { host := [], nodeName := ascii "b1" }, state := .healthy }
    (List.mem_of_mem_head? rfl) rfl

end CheckedRouter

end BoostGateway.Gateway
