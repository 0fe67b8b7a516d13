import BoostGateway.Gateway.ConnectionPool

/-!
# Where pooled connections lead

A pool of a node is found by the key of the node, and a connection in it leads to the address that
the node had when it was opened. The two agree as long as no key is registered again with another
address. The size of the pools is kept in every run.
-/

namespace BoostGateway.Gateway

open Option List ClusterRouter ServiceBridge

/-! ## Healthy instances -/

variable {serviceName other : Bytes} {found : ServiceInstance} {router : ClusterRouter}

theorem mem_healthy {b : ServiceBridge} {svc : ServiceId} : found ∈ b.healthy svc ↔
    ∃ router, b.clusterRouter = some router ∧ found ∈ router.discoverAll (serviceNameFor svc) := by
  unfold healthy
  cases b.clusterRouter <;> simp

theorem mem_discoverAll_insert {entry : RouteEntry}
    (h : found ∈ discoverAll other { routes := router.routes.insert serviceName entry }) :
    found ∈ router.discoverAll other ∨ other = serviceName ∧ found ∈ entry.healthy := by
  by_cases hother : other = serviceName
  · subst hother
    rw [discoverAll, AList.lookup_insert] at h
    exact .inr ⟨rfl, h⟩
  · rw [discoverAll, AList.lookup_insert_ne hother] at h
    exact .inl h

theorem discoverAll_registerService {inst : ServiceInstance}
    (h : found ∈ (router.registerService serviceName inst).discoverAll other) :
    found ∈ router.discoverAll other ∨ other = serviceName ∧ found.node = inst.node := by
  dsimp only [registerService] at h
  generalize hinst : (if inst.state = .unknown then { inst with state := .healthy } else inst) =
    registered at h
  have hnode : registered.node = inst.node := by
    rw [← hinst]
    split <;> rfl
  rcases mem_discoverAll_insert h with hold | ⟨rfl, hfind⟩
  · exact .inl hold
  obtain ⟨hmem, hup⟩ := mem_filter.mp hfind
  have hcases : found ∈ ((router.routes.lookup other).getD {}).instances ∨ found = registered := by
    dsimp only [RouteEntry.register] at hmem
    split at hmem
    · obtain ⟨old, hold, rfl⟩ := mem_map.mp hmem
      split
      · exact .inr rfl
      · exact .inl hold
    · rcases mem_append.mp hmem with hold | hnew
      · exact .inl hold
      · exact .inr (mem_singleton.mp hnew)
  rcases hcases with hold | rfl
  · left
    rw [discoverAll]
    cases hentry : router.routes.lookup other with
    | none => simp [hentry] at hold
    | some =>
      rw [hentry] at hold
      exact mem_filter.mpr ⟨hold, hup⟩
  · exact .inr ⟨rfl, hnode⟩

theorem discoverAll_deregisterService {name : Bytes}
    (h : found ∈ (router.deregisterService serviceName name).discoverAll other) :
    found ∈ router.discoverAll other := by
  unfold deregisterService at h
  cases hentry : router.routes.lookup serviceName with
  | none => rwa [hentry] at h
  | some =>
    rw [hentry] at h
    rcases mem_discoverAll_insert h with hold | ⟨rfl, hfind⟩
    · exact hold
    · obtain ⟨hmem, hup⟩ := mem_filter.mp hfind
      rw [discoverAll, hentry]
      exact mem_filter.mpr ⟨(mem_filter.mp hmem).1, hup⟩

/-- A mark takes out the instance, unless it marks it healthy. -/
theorem discoverAll_mark {state : ServiceState} {nodeName : Bytes}
    (h : found ∈ (router.mark state serviceName nodeName).discoverAll other) :
    (found ∈ router.discoverAll other ∧
      (other = serviceName → found.node.nodeName ≠ nodeName)) ∨
      state = .healthy ∧ other = serviceName ∧ found.node.nodeName = nodeName := by
  unfold mark at h
  cases hentry : router.routes.lookup serviceName with
  | none =>
    rw [hentry] at h
    refine .inl ⟨h, fun hother => ?_⟩
    rw [hother, discoverAll, hentry] at h
    cases h
  | some entry =>
    rw [hentry] at h
    by_cases hother : other = serviceName
    · subst hother
      rw [discoverAll, AList.lookup_insert] at h
      obtain ⟨hmem, hup⟩ := mem_filter.mp h
      obtain ⟨old, hold, rfl⟩ := mem_map.mp hmem
      split at hup
      · rename_i heq
        exact .inr ⟨of_decide_eq_true hup, rfl, by rw [if_pos heq, heq]⟩
      · rename_i hne
        rw [if_neg hne, discoverAll, hentry]
        exact .inl ⟨mem_filter.mpr ⟨hold, hup⟩, fun _ => hne⟩
    · rw [discoverAll, AList.lookup_insert_ne hother] at h
      exact .inl ⟨h, fun heq => absurd heq hother⟩

/-- A backend is configured, or a healthy instance. -/
theorem resolveBackend_cases {svc : ServiceId} {key : Bytes} {b : ServiceBridge}
    {tgt : ResolvedBackend} (h : (b.resolveBackend svc key).1 = some tgt) :
    b.fallback svc = some tgt ∨ ∃ inst ∈ b.healthy svc, tgt = backendOf inst := by
  unfold resolveBackend at h
  split at h
  · cases h
  split at h
  · exact .inl h
  rename_i router hrouter
  dsimp only at h
  split at h
  · rename_i inst hchosen
    refine .inr ⟨inst, ?_, (Option.some.inj h).symm⟩
    rw [healthy, hrouter]
    by_cases hne : router.discoverAll (serviceNameFor svc) = []
    · rw [chooseNode_none svc key b.shardRouter hne] at hchosen
      cases hchosen
    · obtain ⟨found, hmem, hfind⟩ := chooseNode_mem svc key b.shardRouter hne
      rw [hfind] at hchosen
      exact Option.some.inj hchosen ▸ hmem
  · exact .inl h

namespace BridgeState

/-! ## The size of the pools -/

def PoolsBounded (poolSize : Nat) (s : BridgeState) : Prop :=
  ∀ p, (s.pools p).connections.length ≤ poolSize

variable {s s' : BridgeState} {poolSize : Nat}
variable {poolId : PoolId}

theorem PoolsBounded.set (h : s.PoolsBounded poolSize) {pool : Pool}
    (hpool : pool.connections.length ≤ poolSize)
    (hpools : ∀ p, s'.pools p = if p = poolId then pool else s.pools p) :
    s'.PoolsBounded poolSize := fun p => by
  rw [hpools]
  split
  · exact hpool
  · exact h p

theorem moveInto_pools (poolId : PoolId) (conn : ConnectionId) (dropped : Option ConnectionId) :
    (s.moveInto poolId conn dropped).pools = s.pools := by cases dropped <;> rfl

theorem PoolsBounded.step (h : s.PoolsBounded poolSize) (hsize : 0 < poolSize)
    (event : BridgeEvent) : (s.step poolSize event).PoolsBounded poolSize := by
  cases event with
  | start =>
    dsimp only [BridgeState.step]
    split <;> exact h
  | resolve =>
    refine advance_cases h fun call hcall => ?_
    split <;> exact h
  | select =>
    refine advance_cases h fun call hcall => ?_
    dsimp only
    split
    · refine h.set ?_ fun _ => rfl
      rw [Pool.select_connections]
      exact h _
    · exact h
  | connect id ok | send id answered | recover id =>
    refine advance_cases h fun call hcall => ?_
    split
    · split <;> exact h
    · exact h
  | store id =>
    refine advance_cases h fun call hcall => ?_
    split
    · rename_i target conn hstage
      generalize poolFor call.service target = poolId
      refine h.set ?_ fun p => by
        dsimp only [setCall, setPool]
        rw [moveInto_pools]
      have hcase := Pool.store_case (fun conn => (s.objects conn).connected) hsize conn
        (s.pools poolId)
      generalize (s.pools poolId).store (fun conn => (s.objects conn).connected) poolSize conn =
        stored at hcase ⊢
      cases hcase with
      | added _ hspace =>
        rw [length_append]
        exact hspace
      | replaced =>
        rw [length_set]
        exact h poolId
      | reused => exact h poolId
    · exact h
  | register | deregister => exact h
  | update =>
    intro p
    dsimp only [BridgeState.step, update]
    split
    · exact Nat.zero_le _
    · exact h p

/-! ## Addresses -/

/-- The configured address, or that of a node with the pool's key. -/
def PoolAddress (s : BridgeState) (poolId : PoolId) (config : BackendConfig) : Prop :=
  match poolId.2 with
  | none => s.bridge.slotConfig poolId.1 = some config
  | some key =>
    ∃ node, (serviceNameFor poolId.1, node) ∈ s.known ∧ connectionKeyFor node = key ∧
      config = { host := node.host, port := node.port }

/-- The backend is current, and the connection leads to it. -/
def CallAddressed (s : BridgeState) (call : Call) : Prop :=
  match call.stage with
  | .resolved target | .connecting target =>
    s.PoolAddress (poolFor call.service target) target.config
  | .opened target conn | .holding target conn =>
    s.PoolAddress (poolFor call.service target) target.config ∧ conn < s.created ∧
      (s.objects conn).config = target.config
  | .resolving | .failed _ => True

def KeysConsistent (known : List (Bytes × NodeId)) : Prop :=
  ∀ name node node', (name, node) ∈ known → (name, node') ∈ known →
    connectionKeyFor node = connectionKeyFor node' → node.host = node'.host ∧ node.port = node'.port

def Registered (s : BridgeState) : Prop :=
  ∀ service, ∀ inst ∈ s.bridge.healthy service, (serviceNameFor service, inst.node) ∈ s.known

structure Addressed (s : BridgeState) : Prop where
  slots : ∀ service, s.bridge.slotConfig service = s.bridge.slotConfig (slotFor service)
  consistent : KeysConsistent s.known
  registered : s.Registered
  pools : ∀ p, ∀ conn ∈ (s.pools p).connections,
    conn < s.created ∧ s.PoolAddress p (s.objects conn).config
  calls : ∀ id call, s.calls id = some call → s.CallAddressed call

structure Stays (s s' : BridgeState) : Prop where
  slots : s'.bridge.slotConfig = s.bridge.slotConfig
  known : ∀ entry ∈ s.known, entry ∈ s'.known
  created : s.created ≤ s'.created
  config : ∀ conn, conn < s.created → (s'.objects conn).config = (s.objects conn).config

theorem PoolAddress.unique (hcons : KeysConsistent s.known) {config config' : BackendConfig}
    (h : s.PoolAddress poolId config) (h' : s.PoolAddress poolId config') : config = config' := by
  obtain ⟨service, key⟩ := poolId
  cases key with
  | none => exact Option.some.inj (h.symm.trans h')
  | some =>
    obtain ⟨node, hknown, hkey, rfl⟩ := h
    obtain ⟨node', hknown', hkey', rfl⟩ := h'
    obtain ⟨hhost, hport⟩ := hcons _ node node' hknown hknown' (hkey.trans hkey'.symm)
    rw [hhost, hport]

theorem PoolAddress.stays (hstays : Stays s s') {config : BackendConfig}
    (h : s.PoolAddress poolId config) : s'.PoolAddress poolId config := by
  obtain ⟨service, key⟩ := poolId
  cases key with
  | none => exact (congrFun hstays.slots service).trans h
  | some =>
    obtain ⟨node, hknown, hnode⟩ := h
    exact ⟨node, hstays.known _ hknown, hnode⟩

theorem CallAddressed.stays (hstays : Stays s s') {call : Call} (h : s.CallAddressed call) :
    s'.CallAddressed call := by
  have hconn : ∀ {tgt : ResolvedBackend} {conn : ConnectionId},
      s.PoolAddress (poolFor call.service tgt) tgt.config ∧ conn < s.created ∧
        (s.objects conn).config = tgt.config →
      s'.PoolAddress (poolFor call.service tgt) tgt.config ∧ conn < s'.created ∧
        (s'.objects conn).config = tgt.config := fun ⟨haddr, hlt, hcfg⟩ =>
    ⟨haddr.stays hstays, Nat.lt_of_lt_of_le hlt hstays.created, (hstays.config _ hlt).trans hcfg⟩
  unfold CallAddressed at h ⊢
  split at h <;> rename_i hstage
  · exact h.stays hstays
  · exact h.stays hstays
  · exact hconn h
  · exact hconn h
  · trivial
  · trivial

/-- A step that moves no configuration or connection. -/
theorem Addressed.of_stays (h : s.Addressed) (hstays : Stays s s') (hcons : KeysConsistent s'.known)
    (hregistered : s'.Registered)
    (hpools : ∀ p, ∀ conn ∈ (s'.pools p).connections, conn ∈ (s.pools p).connections ∨
      conn < s'.created ∧ s'.PoolAddress p (s'.objects conn).config)
    (hcalls : ∀ id call, s'.calls id = some call → s.calls id = some call ∨ s'.CallAddressed call) :
    s'.Addressed where
  slots := by
    rw [hstays.slots]
    exact h.slots
  consistent := hcons
  registered := hregistered
  pools p conn hconn := by
    rcases hpools p conn hconn with hold | hnew
    · obtain ⟨hlt, haddr⟩ := h.pools p conn hold
      rw [hstays.config conn hlt]
      exact ⟨Nat.lt_of_lt_of_le hlt hstays.created, haddr.stays hstays⟩
    · exact hnew
  calls id call hcall := by
    rcases hcalls id call hcall with hold | hnew
    · exact (h.calls id call hold).stays hstays
    · exact hnew

/-! ## Steps -/

theorem serviceNameFor_slotFor (service : ServiceId) :
    serviceNameFor (slotFor service) = serviceNameFor service := by cases service <;> rfl

theorem calls_set {id : Nat} {next : Option Call} {calls : Nat → Option Call}
    {P : Call → Prop} (hnext : ∀ call, next = some call → P call) :
    ∀ other call, (if other = id then next else calls other) = some call →
      calls other = some call ∨ P call := by
  intro other call hcall
  split at hcall
  · exact .inr (hnext call hcall)
  · exact .inl hcall

theorem config_setObject (conn : ConnectionId) (object : BackendConnection)
    (hcfg : object.config = (s.objects conn).config) (other : ConnectionId) :
    ((s.setObject conn object).objects other).config = (s.objects other).config := by
  dsimp only [setObject]
  split
  · rename_i heq
    rw [heq, hcfg]
  · rfl

section

variable (h : s.Addressed)

include h

theorem Addressed.of_setCall (id : Nat) {next : Option Call}
    (hnext : ∀ call, next = some call → s.CallAddressed call) : (s.setCall id next).Addressed :=
  h.of_stays ⟨rfl, fun _ hmem => hmem, le_rfl, fun _ _ => rfl⟩ h.consistent h.registered
    (fun _ _ hmem => .inl hmem) (calls_set hnext)

theorem Addressed.of_close (conn : ConnectionId) : (s.close conn).Addressed :=
  h.of_stays ⟨rfl, fun _ hmem => hmem, le_rfl, fun _ _ => config_setObject conn _ (by rfl) _⟩
    h.consistent h.registered (fun _ _ hmem => .inl hmem) fun _ _ hcall => .inl hcall

theorem poolAddress_of_resolve {svc : ServiceId} {key : Bytes}
    {tgt : ResolvedBackend} (htarget : (s.bridge.resolveBackend svc key).1 = some tgt) :
    s.PoolAddress (poolFor svc tgt) tgt.config := by
  rcases resolveBackend_cases htarget with hfallback | ⟨inst, hmem, rfl⟩
  · obtain ⟨config, hcfg, rfl⟩ := map_eq_some_iff.mp hfallback
    exact (h.slots svc).symm.trans hcfg
  · refine ⟨inst.node, ?_, rfl, rfl⟩
    have hknown := h.registered svc inst hmem
    rwa [← serviceNameFor_slotFor] at hknown

omit h in
theorem resolveBackend_slotConfig (service : ServiceId) (shardKey : Bytes) (b : ServiceBridge) :
    (b.resolveBackend service shardKey).2.slotConfig = b.slotConfig := by
  unfold resolveBackend
  split
  · rfl
  split
  · rfl
  · dsimp only
    split <;> rfl

theorem Addressed.resolve (id : Nat) : (s.resolve id).Addressed := by
  refine advance_cases h fun call hcall => ?_
  split
  swap
  · exact h
  have hstays : Stays s ({ s with
      bridge := (s.bridge.resolveBackend call.service call.shardKey).2 }.setCall id
        ((s.bridge.resolveBackend call.service call.shardKey).1.map fun tgt =>
          { call with stage := .resolved tgt })) :=
    ⟨resolveBackend_slotConfig .., fun _ hmem => hmem, le_rfl, fun _ _ => rfl⟩
  refine h.of_stays hstays h.consistent (fun svc inst hmem => ?_) (fun _ _ hmem => .inl hmem)
    (calls_set fun call' hcall' => ?_)
  · have hup := (resolveBackend_sameCluster call.service call.shardKey s.bridge).healthy svc
    exact h.registered svc inst (hup ▸ hmem)
  · obtain ⟨tgt, htarget, rfl⟩ := map_eq_some_iff.mp hcall'
    exact (poolAddress_of_resolve h htarget).stays hstays

theorem Addressed.select (id : Nat) (busy : ConnectionId → Bool) :
    (s.select poolSize id busy).Addressed := by
  refine advance_cases h fun call hcall => ?_
  dsimp only
  split
  swap
  · exact h
  rename_i target hstage
  have haddr : s.PoolAddress (poolFor call.service target) target.config := by
    have hcall := h.calls id call hcall
    rwa [CallAddressed, hstage] at hcall
  generalize hselected : (s.pools (poolFor call.service target)).select (s.availability busy)
    poolSize = selected
  have hconnections : selected.2.connections =
      (s.pools (poolFor call.service target)).connections := by
    rw [← hselected]
    exact Pool.select_connections ..
  refine h.of_stays ⟨rfl, fun _ hmem => hmem, le_rfl, fun _ _ => rfl⟩ h.consistent h.registered
    (fun p conn hmem => .inl ?_) (calls_set fun call' hcall' => ?_)
  · dsimp only [setCall, setPool] at hmem
    split at hmem
    · rename_i heq
      rw [heq]
      rwa [hconnections] at hmem
    · exact hmem
  · cases hcall'
    cases hconn : selected.1 with
    | none => exact haddr
    | some conn =>
      -- the connection was opened to the address of its pool, and there is only one
      have hmem := Pool.select_some (hselected ▸ hconn)
      obtain ⟨hlt, hcfg⟩ := h.pools _ conn hmem
      exact ⟨haddr, hlt, hcfg.unique h.consistent haddr⟩

theorem Addressed.connect (id : Nat) (ok : Bool) : (s.connect id ok).Addressed := by
  refine advance_cases h fun call hcall => ?_
  split
  swap
  · exact h
  rename_i target hstage
  have haddr : s.PoolAddress (poolFor call.service target) target.config := by
    have hcall := h.calls id call hcall
    rwa [CallAddressed, hstage] at hcall
  split
  · have hstays : Stays s ({ s.setObject s.created
        { config := target.config, connected := true, owner := .call id } with
          created := s.created + 1 }.setCall id
            (some { call with stage := .opened target s.created })) := by
      refine ⟨rfl, fun _ hmem => hmem, Nat.le_succ _, fun conn hlt => ?_⟩
      dsimp only [setCall, setObject]
      rw [if_neg (Nat.ne_of_lt hlt)]
    refine h.of_stays hstays h.consistent h.registered (fun _ _ hmem => .inl hmem)
      (calls_set fun call' hcall' => ?_)
    cases hcall'
    refine ⟨haddr.stays hstays, Nat.lt_succ_self _, ?_⟩
    dsimp only [setCall, setObject]
    rw [if_pos rfl]
  · refine h.of_stays ⟨rfl, fun _ hmem => hmem, le_rfl, fun _ _ => rfl⟩ h.consistent
      (fun service inst hmem => ?_) (fun _ _ hmem => .inl hmem) (calls_set nofun)
    refine h.registered service inst (mem_healthy.mpr ?_)
    obtain ⟨_, hafter, hmem⟩ := mem_healthy.mp hmem
    split at hafter
    · obtain ⟨router, hrouter, rfl⟩ := map_eq_some_iff.mp hafter
      exact ⟨router, hrouter, ((discoverAll_mark hmem).resolve_right fun hnew => nomatch hnew.1).1⟩
    · exact ⟨_, hafter, hmem⟩

omit h in
theorem moveInto_stays (poolId : PoolId) (conn : ConnectionId) (dropped : Option ConnectionId) :
    (s.moveInto poolId conn dropped).bridge = s.bridge ∧
      (s.moveInto poolId conn dropped).known = s.known ∧
      (s.moveInto poolId conn dropped).created = s.created ∧
      (s.moveInto poolId conn dropped).calls = s.calls ∧
      ∀ other, ((s.moveInto poolId conn dropped).objects other).config =
        (s.objects other).config := by
  have howned := config_setObject (s := s) conn { s.objects conn with owner := .pool poolId } rfl
  cases dropped with
  | none => exact ⟨rfl, rfl, rfl, rfl, howned⟩
  | some old =>
    exact ⟨rfl, rfl, rfl, rfl,
      fun other => (config_setObject old _ (by rfl) _).trans (howned other)⟩

theorem Addressed.store (hsize : 0 < poolSize) (id : Nat) : (s.store poolSize id).Addressed := by
  refine advance_cases h fun call hcall => ?_
  split
  swap
  · exact h
  rename_i target conn hstage
  have haddress := h.calls id call hcall
  rw [CallAddressed, hstage] at haddress
  obtain ⟨haddr, hlt, hcfg⟩ := haddress
  dsimp only
  generalize hpoolId : poolFor call.service target = poolId at haddr ⊢
  have hcase := Pool.store_case (fun conn => (s.objects conn).connected) hsize conn (s.pools poolId)
  generalize (s.pools poolId).store (fun conn => (s.objects conn).connected) poolSize conn =
    stored at hcase ⊢
  obtain ⟨hbridge, hknown, hcreates, hcalls, hobjects⟩ :=
    moveInto_stays (s := s) poolId conn stored.destroyed
  have hpools := moveInto_pools (s := s) poolId conn stored.destroyed
  generalize s.moveInto poolId conn stored.destroyed = moved at *
  have hstays : Stays s ((moved.setPool poolId stored.pool).setCall id
      (some { call with stage := .holding target stored.returned })) :=
    ⟨congrArg (·.slotConfig) hbridge, fun _ hmem => by rwa [← hknown] at hmem,
      Nat.le_of_eq hcreates.symm, fun other _ => hobjects other⟩
  refine h.of_stays hstays (hknown.symm ▸ h.consistent) (fun svc inst hmem => ?_)
    (fun p other hmem => ?_) (fun other call' hcall' => ?_)
  · exact hknown.symm ▸ h.registered svc inst (hbridge ▸ hmem)
  · dsimp only [setCall, setPool] at hmem
    split at hmem
    swap
    · exact .inl (hpools ▸ hmem)
    rename_i heq
    subst heq
    have hnew : other = conn ∨ other ∈ (s.pools p).connections := by
      cases hcase with
      | added => simpa [or_comm] using hmem
      | replaced => exact (mem_or_eq_of_mem_set hmem).symm
      | reused => exact .inr hmem
    rcases hnew with rfl | hold
    · refine .inr ⟨hcreates.symm ▸ hlt, ?_⟩
      have hsame : (moved.objects other).config = target.config := (hobjects other).trans hcfg
      exact hsame.symm ▸ haddr.stays hstays
    · exact .inl hold
  · dsimp only [setCall, setPool] at hcall'
    rw [hcalls] at hcall'
    refine calls_set (fun call' hcall' => ?_) other call' hcall'
    cases hcall'
    have hreturned : stored.returned < s.created ∧
        (s.objects stored.returned).config = target.config := by
      cases hcase with
      | added | replaced => exact ⟨hlt, hcfg⟩
      | reused _ _ hmem =>
        obtain ⟨hlt, hother⟩ := h.pools poolId _ hmem
        exact ⟨hlt, hother.unique h.consistent haddr⟩
    refine ⟨hpoolId.symm ▸ haddr.stays hstays, hcreates.symm ▸ hreturned.1, ?_⟩
    exact (hobjects _).trans hreturned.2

omit h in
/-- No key gets another address, and no configuration changes. -/
def KeepsAddress (s : BridgeState) : BridgeEvent → Prop
  | .register serviceName inst =>
    ∀ node, (serviceName, node) ∈ s.known → connectionKeyFor node = connectionKeyFor inst.node →
      node.host = inst.node.host ∧ node.port = inst.node.port
  | .update _ _ => False
  | _ => True

omit h in
instance (event : BridgeEvent) : Decidable (s.KeepsAddress event) :=
  match event with
  | .register serviceName inst =>
    decidable_of_iff (∀ record ∈ s.known, record.1 = serviceName →
        connectionKeyFor record.2 = connectionKeyFor inst.node →
        record.2.host = inst.node.host ∧ record.2.port = inst.node.port)
      ⟨fun h _ hmem => h _ hmem rfl, fun h record hmem hname => h record.2 (hname ▸ hmem)⟩
  | .update .. => isFalse id
  | .start .. | .resolve .. | .select .. | .connect .. | .store .. | .send .. | .recover ..
  | .deregister .. => isTrue trivial

theorem Addressed.register (serviceName : Bytes) (inst : ServiceInstance)
    (hkeeps : s.KeepsAddress (.register serviceName inst)) :
    (s.step poolSize (.register serviceName inst)).Addressed := by
  refine h.of_stays ⟨rfl, fun _ hmem => mem_cons_of_mem _ hmem, le_rfl, fun _ _ => rfl⟩ ?_
    (fun svc found hmem => ?_) (fun _ _ hmem => .inl hmem) fun _ _ hcall => .inl hcall
  · intro name node node' hnode hnode' hkey
    rcases mem_cons.mp hnode with hnew | hold <;>
      rcases mem_cons.mp hnode' with hnew' | hold'
    · obtain ⟨-, rfl⟩ := Prod.mk.inj hnew
      obtain ⟨-, rfl⟩ := Prod.mk.inj hnew'
      exact ⟨rfl, rfl⟩
    · cases hnew
      obtain ⟨hhost, hport⟩ := hkeeps node' hold' hkey.symm
      exact ⟨hhost.symm, hport.symm⟩
    · cases hnew'
      exact hkeeps node hold hkey
    · exact h.consistent name node node' hold hold' hkey
  · obtain ⟨_, hafter, hmem⟩ := mem_healthy.mp hmem
    obtain ⟨router, hrouter, rfl⟩ := map_eq_some_iff.mp hafter
    rcases discoverAll_registerService hmem with hold | ⟨hname, hnode⟩
    · refine mem_cons_of_mem _ (h.registered svc found ?_)
      exact mem_healthy.mpr ⟨router, hrouter, hold⟩
    · rw [hname, hnode]
      exact mem_cons_self

theorem Addressed.deregister (serviceName name : Bytes) :
    (s.step poolSize (.deregister serviceName name)).Addressed := by
  refine h.of_stays ⟨rfl, fun _ hmem => hmem, le_rfl, fun _ _ => rfl⟩ h.consistent
    (fun svc found hmem => h.registered svc found ?_) (fun _ _ hmem => .inl hmem)
    fun _ _ hcall => .inl hcall
  obtain ⟨_, hafter, hmem⟩ := mem_healthy.mp hmem
  obtain ⟨router, hrouter, rfl⟩ := map_eq_some_iff.mp hafter
  exact mem_healthy.mpr ⟨router, hrouter, discoverAll_deregisterService hmem⟩

theorem Addressed.step (hsize : 0 < poolSize) (event : BridgeEvent)
    (hkeeps : s.KeepsAddress event) : (s.step poolSize event).Addressed := by
  cases event with
  | start id =>
    dsimp only [BridgeState.step]
    split
    · exact h.of_setCall id (by rintro _ ⟨⟩; trivial)
    · exact h
  | resolve id => exact h.resolve id
  | select => exact h.select ..
  | connect => exact h.connect ..
  | store id => exact h.store hsize id
  | send id answered | recover id =>
    refine advance_cases h fun call hcall => ?_
    split
    · split
      · exact h.of_setCall id nofun
      · exact (h.of_close _).of_setCall id (by rintro _ ⟨⟩; trivial)
    · exact h
  | register => exact h.register _ _ hkeeps
  | deregister => exact h.deregister ..
  | update => exact hkeeps.elim

/-! ## Runs -/

omit h in
/-- A call's connection leads to its backend. -/
def LeadsToBackend (s : BridgeState) : Prop :=
  ∀ id call target conn, s.calls id = some call → call.stage = .holding target conn →
    (s.objects conn).config = target.config

theorem Addressed.leadsToBackend : s.LeadsToBackend := by
  intro id call tgt conn hcall hstage
  have haddressed := h.calls id call hcall
  rw [CallAddressed, hstage] at haddressed
  exact haddressed.2.2

end

/-- A bridge without connections and instances. -/
def initial (bridge : ServiceBridge) : BridgeState where
  bridge :=
    { bridge with
      clusterRouter := bridge.clusterRouter.map fun _ => {}
      slotConfig := fun service => bridge.slotConfig (slotFor service) }

theorem addressed_initial (bridge : ServiceBridge) : (initial bridge).Addressed where
  slots service := by cases service <;> rfl
  consistent _ _ _ hmem := absurd hmem not_mem_nil
  registered service inst hmem := by
    obtain ⟨_, hrouter, hmem⟩ := mem_healthy.mp hmem
    obtain ⟨_, -, rfl⟩ := map_eq_some_iff.mp hrouter
    cases hmem
  pools _ _ hmem := absurd hmem not_mem_nil
  calls _ _ hcall := by cases hcall

/-- No pool outgrows its size, and connections lead to the backends they are returned for if a key
keeps its address. -/
theorem pooled_connections_lead_to_backend (parsed : Option Nat) (bridge : ServiceBridge)
    (events : List BridgeEvent) :
    Always (step (backendConnectionPoolSize parsed))
        (PoolsBounded (backendConnectionPoolSize parsed)) (initial bridge) events ∧
      (Along (step (backendConnectionPoolSize parsed)) KeepsAddress (initial bridge) events →
        Always (step (backendConnectionPoolSize parsed)) LeadsToBackend (initial bridge)
          events) := by
  have hsize := backendConnectionPoolSize_pos parsed
  have hbounded : (initial bridge).PoolsBounded (backendConnectionPoolSize parsed) :=
    fun _ => Nat.zero_le _
  constructor
  · exact .of_invariant (fun _ event hs => hs.step hsize event) (fun _ hs => hs) hbounded
  · intro hkeeps
    exact hkeeps.always (fun _ event hs => hs.step hsize event) (fun _ hs => hs.leadsToBackend)
      (addressed_initial bridge)

def battleNode (port : UInt16) : ServiceInstance where
  node := { host := ascii "10.0.0.1", port, nodeName := ascii "battle-1" }

def callEvents (id : Nat) : List BridgeEvent :=
  [.start id .battle [], .resolve id, .select id fun _ => false, .connect id true, .store id]

/-- A node is registered before each of two calls. -/
def registeredAgain (port : UInt16) : List BridgeEvent :=
  [.register (ascii "battle") (battleNode 9303)] ++ callEvents 0 ++ [.send 0 true,
    .register (ascii "battle") (battleNode port)] ++ callEvents 1

/-- If the port is the same, the second call gets the connection of the first. -/
theorem connection_to_same_port :
    let start := initial { clusterRouter := some {} }
    (((registeredAgain 9303).foldl (step (backendConnectionPoolSize (some 1))) start).calls 1).bind
        Call.uses = some 0 ∧
      Always (step (backendConnectionPoolSize (some 1))) LeadsToBackend start
        (registeredAgain 9303) :=
  ⟨by decide +kernel, (pooled_connections_lead_to_backend (some 1) _ _).2 (by decide +kernel)⟩

/-- The node is registered again at another port, and the next call gets a connection to the old
port. -/
theorem connection_to_old_port :
    ¬∀ (parsed : Option Nat) (bridge : ServiceBridge) (events : List BridgeEvent),
      (∀ service config, BridgeEvent.update service config ∉ events) →
      Always (step (backendConnectionPoolSize parsed))
        (fun s => s.LeadsToBackend ∧ s.PoolsBounded (backendConnectionPoolSize parsed))
        (initial bridge) events := by
  intro h
  have hleads := (h (some 1) { clusterRouter := some {} } (registeredAgain 9304)
    (by simp [registeredAgain, callEvents]) _ [] (append_nil _).symm).1 1
  have hcfg := hleads
    { service := .battle
      shardKey := []
      stage := .holding (backendOf (battleNode 9304)) 0 }
    (backendOf (battleNode 9304)) 0 (by decide +kernel) rfl
  exact absurd hcfg (by decide +kernel)

end BridgeState

end BoostGateway.Gateway
