import BoostGateway.Gateway.BridgeRuntime
import BoostGateway.Gateway.Cluster

/-!
# Where a request goes

`GatewayServiceBridge::resolve_backend` chooses the node of a request by the shard key that the call
site passes, and in turn without one. `requests_meet_iff` says for which clusters the requests about
one room, and about one battle, meet at one node.
-/

namespace BoostGateway.Gateway

open List ClusterRouter

/-! ## Services and their settings -/

inductive ServiceId where
  | gateway
  | login
  | room
  | battle
  | matchmaking
  | leaderboard
  deriving DecidableEq

def serviceNameFor : ServiceId → Bytes
  | .login => ascii "login"
  | .room => ascii "room"
  | .battle => ascii "battle"
  | .matchmaking => ascii "match"
  | .leaderboard => ascii "leaderboard"
  | .gateway => ascii "login"

structure FeatureFlag where
  rolloutPercentage : UInt32 := 0
  enabled : Bool := false

structure FeatureFlags where
  flags : AList fun _ : Bytes => FeatureFlag := ∅

def hashUserId (userId : Bytes) : UInt64 :=
  userId.foldl (fun hash c => (hash ^^^ c.toUInt64) * 1099511628211) 14695981039346656037

def FeatureFlags.isEnabled (flagName userId : Bytes) (f : FeatureFlags) : Bool :=
  match f.flags.lookup flagName with
  | none => false
  | some flag =>
    if !flag.enabled then false
    else if flag.rolloutPercentage = 0 then false
    else if 100 ≤ flag.rolloutPercentage then true
    else (hashUserId userId % 100).toNat < flag.rolloutPercentage.toNat

/-- What `resolve_backend` reads of `SecurityPolicy`. -/
structure SecurityPolicy where
  requireTls : Bool := true
  loginTls : Bool := true
  roomTls : Bool := true
  battleTls : Bool := true
  matchTls : Bool := true
  leaderboardTls : Bool := true

def SecurityPolicy.tlsRequired (policy : SecurityPolicy) : ServiceId → Bool
  | .login | .gateway => policy.loginTls
  | .room => policy.roomTls
  | .battle => policy.battleTls
  | .matchmaking => policy.matchTls
  | .leaderboard => policy.leaderboardTls

structure BackendConfig where
  host : Bytes := ascii "127.0.0.1"
  port : UInt16 := 0
  deriving DecidableEq

structure ResolvedBackend where
  config : BackendConfig
  connectionKey : Bytes
  node : Option NodeId
  fromCluster : Bool
  deriving DecidableEq

/-- What `resolve_backend` reads of `GatewayServiceBridge`. -/
structure ServiceBridge where
  securityPolicy : Option SecurityPolicy := none
  featureFlags : Option FeatureFlags := none
  clusterRouter : Option ClusterRouter := none
  shardRouter : Option ShardRouter := none
  /-- The configuration of `slot_for`. -/
  slotConfig : ServiceId → Option BackendConfig := fun _ => none

/-! ## Choosing a node -/

def connectionKeyFor (node : NodeId) : Bytes :=
  if node.nodeName ≠ [] then node.nodeName
  else node.host ++ ascii ":" ++ decimal node.port.toNat

def hashToNode (instances : List ServiceInstance) (shardKey : Bytes) (virtualNodes : Nat) : Bytes :=
  match instances with
  | [] => []
  | [only] => only.node.nodeName
  | _ =>
    let ring := instances.foldl (fun ring inst => ring.addNode inst.node.nodeName)
      ({ virtualNodes } : ConsistentHashRing)
    ring.lookup shardKey

def findByNode (instances : List ServiceInstance) (nodeName : Bytes) : Option ServiceInstance :=
  instances.find? (·.node.nodeName = nodeName)

/-- The owner of a key among the healthy instances. -/
def chooseByKey (service : ServiceId) (shardKey : Bytes) (shards : ShardRouter)
    (healthy : List ServiceInstance) : Option ServiceInstance :=
  let nodeName := match service with
    | .room => shards.routeRoom shardKey
    | .battle => shards.routeBattle shardKey
    | _ => hashToNode healthy shardKey 150
  match findByNode healthy nodeName with
  | some chosen => some chosen
  | none =>
    match findByNode healthy (hashToNode healthy shardKey 150) with
    | some chosen => some chosen
    | none => healthy.head?

/-- The node that the cluster router gives for a request. -/
def chooseNode (service : ServiceId) (shardKey : Bytes) (shards : Option ShardRouter)
    (router : ClusterRouter) : Option ServiceInstance × ClusterRouter :=
  match shards with
  | some shards =>
    if shardKey ≠ [] then
      (chooseByKey service shardKey shards (router.discoverAll (serviceNameFor service)), router)
    else router.discover (serviceNameFor service)
  | none => router.discover (serviceNameFor service)

namespace ServiceBridge

/-- The service asks for TLS, and the flag for it is off. -/
def refuses (service : ServiceId) (b : ServiceBridge) : Bool :=
  match b.securityPolicy, b.featureFlags with
  | some policy, some flags =>
    policy.requireTls && policy.tlsRequired service &&
      !flags.isEnabled (ascii "v3_tls_enabled") (serviceNameFor service)
  | _, _ => false

def fallback (service : ServiceId) (b : ServiceBridge) : Option ResolvedBackend :=
  (b.slotConfig service).map fun config =>
    { config, connectionKey := ascii "__static__", node := none, fromCluster := false }

def backendOf (inst : ServiceInstance) : ResolvedBackend where
  config := { host := inst.node.host, port := inst.node.port }
  connectionKey := connectionKeyFor inst.node
  node := some inst.node
  fromCluster := true

def resolveBackend (service : ServiceId) (shardKey : Bytes) (b : ServiceBridge) :
    Option ResolvedBackend × ServiceBridge :=
  if b.refuses service then (none, b)
  else
    match b.clusterRouter with
    | none => (b.fallback service, b)
    | some router =>
      let (chosen, router') := chooseNode service shardKey b.shardRouter router
      let b' := { b with clusterRouter := some router' }
      match chosen with
      | some inst => (some (backendOf inst), b')
      | none => (b.fallback service, b')

def healthy (service : ServiceId) (b : ServiceBridge) : List ServiceInstance :=
  match b.clusterRouter with
  | none => []
  | some router => router.discoverAll (serviceNameFor service)

end ServiceBridge

/-! ## The requests of the runtime -/

namespace BackendRequest

/-- The service that the call site of a request names. -/
def service : BackendRequest → ServiceId
  | login .. | registerAccount .. | sessionClose .. => .login
  | room .. | roomList .. | roomDetail .. => .room
  | forward .. | battle .. | replayLoad .. => .battle
  | matchJoin .. | matchLeave .. | matchStatus .. => .matchmaking
  | leaderboardSubmit .. | leaderboardTop .. | leaderboardRank .. | leaderboardSettle .. =>
    .leaderboard

def shardKey : BackendRequest → Bytes
  | room (.battleFinished roomId _) => roomId
  | leaderboardSettle _ _ _ userId _ => userId
  | _ => []

/-- The room that a request creates, enters, gets ready in, leaves, or begins or ends a battle in.
-/
def aboutRoom : BackendRequest → Option Bytes
  | room (.create _ roomId _) | room (.join _ roomId) | room (.ready _ roomId _)
  | room (.startBattle _ roomId) | room (.leave _ roomId) | room (.battleFinished roomId _) =>
    some roomId
  | _ => none

/-- The battle that a request creates, plays, reads or ends. -/
def aboutBattle : BackendRequest → Option Bytes
  | forward _ (.create battleId ..) | battle (.create battleId ..) | battle (.input _ battleId ..)
  | battle (.state battleId) | battle (.finish _ battleId _) => some battleId
  | _ => none

end BackendRequest

/-- The backends of requests; a retry stands twice. -/
def ServiceBridge.resolveAll : ServiceBridge → List BackendRequest →
    List (BackendRequest × Option ResolvedBackend)
  | _, [] => []
  | b, request :: rest =>
    (request, (b.resolveBackend request.service request.shardKey).1) ::
      resolveAll (b.resolveBackend request.service request.shardKey).2 rest

/-- Requests about one thing reach one backend. -/
def MeetAt (about : BackendRequest → Option Bytes)
    (resolved : List (BackendRequest × Option ResolvedBackend)) : Prop :=
  ∀ call ∈ resolved, ∀ call' ∈ resolved, about call.1 ≠ none → about call.1 = about call'.1 →
    ∀ backend backend', call.2 = some backend → call'.2 = some backend' → backend = backend'

/-! ## Clusters with one instance -/

structure SameCluster (b b' : ServiceBridge) : Prop where
  refuses : ∀ service, b'.refuses service = b.refuses service
  fallback : ∀ service, b'.fallback service = b.fallback service
  healthy : ∀ service, b'.healthy service = b.healthy service

theorem SameCluster.refl (b : ServiceBridge) : SameCluster b b :=
  ⟨fun _ => rfl, fun _ => rfl, fun _ => rfl⟩

theorem discoverAll_chooseNode (service : ServiceId) (key : Bytes)
    (shards : Option ShardRouter) (router : ClusterRouter) (other : Bytes) :
    (chooseNode service key shards router).2.discoverAll other = router.discoverAll other := by
  unfold chooseNode
  split
  · split
    · rfl
    · exact discoverAll_discover ..
  · exact discoverAll_discover ..

open ServiceBridge

theorem resolveBackend_sameCluster (service : ServiceId) (key : Bytes) (b : ServiceBridge) :
    SameCluster b (b.resolveBackend service key).2 := by
  unfold resolveBackend
  split
  · exact .refl b
  · cases hrouter : b.clusterRouter with
    | none => exact .refl b
    | some router =>
      have hsame : SameCluster b { b with
          clusterRouter := some (chooseNode service key b.shardRouter router).2 } := by
        refine ⟨fun _ => rfl, fun _ => rfl, fun other => ?_⟩
        simp only [healthy, hrouter]
        exact discoverAll_chooseNode ..
      dsimp only
      split <;> exact hsame

theorem chooseByKey_mem {service : ServiceId} {key : Bytes} {shards : ShardRouter}
    {healthy : List ServiceInstance} (hne : healthy ≠ []) :
    ∃ inst ∈ healthy, chooseByKey service key shards healthy = some inst := by
  dsimp only [chooseByKey]
  split
  case h_1 chosen hchosen => exact ⟨chosen, mem_of_find?_eq_some hchosen, rfl⟩
  case h_2 =>
    split
    case h_1 chosen hchosen => exact ⟨chosen, mem_of_find?_eq_some hchosen, rfl⟩
    case h_2 => exact ⟨healthy.head hne, head_mem hne, List.head?_eq_some_head hne⟩

variable {router : ClusterRouter} {b b' : ServiceBridge} {service : ServiceId} {serviceName : Bytes}
  {about : BackendRequest → Option Bytes} {request : BackendRequest}

theorem discover_mem (hne : router.discoverAll serviceName ≠ []) :
    ∃ inst ∈ router.discoverAll serviceName, (router.discover serviceName).1 = some inst := by
  cases hentry : router.routes.lookup serviceName with
  | none => simp only [discoverAll, hentry, ne_eq, not_true_eq_false] at hne
  | some entry =>
    simp only [discoverAll, hentry] at hne ⊢
    simp only [discover, hentry, if_neg hne]
    have hlt : entry.roundRobinIndex.toNat % entry.healthy.length < entry.healthy.length :=
      Nat.mod_lt _ (length_pos_of_ne_nil hne)
    exact ⟨entry.healthy[entry.roundRobinIndex.toNat % entry.healthy.length],
      getElem_mem hlt, List.getElem?_eq_getElem hlt⟩

theorem chooseNode_mem (service : ServiceId) (key : Bytes) (shards : Option ShardRouter)
    (hne : router.discoverAll (serviceNameFor service) ≠ []) :
    ∃ inst ∈ router.discoverAll (serviceNameFor service),
      (chooseNode service key shards router).1 = some inst := by
  unfold chooseNode
  split
  · split
    · exact chooseByKey_mem hne
    · exact discover_mem hne
  · exact discover_mem hne

theorem discover_none (hnil : router.discoverAll serviceName = []) :
    (router.discover serviceName).1 = none := by
  cases hentry : router.routes.lookup serviceName with
  | none => simp only [discover, hentry]
  | some =>
    simp only [discoverAll, hentry] at hnil
    simp [discover, hentry, if_pos hnil]

theorem chooseNode_none (service : ServiceId) (key : Bytes) (shards : Option ShardRouter)
    (hnil : router.discoverAll (serviceNameFor service) = []) :
    (chooseNode service key shards router).1 = none := by
  unfold chooseNode
  split
  · split
    · rw [hnil]
      rfl
    · exact discover_none hnil
  · exact discover_none hnil

def ServiceBridge.Sole (service : ServiceId) (b : ServiceBridge) : Prop :=
  b.refuses service = true ∨ (b.healthy service).length ≤ 1

def ServiceBridge.soleBackend (service : ServiceId) (b : ServiceBridge) : Option ResolvedBackend :=
  if b.refuses service then none
  else
    match b.healthy service with
    | inst :: _ => some (backendOf inst)
    | [] => b.fallback service

theorem SameCluster.soleBackend_eq (h : SameCluster b b') (service : ServiceId) :
    b'.soleBackend service = b.soleBackend service := by
  simp [soleBackend, h.refuses, h.healthy, h.fallback]

theorem SameCluster.sole_iff (h : SameCluster b b') (service : ServiceId) :
    b'.Sole service ↔ b.Sole service := by rw [Sole, h.refuses, h.healthy, Sole]

theorem resolveBackend_sole (h : b.Sole service) (key : Bytes) :
    (b.resolveBackend service key).1 = b.soleBackend service := by
  unfold resolveBackend soleBackend
  split
  · rfl
  case isFalse hallow =>
    have hsole := h.resolve_left hallow
    cases hrouter : b.clusterRouter with
    | none => simp only [healthy, hrouter]
    | some router =>
      simp only [healthy, hrouter] at hsole ⊢
      cases hlist : router.discoverAll (serviceNameFor service) with
      | nil => rw [chooseNode_none service key b.shardRouter hlist]
      | cons inst rest =>
        obtain ⟨chosen, hmem, hchosen⟩ := chooseNode_mem service key b.shardRouter
          (hlist ▸ cons_ne_nil inst rest)
        rw [hlist] at hmem hsole
        have hrest : rest = [] :=
          eq_nil_of_length_eq_zero (Nat.le_zero.1 (Nat.le_of_succ_le_succ hsole))
        rw [hrest, mem_singleton] at hmem
        rw [hchosen, hmem]

theorem resolveAll_sole (hsole : b.Sole service) {reqs : List BackendRequest}
    {call : BackendRequest × Option ResolvedBackend} (hcall : call ∈ b.resolveAll reqs)
    (hservice : call.1.service = service) : call.2 = b.soleBackend service := by
  induction reqs generalizing b with
  | nil => cases hcall
  | cons request rest ih =>
    rcases mem_cons.1 hcall with rfl | hrest
    · subst hservice
      exact resolveBackend_sole hsole _
    · have hsame := resolveBackend_sameCluster request.service request.shardKey b
      rw [ih ((hsame.sole_iff service).2 hsole) hrest, hsame.soleBackend_eq]

/-! ## Clusters with several instances -/

def ServiceBridge.turn (service : ServiceId) (b : ServiceBridge) : UInt32 :=
  ((b.clusterRouter.bind fun router => router.routes.lookup (serviceNameFor service)).map
    (·.roundRobinIndex)).getD 0

theorem resolveBackend_turn (hallow : b.refuses service = false) (hne : b.healthy service ≠ []) :
    (b.resolveBackend service []).1 =
        (b.healthy service)[(b.turn service).toNat % (b.healthy service).length]?.map backendOf ∧
      (b.resolveBackend service []).2.turn service = b.turn service + 1 := by
  cases hrouter : b.clusterRouter with
  | none => simp only [healthy, hrouter, ne_eq, not_true_eq_false] at hne
  | some router =>
    simp only [healthy, hrouter] at hne ⊢
    have hchoose : chooseNode service [] b.shardRouter router =
        router.discover (serviceNameFor service) := by
      unfold chooseNode
      split <;> simp
    cases hentry : router.routes.lookup (serviceNameFor service) with
    | none => simp only [discoverAll, hentry, ne_eq, not_true_eq_false] at hne
    | some entry =>
      simp only [discoverAll, hentry] at hne ⊢
      have hlt : entry.roundRobinIndex.toNat % entry.healthy.length < entry.healthy.length :=
        Nat.mod_lt _ (length_pos_of_ne_nil hne)
      simp only [resolveBackend, hallow, hrouter, hchoose, discover, hentry, if_neg hne, turn,
        Option.bind_some, Option.map_some, Option.getD_some, List.getElem?_eq_getElem hlt]
      simp

theorem healthy_distinct (service : ServiceId) (b : ServiceBridge) :
    ((b.healthy service).map (·.node.nodeName)).Nodup := by
  unfold healthy
  split
  · exact nodup_nil
  · unfold discoverAll
    split
    · exact nodup_nil
    · exact RouteEntry.healthy_distinct _

theorem index_eq_of_backendOf_eq {i j : Nat}
    (hi : i < (b.healthy service).length) (hj : j < (b.healthy service).length)
    (heq : backendOf (b.healthy service)[i] = backendOf (b.healthy service)[j]) : i = j := by
  have hnode : (b.healthy service)[i].node = (b.healthy service)[j].node :=
    Option.some.inj (congrArg ResolvedBackend.node heq)
  have hi' : i < ((b.healthy service).map (·.node.nodeName)).length := by rwa [length_map]
  have hj' : j < ((b.healthy service).map (·.node.nodeName)).length := by rwa [length_map]
  refine (@List.Nodup.getElem_inj_iff _ _ (healthy_distinct service b) i hi' j hj').1 ?_
  rw [getElem_map, getElem_map, hnode]

/-- Two turns in a row, or the next two, differ. -/
theorem turns_differ {n : Nat} {i : UInt32} (h₁ : i.toNat % n = (i + 1).toNat % n)
    (h₂ : (i + 1).toNat % n = (i + 1 + 1).toNat % n) : n = 1 := by
  have hone {k : Nat} (h : k % n = (k + 1) % n) : n = 1 := by
    have hmod := Nat.sub_mod_eq_zero_of_mod_eq h.symm
    rw [Nat.add_sub_cancel_left] at hmod
    exact Nat.dvd_one.1 (Nat.dvd_of_mod_eq_zero hmod)
  by_cases hwrap : i.toNat + 1 < 2 ^ 32
  · rw [UInt32.toNat_add, UInt32.toNat_one, Nat.mod_eq_of_lt hwrap] at h₁
    exact hone h₁
  · have hlast : i.toNat + 1 = 2 ^ 32 := by
      have hlt := i.toNat_lt
      omega
    have hzero : (i + 1).toNat = 0 := by
      rw [UInt32.toNat_add, UInt32.toNat_one, hlast, Nat.mod_self]
    have hnext : (i + 1 + 1).toNat = 0 + 1 := by rw [UInt32.toNat_add, hzero, UInt32.toNat_one]
    rw [hnext, hzero] at h₂
    exact hone h₂

/-- Two keyless requests meet only on one turn. -/
theorem turn_eq_of_backend_eq (hallow : b.refuses service = false) (hne : b.healthy service ≠ [])
    (hmeet : ∀ backend backend', (b.resolveBackend service []).1 = some backend →
      ((b.resolveBackend service []).2.resolveBackend service []).1 = some backend' →
        backend = backend') :
    (b.turn service).toNat % (b.healthy service).length =
      (b.turn service + 1).toNat % (b.healthy service).length := by
  have hsame := resolveBackend_sameCluster service [] b
  obtain ⟨hfirst, hturn⟩ := resolveBackend_turn hallow hne
  obtain ⟨hsecond, -⟩ := resolveBackend_turn ((hsame.refuses service).trans hallow)
    ((hsame.healthy service).symm ▸ hne)
  have hlt (i : Nat) : i % (b.healthy service).length < (b.healthy service).length :=
    Nat.mod_lt _ (length_pos_of_ne_nil hne)
  rw [List.getElem?_eq_getElem (hlt _), Option.map_some] at hfirst
  simp only [hsame.healthy, hturn] at hsecond
  rw [List.getElem?_eq_getElem (hlt _), Option.map_some] at hsecond
  exact index_eq_of_backendOf_eq (hlt _) (hlt _) (hmeet _ _ hfirst hsecond)

/-- Three keyless requests meet only without a choice. -/
theorem healthy_le_one_of_meet {thing : Bytes} {first second third : BackendRequest}
    (hallow : b.refuses service = false) (hrequests : ∀ request ∈ [first, second, third],
      request.service = service ∧ request.shardKey = [] ∧ about request = some thing)
    (hmeet : MeetAt about (b.resolveAll [first, second, third])) :
    (b.healthy service).length ≤ 1 := by
  by_contra hseveral
  have hne : b.healthy service ≠ [] := by
    intro hnil
    rw [hnil] at hseveral
    exact hseveral (Nat.zero_le 1)
  obtain ⟨hsvc₁, hkey₁, habout₁⟩ := hrequests first (by simp)
  obtain ⟨hsvc₂, hkey₂, habout₂⟩ := hrequests second (by simp)
  obtain ⟨hsvc₃, hkey₃, habout₃⟩ := hrequests third (by simp)
  simp only [resolveAll, hsvc₁, hkey₁, hsvc₂, hkey₂, hsvc₃, hkey₃]
    at hmeet
  have hsame := resolveBackend_sameCluster service [] b
  have hturn := (resolveBackend_turn hallow hne).2
  have h₁ := turn_eq_of_backend_eq hallow hne
    (hmeet _ (.head _) _ (.tail _ (.head _)) (by simp [habout₁]) (habout₁.trans habout₂.symm))
  have h₂ := turn_eq_of_backend_eq ((hsame.refuses service).trans hallow)
    ((hsame.healthy service).symm ▸ hne)
    (hmeet _ (.tail _ (.head _)) _
      (.tail _ (.tail _ (.head _)))
      (by simp [habout₂]) (habout₂.trans habout₃.symm))
  rw [hsame.healthy, hturn] at h₂
  exact hseveral (Nat.le_of_eq (turns_differ h₁ h₂))

theorem service_of_aboutRoom (h : request.aboutRoom ≠ none) : request.service = .room := by
  cases request <;> first | rfl | exact absurd rfl h

theorem service_of_aboutBattle (h : request.aboutBattle ≠ none) : request.service = .battle := by
  cases request <;> first | rfl | exact absurd rfl h

theorem meetAt_of_sole (hservice : ∀ request, about request ≠ none → request.service = service)
    (hsole : b.Sole service) (reqs : List BackendRequest) : MeetAt about (b.resolveAll reqs) := by
  intro call hcall call' hcall' habout hsame backend backend' hbackend hbackend'
  have hfirst := resolveAll_sole hsole hcall (hservice _ habout)
  have hsecond := resolveAll_sole hsole hcall' (hservice _ (hsame ▸ habout))
  exact Option.some.inj (by rw [← hbackend, ← hbackend', hfirst, hsecond])

/-- The requests about one room, and those about one battle, meet at one node in every run exactly
if either service has at most one healthy instance or refuses all requests for want of TLS. -/
theorem requests_meet_iff (b : ServiceBridge) :
    (∀ requests, MeetAt (·.aboutRoom) (b.resolveAll requests) ∧
        MeetAt (·.aboutBattle) (b.resolveAll requests)) ↔
      ∀ service ∈ [ServiceId.room, .battle],
        b.refuses service = true ∨ (b.healthy service).length ≤ 1 := by
  constructor
  · intro hmeet service hservice
    rw [or_iff_not_imp_left, Bool.not_eq_true]
    intro hallow
    simp only [mem_cons, not_mem_nil, or_false] at hservice
    rcases hservice with rfl | rfl
    · have hkeyless : ∀ request ∈ [BackendRequest.room (.create [] [] 0), .room (.join [] []),
          .room (.leave [] [])], request.service = .room ∧ request.shardKey = [] ∧
            request.aboutRoom = some [] := by decide
      exact healthy_le_one_of_meet hallow hkeyless (hmeet _).1
    · have hkeyless : ∀ request ∈ [BackendRequest.forward [] (.create [] [] [] 0),
          .battle (.input [] [] [] 0 0), .battle (.state [])], request.service = .battle ∧
            request.shardKey = [] ∧ request.aboutBattle = some [] := by decide
      exact healthy_le_one_of_meet hallow hkeyless (hmeet _).2
  · intro hsole requests
    exact ⟨meetAt_of_sole (fun _ => service_of_aboutRoom) (hsole .room (by simp)) requests,
      meetAt_of_sole (fun _ => service_of_aboutBattle) (hsole .battle (by simp)) requests⟩

def twoRoomNodes : ServiceBridge where
  clusterRouter := some
    { routes := (∅ : AList fun _ : Bytes => RouteEntry).insert (ascii "room")
        { instances :=
            [{ node := { host := ascii "10.0.0.1", nodeName := ascii "a" }, state := .healthy },
              { node := { host := ascii "10.0.0.2", nodeName := ascii "b" }, state := .healthy }]
          distinct := by decide } }
  shardRouter := some ((({} : ShardRouter).addBackend (ascii "a")).addBackend (ascii "b"))

/-- A player creates a room on the first of two nodes, and the next looks for it on the second. -/
theorem joiner_misses_room :
    ¬∀ (b : ServiceBridge), b.clusterRouter.isSome → b.shardRouter.isSome → ∀ requests,
      MeetAt (·.aboutRoom) (b.resolveAll requests) ∧
        MeetAt (·.aboutBattle) (b.resolveAll requests) := by
  intro h
  have hmeet := (h twoRoomNodes rfl rfl
    [.room (.create (ascii "u") (ascii "r") 2), .room (.join (ascii "v") (ascii "r"))]).1
  have hsame := hmeet _ (.head _) _ (.tail _ (.head _)) (by decide) rfl _ _ rfl rfl
  revert hsame
  decide

end BoostGateway.Gateway
