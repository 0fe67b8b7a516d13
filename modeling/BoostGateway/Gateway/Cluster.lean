import Mathlib.Data.List.AList
import BoostGateway.Bytes
import Mathlib.Data.List.Sort

/-!
# Service discovery

`ClusterRouter` keeps the instances of each service and hands out the healthy ones in turn.
`ConsistentHashRing` and `ShardRouter` give every key an owner instead, so that the requests that
carry one key meet at one node.
-/

namespace BoostGateway.Gateway

/-! ## The cluster router -/

structure NodeId where
  host : Bytes
  port : UInt16 := 0
  nodeName : Bytes
  deriving DecidableEq

inductive ServiceState where
  | unknown
  | healthy
  | unhealthy
  | draining
  deriving DecidableEq

structure ServiceInstance where
  node : NodeId
  state : ServiceState := .unknown

/-- `RouteEntry`. A service has one instance per node. -/
structure RouteEntry where
  instances : List ServiceInstance := []
  roundRobinIndex : UInt32 := 0
  distinct : (instances.map (·.node.nodeName)).Nodup := by decide

def RouteEntry.onNode (nodeName : Bytes) (update : ServiceState → ServiceState)
    (entry : RouteEntry) : RouteEntry where
  instances := entry.instances.map fun inst =>
    if inst.node.nodeName = nodeName then { inst with state := update inst.state } else inst
  roundRobinIndex := entry.roundRobinIndex
  distinct := by
    have hnames : (fun inst : ServiceInstance => inst.node.nodeName) ∘ (fun inst =>
        if inst.node.nodeName = nodeName then { inst with state := update inst.state }
        else inst) = fun inst => inst.node.nodeName := by
      funext inst
      simp only [Function.comp_apply]
      split <;> rfl
    rw [List.map_map, hnames]
    exact entry.distinct

def RouteEntry.healthy (entry : RouteEntry) : List ServiceInstance :=
  entry.instances.filter (·.state = .healthy)

theorem RouteEntry.healthy_distinct (entry : RouteEntry) :
    (entry.healthy.map (·.node.nodeName)).Nodup :=
  entry.distinct.sublist ((List.filter_sublist).map _)

structure ClusterRouter where
  routes : AList fun _ : Bytes => RouteEntry := ∅

def ClusterRouter.discoverAll (serviceName : Bytes) (router : ClusterRouter) :
    List ServiceInstance :=
  match router.routes.lookup serviceName with
  | none => []
  | some entry => entry.healthy

/-- `ClusterRouter::discover`. The `uint32_t` index wraps. -/
def ClusterRouter.discover (serviceName : Bytes) (router : ClusterRouter) :
    Option ServiceInstance × ClusterRouter :=
  match router.routes.lookup serviceName with
  | none => (none, router)
  | some entry =>
    if entry.healthy = [] then (none, router)
    else
      (entry.healthy[entry.roundRobinIndex.toNat % entry.healthy.length]?,
        { routes := router.routes.insert serviceName
            { entry with roundRobinIndex := entry.roundRobinIndex + 1 } })

def ClusterRouter.mark (state : ServiceState) (serviceName nodeName : Bytes)
    (router : ClusterRouter) : ClusterRouter :=
  match router.routes.lookup serviceName with
  | none => router
  | some entry =>
    { routes := router.routes.insert serviceName (entry.onNode nodeName fun _ => state) }

theorem discoverAll_discover (serviceName other : Bytes) (router : ClusterRouter) :
    (router.discover serviceName).2.discoverAll other = router.discoverAll other := by
  unfold ClusterRouter.discover
  cases hentry : router.routes.lookup serviceName with
  | none => rfl
  | some =>
    dsimp only
    split
    · rfl
    · by_cases hother : other = serviceName
      · subst hother
        simp only [ClusterRouter.discoverAll, AList.lookup_insert, hentry]
        rfl
      · simp [ClusterRouter.discoverAll, AList.lookup_insert_ne hother]

/-! ## Consistent hashing -/

def fnv1aHash (key : Bytes) : UInt32 :=
  key.foldl (fun hash c => (hash ^^^ c.toUInt32) * 16777619) 2166136261

/-- `ring_[hash] = node_name` in a `std::map`. -/
def assign (hash : UInt32) (nodeName : Bytes) : List (UInt32 × Bytes) → List (UInt32 × Bytes)
  | [] => [(hash, nodeName)]
  | (hash', nodeName') :: rest =>
    if hash < hash' then (hash, nodeName) :: (hash', nodeName') :: rest
    else if hash = hash' then (hash, nodeName) :: rest
    else (hash', nodeName') :: assign hash nodeName rest

structure ConsistentHashRing where
  virtualNodes : Nat := 150
  ring : List (UInt32 × Bytes) := []

def virtualNodeKey (nodeName : Bytes) (i : Nat) : Bytes := nodeName ++ ascii "#" ++ decimal i

def ConsistentHashRing.addNode (nodeName : Bytes) (r : ConsistentHashRing) : ConsistentHashRing :=
  let hashes := (List.range r.virtualNodes).map fun i => fnv1aHash (virtualNodeKey nodeName i)
  { r with ring := hashes.foldl (fun ring hash => assign hash nodeName ring) r.ring }

def ConsistentHashRing.removeNode (nodeName : Bytes) (r : ConsistentHashRing) :
    ConsistentHashRing :=
  let hashes := (List.range r.virtualNodes).map fun i => fnv1aHash (virtualNodeKey nodeName i)
  { r with ring := hashes.foldl (fun ring hash => ring.filter (·.1 ≠ hash)) r.ring }

def ConsistentHashRing.lookup (key : Bytes) (r : ConsistentHashRing) : Bytes :=
  match r.ring with
  | [] => []
  | first :: _ =>
    match r.ring.find? (fnv1aHash key ≤ ·.1) with
    | some owner => owner.2
    | none => first.2

structure ShardRouter where
  roomRing : ConsistentHashRing := { virtualNodes := 150 }
  battleRing : ConsistentHashRing := { virtualNodes := 100 }

def ShardRouter.addBackend (nodeName : Bytes) (s : ShardRouter) : ShardRouter where
  roomRing := s.roomRing.addNode nodeName
  battleRing := s.battleRing.addNode nodeName

def ShardRouter.routeRoom (roomId : Bytes) (s : ShardRouter) : Bytes := s.roomRing.lookup roomId

def ShardRouter.routeBattle (battleId : Bytes) (s : ShardRouter) : Bytes :=
  s.battleRing.lookup battleId

/-! ## The laws of the hash ring

The ring is a map from hashes to nodes, so a virtual node that has the hash of another one takes its
place, and its removal leaves nobody there. Apart from that the ring of a set of nodes is what it
should be (`ring_laws_iff`). -/

open List

def Ascending (ring : List (UInt32 × Bytes)) : Prop := ring.Pairwise (·.1 < ·.1)

variable {hash : UInt32} {nodeName : Bytes} {ring ring' : List (UInt32 × Bytes)}
  {x y : UInt32 × Bytes}

theorem Ascending.ext (h : Ascending ring) (h' : Ascending ring')
    (hmem : ∀ x, x ∈ ring ↔ x ∈ ring') : ring = ring' :=
  have : Std.Antisymm fun x y : UInt32 × Bytes => x.1 < y.1 :=
    ⟨fun _ _ hxy hyx => absurd hxy (UInt32.lt_asymm hyx)⟩
  have : Std.Irrefl fun x y : UInt32 × Bytes => x.1 < y.1 := ⟨fun _ => UInt32.lt_irrefl _⟩
  List.Pairwise.eq_of_mem_iff h h' hmem

theorem Ascending.unique (h : Ascending ring) (hx : x ∈ ring) (hy : y ∈ ring) (heq : x.1 = y.1) :
    x = y := by
  induction ring with
  | nil => cases hx
  | cons first rest ih =>
    obtain ⟨hfirst, hrest⟩ := pairwise_cons.mp h
    have := ih hrest
    grind

theorem mem_assign (h : Ascending ring) :
    x ∈ assign hash nodeName ring ↔ x = (hash, nodeName) ∨ x.1 ≠ hash ∧ x ∈ ring := by
  induction ring with
  | nil => simp [assign]
  | cons first rest ih =>
    obtain ⟨hfirst, hrest⟩ := pairwise_cons.mp h
    have := ih hrest
    unfold assign
    grind

theorem Ascending.assign (h : Ascending ring) (hash : UInt32) (nodeName : Bytes) :
    Ascending (assign hash nodeName ring) := by
  induction ring with
  | nil => simp [Gateway.assign, Ascending]
  | cons first rest ih =>
    obtain ⟨hfirst, hrest⟩ := pairwise_cons.mp h
    unfold Gateway.assign Ascending
    split_ifs with hlt heq
    · exact pairwise_cons.mpr ⟨by grind, h⟩
    · exact pairwise_cons.mpr ⟨by grind, hrest⟩
    · refine pairwise_cons.mpr ⟨fun x hx => ?_, ih hrest⟩
      rcases (mem_assign hrest).mp hx with rfl | ⟨-, hold⟩
      · grind
      · exact hfirst x hold

theorem find_eq_some_iff (h : Ascending ring) : ring.find? (hash ≤ ·.1) = some x ↔
    x ∈ ring ∧ hash ≤ x.1 ∧ ∀ y ∈ ring, hash ≤ y.1 → x.1 ≤ y.1 := by
  induction ring with
  | nil => simp
  | cons first rest ih =>
    obtain ⟨hfirst, hrest⟩ := pairwise_cons.mp h
    have := ih hrest
    grind

namespace ConsistentHashRing

variable {r : ConsistentHashRing} {nodes : List Bytes}

def hashes (r : ConsistentHashRing) (nodeName : Bytes) : List UInt32 :=
  (List.range r.virtualNodes).map fun i => fnv1aHash (virtualNodeKey nodeName i)

theorem mem_foldl_edit {edit : List (UInt32 × Bytes) → UInt32 → List (UInt32 × Bytes)}
    (rule : UInt32 × Bytes → Prop)
    (hedit : ∀ ring hash, Ascending ring → Ascending (edit ring hash) ∧
      ∀ x, x ∈ edit ring hash ↔ if x.1 = hash then rule x else x ∈ ring)
    (hs : List UInt32) {ring : List (UInt32 × Bytes)} (h : Ascending ring) :
    Ascending (hs.foldl edit ring) ∧
      ∀ x, x ∈ hs.foldl edit ring ↔ if x.1 ∈ hs then rule x else x ∈ ring := by
  induction hs generalizing ring with
  | nil => simpa using h
  | cons hash hs ih =>
    obtain ⟨hkept, hone⟩ := hedit ring hash h
    obtain ⟨hnext, hmem⟩ := ih hkept
    refine ⟨hnext, fun x => (hmem x).trans ?_⟩
    rw [hone]
    grind

theorem mem_addNode (nodeName : Bytes) (h : Ascending r.ring) :
    Ascending (r.addNode nodeName).ring ∧
    ∀ x, x ∈ (r.addNode nodeName).ring ↔
      if x.1 ∈ r.hashes nodeName then x.2 = nodeName else x ∈ r.ring := by
  refine mem_foldl_edit (·.2 = nodeName) (fun ring hash h => ⟨h.assign hash nodeName, fun x => ?_⟩)
    (r.hashes nodeName) h
  rw [mem_assign h]
  grind

theorem mem_removeNode (nodeName : Bytes) (h : Ascending r.ring) :
    Ascending (r.removeNode nodeName).ring ∧
    ∀ x, x ∈ (r.removeNode nodeName).ring ↔ x.1 ∉ r.hashes nodeName ∧ x ∈ r.ring := by
  simp only [← if_false_left]
  exact mem_foldl_edit (fun _ => False) (fun ring hash h => ⟨h.filter _, by grind⟩)
    (r.hashes nodeName) h

theorem removeNode_addNode (h : Ascending r.ring) :
    (r.addNode nodeName).removeNode nodeName = r.removeNode nodeName := by
  obtain ⟨hadded, hmem⟩ := mem_addNode nodeName h
  obtain ⟨hrem, hmem'⟩ := mem_removeNode nodeName hadded
  obtain ⟨hpre, hmem''⟩ := mem_removeNode nodeName h
  have hring := hrem.ext hpre fun x => by
    rw [hmem', hmem'', hmem]
    exact and_congr_right fun hx => iff_of_eq (if_neg hx)
  exact congrArg (ConsistentHashRing.mk r.virtualNodes) hring

def answering (r : ConsistentHashRing) (hash : UInt32) : Option (UInt32 × Bytes) :=
  (r.ring.find? (hash ≤ ·.1)).or (r.ring.find? (0 ≤ ·.1))

theorem lookup_eq (key : Bytes) :
    r.lookup key = (r.answering (fnv1aHash key)).elim [] (·.2) := by
  unfold ConsistentHashRing.lookup answering
  cases hring : r.ring with
  | nil => rfl
  | cons first rest =>
    have hzero : (first :: rest).find? ((0 : UInt32) ≤ ·.1) = some first := by simp
    cases (first :: rest).find? (fnv1aHash key ≤ ·.1) <;> rfl

/-- Adding a node only takes keys over to it. -/
theorem lookup_addNode (h : Ascending r.ring) (key : Bytes) :
    (r.addNode nodeName).lookup key = nodeName ∨
      (r.addNode nodeName).lookup key = r.lookup key := by
  obtain ⟨hadded, hmem⟩ := mem_addNode nodeName h
  have hkept (y) (hy : y ∈ r.ring) : ∃ x ∈ (r.addNode nodeName).ring, x.1 = y.1 := by
    by_cases hhash : y.1 ∈ r.hashes nodeName
    · exact ⟨(y.1, nodeName), (hmem _).mpr (by simp [hhash]), rfl⟩
    · exact ⟨y, (hmem y).mpr (by simp [hhash, hy]), rfl⟩
  have hsome (hash : UInt32) (x) (hx : (r.addNode nodeName).ring.find? (hash ≤ ·.1) = some x) :
      x.2 = nodeName ∨ r.ring.find? (hash ≤ ·.1) = some x := by
    rw [find_eq_some_iff hadded, hmem] at hx
    rw [find_eq_some_iff h]
    grind
  have hnone (hash : UInt32) (hx : (r.addNode nodeName).ring.find? (hash ≤ ·.1) = none) :
      r.ring.find? (hash ≤ ·.1) = none := by grind
  rw [lookup_eq, lookup_eq]
  unfold answering
  cases hfirst : (r.addNode nodeName).ring.find? (fnv1aHash key ≤ ·.1) with
  | some x => exact (hsome _ x hfirst).imp id fun hx => by rw [hx]; rfl
  | none =>
    rw [hnone _ hfirst]
    cases hzero : (r.addNode nodeName).ring.find? (0 ≤ ·.1) with
    | some x => exact (hsome _ x hzero).imp id fun hx => by rw [hx]
    | none => exact .inr (by rw [hnone _ hzero])

def addNodes (nodes : List Bytes) (r : ConsistentHashRing) : ConsistentHashRing :=
  nodes.foldl (fun r nodeName => r.addNode nodeName) r

/-- No two of the nodes have a virtual node with the same hash. -/
def HashesDiffer (r : ConsistentHashRing) (nodes : List Bytes) : Prop :=
  ∀ m ∈ nodes, ∀ n ∈ nodes, m ≠ n → ∀ hash ∈ r.hashes m, hash ∉ r.hashes n

theorem ascending_addNodes (h : Ascending r.ring) : Ascending (r.addNodes nodes).ring := by
  induction nodes generalizing r with
  | nil => exact h
  | cons n nodes ih => exact ih (mem_addNode n h).1

theorem hashes_addNodes : (r.addNodes nodes).hashes = r.hashes := by
  induction nodes generalizing r with
  | nil => rfl
  | cons n nodes ih => exact ih

theorem mem_addNodes (h : Ascending r.ring) (hdiffer : r.HashesDiffer nodes) (x) :
    x ∈ (r.addNodes nodes).ring ↔
      x.2 ∈ nodes ∧ x.1 ∈ r.hashes x.2 ∨ (∀ n ∈ nodes, x.1 ∉ r.hashes n) ∧ x ∈ r.ring := by
  induction nodes generalizing r with
  | nil => simp [addNodes]
  | cons n nodes ih =>
    obtain ⟨hadded, hmem⟩ := mem_addNode n h
    refine (ih hadded fun m hm m' hm' => hdiffer m (.tail _ hm) m' (.tail _ hm')).trans ?_
    have hsame (m) : (r.addNode n).hashes m = r.hashes m := rfl
    have hn := hdiffer n (.head _)
    grind

/-- Adding a node moves keys only to it, removing it restores every lookup, and the order of adding
does not matter. -/
structure Laws (r : ConsistentHashRing) (nodes : List Bytes) : Prop where
  moves : ∀ n ∈ nodes, ∀ key, (r.addNode n).lookup key = n ∨
    (r.addNode n).lookup key = r.lookup key
  restores : ∀ n ∈ nodes, ∀ key, ((r.addNode n).removeNode n).lookup key = r.lookup key
  commutes : ∀ nodes', nodes'.Perm nodes → (r.addNodes nodes').ring = (r.addNodes nodes).ring

theorem Laws.hashesDiffer (h : Ascending r.ring) (hlaws : r.Laws nodes) : r.HashesDiffer nodes := by
  intro m hm n hn hne hash hhash hhash'
  have hperm : nodes.Perm (m :: n :: (nodes.erase m).erase n) :=
    (perm_cons_erase hm).trans ((perm_cons_erase ((mem_erase_of_ne hne.symm).mpr hn)).cons m)
  generalize (nodes.erase m).erase n = rest at hperm
  -- of the two nodes the one that is added last owns the hash
  have hlast (m n) (hperm : nodes.Perm (m :: n :: rest)) (hhash : hash ∈ r.hashes n) :
      (hash, n) ∈ (r.addNodes nodes).ring := by
    rw [← hlaws.commutes (rest ++ [m, n]) (perm_append_comm.trans hperm.symm)]
    simp only [addNodes, foldl_append, foldl_cons, foldl_nil]
    refine ((mem_addNode n (mem_addNode m (ascending_addNodes h)).1).2 _).mpr ?_
    exact (if_pos ((congrFun hashes_addNodes n).symm ▸ hhash)).mpr rfl
  have hsame := (ascending_addNodes h).unique (hlast m n hperm hhash')
    (hlast n m (hperm.trans (.swap ..)) hhash) rfl
  exact hne (congrArg Prod.snd hsame).symm

def others (r : ConsistentHashRing) (nodeName : Bytes) : List (UInt32 × Bytes) :=
  r.ring.filter (·.1 ∉ r.hashes nodeName)

def nextOwner (r : ConsistentHashRing) (nodeName : Bytes) (hash : UInt32) : Bytes :=
  (((r.others nodeName).find? (hash ≤ ·.1)).or (r.others nodeName).head?).elim [] (·.2)

/-- Virtual nodes at a node's hashes have the owner of the next other one. -/
def Spared (r : ConsistentHashRing) (nodeName : Bytes) : Prop :=
  ∀ x ∈ r.ring, x.1 ∈ r.hashes nodeName → x.2 = r.nextOwner nodeName x.1

theorem ring_removeNode (h : Ascending r.ring) :
    (r.removeNode nodeName).ring = r.others nodeName := by
  obtain ⟨hremoved, hmem⟩ := mem_removeNode nodeName h
  exact hremoved.ext (h.filter _) fun x => by simp [hmem, others, and_comm]

theorem find_filter (h : Ascending ring) (keep : UInt32 × Bytes → Bool)
    (hx : ring.find? (hash ≤ ·.1) = some x) :
    (ring.filter keep).find? (hash ≤ ·.1) = (ring.filter keep).find? (x.1 ≤ ·.1) := by
  obtain ⟨hmem, hle, hfirst⟩ := (find_eq_some_iff h).mp hx
  have hkeep : Ascending (ring.filter keep) := h.filter _
  ext y
  rw [find_eq_some_iff hkeep, find_eq_some_iff hkeep]
  grind

theorem lookup_removeNode (h : Ascending r.ring) {key : Bytes}
    (hx : r.answering (fnv1aHash key) = some x) :
    (r.removeNode nodeName).lookup key = r.nextOwner nodeName x.1 := by
  have hhead : (r.others nodeName).head? = (r.others nodeName).find? (0 ≤ ·.1) := by
    cases r.others nodeName <;> simp
  rw [lookup_eq, answering, ring_removeNode h, nextOwner, hhead]
  rcases Option.or_eq_some_iff.mp hx with hfrom | ⟨hfrom, hzero⟩
  · rw [others, find_filter h _ hfrom]
  · have hnone : (r.others nodeName).find? (fnv1aHash key ≤ ·.1) = none := by
      simp only [others, find?_eq_none, mem_filter] at hfrom ⊢
      exact fun x hx => hfrom x hx.1
    rw [hnone, others, find_filter h _ hzero, Option.or_self, Option.none_or]

/-- A removal changes nothing exactly if the lost virtual nodes have the next one's owner. -/
theorem lookup_removeNode_iff (h : Ascending r.ring) :
    (∀ key, (r.removeNode nodeName).lookup key = r.lookup key) ↔ r.Spared nodeName := by
  have hself (x) (hx : x ∈ r.ring) : r.ring.find? (x.1 ≤ ·.1) = some x :=
    (find_eq_some_iff h).mpr ⟨hx, UInt32.le_refl _, fun _ _ hy => hy⟩
  constructor
  · intro hsame x hx hhash
    -- the name of the virtual node is a key with this hash
    obtain ⟨i, -, hi⟩ := mem_map.mp hhash
    have hanswer : r.answering (fnv1aHash (virtualNodeKey nodeName i)) = some x := by
      rw [answering, hi, hself x hx, Option.some_or]
    rw [← lookup_removeNode h hanswer, hsame, lookup_eq, hanswer]
    rfl
  · intro hspared key
    rw [lookup_eq key (r := r)]
    cases hanswer : r.answering (fnv1aHash key) with
    | none =>
      have hempty : r.ring = [] := by
        simpa [eq_nil_iff_forall_not_mem] using (Option.or_eq_none_iff.mp hanswer).2
      simp [lookup_eq, answering, ring_removeNode h, others, hempty]
    | some x =>
      have hx : x ∈ r.ring := by
        rcases Option.or_eq_some_iff.mp hanswer with hfrom | ⟨-, hzero⟩
        · exact mem_of_find?_eq_some hfrom
        · exact mem_of_find?_eq_some hzero
      rw [lookup_removeNode h hanswer]
      by_cases hhash : x.1 ∈ r.hashes nodeName
      · exact (hspared x hx hhash).symm
      · have hkept : (r.others nodeName).find? (x.1 ≤ ·.1) = some x :=
          (find_eq_some_iff (h.filter _)).mpr
            ⟨mem_filter.mpr ⟨hx, by simpa using hhash⟩, UInt32.le_refl _, fun _ _ hy => hy⟩
        rw [nextOwner, hkept]
        rfl

inductive Edit where
  | add (nodeName : Bytes)
  | remove (nodeName : Bytes)

def edit (r : ConsistentHashRing) : Edit → ConsistentHashRing
  | .add nodeName => r.addNode nodeName
  | .remove nodeName => r.removeNode nodeName

theorem ascending_edits (edits : List Edit) (virtualNodes : Nat) :
    Ascending (edits.foldl edit { virtualNodes }).ring :=
  List.foldlRecOn (motive := fun r : ConsistentHashRing => Ascending r.ring) edits edit
    List.Pairwise.nil fun r h e _ => by
      cases e with
      | add nodeName => exact (mem_addNode nodeName h).1
      | remove nodeName => exact (mem_removeNode nodeName h).1

/-- The laws hold exactly if no two of the nodes share a hash, and each virtual node on the ring
that has a hash of one of the nodes has the owner of the next one that has not. -/
theorem ring_laws_iff (virtualNodes : Nat) (edits : List Edit) (nodes : List Bytes) :
    (edits.foldl edit { virtualNodes }).Laws nodes ↔
      (edits.foldl edit { virtualNodes }).HashesDiffer nodes ∧
        ∀ n ∈ nodes, (edits.foldl edit { virtualNodes }).Spared n := by
  have h := ascending_edits edits virtualNodes
  constructor
  · intro hlaws
    refine ⟨hlaws.hashesDiffer h, fun n hn => (lookup_removeNode_iff h).mp fun key => ?_⟩
    rw [← removeNode_addNode h]
    exact hlaws.restores n hn key
  · rintro ⟨hdiffer, hspared⟩
    refine ⟨fun n _ key => lookup_addNode h key, fun n hn key => ?_, fun nodes' hperm => ?_⟩
    · rw [removeNode_addNode h]
      exact (lookup_removeNode_iff h).mpr (hspared n hn) key
    · refine (ascending_addNodes h).ext (ascending_addNodes h) fun x => ?_
      rw [mem_addNodes h hdiffer, mem_addNodes h fun m hm n hn =>
        hdiffer m (hperm.mem_iff.mp hm) n (hperm.mem_iff.mp hn)]
      simp [hperm.mem_iff]

/-- The names `gwzx` and `16cd` have the same hash, and so have their virtual nodes. -/
theorem colliding_nodes :
    ¬ ([].foldl edit { virtualNodes := 1 }).Laws [ascii "gwzx", ascii "16cd"] :=
  fun h => absurd (h.commutes [ascii "16cd", ascii "gwzx"] (.swap ..)) (by decide +kernel)

end ConsistentHashRing

end BoostGateway.Gateway
