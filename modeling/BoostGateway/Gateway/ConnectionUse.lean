import BoostGateway.Gateway.ConnectionPool

/-!
# Connections in use

A connection is destroyed when another one takes its place in a pool, and when the configuration of
its service is updated. Neither step looks at the calls that have been given the connection.
-/

namespace BoostGateway.Gateway.BridgeState

open List

/-- No connection that a call still uses has been destroyed. -/
def UsesAlive (s : BridgeState) : Prop :=
  ∀ id call conn, s.calls id = some call → call.uses = some conn → (s.objects conn).owner ≠ .nobody

/-- No closed connection of a full pool is in use when a call stores one, and none of a service when
its configuration is updated. -/
def Undisturbed (poolSize : Nat) (s : BridgeState) : BridgeEvent → Prop
  | .store id =>
    ∀ call target conn, s.calls id = some call → call.stage = .opened target conn →
      let pool := s.pools (poolFor call.service target)
      poolSize ≤ pool.connections.length →
      ∀ other call' used, other ≠ id → s.calls other = some call' → call'.uses = some used →
        used ∈ pool.connections → (s.objects used).connected = true
  | .update service _ =>
    ∀ id call, s.calls id = some call → call.uses ≠ none → slotFor call.service ≠ slotFor service
  | _ => True

/-! ## Owners -/

/-- An opened connection is the call's own, a used one in a pool of its service. -/
structure CallSound (objects : ConnectionId → BackendConnection) (id : Nat) (call : Call) :
    Prop where
  opened : ∀ target conn, call.stage = .opened target conn → (objects conn).owner = .call id
  used : ∀ conn, call.uses = some conn →
    ∃ key, (objects conn).owner = .pool (slotFor call.service, key)

/-- Every connection has the owner that its object names. -/
structure Sound (s : BridgeState) : Prop where
  fresh : ∀ conn, s.created ≤ conn → (s.objects conn).owner = .nobody
  pooled : ∀ p, ∀ conn ∈ (s.pools p).connections, (s.objects conn).owner = .pool p
  distinct : ∀ p, (s.pools p).connections.Nodup
  calls : ∀ id call, s.calls id = some call → CallSound s.objects id call

variable {s s' : BridgeState} {poolSize : Nat}

theorem Sound.usesAlive (h : s.Sound) : s.UsesAlive := by
  intro id call conn hcall huses hown
  obtain ⟨key, hpool⟩ := (h.calls id call hcall).used conn huses
  cases hown.symm.trans hpool

theorem CallSound.of_owner_eq {objects objects' : ConnectionId → BackendConnection} {id : Nat}
    {call : Call} (h : CallSound objects id call)
    (hopened : ∀ conn, (objects conn).owner = .call id → (objects' conn).owner = .call id)
    (hused : ∀ conn key, call.uses = some conn →
      (objects conn).owner = .pool (slotFor call.service, key) →
      (objects' conn).owner = .pool (slotFor call.service, key)) : CallSound objects' id call where
  opened target conn hstage := hopened conn (h.opened target conn hstage)
  used conn huses := by
    obtain ⟨key, hkey⟩ := h.used conn huses
    exact ⟨key, hused conn key huses hkey⟩

theorem callSound_of_none {objects : ConnectionId → BackendConnection} {id : Nat} {call : Call}
    (hopened : ∀ tgt conn, call.stage ≠ .opened tgt conn) (hused : call.uses = none) :
    CallSound objects id call where
  opened tgt conn hstage := absurd hstage (hopened tgt conn)
  used conn huses := by
    rw [hused] at huses
    cases huses

theorem owner_close (conn other : ConnectionId) :
    ((s.close conn).objects other).owner = (s.objects other).owner := by
  dsimp only [close, setObject]
  split
  · rename_i heq
    rw [heq]
  · rfl

theorem not_mem_set_of_nodup {l : List ConnectionId} (hl : l.Nodup) {index : Nat}
    {old conn : ConnectionId} (hold : l[index]? = some old) (hne : old ≠ conn) :
    old ∉ l.set index conn := by
  intro hmem
  obtain ⟨other, hother⟩ := mem_iff_getElem?.mp hmem
  rw [List.getElem?_set] at hother
  split at hother
  · split at hother
    · exact hne (Option.some.inj hother).symm
    · cases hother
  · rename_i hidx
    obtain ⟨hlt, hget⟩ := List.getElem?_eq_some_iff.mp hold
    obtain ⟨hlt', hget'⟩ := List.getElem?_eq_some_iff.mp hother
    exact hidx ((List.Nodup.getElem_inj_iff hl).mp (hget.trans hget'.symm))

theorem moveInto_frame (poolId : PoolId) (conn : ConnectionId) (dropped : Option ConnectionId) :
    (s.moveInto poolId conn dropped).pools = s.pools ∧
      (s.moveInto poolId conn dropped).calls = s.calls ∧
      (s.moveInto poolId conn dropped).created = s.created := by
  cases dropped <;> exact ⟨rfl, rfl, rfl⟩

/-- What storing a connection does to the owners. -/
structure Moved (s s' : BridgeState) (poolId : PoolId) (conn : ConnectionId) (poolSize : Nat)
    (stored : Pool.Stored) : Prop where
  kept : ∀ other, other ≠ conn → stored.destroyed ≠ some other →
    (s'.objects other).owner = (s.objects other).owner
  pooled : ∀ other ∈ stored.pool.connections, (s'.objects other).owner = .pool poolId
  distinct : stored.pool.connections.Nodup
  returned : (s'.objects stored.returned).owner = .pool poolId
  destroyed : ∀ old, stored.destroyed = some old → old ≠ conn →
    old ∈ (s.pools poolId).connections ∧ (s.objects old).connected = false ∧
      poolSize ≤ (s.pools poolId).connections.length

section

variable (h : s.Sound)

include h

theorem Sound.of_frame (hpools : ∀ p, (s'.pools p).connections = (s.pools p).connections)
    (howners : ∀ conn, (s'.objects conn).owner = (s.objects conn).owner)
    (hcreates : s'.created = s.created)
    (hcalls : ∀ id call, s'.calls id = some call → CallSound s.objects id call) : s'.Sound where
  fresh conn hconn := by
    rw [howners]
    exact h.fresh conn (hcreates ▸ hconn)
  pooled p conn hconn := by
    rw [howners]
    exact h.pooled p conn (hpools p ▸ hconn)
  distinct p := hpools p ▸ h.distinct p
  calls id call hcall := (hcalls id call hcall).of_owner_eq
    (fun conn hconn => (howners conn).trans hconn) fun conn _ _ hconn => (howners conn).trans hconn

theorem Sound.calls_set {id : Nat} {next : Option Call}
    (hnext : ∀ call, next = some call → CallSound s.objects id call) :
    ∀ other call, (if other = id then next else s.calls other) = some call →
      CallSound s.objects other call := by
  intro other call hcall
  split at hcall
  · rename_i heq
    exact heq ▸ hnext call hcall
  · exact h.calls other call hcall

/-! ## Steps that move no connection -/

theorem Sound.resolve (id : Nat) : (s.resolve id).Sound := by
  refine advance_cases h fun call hcall => ?_
  split
  · refine h.of_frame (fun _ => rfl) (fun _ => rfl) rfl (h.calls_set fun call' hcall' => ?_)
    obtain ⟨target, -, rfl⟩ := Option.map_eq_some_iff.mp hcall'
    exact callSound_of_none nofun rfl
  · exact h

theorem Sound.select (id : Nat) (busy : ConnectionId → Bool) :
    (s.select poolSize id busy).Sound := by
  refine advance_cases h fun call hcall => ?_
  split
  · refine h.of_frame (fun p => ?_) (fun _ => rfl) rfl (h.calls_set fun call' hcall' => ?_)
    · dsimp only [setCall, setPool]
      split
      · rename_i heq
        rw [heq]
        exact Pool.select_connections _ _
      · rfl
    · cases hcall'
      split
      · rename_i conn hconn
        have hmem := Pool.select_some hconn
        refine ⟨by rintro _ _ ⟨⟩, fun used huses => ?_⟩
        cases huses
        exact ⟨_, h.pooled _ conn hmem⟩
      · exact callSound_of_none nofun rfl
  · exact h

theorem Sound.send (id : Nat) (answered : Bool) : (s.send id answered).Sound := by
  refine advance_cases h fun call hcall => ?_
  split
  · rename_i target conn hstage
    split
    · exact h.of_frame (fun _ => rfl) (fun _ => rfl) rfl (h.calls_set nofun)
    · refine h.of_frame (fun _ => rfl) (owner_close conn) rfl (h.calls_set fun call' hcall' => ?_)
      cases hcall'
      refine ⟨by rintro _ _ ⟨⟩, fun used huses => ?_⟩
      cases huses
      exact (h.calls id call hcall).used conn (by rw [Call.uses, hstage])
  · exact h

theorem Sound.recover (id : Nat) : (s.recover id).Sound := by
  refine advance_cases h fun call hcall => ?_
  split
  · rename_i conn hstage
    split
    · exact h.of_frame (fun _ => rfl) (fun _ => rfl) rfl (h.calls_set nofun)
    · refine h.of_frame (fun _ => rfl) (owner_close conn) rfl (h.calls_set fun call' hcall' => ?_)
      cases hcall'
      exact callSound_of_none nofun rfl
  · exact h

/-! ## Steps that move connections -/

theorem Sound.connect (id : Nat) (ok : Bool) : (s.connect id ok).Sound := by
  refine advance_cases h fun call hcall => ?_
  split
  swap
  · exact h
  split
  swap
  · exact h.of_frame (fun _ => rfl) (fun _ => rfl) rfl (h.calls_set nofun)
  have hnew : (s.objects s.created).owner = .nobody := h.fresh s.created le_rfl
  have hold : ∀ {conn : ConnectionId} {owner : Owner} {object : BackendConnection},
      (s.objects conn).owner = owner → owner ≠ .nobody →
      ((s.setObject s.created object).objects conn).owner = owner := by
    intro conn owner object hown hsome
    have hne : conn ≠ s.created := by
      rintro rfl
      exact hsome (hown.symm.trans hnew)
    dsimp only [setObject]
    rwa [if_neg hne]
  refine ⟨fun conn hconn => ?_, fun p conn hconn => ?_, h.distinct, fun other call' hcall' => ?_⟩
  · have hne : conn ≠ s.created := Nat.ne_of_gt hconn
    dsimp only [setCall, setObject]
    rw [if_neg hne]
    exact h.fresh conn (Nat.le_of_succ_le hconn)
  · exact hold (h.pooled p conn hconn) nofun
  · dsimp only [setCall] at hcall'
    split at hcall'
    · rename_i heq
      cases hcall'
      refine ⟨?_, by rintro _ ⟨⟩⟩
      rintro _ _ ⟨⟩
      dsimp only [setCall, setObject]
      rw [if_pos rfl, heq]
    · exact (h.calls other call' hcall').of_owner_eq (fun conn hconn => hold hconn nofun)
        fun conn key _ hconn => hold hconn nofun

theorem moved_of_store {poolId : PoolId} {conn : ConnectionId} {stored : Pool.Stored}
    (hnew : conn ∉ (s.pools poolId).connections)
    (hcase : Pool.StoreCase (fun conn => (s.objects conn).connected) poolSize conn
      (s.pools poolId) stored) :
    Moved s (s.moveInto poolId conn stored.destroyed) poolId conn poolSize stored := by
  have hdist := h.distinct poolId
  have hpooled := h.pooled poolId
  dsimp only [moveInto, destroy, setObject]
  have hne : ∀ other ∈ (s.pools poolId).connections, other ≠ conn := by
    rintro other hmem rfl
    exact hnew hmem
  cases hcase with
  | added =>
    refine ⟨fun other hother _ => ?_, fun other hmem => ?_, ?_, ?_, by rintro _ ⟨⟩⟩
    · simp [hother]
    · rcases mem_append.mp hmem with hold | hconn
      · simpa [hne other hold] using hpooled other hold
      · simp [mem_singleton.mp hconn]
    · exact hdist.append (nodup_singleton _) (disjoint_singleton.mpr hnew)
    · simp
  | @replaced nextIndex index old hfull hold hclosed =>
    have hmem := mem_of_getElem? hold
    have hother : old ≠ conn := hne old hmem
    refine ⟨fun other hconn hdestroyed => ?_, fun other hstored => ?_, hdist.set hnew, ?_, ?_⟩
    · have hold : other ≠ old := fun heq => hdestroyed (by rw [heq])
      simp [hold, hconn]
    · have hold : other ≠ old := by
        rintro rfl
        exact not_mem_set_of_nodup hdist hold hother hstored
      rcases mem_or_eq_of_mem_set hstored with hmem | rfl
      · simpa [hold, hne other hmem] using hpooled other hmem
      · simp [hold]
    · simp [hother.symm]
    · rintro _ ⟨⟩ -
      exact ⟨hmem, hclosed, hfull⟩
  | @reused nextIndex other hfull hmem =>
    refine ⟨fun other hconn _ => ?_, fun other hmem => ?_, hdist, ?_, ?_⟩
    · simp [hconn]
    · simpa [hne other hmem] using hpooled other hmem
    · simpa [hne other hmem] using hpooled other hmem
    · rintro _ ⟨⟩ hself
      exact absurd rfl hself

theorem Sound.store (hsize : 0 < poolSize) (id : Nat)
    (hundisturbed : Undisturbed poolSize s (.store id)) : (s.store poolSize id).Sound := by
  refine advance_cases h fun call hcall => ?_
  split
  swap
  · exact h
  rename_i target conn hstage
  dsimp only
  generalize hpoolId : poolFor call.service target = poolId
  have hown : (s.objects conn).owner = .call id := (h.calls id call hcall).opened target conn hstage
  have hnew : conn ∉ (s.pools poolId).connections := fun hmem => by
    cases hown.symm.trans (h.pooled poolId conn hmem)
  have hmoved := moved_of_store h hnew
    (Pool.store_case (fun conn => (s.objects conn).connected) hsize conn (s.pools poolId))
  generalize (s.pools poolId).store (fun conn => (s.objects conn).connected) poolSize conn =
    stored at hmoved ⊢
  obtain ⟨hpools, hcalls, hcreates⟩ := moveInto_frame (s := s) poolId conn stored.destroyed
  generalize s.moveInto poolId conn stored.destroyed = moved at hmoved hpools hcalls hcreates ⊢
  -- a connection of another pool or another call keeps its owner
  have hsame : ∀ {other : ConnectionId} {owner : Owner}, (s.objects other).owner = owner →
      owner ≠ .call id → owner ≠ .pool poolId → (moved.objects other).owner = owner := by
    intro other owner hother hnotCall hnotPool
    have hne : other ≠ conn := by
      rintro rfl
      exact hnotCall (hother.symm.trans hown)
    refine (hmoved.kept other hne fun hdestroyed => ?_).trans hother
    have hmem := (hmoved.destroyed other hdestroyed hne).1
    exact hnotPool (hother.symm.trans (h.pooled poolId other hmem))
  refine ⟨fun other hother => ?_, fun p other hmem => ?_, fun p => ?_, fun other call' hcall' => ?_⟩
  · exact hsame (h.fresh other (hcreates ▸ hother)) nofun nofun
  · dsimp only [setCall, setPool] at hmem
    split at hmem
    · rename_i heq
      rw [heq]
      exact hmoved.pooled other hmem
    · rename_i hne
      rw [hpools] at hmem
      exact hsame (h.pooled p other hmem) nofun fun heq => hne (Owner.pool.inj heq)
  · dsimp only [setCall, setPool]
    split
    · exact hmoved.distinct
    · rw [hpools]
      exact h.distinct p
  · dsimp only [setCall, setPool] at hcall'
    split at hcall'
    · cases hcall'
      refine ⟨by rintro _ _ ⟨⟩, fun used huses => ?_⟩
      cases huses
      exact ⟨_, hmoved.returned.trans (by rw [← hpoolId]; rfl)⟩
    · rename_i hne
      rw [hcalls] at hcall'
      refine (h.calls other call' hcall').of_owner_eq (fun used hused => ?_)
        fun used key huses hused => ?_
      · exact hsame hused (fun heq => hne (Owner.call.inj heq)) nofun
      · have hother : used ≠ conn := by
          rintro rfl
          cases hown.symm.trans hused
        refine (hmoved.kept used hother fun hdestroyed => ?_).trans hused
        obtain ⟨hmem, hclosed, hfull⟩ := hmoved.destroyed used hdestroyed hother
        have hcond := hundisturbed call target conn hcall hstage
          (hpoolId ▸ hfull) other call' used hne hcall' huses (hpoolId ▸ hmem)
        rw [hclosed] at hcond
        cases hcond

theorem Sound.update (svc : ServiceId) (cfg : Option BackendConfig)
    (hundisturbed : Undisturbed poolSize s (.update svc cfg)) : (s.update svc cfg).Sound := by
  have hkept : ∀ {conn : ConnectionId} {owner : Owner}, (s.objects conn).owner = owner →
      (∀ p : PoolId, owner = .pool p → p.1 ≠ slotFor svc) →
      ((s.update svc cfg).objects conn).owner = owner := by
    intro conn owner hown hother
    dsimp only [BridgeState.update]
    rw [hown]
    cases owner with
    | nobody | call id => simpa using hown
    | pool p => simpa [hother p rfl] using hown
  refine ⟨fun conn hconn => ?_, fun p conn hconn => ?_, fun p => ?_, fun id call hcall => ?_⟩
  · exact hkept (h.fresh conn hconn) nofun
  · dsimp only [BridgeState.update] at hconn
    split at hconn
    · cases hconn
    · rename_i hne
      refine hkept (h.pooled p conn hconn) ?_
      rintro _ ⟨⟩
      exact hne
  · dsimp only [BridgeState.update]
    split
    · exact nodup_nil
    · exact h.distinct p
  · refine (h.calls id call hcall).of_owner_eq (fun conn hconn => ?_) fun conn key huses hconn => ?_
    · exact hkept hconn nofun
    · refine hkept hconn ?_
      rintro _ ⟨⟩
      exact hundisturbed id call hcall (by rw [huses]; rintro ⟨⟩)

theorem Sound.step (hsize : 0 < poolSize) (event : BridgeEvent)
    (hundisturbed : Undisturbed poolSize s event) : (s.step poolSize event).Sound := by
  cases event with
  | start =>
    dsimp only [BridgeState.step]
    split
    · refine h.of_frame (fun _ => rfl) (fun _ => rfl) rfl (h.calls_set fun call hcall => ?_)
      cases hcall
      exact callSound_of_none nofun rfl
    · exact h
  | resolve id => exact h.resolve id
  | select => exact h.select ..
  | connect => exact h.connect ..
  | store id => exact h.store hsize id hundisturbed
  | send => exact h.send ..
  | recover id => exact h.recover id
  | register | deregister => exact h.of_frame (fun _ => rfl) (fun _ => rfl) rfl h.calls
  | update => exact h.update _ _ hundisturbed

end

theorem sound_start (bridge : ServiceBridge) : Sound { bridge } where
  fresh _ _ := rfl
  pooled _ _ hmem := absurd hmem not_mem_nil
  distinct _ := nodup_nil
  calls _ _ hcall := by cases hcall

/-- No connection is destroyed in use if connections are replaced and configurations updated only
when no call is in the way. -/
theorem connections_alive_of_undisturbed (parsed : Option Nat) (bridge : ServiceBridge)
    (events : List BridgeEvent) (h : Along (step (backendConnectionPoolSize parsed))
      (Undisturbed (backendConnectionPoolSize parsed)) { bridge } events) :
    Always (step (backendConnectionPoolSize parsed)) UsesAlive { bridge } events := by
  have hsize := backendConnectionPoolSize_pos parsed
  exact h.always (fun _ event hs => hs.step hsize event) (fun _ hs => hs.usesAlive)
    (sound_start bridge)

def roomBridge : ServiceBridge where
  slotConfig service := if service = .room then some { port := 9302 } else none

def roomBackend : ResolvedBackend where
  config := { port := 9302 }
  connectionKey := ascii "__static__"
  node := none
  fromCluster := false

def connectEvents (id : Nat) : List BridgeEvent :=
  [.start id .room [], .resolve id, .select id fun _ => false, .connect id true]

def openEvents (id : Nat) : List BridgeEvent := connectEvents id ++ [.store id]

def openTwice : List BridgeEvent := connectEvents 0 ++ connectEvents 1 ++ [.store 0, .store 1]

/-- In a pool for one connection the second call gets that of the first. -/
theorem two_calls_alive :
    let s := openTwice.foldl (step (backendConnectionPoolSize (some 1))) { bridge := roomBridge }
    (s.calls 0).bind Call.uses = some 0 ∧ (s.calls 1).bind Call.uses = some 0 ∧
      Always (step (backendConnectionPoolSize (some 1))) UsesAlive { bridge := roomBridge }
        (openTwice ++ [.send 0 true, .send 1 true]) := by
  refine ⟨by decide +kernel, by decide +kernel, connections_alive_of_undisturbed _ roomBridge _ ?_⟩
  simp only [openTwice, connectEvents, cons_append, nil_append, along_cons, Undisturbed, true_and,
    along_nil, and_true]
  constructor
  · intro call target conn hcall hstage hfull
    have hopened : call = { service := .room, shardKey := [], stage := .opened roomBackend 0 } :=
      Option.some.inj (hcall.symm.trans (by decide +kernel))
    subst hopened
    cases hstage
    exact absurd hfull (by decide +kernel)
  · intro call target conn hcall hstage _ other call' used _ _ huses
    have hopened : call = { service := .room, shardKey := [], stage := .opened roomBackend 1 } :=
      Option.some.inj (hcall.symm.trans (by decide +kernel))
    subst hopened
    cases hstage
    -- the pool holds the connection of the first call only
    clear huses
    revert used
    decide +kernel

/-- The first call gets no response; before it reads the failure, the second call replaces its
connection. -/
theorem connection_destroyed_in_use :
    ¬∀ (parsed : Option Nat) (bridge : ServiceBridge) (events : List BridgeEvent),
      Always (step (backendConnectionPoolSize parsed)) UsesAlive { bridge } events := by
  intro h
  have halive := h (some 1) roomBridge (openEvents 0 ++ [.send 0 false] ++ openEvents 1) _ []
    (append_nil _).symm 0
    { service := .room, shardKey := [], stage := .failed 0 } 0 (by decide +kernel) rfl
  exact halive (by decide +kernel)

end BoostGateway.Gateway.BridgeState
