import BoostGateway.Gateway.CircuitBreaker

/-!
# The calls of the service bridge

`GatewayServiceBridge::route` asks the circuit breaker, sends the request with one retry, and
reports to the breaker. A run interleaves the question and the report of any number of calls.
-/

namespace BoostGateway.Gateway

open List

/-! ## Error codes -/

structure ServiceErrorCode where
  code : Int32
  deriving DecidableEq

namespace ServiceErrorCode

def ok : ServiceErrorCode := ⟨0⟩
def timeout : ServiceErrorCode := ⟨-1001⟩
def unavailable : ServiceErrorCode := ⟨-1002⟩
def rejected : ServiceErrorCode := ⟨-1003⟩
def invalidRequest : ServiceErrorCode := ⟨-1004⟩
def internalError : ServiceErrorCode := ⟨-1005⟩
def circuitOpen : ServiceErrorCode := ⟨-1007⟩
def userAlreadyExists : ServiceErrorCode := ⟨-1100⟩
def illegalUsername : ServiceErrorCode := ⟨-1101⟩
def weakCredential : ServiceErrorCode := ⟨-1102⟩
def accountDisabled : ServiceErrorCode := ⟨-1103⟩
def storageUnavailable : ServiceErrorCode := ⟨-1104⟩
def roomNotFound : ServiceErrorCode := ⟨-1200⟩
def roomFull : ServiceErrorCode := ⟨-1201⟩
def roomInInstance : ServiceErrorCode := ⟨-1202⟩
def roomClosed : ServiceErrorCode := ⟨-1203⟩
def notRoomOwner : ServiceErrorCode := ⟨-1204⟩
def notRoomMember : ServiceErrorCode := ⟨-1205⟩

/-- The codes of errors that the content of a request causes. -/
def ofContent : List ServiceErrorCode :=
  [rejected, invalidRequest, userAlreadyExists, illegalUsername, weakCredential, accountDisabled,
    storageUnavailable, roomNotFound, roomFull, roomInInstance, roomClosed, notRoomOwner,
    notRoomMember]

end ServiceErrorCode

/-! ## One call -/

inductive MessageKind where
  | request
  | response
  | push
  | error
  deriving DecidableEq

structure BackendReply where
  correlationId : UInt64 := 0
  kind : MessageKind := .response
  errorCode : Int32 := 0
  payload : Bytes := []
  deriving DecidableEq

structure RoutingResult where
  success : Bool := false
  responsePayload : Bytes := []
  error : ServiceErrorCode := .ok
  correlationId : UInt64 := 0

inductive Attempt where
  | notConnected
  | noResponse
  | answered (reply : BackendReply)
  deriving DecidableEq

structure Exchange where
  first : Attempt
  retry : Attempt := .notConnected

def Exchange.answer (exchange : Exchange) : Option BackendReply :=
  match exchange.first with
  | .notConnected => none
  | .answered reply => some reply
  | .noResponse =>
    match exchange.retry with
    | .answered reply => some reply
    | .notConnected | .noResponse => none

inductive Verdict where
  | success
  | failure

/-- The part of `route` after `allow_request`. -/
def Exchange.settle (exchange : Exchange) : Verdict × RoutingResult :=
  match exchange.answer with
  | none =>
    if exchange.first = .notConnected then (.failure, { error := .unavailable })
    else (.failure, { error := .timeout })
  | some reply =>
    if reply.kind = .error then
      let result : RoutingResult :=
        { responsePayload := reply.payload
          error := ⟨reply.errorCode⟩
          correlationId := reply.correlationId }
      if result.error = .rejected then (.success, result) else (.failure, result)
    else
      (.success,
        { success := true, responsePayload := reply.payload, correlationId := reply.correlationId })

def CircuitBreaker.report (verdict : Verdict) (now : Int) (b : CircuitBreaker) : CircuitBreaker :=
  match verdict with
  | .success => b.onSuccess now
  | .failure => b.onFailure now

def route (enteredAt settledAt : Int) (exchange : Exchange) (b : CircuitBreaker) :
    RoutingResult × CircuitBreaker :=
  match b.allowRequest enteredAt with
  | (false, b') => ({ error := .circuitOpen }, b')
  | (true, b') => (exchange.settle.2, b'.report exchange.settle.1 settledAt)

/-! ## Overlapping calls -/

structure Slot where
  breaker : CircuitBreaker
  inFlight : Nat := 0

inductive RouteEvent where
  | enter (now : Int)
  | settle (now : Int) (exchange : Exchange)

/-- A half of a call. -/
def Slot.step (slot : Slot) : RouteEvent → Slot
  | .enter now =>
    match slot.breaker.allowRequest now with
    | (true, b) => { breaker := b, inFlight := slot.inFlight + 1 }
    | (false, b) => { slot with breaker := b }
  | .settle now exchange =>
    match slot.inFlight with
    | 0 => slot
    | inFlight + 1 =>
      { breaker := slot.breaker.report exchange.settle.1 now, inFlight }

def Slot.after (slot : Slot) (events : List RouteEvent) : Slot := events.foldl Slot.step slot

def Slot.fresh (options : CircuitBreakerOptions) : Slot where
  breaker := { options }

/-- The settling calls of a run without refusals. -/
def settled : Nat → List RouteEvent → List Exchange
  | _, [] => []
  | inFlight, .enter _ :: rest => settled (inFlight + 1) rest
  | 0, .settle _ _ :: rest => settled 0 rest
  | inFlight + 1, .settle _ exchange :: rest => exchange :: settled inFlight rest

/-- The breaker is closed throughout, so it refuses no call. -/
def StaysClosed (slot : Slot) (events : List RouteEvent) : Prop := ∀ before, before <+: events →
    (slot.after before).breaker.state = .closed ∧
      ∀ now, ((slot.after before).breaker.allowRequest now).1 = true

def NoStreak (options : CircuitBreakerOptions) (verdicts : List Verdict) : Prop :=
  ¬List.replicate options.limit .failure <:+: verdicts

theorem staysClosed_cons (slot : Slot) (event : RouteEvent) (rest : List RouteEvent) :
    StaysClosed slot (event :: rest) ↔
      slot.breaker.state = .closed ∧ StaysClosed (slot.step event) rest := by
  constructor
  · intro h
    refine ⟨(h [] (List.nil_prefix)).1, fun before hpre => ?_⟩
    exact h (event :: before) (cons_prefix_cons.2 ⟨rfl, hpre⟩)
  · rintro ⟨hclosed, hrest⟩ before hpre
    rcases prefix_cons_iff.1 hpre with rfl | ⟨before', rfl, hpre'⟩
    · refine ⟨hclosed, fun now => ?_⟩
      rw [Slot.after, foldl_nil, CircuitBreaker.allowRequest_of_closed hclosed]
    · exact hrest before' hpre'

/-! ## Streaks -/

theorem replicate_prefix_le {n k : Nat} {rest : List Verdict}
    (h : List.replicate n .failure <+: List.replicate k .failure ++ .success :: rest) : n ≤ k := by
  induction n generalizing k with
  | zero => exact Nat.zero_le k
  | succ n ih =>
    cases k with
    | zero => simp [replicate_succ] at h
    | succ =>
      rw [replicate_succ, replicate_succ, cons_append, cons_prefix_cons] at h
      exact Nat.succ_le_succ (ih h.2)

theorem noStreak_success {opts : CircuitBreakerOptions} {k : Nat} (hk : k < opts.limit)
    (rest : List Verdict) :
    NoStreak opts (List.replicate k .failure ++ .success :: rest) ↔ NoStreak opts rest := by
  refine not_congr ?_
  have hnot : ∀ j ≤ k,
      ¬List.replicate opts.limit .failure <+: List.replicate j .failure ++ .success :: rest :=
    fun j hj h => absurd (replicate_prefix_le h) (by omega)
  induction k with
  | zero =>
    rw [replicate_zero, nil_append, infix_cons_iff]
    exact or_iff_right (hnot 0 (Nat.le_refl 0))
  | succ k ih =>
    rw [replicate_succ, cons_append, infix_cons_iff]
    have hhere := hnot (k + 1) le_rfl
    rw [replicate_succ, cons_append] at hhere
    rw [or_iff_right hhere]
    exact ih (by omega) fun j hj => hnot j (by omega)

theorem noStreak_short {opts : CircuitBreakerOptions} {k : Nat} (hk : k < opts.limit) :
    NoStreak opts (List.replicate k .failure) := by
  intro h
  have hlen := h.length_le
  rw [length_replicate, length_replicate] at hlen
  omega

theorem not_noStreak_long {opts : CircuitBreakerOptions} {k : Nat} (hk : opts.limit ≤ k)
    (rest : List Verdict) : ¬NoStreak opts (List.replicate k .failure ++ rest) := by
  refine not_not.2 ?_
  obtain ⟨extra, rfl⟩ := Nat.exists_eq_add_of_le hk
  rw [← replicate_append_replicate, append_assoc]
  exact (prefix_append ..).isInfix

/-! ## When a circuit opens -/

/-- The breaker stays closed exactly if its streak and the verdicts have no streak too long. -/
theorem staysClosed_iff_of_countsStreak {slot : Slot} {k : Nat}
    (hcounts : slot.breaker.CountsStreak k) (events : List RouteEvent) :
    StaysClosed slot events ↔ NoStreak slot.breaker.options (List.replicate k .failure ++
        (settled slot.inFlight events).map (·.settle.1)) := by
  -- Induction over the run; the streak is the part of the verdicts already in the breaker.
  induction events generalizing slot k with
  | nil =>
    simp only [settled, map_nil, append_nil]
    refine iff_of_true (fun before hpre => ?_) (noStreak_short hcounts.short)
    rw [prefix_nil.1 hpre, Slot.after, foldl_nil]
    exact ⟨hcounts.closed, fun now => by
      rw [CircuitBreaker.allowRequest_of_closed hcounts.closed]⟩
  | cons event rest ih =>
    rw [staysClosed_cons, and_iff_right hcounts.closed]
    match event, slot with
    | .enter now, { breaker, inFlight } =>
      have hstep : Slot.step { breaker, inFlight } (.enter now) =
          { breaker, inFlight := inFlight + 1 } := by
        simp [Slot.step, CircuitBreaker.allowRequest_of_closed hcounts.closed]
      rw [hstep]
      exact ih hcounts
    | .settle now exchange, { breaker, inFlight := 0 } => exact ih hcounts
    | .settle now exchange, { breaker, inFlight := inFlight + 1 } =>
      simp only [Slot.step, settled, map_cons]
      cases exchange.settle.1 with
      | success =>
        obtain ⟨hcounts', hoptions⟩ := hcounts.onSuccess now
        rw [noStreak_success hcounts.short, ← hoptions]
        exact @ih ⟨breaker.onSuccess now, inFlight⟩ 0 hcounts'
      | failure =>
        rw [append_cons, ← replicate_succ']
        by_cases hshort : k + 1 < breaker.options.limit
        · obtain ⟨hcounts', hoptions⟩ := hcounts.onFailure now hshort
          rw [← hoptions]
          exact @ih ⟨breaker.onFailure now, inFlight⟩ (k + 1) hcounts'
        · have hlong : breaker.options.limit ≤ k + 1 := Nat.le_of_not_lt hshort
          refine iff_of_false (fun hstays => ?_) (not_noStreak_long hlong _)
          have hopen := hcounts.opens now hlong
          have hclosed : (breaker.onFailure now).state = .closed := (hstays [] List.nil_prefix).1
          rw [hopen] at hclosed
          cases hclosed

/-- The call is answered with no error code or with `kRejected`. -/
def Exchange.welcome (exchange : Exchange) : Bool := exchange.answer.any fun reply =>
    reply.kind ≠ .error || (⟨reply.errorCode⟩ : ServiceErrorCode) = .rejected

theorem settle_failure_iff (exch : Exchange) : exch.settle.1 = .failure ↔ exch.welcome = false := by
  cases hans : exch.answer with
  | none =>
    simp only [Exchange.settle, Exchange.welcome, hans, Option.any_none, iff_true]
    split <;> rfl
  | some =>
    simp only [Exchange.settle, Exchange.welcome, hans, Option.any_some]
    split
    case isTrue hkind => split <;> simp_all
    case isFalse hkind => simp [hkind]

theorem noStreak_verdicts_iff (opts : CircuitBreakerOptions) (exchanges : List Exchange) :
    NoStreak opts (exchanges.map (·.settle.1)) ↔
      ∀ block, block <:+: exchanges → block.length = opts.limit →
        ∃ exch ∈ block, exch.welcome = true := by
  rw [NoStreak, infix_map_iff, not_exists]
  refine forall_congr' fun block => ?_
  rw [eq_comm, eq_replicate_iff, length_map, not_and]
  rw [not_and]
  simp [settle_failure_iff]

/-- The circuit stays closed and no call is refused exactly if no block of `max 1 failure_threshold`
calls that settle one after the other consists only of calls that go unanswered or are answered with
an error other than `kRejected`. -/
theorem circuit_stays_closed_iff (options : CircuitBreakerOptions) (events : List RouteEvent) :
    StaysClosed (Slot.fresh options) events ↔ ∀ block, block <:+: settled 0 events →
        block.length = max 1 options.failureThreshold.toNat →
          ∃ exchange ∈ block, exchange.welcome = true := by
  have hcounts : (Slot.fresh options).breaker.CountsStreak 0 :=
    ⟨rfl, rfl, Nat.lt_of_lt_of_le Nat.one_pos (Nat.le_max_left ..)⟩
  rw [staysClosed_iff_of_countsStreak hcounts]
  exact noStreak_verdicts_iff options (settled 0 events)

/-- A success, or an error that the content causes. -/
def Exchange.ofContent (exchange : Exchange) : Bool := exchange.answer.any fun reply =>
    reply.kind ≠ .error || (⟨reply.errorCode⟩ : ServiceErrorCode) ∈ ServiceErrorCode.ofContent

/-- Three players ask for a room that is full, and the circuit opens for everyone. -/
theorem full_room_opens_circuit : ¬∀ (options : CircuitBreakerOptions) (events : List RouteEvent),
      (∀ exchange ∈ settled 0 events, exchange.ofContent = true) →
        StaysClosed (Slot.fresh options) events := by
  intro h
  let full : Exchange := { first := .answered { kind := .error, errorCode := -1201 } }
  let events : List RouteEvent :=
    [.enter 0, .settle 1 full, .enter 2, .settle 3 full, .enter 4, .settle 5 full]
  have hclosed := (h {} events (by decide) events (prefix_refl events)).1
  revert hclosed
  decide

end BoostGateway.Gateway
