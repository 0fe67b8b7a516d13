import Mathlib.Data.List.Infix
import BoostGateway.Bytes
import BoostGateway.Runs

/-!
# The circuit breaker

`CircuitBreaker` refuses requests for a while after too many failures in a row. Each method runs
under its mutex, so there is one step per method; the clock is an argument.
-/

namespace BoostGateway.Gateway

/-- `CircuitBreakerOptions`, with the timeout in milliseconds. -/
structure CircuitBreakerOptions where
  failureThreshold : UInt32 := 3
  timeout : Int := 30000
  halfOpenMaxRequests : UInt32 := 1

def CircuitBreakerOptions.limit (options : CircuitBreakerOptions) : Nat :=
  max 1 options.failureThreshold.toNat

inductive CircuitBreakerState where
  | closed
  | open
  | halfOpen
  deriving DecidableEq

structure CircuitBreaker where
  options : CircuitBreakerOptions := {}
  state : CircuitBreakerState := .closed
  failureCount : UInt32 := 0
  halfOpenRequests : UInt32 := 0
  openedAt : Int := 0

namespace CircuitBreaker

def transitionTo (newState : CircuitBreakerState) (now : Int) (b : CircuitBreaker) :
    CircuitBreaker :=
  match newState with
  | .open => { b with state := .open, openedAt := now }
  | .closed => { b with state := .closed, failureCount := 0, halfOpenRequests := 0 }
  | .halfOpen => { b with state := .halfOpen, halfOpenRequests := 0 }

def isTimeoutExpired (now : Int) (b : CircuitBreaker) : Bool := b.options.timeout ≤ now - b.openedAt

def onSuccess (now : Int) (b : CircuitBreaker) : CircuitBreaker :=
  match b.state with
  | .closed => { b with failureCount := 0 }
  | .halfOpen =>
    let counted := { b with halfOpenRequests := b.halfOpenRequests + 1 }
    if counted.options.halfOpenMaxRequests ≤ counted.halfOpenRequests then
      counted.transitionTo .closed now
    else counted
  | .open => b

def onFailure (now : Int) (b : CircuitBreaker) : CircuitBreaker :=
  match b.state with
  | .closed =>
    let counted := { b with failureCount := b.failureCount + 1 }
    if counted.options.failureThreshold ≤ counted.failureCount then
      counted.transitionTo .open now
    else counted
  | .halfOpen => b.transitionTo .open now
  | .open => b

def allowRequest (now : Int) (b : CircuitBreaker) : Bool × CircuitBreaker :=
  match b.state with
  | .open =>
    if b.isTimeoutExpired now then (true, b.transitionTo .halfOpen now)
    else (false, b)
  | .closed | .halfOpen => (true, b)

/-! ## A closed breaker -/

@[simp] theorem transitionTo_state (newState : CircuitBreakerState) (now : Int)
    (b : CircuitBreaker) : (b.transitionTo newState now).state = newState := by
  cases newState <;> rfl

variable {b : CircuitBreaker} {streak : Nat}

theorem allowRequest_of_closed (h : b.state = .closed) (now : Int) :
    b.allowRequest now = (true, b) := by simp [allowRequest, h]

theorem onSuccess_of_closed (h : b.state = .closed) (now : Int) :
    b.onSuccess now = { b with failureCount := 0 } := by simp [onSuccess, h]

structure CountsStreak (streak : Nat) (b : CircuitBreaker) : Prop where
  closed : b.state = .closed
  counted : b.failureCount.toNat = streak
  short : streak < b.options.limit

theorem CountsStreak.onSuccess (h : CountsStreak streak b) (now : Int) :
    CountsStreak 0 (b.onSuccess now) ∧ (b.onSuccess now).options = b.options := by
  rw [onSuccess_of_closed h.closed]
  exact ⟨⟨h.closed, rfl, Nat.lt_of_lt_of_le Nat.one_pos (Nat.le_max_left ..)⟩, rfl⟩

theorem CountsStreak.count_succ (h : CountsStreak streak b) :
    (b.failureCount + 1).toNat = streak + 1 := by
  have hshort := h.short
  have hthreshold := b.options.failureThreshold.toNat_lt
  rw [CircuitBreakerOptions.limit] at hshort
  rw [UInt32.toNat_add, h.counted, UInt32.toNat_one]
  omega

theorem CountsStreak.onFailure (h : CountsStreak streak b) (now : Int)
    (hshort : streak + 1 < b.options.limit) :
    CountsStreak (streak + 1) (b.onFailure now) ∧ (b.onFailure now).options = b.options := by
  have hcount := h.count_succ
  have hbelow : ¬b.options.failureThreshold ≤ b.failureCount + 1 := by
    rw [UInt32.le_iff_toNat_le, hcount]
    rw [CircuitBreakerOptions.limit] at hshort
    omega
  simp only [CircuitBreaker.onFailure, h.closed, if_neg hbelow]
  exact ⟨⟨rfl, hcount, hshort⟩, trivial⟩

theorem CountsStreak.opens (h : CountsStreak streak b) (now : Int)
    (hlong : b.options.limit ≤ streak + 1) : (b.onFailure now).state = .open := by
  have hreach : b.options.failureThreshold ≤ b.failureCount + 1 := by
    rw [UInt32.le_iff_toNat_le, h.count_succ]
    rw [CircuitBreakerOptions.limit] at hlong
    omega
  simp [CircuitBreaker.onFailure, h.closed, if_pos hreach, transitionTo_state]

end CircuitBreaker

/-! ## Half-open periods

A half-open breaker lets every request through and counts every success, also that of a request
from before. So the probing is bounded (`probing_bounded`) as long as a request of the period is
made only when the ones before have reported. -/

/-- A breaker and the requests that it has allowed. -/
structure ProbedBreaker where
  breaker : CircuitBreaker := {}
  /-- The half-open periods that have begun. -/
  period : Nat := 0
  /-- The requests that have not reported yet, each with the period in or after which it was
  allowed. -/
  outstanding : List Nat := []
  /-- The requests allowed since the last half-open period began. -/
  allowed : Nat := 0
  /-- Those of them that have succeeded. -/
  succeeded : Nat := 0

/-- A call, its time, and the request that reports. -/
inductive BreakerCall where
  | allowRequest (now : Int)
  | onSuccess (request : Nat) (now : Int)
  | onFailure (request : Nat) (now : Int)

namespace ProbedBreaker

def max (s : ProbedBreaker) : Nat := s.breaker.options.halfOpenMaxRequests.toNat

def step (s : ProbedBreaker) : BreakerCall → ProbedBreaker
  | .allowRequest now =>
    match s.breaker.allowRequest now with
    | (false, breaker) => { s with breaker }
    | (true, breaker) =>
      if s.breaker.state = .open then
        { breaker
          period := s.period + 1
          outstanding := (s.period + 1) :: s.outstanding
          allowed := 1 }
      else
        { s with breaker, outstanding := s.period :: s.outstanding, allowed := s.allowed + 1 }
  | .onSuccess request now =>
    match s.outstanding[request]? with
    | none => s
    | some period =>
      { s with
        breaker := s.breaker.onSuccess now
        outstanding := s.outstanding.eraseIdx request
        succeeded := if period = s.period then s.succeeded + 1 else s.succeeded }
  | .onFailure request now =>
    match s.outstanding[request]? with
    | none => s
    | some _ =>
      { s with
        breaker := s.breaker.onFailure now
        outstanding := s.outstanding.eraseIdx request }

/-- At most as many requests in a half-open period as the option says, and it closes only after so
many successes. -/
def Bounded (s after : ProbedBreaker) : Prop :=
  (after.breaker.state = .halfOpen → after.allowed ≤ s.max) ∧
    (s.breaker.state = .halfOpen → after.breaker.state = .closed → s.max ≤ after.succeeded)

/-- In a half-open period, and to begin one, requests come one at a time. -/
def oneAtATime (s : ProbedBreaker) : BreakerCall → Bool
  | .allowRequest now =>
    (s.step (.allowRequest now)).breaker.state = .halfOpen → s.outstanding = []
  | _ => true

structure Probing (s : ProbedBreaker) : Prop where
  own : s.outstanding = [] ∨ s.outstanding = [s.period]
  allowed : s.allowed = s.succeeded + s.outstanding.length
  counted : s.breaker.halfOpenRequests.toNat = s.succeeded
  short : s.succeeded < s.max

structure Counts (limit : UInt32) (s : ProbedBreaker) : Prop where
  options : s.breaker.options.halfOpenMaxRequests = limit
  probing : s.breaker.state = .halfOpen → s.Probing

variable {limit : UInt32} {s : ProbedBreaker}

theorem Probing.count_succ (h : s.Probing) :
    (s.breaker.halfOpenRequests + 1).toNat = s.succeeded + 1 := by
  have hshort := h.short
  have hmax := s.breaker.options.halfOpenMaxRequests.toNat_lt
  rw [max] at hshort
  rw [UInt32.toNat_add, h.counted, UInt32.toNat_one]
  omega

attribute [grind] CircuitBreaker.allowRequest CircuitBreaker.onSuccess CircuitBreaker.onFailure
  CircuitBreaker.transitionTo ProbedBreaker.step ProbedBreaker.max Bounded

theorem Counts.step (h : Counts limit s) (hpos : 0 < limit.toNat) {call : BreakerCall}
    (hone : s.oneAtATime call = true) : Counts limit (s.step call) ∧ Bounded s (s.step call) := by
  cases call with
  | allowRequest now =>
    have hone := of_decide_eq_true hone
    obtain ⟨rfl, hprobing⟩ := h
    cases hst : s.breaker.state with
    | halfOpen =>
      have hnone := hone (by grind)
      obtain ⟨-, hallow, hcounted, hshort⟩ := hprobing hst
      have hafter : (s.step (.allowRequest now)).Probing := by constructor <;> grind
      exact ⟨⟨by grind, fun _ => hafter⟩, by grind⟩
    | «open» =>
      cases hexpired : s.breaker.isTimeoutExpired now with
      | true =>
        have hnone := hone (by grind)
        simp only [ProbedBreaker.step, CircuitBreaker.allowRequest, hst, hexpired, if_true, hnone]
        refine ⟨⟨rfl, fun _ => ⟨.inr rfl, rfl, rfl, hpos⟩⟩, fun _ => hpos, fun hhalf => ?_⟩
        cases hst.symm.trans hhalf
      | false => grind [Counts]
    | closed => grind [Counts]
  | onFailure => grind [Counts, Probing]
  | onSuccess req =>
    cases hst : s.breaker.state with
    | halfOpen =>
      have hcount := (h.probing hst).count_succ
      obtain ⟨hoptions, hprobing⟩ := h
      obtain ⟨hown | hown, hallow, hcounted, hshort⟩ := hprobing hst
      · grind [Counts, Probing]
      · cases req <;> grind [Counts, Probing, UInt32.le_iff_toNat_le]
    | _ => grind [Counts, Probing]

/-- Probing is bounded if the option admits requests at all, and each request of a half-open period
is made when the ones before have reported. -/
theorem probing_bounded (options : CircuitBreakerOptions) (calls : List BreakerCall)
    (hpos : 0 < options.halfOpenMaxRequests.toNat)
    (h : Along step (fun s call => s.oneAtATime call = true) { breaker := { options } } calls) :
    Along step (fun s call => Bounded s (s.step call)) { breaker := { options } } calls := by
  have hinit : Counts options.halfOpenMaxRequests { breaker := { options } } := ⟨rfl, nofun⟩
  exact h.of_invariant (fun _ _ hs hone => hs.step hpos hone) hinit

def fragile : ProbedBreaker where
  breaker := { options := { failureThreshold := 1 } }

def probe : List BreakerCall := [.allowRequest 0, .onFailure 0 0, .allowRequest 30000]

theorem probing_bounded_probe :
    ((probe ++ [BreakerCall.onSuccess 0 30000]).foldl step fragile).breaker.state = .closed ∧
      Along step (fun s call => Bounded s (s.step call)) fragile
        (probe ++ [BreakerCall.onSuccess 0 30000]) :=
  ⟨by decide, probing_bounded { failureThreshold := 1 } _ (by decide) (by decide)⟩

/-- A second request is allowed in a period that is for one. -/
theorem second_probe_allowed : ¬Along step (fun s call => Bounded s (s.step call)) fragile
    (probe ++ [BreakerCall.allowRequest 30000]) := by
  intro h
  obtain ⟨hallow, -⟩ := h probe (.allowRequest 30000) [] rfl
  exact absurd (hallow (by decide)) (by decide)

end ProbedBreaker

end BoostGateway.Gateway
