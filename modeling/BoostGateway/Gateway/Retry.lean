import BoostGateway.Gateway.Routing

/-!
# Retried requests

`BackendConnection::send_request_with_retry`, once it has its permit: the envelopes that its
attempts hand to `write_frame`. Each attempt moves the request into `do_send`, and then into the
next attempt. `retries_same_iff` says when all of them send the same request.
-/

namespace BoostGateway.Gateway

open List

structure BackendEnvelope where
  correlationId : UInt64 := 0
  sourceService : ServiceId := .gateway
  targetService : ServiceId := .gateway
  payload : Bytes
  messageType : Bytes

def BackendEnvelope.movedFrom (moved : Bytes → Bytes) (request : BackendEnvelope) :
    BackendEnvelope :=
  { request with payload := moved request.payload, messageType := moved request.messageType }

def BackendEnvelope.SameRequest (written first : BackendEnvelope) : Prop :=
  written.messageType = first.messageType ∧ written.payload = first.payload ∧
    written.targetService = first.targetService ∧ written.correlationId = first.correlationId

/-- Every attempt writes the request of the first one. -/
def SameRequests : List BackendEnvelope → Prop
  | [] => True
  | first :: rest => ∀ written ∈ rest, written.SameRequest first

structure BackendConnectionRetryOptions where
  maxRetries : Nat := 3
  initialBackoff : Int := 100
  maxBackoff : Int := 2000

structure SendAttempt where
  replied : Bool
  drawn : UInt64 := 0
  some_left : drawn + 1 ≠ 0 := by decide

def doSend (nextId : UInt64) (request : BackendEnvelope) : BackendEnvelope × UInt64 :=
  if request.correlationId = 0 then
    ({ request with correlationId := nextId, sourceService := .gateway }, nextId + 1)
  else ({ request with sourceService := .gateway }, nextId)

section Retries

variable (moved : Bytes → Bytes) (maxBackoff : Int) (transport : Nat → SendAttempt)

/-- What the attempts write, by the retries that remain. -/
def attemptSendWithRetry (nextId : UInt64) (request : BackendEnvelope) (backoff : Int) :
    Nat → List BackendEnvelope
  | 0 => [(doSend nextId request).1]
  | remainingRetries + 1 =>
    let (written, nextId) := doSend nextId request
    let attempt := transport (remainingRetries + 1)
    if attempt.replied || backoff = 0 then [written]
    else written :: attemptSendWithRetry (nextId + attempt.drawn) (request.movedFrom moved)
      (min (backoff * 2) maxBackoff) remainingRetries

theorem doSend_mem_attemptSendWithRetry (nextId : UInt64) (req : BackendEnvelope) (backoff : Int)
    (remainingRetries : Nat) : (doSend nextId req).1 ∈
      attemptSendWithRetry moved maxBackoff transport nextId req backoff remainingRetries := by
  cases remainingRetries with
  | zero => exact mem_cons_self
  | succ =>
    simp only [attemptSendWithRetry]
    split
    · exact mem_cons_self
    · exact mem_cons_self

variable {moved maxBackoff transport}

theorem attempts_of_unmoved {req : BackendEnvelope} (hid : req.correlationId ≠ 0)
    (hmoved : req.movedFrom moved = req) (nextId : UInt64) (backoff : Int)
    (remainingRetries : Nat) : ∀ written ∈ attemptSendWithRetry moved maxBackoff transport nextId
      req backoff remainingRetries, written = { req with sourceService := .gateway } := by
  induction remainingRetries generalizing nextId backoff with
  | zero => simp [attemptSendWithRetry, doSend, hid]
  | succ remainingRetries ih =>
    simp only [attemptSendWithRetry, doSend, if_neg hid, hmoved]
    split
    · simp
    · exact forall_mem_cons.mpr ⟨rfl, ih _ _⟩

end Retries

def sendRequestWithRetry (moved : Bytes → Bytes) (options : BackendConnectionRetryOptions)
    (transport : Nat → SendAttempt) (nextId : UInt64) (request : BackendEnvelope) :
    List BackendEnvelope :=
  if options.maxRetries = 0 then [(doSend nextId request).1]
  else attemptSendWithRetry moved options.maxBackoff transport nextId request
    options.initialBackoff options.maxRetries

/-- Every attempt sends the request of the first one exactly if there is one attempt only, or the
request has a correlation id and a move leaves its strings as they are. -/
theorem retries_same_iff (moved : Bytes → Bytes) (options : BackendConnectionRetryOptions)
    (transport : Nat → SendAttempt) (nextId : UInt64) (request : BackendEnvelope) :
    SameRequests (sendRequestWithRetry moved options transport nextId request) ↔
      options.maxRetries = 0 ∨ (transport options.maxRetries).replied = true ∨
        options.initialBackoff = 0 ∨ (request.correlationId ≠ 0 ∧
          moved request.messageType = request.messageType ∧
          moved request.payload = request.payload) := by
  unfold sendRequestWithRetry
  cases hretries : options.maxRetries with
  | zero => simp [SameRequests]
  | succ retries =>
    simp only [Nat.succ_ne_zero, if_false, false_or, attemptSendWithRetry, ← or_assoc]
    split
    case isTrue hone => exact iff_of_true nofun (.inl (by simpa using hone))
    case isFalse hagain =>
      rw [or_iff_right (by simpa using hagain)]
      constructor
      · intro hsame
        -- The second attempt shows what the move did.
        obtain ⟨htype, hpay, -, hid⟩ := hsame _ (doSend_mem_attemptSendWithRetry ..)
        by_cases hzero : request.correlationId = 0
        · simp only [doSend, BackendEnvelope.movedFrom, if_pos hzero] at hid
          have hleft := (transport (retries + 1)).some_left
          grind
        · simp only [doSend, BackendEnvelope.movedFrom, if_neg hzero] at htype hpay
          exact ⟨hzero, htype, hpay⟩
      · rintro ⟨hid, htype, hpay⟩ written hwrite
        have hmoved : request.movedFrom moved = request := by
          simp [BackendEnvelope.movedFrom, htype, hpay]
        rw [hmoved] at hwrite
        rw [attempts_of_unmoved hid hmoved _ _ _ written hwrite, doSend, if_neg hid]
        exact ⟨rfl, rfl, rfl, rfl⟩

/-- A string that is moved from is left empty, and the retry has no message type. -/
theorem retry_without_message_type : ¬ SameRequests (sendRequestWithRetry (fun _ => []) {}
    (fun _ => { replied := false }) 1
    { correlationId := 7, payload := ascii "x", messageType := ascii "login" }) := by
  intro hsame
  cases (hsame _ mem_cons_self).1

end BoostGateway.Gateway
