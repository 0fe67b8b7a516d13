import BoostGateway.Bytes
import BoostGateway.Runs

/-!
# Pushes and replies of the SDK

`expect` reads packets until the reply to its request. `pushes_dispatched_iff` says when the pushes
that it reads all reach the callback: `is_push` does not list `kMatchFoundPush`.
-/

namespace BoostGateway.Sdk

open List

structure DecodedPacket where
  version : UInt8 := 0
  messageId : UInt16 := 0
  requestId : UInt32 := 0
  sequenceNumber : UInt32 := 0
  errorCode : Int32 := 0
  flags : UInt8 := 0
  body : Bytes := []

def pushIds : List UInt16 := [1003, 1004, 3009, 4005, 4006, 6003]

def isPush (id : UInt16) : Bool :=
  id == 1003 || id == 1004 || id == 3009 || id == 4006 || id == 4005

structure Read where
  packet : DecodedPacket
  closed : Bool

/-- What a call dispatched and dropped, and its result. -/
structure Exchange where
  dispatched : List DecodedPacket := []
  discarded : List DecodedPacket := []
  result : DecodedPacket

def failure (errorCode : Int32) (text : String) : Exchange where
  result := { errorCode, body := ascii text }

/-- The loop of `expect`, over what it reads until the deadline. -/
def await (rid : UInt32) (exp : UInt16) : List Read → Exchange
  | [] => failure (-2) "timeout"
  | ⟨p, closed⟩ :: reads =>
    let rest := await rid exp reads
    if p.messageId = 0 then if closed then failure (-1) "not_connected" else rest
    else if isPush p.messageId then { rest with dispatched := p :: rest.dispatched }
    else if p.requestId ≠ rid then { rest with discarded := p :: rest.discarded }
    else
      let reply : DecodedPacket := { messageId := p.messageId, requestId := rid, body := p.body }
      if p.messageId = 9001 then { result := { reply with errorCode := p.errorCode } }
      else if p.messageId ≠ exp then { result := { reply with errorCode := -5 } }
      else { result := p }

/-- A call of `expect`, or a task of `callback_executor_`. -/
inductive Call where
  | notConnected
  | sendFailed
  | sent (exp : UInt16) (reads : List Read)
  /-- The worker of the executor runs the task at the front. -/
  | runTask

/-- The request ids, the pushes posted to the worker, and those that the callback got. -/
structure SdkClient where
  next : UInt32 := 1
  requests : List UInt32 := []
  tasks : List DecodedPacket := []
  called : List DecodedPacket := []

def packetsUntil (rid : UInt32) : List Read → List DecodedPacket
  | [] => []
  | ⟨p, closed⟩ :: reads =>
    if p.messageId = 0 then if closed then [] else packetsUntil rid reads
    else if isPush p.messageId ∨ p.requestId ≠ rid then p :: packetsUntil rid reads
    else [p]

theorem await_eq_filter (rid : UInt32) (exp : UInt16) (reads : List Read) :
    (await rid exp reads).dispatched = (packetsUntil rid reads).filter (isPush ·.messageId) ∧
    (await rid exp reads).discarded =
      (packetsUntil rid reads).filter fun p => !isPush p.messageId && p.requestId != rid := by
  induction reads with
  | nil => exact ⟨rfl, rfl⟩
  | cons read reads ih =>
    simp only [await, packetsUntil]
    split_ifs <;> simp_all [failure]

namespace SdkClient

variable (c : SdkClient)

def expect : Call → Exchange
  | .notConnected | .runTask => failure (-1) "not_connected"
  | .sendFailed => failure (-3) "send_failed"
  | .sent exp reads => await c.next exp reads

def step : Call → SdkClient
  | .notConnected => c
  | .sendFailed => { c with next := c.next + 1 }
  | .sent exp reads =>
    { c with
      next := c.next + 1
      requests := c.next :: c.requests
      tasks := c.tasks ++ (await c.next exp reads).dispatched }
  | .runTask => { c with tasks := c.tasks.tail, called := c.called ++ c.tasks.take 1 }

def heard : Call → List DecodedPacket
  | .sent _ reads => packetsUntil c.next reads
  | _ => []

variable (call : Call)

/-- The call dispatches the pushes in order, and drops replies only. -/
def Dispatches : Prop :=
  (c.expect call).dispatched = (c.heard call).filter (·.messageId ∈ pushIds) ∧
    ∀ p ∈ (c.expect call).discarded, p.messageId ∉ pushIds ∧ p.requestId ∈ c.requests

/-- Packets answer a request, or are pushes but `kMatchFoundPush`. -/
def Expected : Prop := ∀ p ∈ c.heard call,
  p.messageId ≠ 6003 ∧ (isPush p.messageId = true ∨ p.requestId ∈ c.next :: c.requests)

theorem dispatches_iff : c.Dispatches call ↔ c.Expected call := by
  have hids : ∀ id, id ∈ pushIds ↔ isPush id = true ∨ id = 6003 := by
    simp [pushIds, isPush, or_assoc, or_left_comm]
  have hfilter : (c.expect call).dispatched = (c.heard call).filter (isPush ·.messageId) ∧
      (c.expect call).discarded =
        (c.heard call).filter fun p => !isPush p.messageId && p.requestId != c.next := by
    cases call with
    | sent exp reads => exact await_eq_filter c.next exp reads
    | _ => exact ⟨rfl, rfl⟩
  rw [Dispatches, Expected, hfilter.1, hfilter.2]
  constructor
  · rintro ⟨hpushes, hreplies⟩ p hp
    have hfind : p.messageId ≠ 6003 := by
      intro hid
      have hmem : p ∈ (c.heard call).filter (isPush ·.messageId) := by simp [hpushes, hp, hids, hid]
      simp [hid, isPush] at hmem
    refine ⟨hfind, or_iff_not_imp_left.mpr fun hpush => ?_⟩
    by_cases hrid : p.requestId = c.next
    · exact hrid ▸ mem_cons_self
    · exact mem_cons_of_mem _ (hreplies p (mem_filter.mpr ⟨hp, by simp [hpush, hrid]⟩)).2
  · intro h
    refine ⟨filter_congr fun p hp => ?_, fun p hp => ?_⟩
    · simp [hids, (h p hp).1]
    · have := h p (mem_filter.mp hp).1
      simp_all

/-- What the calls give to `dispatch_push`. -/
def dispatchedBy (c : SdkClient) : List Call → List DecodedPacket
  | [] => []
  | call :: calls => (c.expect call).dispatched ++ (c.step call).dispatchedBy calls

theorem called_append_tasks_step :
    (c.step call).called ++ (c.step call).tasks =
      c.called ++ c.tasks ++ (c.expect call).dispatched := by
  cases call with
  | runTask => cases htasks : c.tasks <;> simp [step, expect, failure, htasks]
  | _ => simp [step, expect, failure]

theorem called_append_tasks (calls : List Call) :
    (calls.foldl step c).called ++ (calls.foldl step c).tasks =
      c.called ++ c.tasks ++ c.dispatchedBy calls := by
  induction calls generalizing c with
  | nil => simp [dispatchedBy]
  | cons call calls ih =>
    rw [foldl_cons, ih, called_append_tasks_step, dispatchedBy, append_assoc]

/-- Every call of a connection dispatches the pushes that it reads, in their order, and drops
only replies to earlier requests, exactly when every packet that it reads answers a request or is a
push other than `kMatchFoundPush`. The callback gets what is dispatched, once and in order. -/
theorem pushes_dispatched_iff (calls : List Call) :
    (Along step Dispatches {} calls ↔ Along step Expected {} calls) ∧
      (calls.foldl step {}).called ++ (calls.foldl step {}).tasks = dispatchedBy {} calls :=
  ⟨along_congr (fun c call (_ : True) => c.dispatches_iff call) (fun _ _ _ _ => trivial) trivial,
    called_append_tasks {} calls⟩

/-- A match is found while a reply is awaited. -/
theorem match_push_lost :
    ¬ Along step Dispatches {} [.sent 6007 [⟨{ messageId := 6003 }, false⟩]] := by
  intro h
  have hexpected := (dispatches_iff _ _).mp (h [] _ [] rfl)
  exact (hexpected { messageId := 6003 } (by simp [heard, packetsUntil])).1 rfl

end SdkClient

end BoostGateway.Sdk
