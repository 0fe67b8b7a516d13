import BoostGateway.Runs

/-!
# The write-behind engine

`WriteBehindEngine` runs the tasks of a queue on one worker thread; a task that fails goes to the
end of the queue and may run again after a delay. A step is what a thread does while it holds the
mutex. The worker's wait has no limit and asks for a front task that is ready, so it sleeps on one
that is not (`never_sleeps_on_work_iff`). The destructor and the metrics are left out.
-/

namespace BoostGateway.Persistence

variable {τ : Type}

/-- `WriteBehindEngine::Options`. Times are in milliseconds. -/
structure Options where
  maxQueueSize : Nat := 10000
  baseRetryDelay : Int := 100
  maxRetryDelay : Int := 5000
  maxRetries : Int := 3

structure TaskEntry (τ : Type) where
  task : τ
  retriesLeft : Int
  readyAt : Int

inductive Worker (τ : Type) where
  /-- About to lock the mutex and to evaluate the predicate of the wait. -/
  | checking
  /-- In the wait without a limit, and not notified. -/
  | waiting
  /-- In the wait until the front task is ready, and not notified. -/
  | waitingFor
  | executing (entry : TaskEntry τ)
  /-- After the section that follows a task, before `notify_all`. -/
  | notifying

def Worker.waits : Worker τ → Bool
  | .waiting | .waitingFor => true
  | _ => false

structure Engine (τ : Type) where
  queue : List (TaskEntry τ) := []
  worker : Worker τ := .checking
  workerIdle : Bool := true
  /-- The number of calls of `flush` that wait and are not notified. -/
  flushing : Nat := 0
  /-- The steady clock. -/
  now : Int := 0

/-- What happens between calls of `try_push` and returns. -/
inductive Turn where
  | elapse (time : Nat)
  /-- The worker's section before a task. It reads the clock again after some time. -/
  | takeTask (time : Nat)
  /-- The worker's wait ends without a notification. -/
  | wake
  | notifyAll
  /-- A thread evaluates the predicate of `flush`, at its call or after a notification. -/
  | flush

inductive Event (τ : Type) where
  /-- `notify_one` may choose a call of `flush`. -/
  | tryPush (task : τ) (choosesFlush : Bool)
  /-- The task returns. -/
  | finish (ok : Bool)
  | turn (turn : Turn)

def retryDelayFrom (opts : Options) (delay : Int) : Nat → Int
  | 0 => delay
  | attempt + 1 =>
    if opts.maxRetryDelay ≤ delay * 2 then opts.maxRetryDelay
    else retryDelayFrom opts (delay * 2) attempt

def retryDelay (opts : Options) (attempt : Int) : Int :=
  retryDelayFrom opts opts.baseRetryDelay attempt.toNat

namespace Engine

def wake (e : Engine τ) : Engine τ :=
  if e.worker.waits then { e with worker := .checking } else e

def notifyOne (choosesFlush : Bool) (e : Engine τ) : Engine τ :=
  if e.flushing ≠ 0 ∧ (choosesFlush ∨ !e.worker.waits) then { e with flushing := e.flushing - 1 }
  else e.wake

def tryPush (opts : Options) (task : τ) (choosesFlush : Bool) (e : Engine τ) : Engine τ × Bool :=
  if opts.maxQueueSize ≤ e.queue.length then (e, false)
  else
    let entry := { task, retriesLeft := opts.maxRetries, readyAt := e.now }
    ({ e with queue := e.queue ++ [entry] }.notifyOne choosesFlush, true)

/-- The worker from the wait to the removal of the front task. -/
def takeTask (time : Nat) (e : Engine τ) : Engine τ :=
  match e.worker, e.queue with
  | .checking, [] => { e with worker := .waiting }
  | .checking, front :: rest =>
    if e.now < front.readyAt then { e with worker := .waiting }
    -- the clock is read again
    else if e.now + time < front.readyAt then { e with worker := .waitingFor, now := e.now + time }
    else
      { e with queue := rest, worker := .executing front, workerIdle := false, now := e.now + time }
  | _, _ => e

def finish (opts : Options) (ok : Bool) (e : Engine τ) : Engine τ :=
  match e.worker with
  | .executing entry =>
    let e := { e with worker := .notifying, workerIdle := true }
    if !ok ∧ 0 < entry.retriesLeft then
      let delay := retryDelay opts (opts.maxRetries - entry.retriesLeft)
      let retry :=
        { entry with retriesLeft := entry.retriesLeft - 1, readyAt := e.now + delay }
      { e with queue := e.queue ++ [retry] }
    else e
  | _ => e

def flushed (e : Engine τ) : Bool := e.queue.isEmpty && e.workerIdle

def turn (e : Engine τ) : Turn → Engine τ
  | .elapse time => { e with now := e.now + time }
  | .takeTask time => e.takeTask time
  | .wake => e.wake
  | .notifyAll =>
    match e.worker with
    | .notifying => { e with worker := .checking, flushing := 0 }
    | _ => e
  | .flush => if e.flushed then e else { e with flushing := e.flushing + 1 }

def step (opts : Options) (e : Engine τ) : Event τ → Engine τ
  | .tryPush task choosesFlush => (e.tryPush opts task choosesFlush).1
  | .finish ok => e.finish opts ok
  | .turn turn => e.turn turn

end Engine

/-! ## Sleep -/

def SleepsWithoutWork (e : Engine τ) : Prop := e.worker = .waiting → e.queue = [] ∧ e.flushing = 0

/-- At the worker's wait the front task is ready. -/
def FrontReady (e : Engine τ) : Event τ → Prop
  | .turn (.takeTask _) => e.worker = .checking → ∀ front ∈ e.queue.head?, front.readyAt ≤ e.now
  | _ => True

structure Engine.Sound (e : Engine τ) : Prop where
  waiting : e.worker = .waiting → e.queue = []
  idle : e.workerIdle = false → ∃ entry, e.worker = .executing entry
  flushing : e.flushing ≠ 0 → e.queue ≠ [] ∨ e.worker = .notifying ∨ e.workerIdle = false

section Runs

variable {e : Engine τ} {event : Event τ} (opts : Options)

namespace Engine.Sound

theorem idle_of_ne (h : e.Sound) (hwork : ∀ entry, e.worker ≠ .executing entry) :
    e.workerIdle = true := by
  by_contra hbusy
  obtain ⟨entry, hentry⟩ := h.idle (Bool.eq_false_iff.mpr hbusy)
  exact hwork entry hentry

theorem sleepsWithoutWork (h : e.Sound) : SleepsWithoutWork e := by
  intro hwait
  have hidle := h.idle_of_ne (by simp [hwait])
  refine ⟨h.waiting hwait, ?_⟩
  by_contra hflushing
  simpa [h.waiting hwait, hwait, hidle] using h.flushing hflushing

theorem wake (hidle : e.workerIdle = false → ∃ entry, e.worker = .executing entry)
    (hflushing : e.flushing ≠ 0 → e.queue ≠ [] ∨ e.worker = .notifying ∨ e.workerIdle = false) :
    e.wake.Sound := by
  unfold Engine.wake
  split
  next hwaits =>
    refine ⟨by simp, fun hbusy => ?_, fun hblocked => ?_⟩
    · obtain ⟨entry, hentry⟩ := hidle hbusy
      simp [hentry, Worker.waits] at hwaits
    · rcases hflushing hblocked with hqueue | hnotifying | hbusy
      · exact .inl hqueue
      · simp [hnotifying, Worker.waits] at hwaits
      · exact .inr (.inr hbusy)
  next hwaits =>
    refine ⟨fun hwait => ?_, hidle, hflushing⟩
    simp [hwait, Worker.waits] at hwaits

theorem notifyOne (choosesFlush : Bool) (hqueue : e.queue ≠ [])
    (hidle : e.workerIdle = false → ∃ entry, e.worker = .executing entry)
    (hsleeps : e.worker = .waiting → e.flushing = 0) : (e.notifyOne choosesFlush).Sound := by
  unfold Engine.notifyOne
  split
  next hchosen => exact ⟨fun hwait => absurd (hsleeps hwait) hchosen.1, hidle, fun _ => .inl hqueue⟩
  · exact .wake hidle fun _ => .inl hqueue

theorem takeTask (h : e.Sound) (time : Nat)
    (hready : e.worker = .checking → ∀ front ∈ e.queue.head?, front.readyAt ≤ e.now) :
    (e.takeTask time).Sound := by
  unfold Engine.takeTask
  split
  next hwork hqueue =>
    have hidle := h.idle_of_ne (by simp [hwork])
    refine ⟨fun _ => hqueue, by simp [hidle], fun hblocked => ?_⟩
    simpa [hqueue, hwork, hidle] using h.flushing hblocked
  next front rest hwork hqueue =>
    have hfront : front.readyAt ≤ e.now := hready hwork front (by simp [hqueue])
    rw [if_neg (by omega), if_neg (by omega)]
    exact ⟨by simp, fun _ => ⟨front, rfl⟩, fun _ => .inr (.inr rfl)⟩
  · exact h

theorem finish (h : e.Sound) (ok : Bool) : (e.finish opts ok).Sound := by
  unfold Engine.finish
  split
  · split <;> exact ⟨by simp, by simp, fun _ => .inr (.inl rfl)⟩
  · exact h

theorem step (h : e.Sound) (hready : FrontReady e event) : (e.step opts event).Sound := by
  cases event with
  | tryPush task choosesFlush =>
    dsimp only [Engine.step, Engine.tryPush]
    split
    · exact h
    · exact .notifyOne choosesFlush (by simp) h.idle fun hwait =>
        (h.sleepsWithoutWork hwait).2
  | finish ok => exact h.finish opts ok
  | turn turn =>
    cases turn with
    | elapse => exact ⟨h.waiting, h.idle, h.flushing⟩
    | takeTask time => exact h.takeTask time hready
    | wake => exact .wake h.idle h.flushing
    | notifyAll =>
      dsimp only [Engine.step, Engine.turn]
      split
      next hwork => exact ⟨by simp, by simp [h.idle_of_ne (by simp [hwork])], by simp⟩
      · exact h
    | flush =>
      dsimp only [Engine.step, Engine.turn]
      split
      · exact h
      next hblocked =>
        refine ⟨h.waiting, h.idle, fun _ => ?_⟩
        by_cases hqueue : e.queue = []
        · exact .inr (.inr (by simpa [Engine.flushed, hqueue] using hblocked))
        · exact .inl hqueue

end Engine.Sound

theorem sleepsWithoutWork_step_iff (h : e.Sound) :
    SleepsWithoutWork (e.step opts event) ↔ FrontReady e event := by
  refine ⟨fun hsleeps => ?_, fun hready => (h.step opts hready).sleepsWithoutWork⟩
  unfold FrontReady
  split
  next time =>
    intro hwork front hfront
    obtain ⟨rest, hqueue⟩ := List.head?_eq_some_iff.mp hfront
    by_contra hlate
    have hstep : e.step opts (.turn (.takeTask time)) = { e with worker := .waiting } := by
      simp only [Engine.step, Engine.turn, Engine.takeTask, hwork, hqueue]
      rw [if_pos (by omega)]
    rw [hstep] at hsleeps
    simpa [hqueue] using (hsleeps rfl).1
  · trivial

/-- The worker never sleeps on work exactly if the front task is ready whenever it evaluates the
predicate of its wait. -/
theorem never_sleeps_on_work_iff (opts : Options) (events : List (Event τ)) :
    Along (Engine.step opts) (fun e event => SleepsWithoutWork (e.step opts event)) {} events ↔
      Along (Engine.step opts) FrontReady {} events := by
  have hinit : Engine.Sound ({} : Engine τ) := ⟨by simp, by simp, by simp⟩
  refine along_congr (fun e event h => sleepsWithoutWork_step_iff opts h) ?_ hinit
  intro e event h hsleeps
  exact h.step opts ((sleepsWithoutWork_step_iff opts h).mp hsleeps)

end Runs

/-- A task fails, and nobody wakes the worker again. -/
def failOnce : List (Event Unit) :=
  [.tryPush () false, .turn (.takeTask 0), .finish false, .turn .notifyAll]

theorem sleeps_after_failOnce : ¬ Along (Engine.step {})
    (fun e event => SleepsWithoutWork (e.step {} event)) {}
    (failOnce ++ [.turn (.takeTask 0)]) := by
  intro h
  have hsleeps := h failOnce (.turn (.takeTask 0)) [] rfl rfl
  cases hsleeps.1

/-! ## The order of tasks -/

section Tasks

variable {e : Engine τ} {entry : TaskEntry τ} (opts : Options)

def Engine.tasks (e : Engine τ) : List τ :=
  let running := match e.worker with
    | .executing entry => [entry.task]
    | _ => []
  running ++ e.queue.map TaskEntry.task

theorem Engine.tasks_wake (e : Engine τ) : e.wake.tasks = e.tasks := by
  unfold Engine.wake
  split
  next hwaits => cases hwork : e.worker <;> simp_all [Engine.tasks, Worker.waits]
  · rfl

theorem Engine.tasks_tryPush (e : Engine τ) (task : τ) (choosesFlush : Bool) :
    (e.tryPush opts task choosesFlush).1.tasks =
      e.tasks ++ if (e.tryPush opts task choosesFlush).2 then [task] else [] := by
  unfold Engine.tryPush
  split
  · simp
  · dsimp only [Engine.notifyOne]
    split
    · simp [Engine.tasks]
    · rw [Engine.tasks_wake]
      simp [Engine.tasks]

theorem Engine.tasks_turn (e : Engine τ) (turn : Turn) : (e.turn turn).tasks = e.tasks := by
  cases turn with
  | elapse => rfl
  | takeTask time =>
    dsimp only [Engine.turn, Engine.takeTask]
    split
    next hwork hqueue => simp [Engine.tasks, hwork, hqueue]
    next front rest hwork hqueue =>
      split_ifs <;> simp [Engine.tasks, hwork, hqueue]
    · rfl
  | wake => exact e.tasks_wake
  | notifyAll =>
    dsimp only [Engine.turn]
    split
    next hwork => simp [Engine.tasks, hwork]
    · rfl
  | flush =>
    dsimp only [Engine.turn]
    split <;> rfl

theorem Engine.tasks_finish (ok : Bool) (hwork : e.worker = .executing entry)
    (hretries : ok = false → 0 < entry.retriesLeft) :
    (e.finish opts ok).tasks = e.queue.map TaskEntry.task ++ if ok then [] else [entry.task] := by
  unfold Engine.finish
  cases ok with
  | true => simp [hwork, Engine.tasks]
  | false => simp [hwork, Engine.tasks, hretries rfl]

end Tasks

/-! ## Blocking pushes -/

theorem Engine.queue_notifyOne (e : Engine τ) (choosesFlush : Bool) :
    (e.notifyOne choosesFlush).queue = e.queue := by
  unfold Engine.notifyOne Engine.wake
  split_ifs <;> rfl

structure Pushing (τ : Type) where
  engine : Engine τ
  task : Option τ
  returned : Bool := false

namespace Pushing

def attempt (opts : Options) (choosesFlush : Bool) (p : Pushing τ) : Pushing τ :=
  match p.returned, p.task with
  | false, some task =>
    let (engine, pushed) := p.engine.tryPush opts task choosesFlush
    { engine, task := none, returned := pushed }
  | _, _ => p

/-- The state at an attempt, for a schedule of whom `notify_one` chooses and of the other threads.
-/
def before (opts : Options) (schedule : Nat → Bool × List (Event τ)) (p : Pushing τ) :
    Nat → Pushing τ
  | 0 => p
  | n + 1 =>
    let p := (p.before opts schedule n).attempt opts (schedule n).1
    { p with engine := (schedule n).2.foldl (Engine.step opts) p.engine }

def HasRoom (opts : Options) (e : Engine τ) : Prop := e.queue.length < opts.maxQueueSize

/-- An attempt adds one entry with the task, and the loop ends. -/
def GetsThrough (opts : Options) (schedule : Nat → Bool × List (Event τ)) (p : Pushing τ)
    (task : τ) : Prop :=
  ∃ n entry, entry.task = task ∧ (p.before opts schedule n).returned = false ∧
    ((p.before opts schedule n).attempt opts (schedule n).1).returned = true ∧
    ((p.before opts schedule n).attempt opts (schedule n).1).engine.queue =
      (p.before opts schedule n).engine.queue ++ [entry]

variable {opts : Options} {schedule : Nat → Bool × List (Event τ)} {e : Engine τ} {task : τ}

theorem attempt_full (hfull : ¬ HasRoom opts e) (choosesFlush : Bool) :
    attempt opts choosesFlush { engine := e, task := some task } =
      { engine := e, task := none } := by
  have hle : opts.maxQueueSize ≤ e.queue.length := Nat.not_lt.mp hfull
  simp [attempt, Engine.tryPush, hle]

theorem before_spinning (hfull : ¬ HasRoom opts e) (schedule : Nat → Bool × List (Event τ))
    (task : τ) (n : Nat) :
    (before opts schedule { engine := e, task := some task } (n + 1)).task = none ∧
      (before opts schedule { engine := e, task := some task } (n + 1)).returned = false := by
  induction n with
  | zero =>
    rw [before, before, attempt_full hfull]
    exact ⟨rfl, rfl⟩
  | succ n ih =>
    obtain ⟨htask, hspin⟩ := ih
    rw [before]
    simp [attempt, htask, hspin]

theorem not_getsThrough (hfull : ¬ HasRoom opts e) :
    ¬ GetsThrough opts schedule { engine := e, task := some task } task := by
  rintro ⟨n, entry, -, -, hreturned, -⟩
  cases n with
  | zero =>
    rw [before, attempt_full hfull] at hreturned
    cases hreturned
  | succ n =>
    obtain ⟨htask, hspin⟩ := before_spinning hfull schedule task n
    simp [attempt, htask, hspin] at hreturned

end Pushing

end BoostGateway.Persistence
