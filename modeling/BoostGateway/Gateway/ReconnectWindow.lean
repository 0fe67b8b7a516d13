import BoostGateway.ActorSystem
import BoostGateway.Gateway.Actors
import BoostGateway.Runs
import Mathlib.Data.Int.ConditionallyCompleteOrder

/-!
# The reconnect window of a player

A session that closes in a room suspends the player and arms a timer, whose message makes a
suspended player offline. A timer has no mark of its suspension, so the window is kept as long as a
session closes only when nothing is left of the timers of earlier suspensions.
-/

namespace BoostGateway.Gateway

open List PlayerActor ActorSystem

def reconnectWindow : Int := 30 * 10 ^ 9

def PlayerMsg.isTimeout : PlayerMsg → Bool
  | .reconnectTimerExpired _ => true
  | _ => false

def PlayerActor.suspendsOn (sessionId : SessionId) (a : PlayerActor) : Bool :=
  a.binding.any (·.sessionId = sessionId) && a.roomId.isSome

/-- A player, and since when it has been suspended. -/
structure PlayerWatch where
  system : ActorSystem PlayerActor PlayerMsg
  suspendedSince : Option Int := none

inductive PlayerInput where
  /-- A message from outside is put into the mailbox. -/
  | tell (message : { message : PlayerMsg // message.isTimeout = false })
  /-- The timers that are due put their messages into the mailbox. -/
  | promote
  /-- The next message is handled. -/
  | deliver

namespace PlayerWatch

def player : ActorId := 1

def start : PlayerWatch where
  system := (create {} {}).2

variable (now : Nat → Int)

/-- What an effect does to the system. Events go to the runtime. -/
def perform (id : ActorId) (sys : ActorSystem PlayerActor PlayerMsg) :
    PlayerEffect → ActorSystem PlayerActor PlayerMsg
  | .push _ => sys
  | .armReconnectTimer userId =>
    (sys.scheduleAfter now id (.reconnectTimerExpired userId) reconnectWindow).2
  | .cancelTimer timerId => sys.cancelTimer timerId

def ticked (w : PlayerWatch) : ActorSystem PlayerActor PlayerMsg :=
  { w.system with readings := w.system.readings + 1 }

def deliver (w : PlayerWatch) : PlayerWatch :=
  match w.ticked.pop with
  | .empty => { w with system := w.ticked }
  | .idle rest => { w with system := rest }
  | .message id a message rest =>
    let handled := a.onMessage rest.nextTimerId message
    { system := (handled.2.foldl (perform now id) (rest.setActor id handled.1)).requeue id
      suspendedSince :=
        if handled.1.lifecycle ≠ .suspended then none
        else if a.lifecycle = .suspended then w.suspendedSince
        else some (now w.system.readings) }

def step (w : PlayerWatch) : PlayerInput → PlayerWatch
  | .tell message => { w with system := w.system.send player message.val }
  | .promote => { w with system := w.system.promote now }
  | .deliver => w.deliver now

/-- A suspended player goes offline only after the window. -/
def keepsWindow (w : PlayerWatch) : PlayerInput → Bool
  | .deliver =>
    match w.ticked.pop with
    | .message _ a message rest =>
      let offline := (a.onMessage rest.nextTimerId message).1.lifecycle = .offline
      !(a.lifecycle = .suspended && offline) ||
        w.suspendedSince.any (· + reconnectWindow ≤ now w.system.readings)
    | _ => true
  | _ => true

/-- A closing session leaves no timer and no message of one. -/
def closesQuietly (w : PlayerWatch) : PlayerInput → Bool
  | .deliver =>
    match w.ticked.pop with
    | .message id a (.sessionClosed sessionId) rest =>
      !a.suspendsOn sessionId || w.system.timers.isEmpty && (rest.mailOf id).all (!·.isTimeout)
    | _ => true
  | _ => true

/-! ## What a message does to a suspended player -/

variable {a : PlayerActor} {timerId : Nat} {message : PlayerMsg}

/-- Suspended is who was, or whose session closed. -/
theorem suspended_onMessage (h : (a.onMessage timerId message).1.lifecycle = .suspended) :
    a.lifecycle = .suspended ∧ (a.onMessage timerId message).1.binding = a.binding ∨
      (∃ sessionId, message = .sessionClosed sessionId ∧ a.suspendsOn sessionId = true) ∧
        (a.onMessage timerId message).1.binding = none := by
  have hplace : (if a.roomId.isSome then PlayerLifecycle.inRoom else .onlineIdle) ≠ .suspended := by
    split <;> decide
  cases message with
  | bindSession sessionId connectionId =>
    dsimp only [onMessage, handleBindSession] at h
    split at h
    · cases h
    next haway => split at h <;> exact absurd (.inr h) haway
  | loginRequest => exact absurd h hplace
  | roomAssigned | battleAssigned => cases h
  | battleSettlement battleId reason =>
    revert h
    dsimp only [onMessage]
    fun_cases handleBattleSettlement battleId reason a <;> exact fun h => .inl ⟨h, rfl⟩
  | battleEnded battleId =>
    revert h
    dsimp only [onMessage]
    fun_cases handleBattleEnded battleId a with
    | case1 => exact fun h => .inl ⟨h, rfl⟩
    | case2 => exact fun h => absurd h hplace
  | sessionClosed sessionId =>
    revert h
    dsimp only [onMessage]
    fun_cases handleSessionClosed timerId sessionId a with
    | case1 hsession _ hroom =>
      exact fun _ => .inr ⟨⟨sessionId, rfl, by rw [suspendsOn, hsession, hroom]; rfl⟩, rfl⟩
    | case2 => nofun
    | case3 => exact fun h => .inl ⟨h, rfl⟩
  | reconnectTimerExpired userId =>
    dsimp only [onMessage] at h
    split at h
    · cases h
    next hnot => exact absurd h hnot
  | tokenRefresh => exact .inl ⟨h, rfl⟩

/-- Only a timer takes a suspended player offline. -/
theorem isTimeout_of_offline (hsuspended : a.lifecycle = .suspended) (hunbound : a.binding = none)
    (h : (a.onMessage timerId message).1.lifecycle = .offline) : message.isTimeout = true := by
  have hplace : (if a.roomId.isSome then PlayerLifecycle.inRoom else .onlineIdle) ≠ .offline := by
    split <;> decide
  cases message with
  | bindSession => simp [onMessage, handleBindSession, hsuspended] at h
  | loginRequest => exact absurd h hplace
  | roomAssigned | battleAssigned => cases h
  | battleSettlement =>
    dsimp only [onMessage, handleBattleSettlement] at h
    split at h <;> cases hsuspended.symm.trans h
  | battleEnded =>
    dsimp only [onMessage, handleBattleEnded] at h
    split at h
    · cases hsuspended.symm.trans h
    · exact absurd h hplace
  | sessionClosed => simp [onMessage, handleSessionClosed, hunbound, hsuspended] at h
  | reconnectTimerExpired => rfl
  | tokenRefresh => cases hsuspended.symm.trans h

/-! ## Timers that are on time -/

/-- Timers and their messages respect the window. -/
structure OnTime (since : Int) (sys : ActorSystem PlayerActor PlayerMsg) : Prop where
  past : since ≤ now sys.readings
  timers : ∀ timer ∈ sys.timers, since + reconnectWindow ≤ timer.readyAt
  mail : ∀ message ∈ sys.mailOf player, message.isTimeout = true →
    since + reconnectWindow ≤ now sys.readings

/-- The player is alone; while suspended it has no session and timers on time. -/
structure Kept (w : PlayerWatch) : Prop where
  alone : ∀ id, id ≠ player → w.system.actorOf id = none
  suspended : ∀ a, w.system.actorOf player = some a → a.lifecycle = .suspended →
    a.binding = none ∧ ∃ since, w.suspendedSince = some since ∧ OnTime now since w.system

section

variable {now} (hclock : Monotone now) {w : PlayerWatch}
  {sys : ActorSystem PlayerActor PlayerMsg} {since : Int}

include hclock

/-- Effects leave the mail alone and arm timers for the window. -/
theorem foldl_perform (id : ActorId) (effs : List PlayerEffect) :
    ∀ sys : ActorSystem PlayerActor PlayerMsg,
      let performed := effs.foldl (perform now id) sys
      (∀ other, performed.actorOf other = sys.actorOf other) ∧
      (∀ other, performed.mailOf other = sys.mailOf other) ∧
      sys.readings ≤ performed.readings ∧
      ∀ timer ∈ performed.timers,
        timer ∈ sys.timers ∨ now sys.readings + reconnectWindow ≤ timer.readyAt := by
  induction effs with
  | nil => exact fun sys => ⟨fun _ => rfl, fun _ => rfl, le_rfl, fun timer h => .inl h⟩
  | cons effect effs ih =>
    intro sys performed
    obtain ⟨hactor, hmail, hreadings, htimers⟩ := ih (perform now id sys effect)
    cases effect with
    | push => exact ⟨hactor, hmail, hreadings, htimers⟩
    | cancelTimer =>
      refine ⟨hactor, hmail, hreadings, fun timer h => ?_⟩
      exact (htimers timer h).imp_left fun h => (mem_filter.mp h).1
    | armReconnectTimer =>
      have hlater : sys.readings + 1 ≤ performed.readings := hreadings
      refine ⟨hactor, hmail, (Nat.le_succ _).trans hlater, fun timer h => ?_⟩
      have hnow : now sys.readings ≤ now (sys.readings + 1) := hclock (Nat.le_succ _)
      rcases htimers timer h with hmem | hready
      · rcases mem_append.mp hmem with hmem | hmem
        · exact .inl hmem
        · obtain rfl := mem_singleton.mp hmem
          exact .inr le_rfl
      · exact .inr (le_trans (Int.add_le_add_right hnow _) hready)

theorem onTime_lookAt (timer : ActorTimer PlayerMsg)
    (hready : since + reconnectWindow ≤ timer.readyAt) (h : OnTime now since sys) :
    OnTime now since (sys.lookAt now timer) := by
  have hnow : now sys.readings ≤ now (sys.readings + 1) := hclock (Nat.le_succ _)
  dsimp only [lookAt]
  split
  · rename_i hdue
    refine ⟨?_, ?_, fun message hmem htimeout => ?_⟩
    · rw [send_readings]
      exact h.past.trans hnow
    · rw [send_timers]
      exact h.timers
    · rw [send_readings]
      rcases mem_mailOf_send hmem with hold | rfl
      · exact (h.mail message hold htimeout).trans hnow
      · exact hready.trans (hdue.trans hnow)
  · refine ⟨h.past.trans hnow, fun other hmem => ?_, fun message hmem htimeout =>
      (h.mail message hmem htimeout).trans hnow⟩
    rcases mem_append.mp hmem with hmem | hmem
    · exact h.timers other hmem
    · obtain rfl := mem_singleton.mp hmem
      exact hready

theorem onTime_promote (h : OnTime now since sys) : OnTime now since (sys.promote now) := by
  have hfold : ∀ (timers : List (ActorTimer PlayerMsg)) (sys : ActorSystem PlayerActor PlayerMsg),
      (∀ timer ∈ timers, since + reconnectWindow ≤ timer.readyAt) → OnTime now since sys →
      OnTime now since (timers.foldl (lookAt now) sys) := by
    intro timers
    induction timers with
    | nil => exact fun _ _ h => h
    | cons timer timers ih =>
      intro sys hready h
      refine ih _ (fun other hmem => hready other (mem_cons_of_mem _ hmem)) ?_
      exact onTime_lookAt hclock timer (hready timer mem_cons_self) h
  exact hfold _ _ h.timers ⟨h.past, fun _ hmem => absurd hmem not_mem_nil, h.mail⟩

/-! ## Steps -/

omit hclock in
theorem Kept.of_actors (h : Kept now w) (hactors : ∀ id, sys.actorOf id = w.system.actorOf id)
    (honTime : ∀ since, OnTime now since w.system → OnTime now since sys) :
    Kept now { w with system := sys } := by
  refine ⟨fun id hne => (hactors id).trans (h.alone id hne), fun a hactor hsuspended => ?_⟩
  obtain ⟨hunbound, since, hsince, hbefore⟩ :=
    h.suspended a ((hactors player).symm.trans hactor) hsuspended
  exact ⟨hunbound, since, hsince, honTime since hbefore⟩

omit hclock in
theorem Kept.tell (h : Kept now w)
    (message : { message : PlayerMsg // message.isTimeout = false }) :
    Kept now (w.step now (.tell message)) := by
  refine h.of_actors (fun id => actorOf_send _ _) ?_
  rintro since ⟨hpast, htimers, hmail⟩
  refine ⟨?_, ?_, fun other hmem htimeout => ?_⟩
  · exact (send_readings _ _).symm ▸ hpast
  · exact (send_timers _ _).symm ▸ htimers
  · rw [send_readings]
    rcases mem_mailOf_send hmem with hold | rfl
    · exact hmail other hold htimeout
    · exact absurd htimeout (by simp [message.property])

theorem Kept.promote (h : Kept now w) : Kept now (w.step now .promote) :=
  h.of_actors (fun _ => actorOf_promote now) fun _ => onTime_promote hclock

theorem OnTime.of_alike {sys' : ActorSystem PlayerActor PlayerMsg} (h : OnTime now since sys)
    (hmail : ∀ message ∈ sys'.mailOf player, message ∈ sys.mailOf player)
    (htimers : ∀ timer ∈ sys'.timers,
      timer ∈ sys.timers ∨ now sys.readings + reconnectWindow ≤ timer.readyAt)
    (hreadings : sys.readings ≤ sys'.readings) : OnTime now since sys' := by
  have hnow : now sys.readings ≤ now sys'.readings := hclock hreadings
  refine ⟨h.past.trans hnow, fun timer hmem => ?_, fun message hmem htimeout =>
    (h.mail message (hmail message hmem) htimeout).trans hnow⟩
  rcases htimers timer hmem with hold | hready
  · exact h.timers timer hold
  · exact le_trans (Int.add_le_add_right h.past _) hready

/-- The system right after a message. -/
theorem handled_spec {id : ActorId} {a : PlayerActor} {message : PlayerMsg}
    {rest : ActorSystem PlayerActor PlayerMsg} (h : Kept now w)
    (htook : Took id a message w.ticked rest) :
    let handled := a.onMessage rest.nextTimerId message
    let after := (handled.2.foldl (perform now id) (rest.setActor id handled.1)).requeue id
    id = player ∧ w.system.actorOf player = some a ∧
      w.system.mailOf player = message :: rest.mailOf player ∧
      (∀ other, other ≠ player → after.actorOf other = none) ∧
      after.actorOf player = some handled.1 ∧
      (∀ mail ∈ after.mailOf player, mail ∈ rest.mailOf player) ∧
      (∀ timer ∈ after.timers, timer ∈ w.system.timers ∨
        now (w.system.readings + 1) + reconnectWindow ≤ timer.readyAt) ∧
      w.system.readings + 1 ≤ after.readings := by
  intro handled after
  have hactor : w.system.actorOf id = some a := htook.actor_eq
  have hid : id = player := by
    by_contra hne
    cases (h.alone id hne).symm.trans hactor
  subst hid
  have hsome : (rest.actorOf player).isSome := by
    rw [htook.actorOf_eq, htook.actor_eq]
    rfl
  obtain ⟨hself, hothers, hmail, htimers, hreadings, -⟩ := setActor_spec handled.1 hsome
  obtain ⟨hactor', hmail', hreadings', htimers'⟩ :=
    foldl_perform hclock player handled.2 (rest.setActor player handled.1)
  have halike := alike_requeue player
    (handled.2.foldl (perform now player) (rest.setActor player handled.1))
  refine ⟨rfl, hactor, htook.mail_eq, fun other hne => ?_, ?_, fun mail hmem => ?_,
    fun timer hmem => ?_, ?_⟩
  · rw [halike.actorOf_eq, hactor', hothers other hne, htook.actorOf_eq]
    exact h.alone other hne
  · rw [halike.actorOf_eq, hactor', hself]
  · rwa [halike.mailOf_eq, hmail', hmail] at hmem
  · rw [halike.timers_eq] at hmem
    have hmem := htimers' timer hmem
    rwa [htimers, htook.timers_eq, hreadings, htook.readings_eq] at hmem
  · rw [halike.readings_eq]
    rwa [hreadings, htook.readings_eq] at hreadings'

theorem Kept.deliver (h : Kept now w) (hquiet : w.closesQuietly .deliver = true) :
    Kept now (w.step now .deliver) ∧ w.keepsWindow now .deliver = true := by
  have htick : now w.system.readings ≤ now (w.system.readings + 1) := hclock (Nat.le_succ _)
  constructor
  · dsimp only [step, PlayerWatch.deliver]
    cases hpop : w.ticked.pop with
    | empty =>
      exact h.of_actors (fun _ => rfl) fun since honTime => honTime.of_alike hclock
        (fun _ hmem => hmem) (fun _ hmem => .inl hmem) (Nat.le_succ _)
    | idle =>
      have halike := alike_of_pop_idle hpop
      refine h.of_actors halike.actorOf_eq fun since honTime => honTime.of_alike hclock
        (fun message hmem => ?_) (fun timer hmem => .inl ?_) ?_
      · rwa [halike.mailOf_eq] at hmem
      · rwa [halike.timers_eq] at hmem
      · rw [halike.readings_eq]
        exact Nat.le_succ _
    | message id a message rest =>
      obtain ⟨rfl, hactor, hfirst, hothers, hself, hmail, htimers, hreadings⟩ :=
        handled_spec hclock h (took_of_pop hpop)
      refine ⟨hothers, fun a' hactor' hsuspended => ?_⟩
      cases hself.symm.trans hactor'
      dsimp only
      rw [if_neg (not_not.mpr hsuspended)]
      obtain ⟨hpre, hbinding⟩ | ⟨⟨sessionId, rfl, hcloses⟩, hunbound⟩ :=
        suspended_onMessage hsuspended
      · obtain ⟨hunbound, since, hsince, honTime⟩ := h.suspended a hactor hpre
        rw [if_pos hpre]
        refine ⟨hbinding.trans hunbound, since, hsince, honTime.of_alike hclock
          (fun mail hmem => hfirst ▸ mem_cons_of_mem _ (hmail mail hmem))
          (fun timer hmem => ?_) ((Nat.le_succ _).trans hreadings)⟩
        exact (htimers timer hmem).imp_right fun hready =>
          le_trans (Int.add_le_add_right htick _) hready
      · -- the session closes: the only timer is the one that is armed now
        have hpre : a.lifecycle ≠ .suspended := by
          intro hpre
          have hnone := (h.suspended a hactor hpre).1
          simp [suspendsOn, hnone] at hcloses
        rw [closesQuietly, hpop] at hquiet
        have hquiet : w.system.timers = [] ∧ ∀ mail ∈ rest.mailOf player,
            mail.isTimeout = false := by simpa [hcloses] using hquiet
        obtain ⟨hnoTimers, hnoMail⟩ := hquiet
        rw [if_neg hpre]
        refine ⟨hunbound, _, rfl, hclock ((Nat.le_succ _).trans hreadings),
          fun timer hmem => ?_, fun mail hmem htimeout => ?_⟩
        · rcases htimers timer hmem with hold | hready
          · rw [hnoTimers] at hold
            cases hold
          · exact le_trans (Int.add_le_add_right htick _) hready
        · have hnot := hnoMail mail (hmail mail hmem)
          rw [hnot] at htimeout
          cases htimeout
  · rw [keepsWindow]
    cases hpop : w.ticked.pop with
    | empty | idle => rfl
    | message id a message rest =>
      obtain ⟨rfl, hactor, hfirst, -⟩ := handled_spec hclock h (took_of_pop hpop)
      by_cases hsuspended : a.lifecycle = .suspended
      swap
      · simp [hsuspended]
      by_cases hoffline : (a.onMessage rest.nextTimerId message).1.lifecycle = .offline
      swap
      · simp [hoffline]
      obtain ⟨hunbound, since, hsince, honTime⟩ := h.suspended a hactor hsuspended
      have htimeout := isTimeout_of_offline hsuspended hunbound hoffline
      simp [hsince, honTime.mail message (hfirst ▸ mem_cons_self) htimeout]

theorem Kept.step (h : Kept now w) (input : PlayerInput) (hquiet : w.closesQuietly input = true) :
    Kept now (w.step now input) ∧ w.keepsWindow now input = true := by
  cases input with
  | tell message => exact ⟨h.tell message, rfl⟩
  | promote => exact ⟨h.promote hclock, rfl⟩
  | deliver => exact h.deliver hclock hquiet

end

theorem kept_start : Kept now start := by
  have hactor : ∀ id, start.system.actorOf id = if id = player then some {} else none := fun id =>
    actorOf_insert _
  refine ⟨fun id hne => (hactor id).trans (if_neg hne), fun a h hsuspended => ?_⟩
  cases ((hactor player).trans (if_pos rfl)).symm.trans h
  cases hsuspended

/-- A suspended player goes offline only after the window if a session that suspends the player
closes when no timer is outstanding. -/
theorem suspended_for_full_window (now : Nat → Int) (hclock : Monotone now)
    (inputs : List PlayerInput)
    (hquiet : Along (step now) (fun w input => w.closesQuietly input = true) start inputs) :
    Along (step now) (fun w input => w.keepsWindow now input = true) start inputs :=
  hquiet.of_invariant (fun _ input h hinput => h.step hclock input hinput) (kept_start now)

def suspendInputs : List PlayerInput :=
  [.tell ⟨.bindSession 1 1, rfl⟩, .tell ⟨.loginRequest 1 (ascii "u") none, rfl⟩,
    .tell ⟨.roomAssigned 2 (ascii "r"), rfl⟩, .tell ⟨.sessionClosed 1, rfl⟩,
    .deliver, .deliver, .deliver, .deliver]

def everySecond (reading : Nat) : Int := reading * 10 ^ 9

def windowInputs : List PlayerInput := suspendInputs ++ List.replicate 31 .promote ++ [.deliver]

theorem windowInputs_full_window :
    ((windowInputs.foldl (step everySecond) start).system.actorOf player).map (·.lifecycle) =
        some .offline ∧
      Along (step everySecond) (fun w input => w.keepsWindow everySecond input = true) start
        windowInputs :=
  ⟨by decide +kernel, suspended_for_full_window everySecond
    (fun m n h => Int.mul_le_mul_of_nonneg_right (Int.ofNat_le.mpr h) (by decide)) windowInputs
    (by decide +kernel)⟩

def lateClock (reading : Nat) : Int :=
  if reading < 6 then 0 else if reading < 8 then 20 * 10 ^ 9 else 30 * 10 ^ 9

/-- The second session closes after twenty seconds, and the timer of the first suspension takes the
player offline ten seconds later. -/
theorem first_timer_ends_second_suspension :
    ¬∀ (now : Nat → Int) (inputs : List PlayerInput), Monotone now →
      Along (step now) (fun w input => w.keepsWindow now input = true) start inputs := by
  intro h
  have hclock : Monotone lateClock := by
    intro m n hle
    unfold lateClock
    all_goals omega
  have hwindow := h lateClock (suspendInputs ++
    [.tell ⟨.bindSession 2 2, rfl⟩, .tell ⟨.sessionClosed 2, rfl⟩, .deliver, .deliver, .promote,
      .deliver]) hclock
  exact absurd hwindow (by decide +kernel)

end PlayerWatch

end BoostGateway.Gateway
