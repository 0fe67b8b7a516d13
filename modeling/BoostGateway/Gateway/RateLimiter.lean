import BoostGateway.Bytes
import Mathlib.Algebra.Order.Ring.Rat
import Mathlib.Tactic.Linarith

/-!
# The rate limiter of the gateway

Five kinds of token buckets, over any numbers of tokens: `Float` is the `double` of the code, with a
clock in nanoseconds, and in the rationals the tokens are exact. The buckets are charged in turn, so
a request that a later one rejects has used up a token that all clients share
(`rejection_free_iff`, for any numbers). With exact tokens a bucket with the limit `L` allows at
most `L + L * T` requests in `T` seconds (`rate_limited_iff`).
-/

namespace BoostGateway.Gateway

open List Function

/-- Which bucket. -/
inductive RateLevel where
  | connection (sessionId : Nat)
  | messageType (protocolMessageId : UInt16)
  | ip (ipHint : Bytes)
  | user (userId : Bytes)
  | login
  deriving DecidableEq

/-- A request with the time of its check. -/
structure RateCheck (T : Type) where
  now : T
  protocolMessageId : UInt16
  sessionId : Nat
  ipHint : Bytes := []
  userId : Bytes := []

/-- The buckets of a request, in the order of charging. -/
def RateCheck.levels {T : Type} (r : RateCheck T) : List RateLevel :=
  [.connection r.sessionId, .messageType r.protocolMessageId] ++
    (if r.ipHint = [] then [] else [.ip r.ipHint]) ++
    (if r.userId = [] then [] else [.user r.userId]) ++
    if r.protocolMessageId = 2001 then [.login] else []

theorem RateCheck.nodup_levels {T : Type} (r : RateCheck T) : r.levels.Nodup := by
  unfold RateCheck.levels
  split_ifs <;> simp

/-- Numbers `F` of tokens with a clock that shows times `T`. -/
class TokenClock (F T : Type) where
  /-- `duration<double>(now - last).count()`. -/
  seconds : (last now : T) → F
  /-- `static_cast<int>(std::ceil(deficit / refill_rate * 1000.0))`. -/
  retryMs : (deficit refillRate : F) → Int

/-- Doubles, and a clock that counts nanoseconds. -/
instance : TokenClock Float Int where
  seconds last now := Float.ofInt (now - last) / 1000000000
  -- where the cast is undefined, what the processor gives; a negative number counts as zero
  retryMs deficit refillRate :=
    let x := deficit / refillRate * 1000
    if x ≤ 2147483647 then
      x.toUInt64.toNat + if Float.ofNat x.toUInt64.toNat < x then 1 else 0
    else -2147483648

instance : TokenClock ℚ ℚ where
  seconds last now := now - last
  retryMs deficit refillRate := (deficit / refillRate * 1000).ceil

structure TokenBucket (F T : Type) [∀ n, OfNat F n] where
  capacity : F := 100
  refillRate : F := 10
  current : F := 100
  lastRefill : T

section Arithmetic

variable {F T : Type} [∀ n, OfNat F n] [Add F] [Sub F] [Mul F] [LE F] [DecidableLE F] [LT F]
  [DecidableLT F] [LinearOrder T] [TokenClock F T]

namespace TokenBucket

def ofLimit (limit : F) (now : T) : TokenBucket F T := ⟨limit, limit, limit, now⟩

def refill (now : T) (b : TokenBucket F T) : TokenBucket F T :=
  if b.lastRefill < now then
    let sum := b.current + TokenClock.seconds b.lastRefill now * b.refillRate
    { b with
      current := if sum < b.capacity then sum else b.capacity
      lastRefill := now }
  else b

def tryConsume (now : T) (b : TokenBucket F T) : Bool × TokenBucket F T :=
  if 1 ≤ (b.refill now).current then
    (true, { b.refill now with current := (b.refill now).current - 1 })
  else (false, b.refill now)

def estimateRetryMs (b : TokenBucket F T) : Int :=
  if 1 ≤ b.current then 0
  else max 1 (TokenClock.retryMs T (1 - b.current) b.refillRate)

end TokenBucket

structure RateLimitConfig (F : Type) [∀ n, OfNat F n] where
  connectionLimit : F := 100
  messageTypeLimit : F := 500
  ipLimit : F := 200
  userLimit : F := 50
  loginLimit : F := 5

namespace RateLevel

/-- The limit of the bucket in a configuration. -/
def limit (config : RateLimitConfig F) : RateLevel → F
  | .connection _ => config.connectionLimit
  | .messageType _ => config.messageTypeLimit
  | .ip _ => config.ipLimit
  | .user _ => config.userLimit
  | .login => config.loginLimit

def reason : RateLevel → String
  | .connection _ => "connection_rate_limited"
  | .messageType _ => "message_type_rate_limited"
  | .ip _ => "ip_rate_limited"
  | .user _ => "user_rate_limited"
  | .login => "login_rate_limited"

/-- The bucket is shared with other clients. -/
def shared : RateLevel → Bool
  | .messageType _ | .ip _ | .login => true
  | .connection _ | .user _ => false

end RateLevel

structure RateLimitResult where
  allowed : Bool := true
  reason : String := ""
  retryAfterMs : Int := 0

structure RateLimiter (F T : Type) [∀ n, OfNat F n] where
  config : RateLimitConfig F
  buckets : RateLevel → Option (TokenBucket F T)

namespace RateLimiter

/-- The constructors: the login bucket has a default. -/
def make (config : Option (RateLimitConfig F)) (now : T) : RateLimiter F T where
  config := config.getD {}
  buckets := Function.update (fun _ => none) .login (some
    (match config with
    | none => { lastRefill := now }
    | some config => .ofLimit config.loginLimit now))

def getOrCreate (level : RateLevel) (now : T) (l : RateLimiter F T) : TokenBucket F T :=
  (l.buckets level).getD (.ofLimit (level.limit l.config) now)

def put (level : RateLevel) (b : TokenBucket F T) (l : RateLimiter F T) : RateLimiter F T :=
  { l with buckets := Function.update l.buckets level (some b) }

/-- Charge the buckets up to the first that rejects. -/
def charge (now : T) : List RateLevel → RateLimiter F T → RateLimitResult × RateLimiter F T
  | [], l => ({}, l)
  | level :: rest, l =>
    let (granted, b) := (l.getOrCreate level now).tryConsume now
    if granted then charge now rest (l.put level b)
    else
      ({ allowed := false, reason := level.reason, retryAfterMs := b.estimateRetryMs },
        l.put level b)

def check (l : RateLimiter F T) (r : RateCheck T) : RateLimitResult × RateLimiter F T :=
  charge r.now r.levels l

/-- The tokens of a bucket after a mere refill. -/
def tokens (level : RateLevel) (now : T) (l : RateLimiter F T) : F :=
  ((l.getOrCreate level now).refill now).current

def attempt (level : RateLevel) (now : T) (l : RateLimiter F T) : RateLimiter F T :=
  l.put level ((l.getOrCreate level now).tryConsume now).2

variable {level other : RateLevel} {now : T} {l : RateLimiter F T} {ls : List RateLevel}

theorem granted_iff : ((l.getOrCreate level now).tryConsume now).1 = true ↔
    1 ≤ l.tokens level now := by
  unfold TokenBucket.tryConsume tokens
  split_ifs with h <;> simpa using h

theorem refill_tryConsume (b : TokenBucket F T) :
    (b.tryConsume now).2.refill now = (b.tryConsume now).2 := by
  unfold TokenBucket.tryConsume TokenBucket.refill
  grind

theorem tokens_attempt : (l.attempt other now).tokens level now =
    if level = other ∧ 1 ≤ l.tokens other now then l.tokens level now - 1
    else l.tokens level now := by
  by_cases h : level = other
  · subst h
    simp only [tokens, attempt, put, getOrCreate, update_self, Option.getD_some,
      refill_tryConsume, true_and]
    unfold TokenBucket.tryConsume
    split_ifs <;> rfl
  · simp [tokens, attempt, put, getOrCreate, h]

theorem charge_cons (rest : List RateLevel) : charge now (level :: rest) l =
    if 1 ≤ l.tokens level now then charge now rest (l.attempt level now)
    else
      ({ allowed := false, reason := level.reason
         retryAfterMs := ((l.getOrCreate level now).tryConsume now).2.estimateRetryMs },
        l.attempt level now) := by
  rw [charge]
  simp only [granted_iff]
  rfl

/-! ## Rejections -/

/-- The buckets before the first one without a token. -/
def charged (now : T) (l : RateLimiter F T) (ls : List RateLevel) : List RateLevel :=
  ls.takeWhile fun level => 1 ≤ l.tokens level now

omit [Sub F] in
theorem charged_congr {l' : RateLimiter F T}
    (h : ∀ level ∈ ls, l'.tokens level now = l.tokens level now) :
    l'.charged now ls = l.charged now ls := by
  induction ls with
  | nil => rfl
  | cons head rest ih =>
    have hrest := ih fun level hlevel => h level (mem_cons_of_mem _ hlevel)
    unfold charged at hrest ⊢
    rw [takeWhile_cons, takeWhile_cons, h head mem_cons_self, hrest]

/-- The buckets before the first empty one pay, and the request is allowed if there is none. -/
theorem charge_spec (l : RateLimiter F T) (now : T) (h : ls.Nodup) :
    ((charge now ls l).1.allowed = true ↔ ∀ level ∈ ls, 1 ≤ l.tokens level now) ∧
      ∀ level, (charge now ls l).2.tokens level now =
        if level ∈ l.charged now ls then l.tokens level now - 1 else l.tokens level now := by
  induction ls generalizing l with
  | nil => simp [charge, charged]
  | cons head rest ih =>
    obtain ⟨hhead, hrest⟩ := nodup_cons.mp h
    have hkept : ∀ level ∈ rest, (l.attempt head now).tokens level now = l.tokens level now :=
      fun level hlevel =>
        tokens_attempt.trans (if_neg (not_and_of_not_left _ (ne_of_mem_of_not_mem hlevel hhead)))
    have hcharged : (l.attempt head now).charged now rest = l.charged now rest :=
      charged_congr hkept
    rw [charge_cons, forall_mem_cons]
    split_ifs with htoken
    · obtain ⟨hallowed, htokens⟩ := ih (l.attempt head now) hrest
      refine ⟨?_, fun level => ?_⟩
      · rw [hallowed, and_iff_right htoken]
        exact forall₂_congr fun level hlevel => by rw [hkept level hlevel]
      · have hnot : head ∉ l.charged now rest := fun hmem => hhead (takeWhile_subset _ hmem)
        have hcons : l.charged now (head :: rest) = head :: l.charged now rest :=
          takeWhile_cons_of_pos (by simpa using htoken)
        rw [htokens, hcharged, tokens_attempt, hcons]
        grind
    · have hnil : l.charged now (head :: rest) = [] :=
        takeWhile_cons_of_neg (by simpa using htoken)
      refine ⟨by simp [htoken], fun level => ?_⟩
      rw [tokens_attempt, hnil]
      simp [htoken]

/-- A rejected request costs the shared buckets nothing. -/
def RejectionFree (l : RateLimiter F T) (r : RateCheck T) : Prop :=
  (l.check r).1.allowed = false → ∀ level, level.shared = true →
    (l.check r).2.tokens level r.now = l.tokens level r.now

/-- A rejected request leaves the shared buckets alone exactly if no bucket is without a token, or
none of the shared buckets before the first such one is changed by taking a token: there are none,
or their numbers of tokens are so large that the difference is rounded away. -/
theorem rejection_free_iff (l : RateLimiter F T) (r : RateCheck T) : l.RejectionFree r ↔
    (∀ level ∈ r.levels, 1 ≤ l.tokens level r.now) ∨
      ∀ level ∈ l.charged r.now r.levels, level.shared = true →
        l.tokens level r.now - 1 = l.tokens level r.now := by
  obtain ⟨hallowed, htokens⟩ := charge_spec l r.now r.nodup_levels
  unfold RejectionFree check
  rw [← Bool.not_eq_true, hallowed, imp_iff_not_or, not_not]
  refine or_congr_right (forall_congr' fun level => ?_)
  rw [htokens]
  split_ifs with hmem <;> simp [hmem]

/-- A request of a user. -/
def annsRequest : RateCheck Int :=
  { now := 0, protocolMessageId := 2100, sessionId := 1, userId := ascii "ann" }

/-- Of two requests at once the second is rejected, and has taken a token of its message type. -/
theorem rejection_charges_type :
    ¬ ((make (F := Float) (some { userLimit := 1 }) 0).check annsRequest).2.RejectionFree
      annsRequest := by
  intro h
  exact absurd (h (by decide +kernel) (.messageType 2100) rfl) (by decide +kernel)

end RateLimiter

end Arithmetic

/-! ## Windows -/

structure TokenBucket.Sound (limit now : ℚ) (b : TokenBucket ℚ ℚ) : Prop where
  capacity : b.capacity = limit
  refillRate : b.refillRate = limit
  nonneg : 0 ≤ b.current
  le : b.current ≤ limit
  past : b.lastRefill ≤ now

theorem TokenBucket.Sound.current_refill {limit now time : ℚ} {b : TokenBucket ℚ ℚ}
    (h : b.Sound limit now) (htime : now ≤ time) :
    (b.refill time).current = min limit (b.current + (time - b.lastRefill) * limit) := by
  unfold TokenBucket.refill
  split_ifs with hlt
  · rw [h.capacity, h.refillRate, min_comm, min_def_lt]
    rfl
  · have hsame : b.lastRefill = time := le_antisymm (h.past.trans htime) (not_lt.mp hlt)
    rw [hsame, sub_self, zero_mul, add_zero, min_eq_right h.le]

theorem TokenBucket.Sound.refill {limit now time : ℚ} {b : TokenBucket ℚ ℚ} (h : b.Sound limit now)
    (hlim : 0 ≤ limit) (htime : now ≤ time) : (b.refill time).Sound limit time := by
  have hcurrent := h.current_refill htime
  have hnonneg : 0 ≤ (time - b.lastRefill) * limit :=
    mul_nonneg (sub_nonneg.mpr (h.past.trans htime)) hlim
  have hge : 0 ≤ b.current + (time - b.lastRefill) * limit := add_nonneg h.nonneg hnonneg
  refine ⟨?_, ?_, hcurrent ▸ le_min hlim hge, hcurrent ▸ min_le_left _ _, ?_⟩ <;>
    unfold TokenBucket.refill <;> split_ifs with hlt
  · exact h.capacity
  · exact h.capacity
  · exact h.refillRate
  · exact h.refillRate
  · exact le_rfl
  · exact h.past.trans htime

namespace RateLimiter

variable {level : RateLevel} {now time : ℚ} {l : RateLimiter ℚ ℚ} {ls : List RateLevel}

def allowedIn (level : RateLevel) (first last : ℚ) : RateLimiter ℚ ℚ → List (RateCheck ℚ) → ℕ
  | _, [] => 0
  | l, r :: rest =>
    (if (l.check r).1.allowed = true ∧ level ∈ r.levels ∧ first ≤ r.now ∧ r.now ≤ last then 1
      else 0) +
      allowedIn level first last (l.check r).2 rest

structure Sound (level : RateLevel) (limit now : ℚ) (l : RateLimiter ℚ ℚ) : Prop where
  limit_eq : level.limit l.config = limit
  nonneg : 0 ≤ limit
  bucket : ∀ b, l.buckets level = some b → b.Sound limit now

variable {limit first last : ℚ}

theorem Sound.getOrCreate (h : l.Sound level limit now) (htime : now ≤ time) :
    (l.getOrCreate level time).Sound limit time := by
  unfold RateLimiter.getOrCreate
  cases hbucket : l.buckets level with
  | none =>
    rw [h.limit_eq]
    exact ⟨rfl, rfl, h.nonneg, le_rfl, le_rfl⟩
  | some b =>
    have hb := h.bucket b hbucket
    exact ⟨hb.capacity, hb.refillRate, hb.nonneg, hb.le, hb.past.trans htime⟩

theorem Sound.gain (h : l.Sound level limit now) (htime : first ≤ last) :
    0 ≤ limit * (last - first) :=
  mul_nonneg h.nonneg (sub_nonneg.mpr htime)

theorem Sound.tokens_le (h : l.Sound level limit now) (htime : now ≤ time) :
    0 ≤ l.tokens level time ∧ l.tokens level time ≤ limit :=
  have hb := (h.getOrCreate htime).refill h.nonneg le_rfl
  ⟨hb.nonneg, hb.le⟩

/-- In a time the bucket gains no more than its rate. -/
theorem Sound.tokens_later (h : l.Sound level limit now) (htime : now ≤ time) :
    l.tokens level time ≤ l.tokens level now + limit * (time - now) := by
  cases hbucket : l.buckets level with
  | none =>
    have hfull : l.tokens level now = limit := by
      simp [tokens, RateLimiter.getOrCreate, hbucket, TokenBucket.refill, TokenBucket.ofLimit,
        h.limit_eq]
    linarith [(h.tokens_le htime).2, h.gain htime]
  | some b =>
    have hb := h.bucket b hbucket
    simp only [tokens, RateLimiter.getOrCreate, hbucket, Option.getD_some]
    rw [hb.current_refill htime, hb.current_refill le_rfl, min_add]
    refine le_min ((min_le_left _ _).trans (by linarith [h.gain htime]))
      ((min_le_right _ _).trans (le_of_eq ?_))
    rw [mul_comm limit, add_assoc, ← add_mul, sub_add_sub_cancel']

theorem Sound.attempt (h : l.Sound level limit now) (other : RateLevel) :
    (l.attempt other now).Sound level limit now := by
  refine ⟨h.limit_eq, h.nonneg, fun b hb => ?_⟩
  by_cases hother : level = other
  · subst hother
    have hsound := (h.getOrCreate le_rfl).refill h.nonneg le_rfl
    simp only [RateLimiter.attempt, put, update_self, Option.some.injEq] at hb
    subst hb
    unfold TokenBucket.tryConsume
    split_ifs with htoken
    · exact ⟨hsound.capacity, hsound.refillRate, sub_nonneg.mpr htoken,
        (sub_le_self _ zero_le_one).trans hsound.le, hsound.past⟩
    · exact hsound
  · exact h.bucket b ((update_of_ne hother ..).symm.trans hb)

theorem Sound.charge (h : l.Sound level limit now) :
    (charge now ls l).2.Sound level limit now ∧ (charge now ls l).2.tokens level now +
      (if (charge now ls l).1.allowed = true ∧ level ∈ ls then 1 else 0) ≤ l.tokens level now := by
  induction ls generalizing l with
  | nil => simpa [RateLimiter.charge] using h
  | cons head rest ih =>
    have hhead : (l.attempt head now).tokens level now = _ := tokens_attempt
    by_cases htoken : 1 ≤ l.tokens head now
    · obtain ⟨hsound, htokens⟩ := ih (h.attempt head)
      rw [charge_cons, if_pos htoken]
      exact ⟨hsound, by grind⟩
    · rw [charge_cons, if_neg htoken, hhead, if_neg (not_and_of_not_right _ htoken)]
      exact ⟨h.attempt head, by simp⟩

theorem Sound.mono (h : l.Sound level limit now) (htime : now ≤ time) : l.Sound level limit time :=
  ⟨h.limit_eq, h.nonneg, fun b hb =>
    have hsound := h.bucket b hb
    { hsound with past := hsound.past.trans htime }⟩

variable {rs : List (RateCheck ℚ)}

theorem allowedIn_eq_zero (h : last < now) (hsort : (now :: rs.map (·.now)).Pairwise (· ≤ ·)) :
    allowedIn level first last l rs = 0 := by
  induction rs generalizing l now with
  | nil => rfl
  | cons r rest ih =>
    obtain ⟨hfirst, hrest⟩ := pairwise_cons.mp hsort
    have hlater : last < r.now := h.trans_le (hfirst _ (by simp))
    rw [allowedIn, ih hlater hrest, if_neg fun hr => not_le.mpr hlater hr.2.2.2]

/-- Tokens and later gain pay for the requests from then on. -/
theorem Sound.allowedIn_le (h : l.Sound level limit now)
    (hsort : (now :: rs.map (·.now)).Pairwise (· ≤ ·)) (hnow : now ≤ last) :
    (allowedIn level first last l rs : ℚ) ≤ l.tokens level now + limit * (last - now) := by
  induction rs generalizing l now with
  | nil => simpa [allowedIn] using add_nonneg (h.tokens_le le_rfl).1 (h.gain hnow)
  | cons r rest ih =>
    obtain ⟨hfirst, hrest⟩ := pairwise_cons.mp hsort
    have htime : now ≤ r.now := hfirst _ (by simp)
    have hgain := h.tokens_later htime
    rcases lt_or_ge last r.now with hlast | hlast
    · rw [allowedIn_eq_zero hlast (by simpa using hrest), Nat.cast_zero]
      exact add_nonneg (h.tokens_le le_rfl).1 (h.gain hnow)
    · have hcharge : (l.check r).2.Sound level limit r.now ∧ _ := (h.mono htime).charge
      have htokens : (l.check r).2.tokens level r.now +
        (if (l.check r).1.allowed = true ∧ level ∈ r.levels then 1 else 0) ≤
          l.tokens level r.now := hcharge.2
      rw [allowedIn]
      split_ifs at htokens ⊢ <;> grind

theorem Sound.window (h : l.Sound level limit now)
    (hsort : (now :: rs.map (·.now)).Pairwise (· ≤ ·)) (hwindow : first ≤ last) :
    (allowedIn level first last l rs : ℚ) ≤ limit + limit * (last - first) := by
  induction rs generalizing l now with
  | nil => simpa [allowedIn] using add_nonneg h.nonneg (h.gain hwindow)
  | cons r rest ih =>
    obtain ⟨hfirst, hrest⟩ := pairwise_cons.mp hsort
    have htime : now ≤ r.now := hfirst _ (by simp)
    have hsound := h.mono htime
    rcases lt_or_ge r.now first with hpre | hpre
    · rw [allowedIn, if_neg fun hr => not_le.mpr hpre hr.2.2.1, zero_add]
      exact ih hsound.charge.1 hrest
    rcases lt_or_ge last r.now with hlast | hlast
    · rw [allowedIn_eq_zero hlast (by simpa using hrest), Nat.cast_zero]
      exact add_nonneg h.nonneg (h.gain hwindow)
    · have hin : (allowedIn level first last l (r :: rest) : ℚ) ≤ _ :=
        hsound.allowedIn_le (by simpa using hrest) hlast
      have hlonger : limit * (last - r.now) ≤ limit * (last - first) :=
        mul_le_mul_of_nonneg_left (sub_le_sub_left hpre _) h.nonneg
      linarith [(h.tokens_le htime).2]

theorem sound_make {cfg : Option (RateLimitConfig ℚ)} (h : 0 ≤ level.limit (cfg.getD {}))
    (hlogin : cfg = none → level ≠ .login) :
    (make cfg now).Sound level (level.limit (cfg.getD {})) now := by
  refine ⟨rfl, h, fun b hb => ?_⟩
  by_cases hlevel : level = .login
  · subst hlevel
    cases cfg with
    | none => exact absurd rfl (hlogin rfl)
    | some =>
      simp only [make, update_self, Option.some.injEq] at hb
      subst hb
      exact ⟨rfl, rfl, h, le_rfl, le_rfl⟩
  · simp [make, update_of_ne hlevel] at hb

def sixLogins : List (RateCheck ℚ) :=
  .replicate 6 { now := 0, protocolMessageId := 2001, sessionId := 1 }

theorem sixLogins_exceed : ¬ (allowedIn .login 0 (0 + 0) (make none 0) sixLogins : ℚ) ≤
    RateLevel.login.limit {} + RateLevel.login.limit {} * 0 := by decide +kernel

/-- In no window are more requests allowed than its limit and gain. -/
def RateLimited (config : Option (RateLimitConfig ℚ)) (level : RateLevel) : Prop :=
  ∀ (start : ℚ) (rs : List (RateCheck ℚ)) (first length : ℚ),
    (start :: rs.map (·.now)).Pairwise (· ≤ ·) → 0 ≤ length →
      (allowedIn level first (first + length) (make config start) rs : ℚ) ≤
        level.limit (config.getD {}) + level.limit (config.getD {}) * length

/-- The limits hold exactly if they are not negative, but for the logins under the default
constructor. -/
theorem rate_limited_iff (config : Option (RateLimitConfig ℚ)) (level : RateLevel) :
    RateLimited config level ↔
      0 ≤ level.limit (config.getD {}) ∧ (config = none → level ≠ .login) := by
  constructor
  · intro h
    refine ⟨by simpa [allowedIn] using h 0 [] 0 0 (by simp) le_rfl, ?_⟩
    rintro rfl rfl
    exact sixLogins_exceed (h 0 sixLogins 0 0 (by decide) le_rfl)
  · rintro ⟨hlim, hlogin⟩ start rs first length hsort hlen
    simpa using (sound_make hlim hlogin).window hsort (le_add_of_nonneg_right hlen)

theorem six_logins_at_once : ¬ RateLimited none .login :=
  fun h => sixLogins_exceed (h 0 sixLogins 0 0 (by decide) le_rfl)

end RateLimiter

end BoostGateway.Gateway
