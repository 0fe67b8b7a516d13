import BoostGateway.Runs

/-!
# The pool of the Redis leaderboard

`RedisLeaderboard` takes a client from its `RedisConnectionPool` in each call and keeps it in a
member until the next call has taken another. So a connection is in use between calls, and a pool of
one connection makes every second call wait (`borrows_iff`).
-/

namespace BoostGateway.Persistence

/-- The pool and `conn_holder_`. All connections work, so a slot is its `in_use`. -/
structure RedisLeaderboard where
  slots : List Bool := []
  connHolder : Option Nat := none
  deriving DecidableEq

inductive LeaderboardCall
  | submit
  | topK
  | rankOf
  | size

namespace RedisLeaderboard

def acquire (maxSize : Nat) (slots : List Bool) : Option Nat × List Bool :=
  match slots.findIdx? (! ·) with
  | some slot => (some slot, slots.set slot true)
  | none =>
    if slots.length < maxSize then (some slots.length, slots ++ [true]) else (none, slots)

/-- `prep_client`. The new client's assignment returns the one held before. -/
def call (maxSize : Nat) (b : RedisLeaderboard) (_ : LeaderboardCall) : RedisLeaderboard :=
  let (client, slots) := acquire maxSize b.slots
  { slots := b.connHolder.elim slots (slots.set · false), connHolder := client }

/-- The call gets a client without waiting. -/
def Obtains (maxSize : Nat) (b : RedisLeaderboard) (_ : LeaderboardCall) : Prop :=
  (acquire maxSize b.slots).1 ≠ none

/-- And every connection is idle after it. -/
def Borrows (maxSize : Nat) (b : RedisLeaderboard) (c : LeaderboardCall) : Prop :=
  Obtains maxSize b c ∧ ∀ inUse ∈ (b.call maxSize c).slots, inUse = false

def Held (b : RedisLeaderboard) : Prop :=
  ∀ slot, b.slots[slot]? = some true ↔ b.connHolder = some slot

variable {maxSize : Nat} {b : RedisLeaderboard}

theorem Held.call (h : b.Held) (c : LeaderboardCall) {client : Nat}
    (hclient : (acquire maxSize b.slots).1 = some client) :
    (b.call maxSize c).Held ∧ (b.call maxSize c).connHolder = some client := by
  have hholder : (b.call maxSize c).connHolder = some client := hclient
  refine ⟨fun slot => ?_, hholder⟩
  rw [hholder]
  unfold acquire at hclient
  unfold RedisLeaderboard.call acquire
  cases hfind : b.slots.findIdx? (! ·) with
  | some free =>
    simp only [hfind, Option.some.injEq] at hclient
    subst hclient
    obtain ⟨hlt, hfree, -⟩ := List.findIdx?_eq_some_iff_getElem.mp hfind
    cases hheld : b.connHolder <;> grind [Held]
  | none =>
    rw [hfind] at hclient
    cases hheld : b.connHolder <;> grind [Held]

theorem Held.obtains (h : b.Held) (hmax : 2 ≤ maxSize) : (acquire maxSize b.slots).1 ≠ none := by
  unfold acquire
  cases hfind : b.slots.findIdx? (! ·) with
  | some free => simp
  | none =>
    have hused (slot : Nat) (hslot : slot < b.slots.length) : b.connHolder = some slot := by
      have hbusy := List.findIdx?_eq_none_iff.mp hfind _ (List.getElem_mem hslot)
      exact (h slot).mp (by simpa [hslot] using hbusy)
    have hlength : b.slots.length ≤ 1 := by
      by_contra hlong
      cases (hused 0 (by omega)).symm.trans (hused 1 (by omega))
    simp only [if_pos (show b.slots.length < maxSize by omega)]
    exact nofun

def idle (connections : Nat) : RedisLeaderboard where
  slots := .replicate connections false

theorem held_idle (connections : Nat) : (idle connections).Held := by
  simp [Held, idle, List.getElem?_replicate]

/-- Calls on a pool of idle connections only borrow their connections if there are none. They do not
wait if the pool may be larger than one, or if there is at most one. -/
theorem borrows_iff (maxSize connections : Nat) (hmax : 1 ≤ maxSize)
    (hconnections : connections ≤ maxSize) (calls : List LeaderboardCall) :
    (Along (call maxSize) (Borrows maxSize) (idle connections) calls ↔ calls = []) ∧
      (Along (call maxSize) (Obtains maxSize) (idle connections) calls ↔
        2 ≤ maxSize ∨ calls.length ≤ 1) := by
  have hheld := held_idle connections
  constructor
  · cases calls with
    | nil => exact iff_of_true along_nil rfl
    | cons c calls =>
      refine iff_of_false (fun h => ?_) nofun
      obtain ⟨hobtains, hidle⟩ := (along_cons.mp h).1
      obtain ⟨client, hclient⟩ := Option.ne_none_iff_exists'.mp hobtains
      obtain ⟨hheld, hholder⟩ := hheld.call c hclient
      cases hidle true (List.mem_of_getElem? ((hheld client).mpr hholder))
  · obtain hmax | rfl := Nat.lt_or_eq_of_le hmax
    · have hcalls : Along (call maxSize) (fun _ _ => True) (idle connections) calls :=
        fun _ _ _ _ => trivial
      refine iff_of_true (hcalls.of_invariant (fun b c (h : b.Held) _ => ?_) hheld) (.inl hmax)
      obtain ⟨client, hclient⟩ := Option.ne_none_iff_exists'.mp (h.obtains hmax)
      exact ⟨(h.call c hclient).1, h.obtains hmax⟩
    · have hfirst (c : LeaderboardCall) : Obtains 1 (idle connections) c ∧
          (idle connections).call 1 c = { slots := [true], connHolder := some 0 } := by
        obtain rfl | rfl := Nat.le_one_iff_eq_zero_or_eq_one.mp hconnections <;>
          exact ⟨nofun, rfl⟩
      rcases calls with - | ⟨c, - | ⟨d, calls⟩⟩
      · exact iff_of_true along_nil (by simp)
      · exact iff_of_true (along_cons.mpr ⟨(hfirst c).1, along_nil⟩) (by simp)
      · refine iff_of_false (fun h => ?_) (by simp)
        -- the only slot is in use
        have hsecond := (along_cons.mp (along_cons.mp h).2).1
        rw [(hfirst c).2] at hsecond
        exact hsecond rfl

theorem borrows_iff_one : ¬ Along (call 1) (Obtains 1) (idle 1) [.submit, .size] :=
  fun h => absurd ((borrows_iff 1 1 (Nat.le_refl 1) (Nat.le_refl 1) [.submit, .size]).2.mp h)
    (by decide)

theorem connection_kept : ¬ Along (call 4) (Borrows 4) (idle 1) [.submit] :=
  fun h => absurd ((along_cons.mp h).1.2 true (by decide)) nofun

end RedisLeaderboard

end BoostGateway.Persistence
