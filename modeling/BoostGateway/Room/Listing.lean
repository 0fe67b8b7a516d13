import Mathlib.Data.Int.GCD
import Mathlib.Data.Nat.Prime.Basic
import BoostGateway.Room.BackendService

/-!
# Pages of the room listing

`handle_room_list` cuts the matching rooms into pages in 32-bit arithmetic, so the offset of a large
page number wraps around and may fall on a room again (`pages_partition_iff`).
-/

namespace BoostGateway.Room

open List

def RoomStatus.text : RoomStatus → Bytes
  | .waiting => ascii "waiting"
  | .inInstance => ascii "in_instance"
  | .closed => ascii "closed"

structure ListedRoom where
  roomId : Bytes
  visibility : Bytes
  status : RoomStatus
  deriving DecidableEq

/-- The rooms that pass the filters; an empty one passes all. -/
def matching (visibility status : Bytes) (rooms : List ListedRoom) : List ListedRoom :=
  rooms.filter fun room =>
    (visibility = [] ∨ room.visibility = visibility) ∧ (status = [] ∨ room.status.text = status)

def pageSizeOf (requested : UInt32) : Nat :=
  if requested < 1 then 20 else min requested.toNat 100

def totalPages (total pageSize : Nat) : Nat := max 1 ((total + pageSize - 1) % 2 ^ 32 / pageSize)

/-- The rooms in the answer of `handle_room_list`. -/
def roomList (found : List ListedRoom) (page pageSize : Nat) : List ListedRoom :=
  let total := found.length % 2 ^ 32
  let start := (max 1 page - 1) * pageSize % 2 ^ 32
  if start < total then
    (found.drop start).take (min ((start + pageSize) % 2 ^ 32) total - start)
  else []

/-- The pages up to the last one, one after the other. -/
def allPages (found : List ListedRoom) (pageSize : Nat) : List ListedRoom :=
  (List.range (totalPages (found.length % 2 ^ 32) pageSize)).flatMap fun i =>
    roomList found (i + 1) pageSize

theorem flatMap_windows {α : Type} (xs : List α) (size pages : Nat) :
    ((List.range pages).flatMap fun i => (xs.drop (i * size)).take size) =
      xs.take (pages * size) := by
  induction pages with
  | zero => simp
  | succ pages ih =>
    rw [range_succ, flatMap_append, ih, Nat.succ_mul, take_add]
    simp

theorem length_roomList_le (found : List ListedRoom) (page pageSize : Nat) :
    (roomList found page pageSize).length ≤ pageSize := by
  dsimp only [roomList]
  split
  · rw [length_take]
    omega
  · exact Nat.zero_le _

theorem length_pages_le (found : List ListedRoom) (pageSize pages : Nat) :
    ((List.range pages).flatMap fun i => roomList found (i + 1) pageSize).length ≤
      pages * pageSize := by
  induction pages with
  | zero => simp
  | succ pages ih =>
    have hlast := length_roomList_le found (pages + 1) pageSize
    rw [range_succ, flatMap_append, length_append, Nat.succ_mul]
    simpa using Nat.add_le_add ih hlast

variable {found : List ListedRoom} {pageSize : Nat}

theorem roomList_eq_window (hpos : 0 < pageSize) (hlen : found.length + pageSize ≤ 2 ^ 32)
    (page : Nat) : roomList found page pageSize =
      (found.drop ((max 1 page - 1) * pageSize % 2 ^ 32)).take pageSize := by
  dsimp only [roomList]
  split
  · rw [take_eq_take_iff, length_drop, Nat.mod_eq_of_lt (by omega)]
    omega
  · rw [drop_of_length_le (by omega), take_nil]

theorem allPages_eq_iff (hpos : 0 < pageSize) (hsize : pageSize ≤ 100) :
    allPages found pageSize = found ↔ found.length + pageSize ≤ 2 ^ 32 := by
  have hpages := Nat.div_mul_le_self ((found.length % 2 ^ 32 + pageSize - 1) % 2 ^ 32) pageSize
  constructor
  · intro h
    have hle := length_pages_le found pageSize (totalPages (found.length % 2 ^ 32) pageSize)
    rw [← allPages, h, totalPages, Nat.max_def] at hle
    split at hle <;> omega
  · intro hlen
    have hmod := Nat.mod_lt (found.length + pageSize - 1) hpos
    have hdiv := Nat.div_add_mod (found.length + pageSize - 1) pageSize
    rw [Nat.mod_eq_of_lt (by omega : found.length < 2 ^ 32),
      Nat.mod_eq_of_lt (by omega : found.length + pageSize - 1 < 2 ^ 32)] at hpages
    rw [allPages, totalPages, Nat.mod_eq_of_lt (by omega : found.length < 2 ^ 32),
      Nat.mod_eq_of_lt (by omega : found.length + pageSize - 1 < 2 ^ 32)]
    generalize (found.length + pageSize - 1) / pageSize = pages at hpages hdiv ⊢
    have hwindow : ∀ i ∈ List.range (max 1 pages), roomList found (i + 1) pageSize =
        (found.drop (i * pageSize)).take pageSize := by
      intro i hi
      have hle : i * pageSize ≤ pages * pageSize := Nat.mul_le_mul_right _ (by simp at hi; omega)
      rw [roomList_eq_window hpos hlen, Nat.mod_eq_of_lt (by simp; omega)]
      simp
    rw [flatMap_congr hwindow, flatMap_windows, take_of_length_le]
    have hle : pages * pageSize ≤ max 1 pages * pageSize := Nat.mul_le_mul_right _ (by omega)
    rw [Nat.mul_comm] at hdiv
    omega

theorem pageSizeOf_bounds (requested : UInt32) :
    0 < pageSizeOf requested ∧ pageSizeOf requested ≤ 100 := by
  unfold pageSizeOf
  split
  · decide
  next h =>
    have hpos : requested.toNat ≠ 0 := by simpa [UInt32.lt_iff_toNat_lt] using h
    omega

/-- An odd page size but 1 has an offset that wraps to the second room. -/
theorem exists_offset_one {n : Nat} (hlen : n + pageSize ≤ 2 ^ 32) (hsize : pageSize ≤ 100)
    (hodd : pageSize % 2 = 1) (hone : pageSize ≠ 1) :
    ∃ page < 2 ^ 32, max 1 ((n + pageSize - 1) / pageSize) < page ∧
      (page - 1) * pageSize % 2 ^ 32 = 1 := by
  have hcoprime : Nat.Coprime pageSize (2 ^ 32) :=
    (Nat.coprime_two_right.mpr (Nat.odd_iff.mpr hodd)).pow_right 32
  obtain ⟨inverse, hlt, hmul⟩ := Nat.exists_mul_mod_eq_one_of_coprime hcoprime (by decide)
  rw [Nat.mul_comm] at hmul
  -- the product is not 1 itself, so it exceeds `2 ^ 32`, and the page is a later one
  have hge : 2 ^ 32 < inverse * pageSize := by
    have hne : inverse * pageSize ≠ 1 := fun h => hone (Nat.eq_one_of_mul_eq_one_left h)
    omega
  have hlast : (n + pageSize - 1) / pageSize < inverse :=
    (Nat.div_lt_iff_lt_mul (by omega)).mpr (by omega)
  have htop : inverse ≠ 2 ^ 32 - 1 := by
    rintro rfl
    omega
  have hfirst : 0 < inverse := Nat.zero_lt_of_lt hlast
  exact ⟨inverse + 1, by omega, by omega, by simpa using hmul⟩

/-- Later pages miss the rooms if there are none, or pages of one room, or one room and odd pages.
-/
theorem offsets_miss_iff {n : Nat} (hpos : 0 < pageSize) (hsize : pageSize ≤ 100)
    (hlen : n + pageSize ≤ 2 ^ 32) :
    (∀ page < 2 ^ 32, max 1 ((n + pageSize - 1) / pageSize) < page →
        n ≤ (page - 1) * pageSize % 2 ^ 32) ↔
      n = 0 ∨ pageSize = 1 ∨ pageSize % 2 = 1 ∧ n = 1 := by
  constructor
  · intro h
    by_contra hnot
    obtain ⟨hroom, hone, hodd⟩ : n ≠ 0 ∧ pageSize ≠ 1 ∧ (pageSize % 2 = 1 → n ≠ 1) := by tauto
    rcases Nat.mod_two_eq_zero_or_one pageSize with heven | hodd'
    · -- half of `2 ^ 32` pages of an even size are no rooms at all
      have hlast : (n + pageSize - 1) / pageSize < 2147483649 :=
        (Nat.div_lt_iff_lt_mul hpos).mpr (by omega)
      have hhalf := h 2147483649 (by decide) (by omega)
      omega
    · obtain ⟨page, hpage, hlast, hoffset⟩ := exists_offset_one hlen hsize hodd' hone
      have hsecond := h page hpage hlast
      have := hodd hodd'
      omega
  · rintro (rfl | rfl | ⟨hodd, rfl⟩) page hpage hlast
    · exact Nat.zero_le _
    · rw [Nat.mul_one, Nat.mod_eq_of_lt (by omega)]
      omega
    · rw [Nat.one_le_iff_ne_zero]
      intro hzero
      have hcoprime : Nat.Coprime (2 ^ 32) pageSize :=
        (Nat.coprime_two_left.mpr (Nat.odd_iff.mpr hodd)).pow_left 32
      have hdvd := Nat.le_of_dvd (by omega)
        (hcoprime.dvd_of_dvd_mul_right (Nat.dvd_of_mod_eq_zero hzero))
      omega

end BoostGateway.Room
