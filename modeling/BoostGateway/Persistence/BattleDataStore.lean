import BoostGateway.Bytes

/-!
# Battle archives

The files of `JsonFileBattleDataStore`. A file that does not decode is taken for an old one without
a header and returned as it is, also if it is what an interrupted write has left of a new one.
-/

namespace BoostGateway.Persistence

open List

inductive ArchiveKind
  | replay
  | result
  | snapshot

def ArchiveKind.magic : ArchiveKind → Bytes
  | .replay => ascii "V2RP"
  | .result => ascii "V2BA"
  | .snapshot => ascii "V2SN"

def littleEndian : Nat → Nat → Bytes
  | 0, _ => []
  | size + 1, n => n.toUInt8 :: littleEndian size (n / 256)

def fromLittleEndian (bytes : Bytes) : Nat :=
  bytes.foldr (fun b n => b.toNat + 256 * n) 0

def header (kind : ArchiveKind) (payloadLength : Nat) : Bytes :=
  kind.magic ++ littleEndian 2 1 ++ littleEndian 4 payloadLength

def encode (kind : ArchiveKind) (payload : Bytes) : Bytes :=
  header kind payload.length ++ payload

/-- `decode` of `replay_format.cpp`. -/
def decode (kind : ArchiveKind) (binary : Bytes) : Option Bytes :=
  let payloadLength := fromLittleEndian ((binary.drop 6).take 4)
  if binary.length < 10 then none
  else if binary.take 4 ≠ kind.magic then none
  else if fromLittleEndian ((binary.drop 4).take 2) ≠ 1 then none
  else if binary.length < 10 + payloadLength then none
  else some ((binary.drop 10).take payloadLength)

/-- `load_replay`, `load_result` and `load_snapshot`. -/
def load (kind : ArchiveKind) (raw : Bytes) : Option Bytes :=
  match decode kind raw with
  | some payload => some payload
  | none => if raw ≠ [] then some raw else none

variable (kind : ArchiveKind)

theorem length_header (length : Nat) : (header kind length).length = 10 := by cases kind <;> rfl

/-- Bytes decode if they are as many as the header says. -/
theorem decode_header (length : Nat) (rest : Bytes) :
    decode kind (header kind length ++ rest) =
      if rest.length < length % 2 ^ 32 then none else some (rest.take (length % 2 ^ 32)) := by
  obtain ⟨a, b, c, d, hkind⟩ : ∃ a b c d, kind.magic = [a, b, c, d] := by
    cases kind <;> exact ⟨_, _, _, _, rfl⟩
  have hlength : length % 256 + 256 * (length / 256 % 256 +
      256 * (length / 256 / 256 % 256 + 256 * (length / 256 / 256 / 256 % 256))) =
        length % 4294967296 := by omega
  have hdecode : decode kind (header kind length ++ rest) =
      if rest.length + 10 < 10 then none
      else if rest.length + 10 < 10 + length % 4294967296 then none
      else some (rest.take (length % 4294967296)) := by
    simp [decode, header, littleEndian, fromLittleEndian, hkind, hlength]
  rw [hdecode, if_neg (by omega)]
  exact if_congr (by omega) rfl rfl

theorem load_of_decode_none {raw : Bytes} (h : decode kind raw = none) (hraw : raw ≠ []) :
    load kind raw = some raw := by
  rw [load, h]
  exact if_pos hraw

theorem load_take_of_lt {saved : Bytes} {n : Nat} (hpos : n ≠ 0)
    (hn : n < 10 + saved.length % 2 ^ 32) :
    load kind ((encode kind saved).take n) = some ((encode kind saved).take n) := by
  have hheader := length_header kind saved.length
  refine load_of_decode_none kind ?_ ?_
  · by_cases hshort : n < 10
    · have hlength : ((encode kind saved).take n).length < 10 := by
        rw [length_take]
        omega
      exact if_pos hlength
    · rw [encode, take_append, take_of_length_le (by omega), decode_header, if_pos]
      rw [length_take]
      omega
  · have hfile : encode kind saved ≠ [] := by
      intro h
      rw [encode, append_eq_nil_iff] at h
      simp [h.1] at hheader
    simp [hpos, hfile]

theorem load_take_of_le {saved : Bytes} {n : Nat} (hn : 10 + saved.length % 2 ^ 32 ≤ n)
    (hcut : n < 10 + saved.length) :
    load kind ((encode kind saved).take n) = some (saved.take (saved.length % 2 ^ 32)) := by
  have hheader := length_header kind saved.length
  have hdecode : decode kind ((encode kind saved).take n) =
      some (saved.take (saved.length % 2 ^ 32)) := by
    rw [encode, take_append, take_of_length_le (by omega), decode_header, if_neg,
      take_take, Nat.min_eq_left (by omega)]
    rw [length_take]
    omega
  rw [load, hdecode]

/-- A cut file is served as something else unless nothing is left of it, or as much as happens to be
the saved value. Files that do not begin as a header does, such as JSON, are returned unchanged. -/
theorem damaged_not_served_iff (saved : Bytes) (n : Nat) (hn : n < (encode kind saved).length) :
    (load kind ((encode kind saved).take n) ∈ [none, some saved] ↔ n = 0 ∨
      (encode kind saved).take n = saved ∧ n < 10 + saved.length % 2 ^ 32) ∧
    ∀ raw, raw ≠ [] → raw.head? ≠ some 86 → load kind raw = some raw := by
  have hheader := length_header kind saved.length
  rw [encode, length_append, hheader] at hn
  constructor
  · by_cases hpos : n = 0
    · subst hpos
      simp [load, decode]
    obtain hlt | hle := Nat.lt_or_ge n (10 + saved.length % 2 ^ 32)
    · simp [load_take_of_lt kind hpos hlt, hpos, hlt, -Nat.reducePow]
    · have hshort : saved.take (saved.length % 2 ^ 32) ≠ saved := by
        intro h
        have hlength := congrArg List.length h
        rw [length_take] at hlength
        omega
      simp [load_take_of_le kind hle hn, hpos, hshort, Nat.not_lt.mpr hle, -Nat.reducePow]
  · intro raw hraw hhead
    refine load_of_decode_none kind ?_ hraw
    have hmagic : raw.take 4 ≠ kind.magic := by
      intro h
      have hfirst : raw.head? = kind.magic.head? := by rw [← h, List.head?_take, if_neg (by decide)]
      cases kind <;> exact hhead hfirst
    simp [decode, hmagic]

/-- Nothing is left of a file, or just what was saved. -/
theorem damaged_not_served_cut :
    load .replay ((encode .replay (ascii "[]")).take 0) ∈ [none, some (ascii "[]")] ∧
      load .replay ((encode .replay (ascii "V2RP")).take 4) ∈ [none, some (ascii "V2RP")] :=
  ⟨(damaged_not_served_iff .replay (ascii "[]") 0 (by decide)).1.mpr (.inl rfl),
    (damaged_not_served_iff .replay (ascii "V2RP") 4 (by decide)).1.mpr (.inr (by decide))⟩

/-- The first bytes of a replay are served for it. -/
theorem damaged_served :
    load .replay ((encode .replay (ascii "[]")).take 4) ∉ [none, some (ascii "[]")] := by decide

end BoostGateway.Persistence
