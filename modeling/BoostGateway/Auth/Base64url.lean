import BoostGateway.Bytes
import Mathlib.Logic.Function.Basic

/-!
# Base64url

The text form of the parts of a token. Both loops shift into an accumulator of 32 bits that is never
masked, and only its last bits matter.
-/

namespace BoostGateway.Auth

def kTable : Bytes := ascii "ABCDEFGHIJKLMNOPQRSTUVWXYZabcdefghijklmnopqrstuvwxyz0123456789-_"

def shiftIn (width val bits : Nat) : Nat := (val <<< width) % 2 ^ 32 ||| bits

def digit (val : Nat) : UInt8 := kTable.getD (val &&& 0x3F) 0

def sextets (val : Nat) : Nat → Bytes × Nat
  | bits + 6 => (digit (val >>> bits) :: (sextets val bits).1, (sextets val bits).2)
  | bits => ([], bits)

def base64urlEncodeFrom (val bits : Nat) : Bytes → Bytes
  | [] => if 0 < bits then [digit (val <<< (6 - bits) % 2 ^ 32)] else []
  | c :: rest =>
    let val := shiftIn 8 val c.toNat
    let (written, bits) := sextets val (bits + 8)
    written ++ base64urlEncodeFrom val bits rest

def base64urlEncode (input : Bytes) : Bytes := base64urlEncodeFrom 0 0 input

/-- The loop of `base64url_decode`. The sign of its accumulator only reaches bits that the mask
removes. -/
def base64urlDecodeFrom (val bits : Nat) : Bytes → Option Bytes
  | [] => some []
  | c :: rest =>
    if c = 61 then some []
    else match kTable.idxOf? c with
      | none => none
      | some pos =>
        let val := shiftIn 6 val pos
        if 8 ≤ bits + 6 then
          (base64urlDecodeFrom val (bits - 2) rest).map
            (((val >>> (bits - 2)) &&& 0xFF).toUInt8 :: ·)
        else base64urlDecodeFrom val (bits + 6) rest

def base64urlDecode (input : Bytes) : Bytes := (base64urlDecodeFrom 0 0 input).getD []

theorem shiftIn_eq {width bits : Nat} (hwidth : width ≤ 32) (hbits : bits < 2 ^ width) (val : Nat) :
    shiftIn width val bits = val % 2 ^ (32 - width) * 2 ^ width + bits := by
  have hpow : 2 ^ 32 = 2 ^ (32 - width) * 2 ^ width := by rw [← pow_add, Nat.sub_add_cancel hwidth]
  rw [shiftIn, Nat.shiftLeft_eq, hpow, Nat.mul_mod_mul_right, ← Nat.shiftLeft_eq,
    ← Nat.shiftLeft_add_eq_or_of_lt hbits]

theorem shiftIn_byte (val : Nat) (c : UInt8) :
    shiftIn 8 val c.toNat = val % 16777216 * 256 + c.toNat :=
  shiftIn_eq (by decide) c.toNat_lt val

theorem digit_eq (val : Nat) : digit val = kTable.getD (val % 64) 0 := by
  rw [digit, show 0x3F = 2 ^ 6 - 1 from rfl, Nat.and_two_pow_sub_one_eq_mod]

theorem find_digit (val : Nat) :
    digit val ≠ 61 ∧ kTable.idxOf? (digit val) = some (val % 64) ∧ digit val ∈ kTable := by
  have htable : ∀ i : Fin 64, kTable.getD i 0 ≠ 61 ∧ kTable.idxOf? (kTable.getD i 0) = some i.1 ∧
      kTable.getD i 0 ∈ kTable := by decide +kernel
  rw [digit_eq]
  exact htable ⟨val % 64, Nat.mod_lt _ (by decide)⟩

theorem decodeFrom_digit (val bits x : Nat) (rest : Bytes) :
    base64urlDecodeFrom val bits (digit x :: rest) =
      if 8 ≤ bits + 6 then
        (base64urlDecodeFrom (val % 67108864 * 64 + x % 64) (bits - 2) rest).map
          (((val % 67108864 * 64 + x % 64) / 2 ^ (bits - 2) % 256).toUInt8 :: ·)
      else base64urlDecodeFrom (val % 67108864 * 64 + x % 64) (bits + 6) rest := by
  obtain ⟨hpad, hfind, -⟩ := find_digit x
  have hshift : shiftIn 6 val (x % 64) = val % 67108864 * 64 + x % 64 :=
    shiftIn_eq (by decide) (Nat.mod_lt x (by decide)) val
  have hmask : ∀ n : Nat, n &&& 0xFF = n % 256 := fun n => Nat.and_two_pow_sub_one_eq_mod n 8
  simp only [base64urlDecodeFrom, hpad, hfind, hshift, hmask, Nat.shiftRight_eq_div_pow, if_false]

theorem byte_eq {n : Nat} {a : UInt8} (h : n % 256 = a.toNat) : (n % 256).toUInt8 = a := by
  rw [h]
  exact UInt8.ofNat_toNat

/-- What is read back when the decoder still has no, six or four bits of a byte `a`. -/
structure ReadsBack (s : Bytes) : Prop where
  aligned : ∀ v w, base64urlDecodeFrom w 0 (base64urlEncodeFrom v 0 s) = some s
  afterSix : ∀ v w (a : UInt8), v % 4 = a.toNat % 4 → w % 64 = a.toNat / 4 →
    base64urlDecodeFrom w 6 (base64urlEncodeFrom v 2 s) = some (a :: s)
  afterFour : ∀ v w (a : UInt8), v % 16 = a.toNat % 16 → w % 16 = a.toNat / 16 →
    base64urlDecodeFrom w 4 (base64urlEncodeFrom v 4 s) = some (a :: s)

theorem readsBack_nil : ReadsBack [] where
  aligned _ _ := rfl
  afterSix v w a hv hw := by
    have hbyte : ((w % 67108864 * 64 + v <<< 4 % 2 ^ 32 % 64) / 2 ^ 4 % 256).toUInt8 = a := by
      refine byte_eq ?_
      omega
    rw [base64urlEncodeFrom, if_pos (by decide), decodeFrom_digit, if_pos (by decide), hbyte]
    rfl
  afterFour v w a hv hw := by
    have hbyte : ((w % 67108864 * 64 + v <<< 2 % 2 ^ 32 % 64) / 2 ^ 2 % 256).toUInt8 = a := by
      refine byte_eq ?_
      omega
    rw [base64urlEncodeFrom, if_pos (by decide), decodeFrom_digit, if_pos (by decide), hbyte]
    rfl

theorem readsBack_cons {s : Bytes} (h : ReadsBack s) (c : UInt8) : ReadsBack (c :: s) where
  aligned v w := by
    have hval := shiftIn_byte v c
    have hc := c.toNat_lt
    change base64urlDecodeFrom w 0 (digit (shiftIn 8 v c.toNat >>> 2) ::
      base64urlEncodeFrom (shiftIn 8 v c.toNat) 2 s) = _
    rw [decodeFrom_digit, if_neg (by decide), Nat.shiftRight_eq_div_pow]
    exact h.afterSix _ _ c (by omega) (by omega)
  afterSix v w a hv hw := by
    have hval := shiftIn_byte v c
    have hc := c.toNat_lt
    change base64urlDecodeFrom w 6 (digit (shiftIn 8 v c.toNat >>> 4) ::
      base64urlEncodeFrom (shiftIn 8 v c.toNat) 4 s) = _
    rw [decodeFrom_digit, if_pos (by decide), Nat.shiftRight_eq_div_pow,
      byte_eq (a := a) (by omega), h.afterFour _ _ c (by omega) (by omega)]
    rfl
  afterFour v w a hv hw := by
    have hval := shiftIn_byte v c
    have hc := c.toNat_lt
    change base64urlDecodeFrom w 4 (digit (shiftIn 8 v c.toNat >>> 6) ::
      digit (shiftIn 8 v c.toNat) :: base64urlEncodeFrom (shiftIn 8 v c.toNat) 0 s) = _
    rw [decodeFrom_digit, if_pos (by decide), decodeFrom_digit, if_pos (by decide),
      Nat.shiftRight_eq_div_pow, byte_eq (a := a) (by omega), byte_eq (a := c) (by omega),
      h.aligned]
    rfl

theorem readsBack (s : Bytes) : ReadsBack s := by
  induction s with
  | nil => exact readsBack_nil
  | cons c s ih => exact readsBack_cons ih c

theorem mem_sextets (val bits : Nat) : ∀ c ∈ (sextets val bits).1, c ∈ kTable := by
  fun_induction sextets val bits with
  | case1 bits ih => simpa [(find_digit _).2.2] using ih
  | case2 => simp

theorem mem_encodeFrom (s : Bytes) (val bits : Nat) :
    ∀ c ∈ base64urlEncodeFrom val bits s, c ∈ kTable := by
  induction s generalizing val bits with
  | nil =>
    unfold base64urlEncodeFrom
    split
    · simp [(find_digit _).2.2]
    · simp
  | cons b s ih =>
    intro c hmem
    obtain hmem | hmem := List.mem_append.mp hmem
    · exact mem_sextets (shiftIn 8 val b.toNat) (bits + 8) c hmem
    · exact ih _ _ c hmem

/-- Every byte string is read back, so no two have the same text, and the text is over the table. -/
theorem base64url_round_trip :
    (∀ s, base64urlDecode (base64urlEncode s) = s) ∧ Function.Injective base64urlEncode ∧
      ∀ s, ∀ c ∈ base64urlEncode s, c ∈ kTable := by
  have hread : Function.LeftInverse base64urlDecode base64urlEncode := by
    intro s
    rw [base64urlDecode, base64urlEncode, (readsBack s).aligned, Option.getD_some]
  exact ⟨hread, hread.injective, fun s => mem_encodeFrom s 0 0⟩

end BoostGateway.Auth
