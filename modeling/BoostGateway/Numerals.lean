import BoostGateway.Bytes
import Mathlib.Algebra.Order.Group.Unbundled.Abs
import Mathlib.Algebra.Order.Group.Int

/-!
# Reading integers from text

`strtoInteger` is the `strtol` family: it skips white space, accepts both signs, clamps and says
where it stopped. `fromChars` is `std::from_chars`: it skips nothing, accepts a minus sign only for
a signed type, and leaves the value alone when the number does not fit.
-/

namespace BoostGateway

def isDigit (c : UInt8) : Bool := 48 ≤ c && c ≤ 57

def isSpace (c : UInt8) : Bool := c == 32 || (9 ≤ c && c ≤ 13)

def digitsValue (digits : Bytes) : Nat := digits.foldl (fun n c => 10 * n + (c.toNat - 48)) 0

structure IntegerRange where
  least : Int
  greatest : Int

def int32Range : IntegerRange := ⟨-2 ^ 31, 2 ^ 31 - 1⟩

def int64Range : IntegerRange := ⟨-2 ^ 63, 2 ^ 63 - 1⟩

def uint64Range : IntegerRange := ⟨0, 2 ^ 64 - 1⟩

def IntegerRange.holds (range : IntegerRange) (value : Int) : Bool :=
  range.least ≤ value && value ≤ range.greatest

def IntegerRange.clamp (range : IntegerRange) (value : Int) : Int :=
  max range.least (min value range.greatest)

def strtoSign : Bytes → Bool × Bytes
  | 45 :: rest => (true, rest)
  | 43 :: rest => (false, rest)
  | rest => (false, rest)

def signedValue (negative : Bool) (digits : Bytes) : Int :=
  if negative then -(digitsValue digits : Int) else digitsValue digits

def strtoInteger (range : IntegerRange) (text : Bytes) : Int × Bytes :=
  let (negative, rest) := strtoSign (text.dropWhile isSpace)
  let digits := rest.takeWhile isDigit
  if digits = [] then (0, text)
  else (range.clamp (signedValue negative digits), rest.dropWhile isDigit)

def fromCharsSign (range : IntegerRange) : Bytes → Bool × Bytes
  | 45 :: rest => if range.least < 0 then (true, rest) else (false, 45 :: rest)
  | rest => (false, rest)

/-- `std::from_chars`, base ten: a value, if any, and the rest. -/
def fromChars (range : IntegerRange) (text : Bytes) : Option Int × Bytes :=
  let (negative, rest) := fromCharsSign range text
  let digits := rest.takeWhile isDigit
  if digits = [] then (none, text)
  else
    let value := signedValue negative digits
    (if range.holds value then some value else none, rest.dropWhile isDigit)

/-! ## When the two readers agree -/

def hasLeadIn : Bytes → Bool
  | [] => false
  | c :: _ => isSpace c || c == 43

theorem not_isDigit_of_isSpace {c : UInt8} (h : isSpace c) : isDigit c = false := by
  simp only [isSpace, isDigit, Bool.or_eq_true, beq_iff_eq, Bool.and_eq_true, decide_eq_true_eq,
    UInt8.le_iff_toNat_le, Bool.and_eq_false_iff, decide_eq_false_iff_not] at h ⊢
  rcases h with rfl | h
  · exact .inl (by decide)
  · exact .inl (by have := h.2; simp at this ⊢; omega)

variable {text : Bytes} {range : IntegerRange} {value : Int}

theorem fromChars_of_leadIn (range : IntegerRange) (h : hasLeadIn text) :
    fromChars range text = (none, text) := by
  cases text with
  | nil => cases h
  | cons c rest =>
    have hdigit : isDigit c = false := by
      simp only [hasLeadIn, Bool.or_eq_true, beq_iff_eq] at h
      rcases h with hspace | rfl
      · exact not_isDigit_of_isSpace hspace
      · decide
    have hsign : fromCharsSign range (c :: rest) = (false, c :: rest) := by
      have hminus : c ≠ 45 := by
        rintro rfl
        simp [hasLeadIn, isSpace] at h
      simp [fromCharsSign, hminus]
    simp [fromChars, hsign, hdigit]

theorem strtoSign_of_not_leadIn (hrange : range.least < 0) (h : hasLeadIn text = false) :
    strtoSign (text.dropWhile isSpace) = fromCharsSign range text := by
  cases text with
  | nil => rfl
  | cons c =>
    simp only [hasLeadIn, Bool.or_eq_false_iff, beq_eq_false_iff_ne] at h
    rw [List.dropWhile_cons_of_neg (by simp [h.1])]
    by_cases hminus : c = 45
    · subst hminus
      simp [strtoSign, fromCharsSign, hrange]
    · simp [strtoSign, fromCharsSign, hminus, h.2]

theorem clamp_eq_iff {read : Int} (hlow : range.least < value) (hhigh : value < range.greatest)
    (h : range.clamp read = value) : read = value := by
  simp only [IntegerRange.clamp] at h
  omega

/-- Both readers agree on a text read to its end, unclamped and without lead-in. -/
theorem fromChars_of_strtoInteger {range' : IntegerRange} (htext : text ≠ [])
    (h : strtoInteger range text = (value, [])) (hlow : range.least < value)
    (hhigh : value < range.greatest) (hrange : range'.least < 0) (hvalue : range'.holds value) :
    fromChars range' text = if hasLeadIn text then (none, text) else (some value, []) := by
  split
  case isTrue hlead => exact fromChars_of_leadIn range' hlead
  case isFalse hlead =>
    have hsign := strtoSign_of_not_leadIn hrange (by simpa using hlead)
    simp only [strtoInteger, hsign] at h
    by_cases hdigits : (fromCharsSign range' text).2.takeWhile isDigit = []
    · -- without a digit nothing is read, but the text is not empty
      simp [hdigits, htext] at h
    · rw [if_neg hdigits] at h
      obtain ⟨hclamp, hrest⟩ := Prod.mk.inj h
      have hread := clamp_eq_iff hlow hhigh hclamp
      simp [fromChars, hdigits, hread, hvalue, hrest]

end BoostGateway
