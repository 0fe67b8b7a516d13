import Mathlib.Algebra.Group.Int.Defs
import Mathlib.Algebra.Group.Nat.Defs
import Mathlib.Data.List.Basic

/-!
# Byte strings

A `std::string` is a sequence of bytes. `ascii` reads a literal of the source as such a
sequence, and `utf8Valid` decides whether a sequence is well-formed UTF-8, which is what the
JSON library requires of every string it writes.
-/

namespace BoostGateway

abbrev Bytes := List UInt8

instance : LawfulBEq Bytes :=
  inferInstance

def ascii (text : String) : Bytes :=
  text.toUTF8.data.toList

def decimal (n : Nat) : Bytes := (Nat.toDigits 10 n).map (fun digit => digit.toNat.toUInt8)

def decimalInt (n : Int) : Bytes := (if n < 0 then [45] else []) ++ decimal n.natAbs

def hexDigit (n : Nat) : UInt8 :=
  if n < 10 then (48 + n).toUInt8 else (87 + n).toUInt8

def hexByte (b : UInt8) : Bytes := [hexDigit (b.toNat / 16), hexDigit (b.toNat % 16)]

def isContinuation (b : UInt8) : Bool := 0x80 ≤ b && b ≤ 0xBF

def opensTwoBytes (a b : UInt8) : Bool := 0xC2 ≤ a && a ≤ 0xDF && isContinuation b

def opensThreeBytes (a b : UInt8) : Bool :=
  (a == 0xE0 && 0xA0 ≤ b && b ≤ 0xBF) || (0xE1 ≤ a && a ≤ 0xEC && isContinuation b) ||
    (a == 0xED && 0x80 ≤ b && b ≤ 0x9F) || (0xEE ≤ a && a ≤ 0xEF && isContinuation b)

def opensFourBytes (a b : UInt8) : Bool :=
  (a == 0xF0 && 0x90 ≤ b && b ≤ 0xBF) || (0xF1 ≤ a && a ≤ 0xF3 && isContinuation b) ||
    (a == 0xF4 && 0x80 ≤ b && b ≤ 0x8F)

def utf8Valid : Bytes → Bool
  | [] => true
  | a :: rest =>
    if a < 0x80 then utf8Valid rest
    else match rest with
      | [] => false
      | b :: rest =>
        if opensTwoBytes a b then utf8Valid rest
        else match rest with
          | [] => false
          | c :: rest =>
            if opensThreeBytes a b && isContinuation c then utf8Valid rest
            else match rest with
              | [] => false
              | d :: rest =>
                opensFourBytes a b && isContinuation c && isContinuation d && utf8Valid rest

theorem utf8Valid_of_lt {bytes : Bytes} (h : ∀ b ∈ bytes, b < 0x80) : utf8Valid bytes = true := by
  induction bytes with
  | nil => rfl
  | cons b bytes ih =>
    obtain ⟨hb, hbytes⟩ := List.forall_mem_cons.mp h
    rw [utf8Valid.eq_def]
    simp only [hb, if_true]
    exact ih hbytes

example : utf8Valid [0x10, 0xE8, 0x07] = false := by decide

end BoostGateway
