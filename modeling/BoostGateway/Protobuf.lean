import BoostGateway.Bytes

/-!
# The protobuf wire format

A message is a sequence of fields, each with a number and a varint or a string of bytes, and they
are read back as they were written (`readFields_writeFields`). `Codec` is the generated code of a
message type, and `Codec.Lawful` what a caller relies on.
-/

namespace BoostGateway.Protobuf

open List

/-! ## Varints -/

/-- A number in base 128, in at most `width` bytes. -/
def writeDigits : Nat → Nat → Bytes
  | 0, _ => []
  | width + 1, n =>
    if n < 128 then [n.toUInt8]
    else (n % 128 + 128).toUInt8 :: writeDigits width (n / 128)

/-- A number in base 128, and the input after it. -/
def readDigits : Nat → Bytes → Option (Nat × Bytes)
  | 0, _ => none
  | _ + 1, [] => none
  | width + 1, b :: rest =>
    if b.toNat < 128 then some (b.toNat, rest)
    else (readDigits width rest).map fun (high, rest) => (b.toNat - 128 + 128 * high, rest)

/-- A number of 64 bits as a varint. -/
def writeVarint (n : Nat) : Bytes := writeDigits 10 n

@[inherit_doc writeVarint]
def readVarint (input : Bytes) : Option (Nat × Bytes) := readDigits 10 input

/-- A number that fits the width is read back. -/
theorem readDigits_writeDigits {width n : Nat} (h : n < 128 ^ (width + 1)) (rest : Bytes) :
    readDigits (width + 1) (writeDigits (width + 1) n ++ rest) = some (n, rest) := by
  induction width generalizing n with
  | zero =>
    have hn : n < 128 := by simpa using h
    have hbyte : n.toUInt8.toNat = n := by simp; omega
    simp [writeDigits, readDigits, hn, hbyte]
  | succ width ih =>
    rw [writeDigits]
    split
    next hn =>
      have hbyte : n.toUInt8.toNat = n := by simp; omega
      simp [readDigits, hn, hbyte]
    next hn =>
      have hbyte : (n % 128 + 128).toUInt8.toNat = n % 128 + 128 := by simp; omega
      have hhigh : n / 128 < 128 ^ (width + 1) := by
        rw [Nat.div_lt_iff_lt_mul (by decide), ← Nat.pow_succ]
        exact h
      rw [cons_append, readDigits, hbyte, if_neg (by omega), ih hhigh]
      simp only [Option.map_some, Option.some.injEq, Prod.mk.injEq, and_true]
      omega

/-- A number of 64 bits is read back. -/
theorem readVarint_writeVarint {n : Nat} (h : n < 2 ^ 64) (rest : Bytes) :
    readVarint (writeVarint n ++ rest) = some (n, rest) := by
  have hwide : n < 128 ^ 10 := Nat.lt_trans h (by decide)
  exact readDigits_writeDigits hwide rest

/-- A varint takes at least one byte. -/
theorem writeVarint_ne_nil (n : Nat) : writeVarint n ≠ [] := by
  unfold writeVarint writeDigits
  split <;> simp

/-! ## Sequences -/

section Sequences

variable {α : Type} (read : Bytes → Option (α × Bytes))

/-- The values of an input, one after the other. Each takes at least one byte. -/
def readManyWithin : Nat → Bytes → Option (List α)
  | _, [] => some []
  | 0, _ :: _ => none
  | fuel + 1, input => do
    let (value, rest) ← read input
    let values ← readManyWithin fuel rest
    some (value :: values)

@[inherit_doc readManyWithin]
def readMany (input : Bytes) : Option (List α) := readManyWithin read input.length input

/-- Values that are read back one by one are read back together. -/
theorem readMany_flatMap {write : α → Bytes} {values : List α} (hne : ∀ value, write value ≠ [])
    (hread : ∀ value ∈ values, ∀ rest, read (write value ++ rest) = some (value, rest)) :
    readMany read (values.flatMap write) = some values := by
  suffices hfuel : ∀ fuel, (values.flatMap write).length ≤ fuel →
      readManyWithin read fuel (values.flatMap write) = some values from hfuel _ (Nat.le_refl _)
  induction values with
  | nil => intro fuel _; simp [readManyWithin]
  | cons value values ih =>
    intro fuel hfuel
    obtain ⟨hvalue, hvalues⟩ := forall_mem_cons.mp hread
    rw [flatMap_cons, length_append] at hfuel
    have hpos := length_pos_iff.mpr (hne value)
    obtain ⟨fuel, rfl⟩ : ∃ k, fuel = k + 1 := ⟨fuel - 1, by omega⟩
    have hrest := ih hvalues fuel (by omega)
    rw [flatMap_cons, readManyWithin, hvalue]
    · simp [hrest]
    · simp [hne]

end Sequences

/-- The numbers of a packed field, one after the other. -/
def writePacked (values : List UInt32) : Bytes :=
  values.flatMap fun value => writeVarint value.toNat

/-- The numbers of a packed field. -/
def readPacked : Bytes → Option (List UInt32) :=
  readMany fun input => (readVarint input).map fun (value, rest) => (UInt32.ofNat value, rest)

/-- A packed field is read back. -/
theorem readPacked_writePacked (values : List UInt32) :
    readPacked (writePacked values) = some values := by
  refine readMany_flatMap _ (fun _ => writeVarint_ne_nil _) fun value _ rest => ?_
  have hvalue : value.toNat < 2 ^ 64 := Nat.lt_trans value.toNat_lt (by decide)
  simp [readVarint_writeVarint hvalue]

/-! ## Fields -/

/-- A value of one of the two wire types in use. -/
inductive Value where
  | varint (value : UInt64)
  | bytes (value : Bytes)

/-- A value of the first wire type. -/
@[simp] def Value.varint? : Value → Option UInt64
  | .varint value => some value
  | .bytes _ => none

/-- A value of the second wire type. -/
@[simp] def Value.bytes? : Value → Option Bytes
  | .varint _ => none
  | .bytes value => some value

/-- A numbered value. -/
structure Field where
  number : Nat
  value : Value

/-- A field with its key: number and wire type. -/
def writeField (field : Field) : Bytes :=
  match field.value with
  | .varint value => writeVarint (8 * field.number) ++ writeVarint value.toNat
  | .bytes value =>
    writeVarint (8 * field.number + 2) ++ (writeVarint value.length ++ value)

/-- The fields of a message, one after the other. -/
def writeFields (fields : List Field) : Bytes := fields.flatMap writeField

/-- One field of the two wire types, and the rest. -/
def readField (input : Bytes) : Option (Field × Bytes) := do
  let (key, rest) ← readVarint input
  match key % 8 with
  | 0 =>
    let (value, rest) ← readVarint rest
    some (⟨key / 8, .varint (UInt64.ofNat value)⟩, rest)
  | 2 =>
    let (length, rest) ← readVarint rest
    if rest.length < length then none
    else some (⟨key / 8, .bytes (rest.take length)⟩, rest.drop length)
  | _ => none

/-- The fields of a message. -/
def readFields : Bytes → Option (List Field) := readMany readField

/-- The number and the length are in the ranges of the format. -/
def Field.fits (field : Field) : Prop :=
  field.number < 2 ^ 29 ∧ ∀ value, field.value = .bytes value → value.length < 2 ^ 31

/-- A field that fits is read back. -/
theorem readField_writeField {field : Field} (h : field.fits) (rest : Bytes) :
    readField (writeField field ++ rest) = some (field, rest) := by
  obtain ⟨number, value⟩ := field
  obtain ⟨hnum, hlen⟩ := h
  simp only at hnum
  cases value with
  | varint value =>
    have hvalue := value.toNat_lt
    have hkey : 8 * number % 8 = 0 := by omega
    have hdiv : 8 * number / 8 = number := by omega
    simp [readField, writeField, readVarint_writeVarint (show 8 * number < 2 ^ 64 by omega), hkey,
      readVarint_writeVarint hvalue, hdiv, UInt64.ofNat_toNat]
  | bytes value =>
    have hvalue : value.length < 2 ^ 31 := hlen value rfl
    have hkey : (8 * number + 2) % 8 = 2 := by omega
    have hdiv : (8 * number + 2) / 8 = number := by omega
    have hroom : ¬ (value ++ rest).length < value.length := by simp
    simp only [readField, writeField, append_assoc,
      readVarint_writeVarint (show 8 * number + 2 < 2 ^ 64 by omega), Option.bind_eq_bind,
      Option.bind_some, hkey, readVarint_writeVarint (show value.length < 2 ^ 64 by omega),
      hroom, if_false, hdiv, take_left, drop_left]

/-- A field takes at least one byte. -/
theorem writeField_ne_nil (field : Field) : writeField field ≠ [] := by
  unfold writeField
  split <;> simp [writeVarint_ne_nil]

/-- A message whose fields fit is read back. -/
theorem readFields_writeFields {fields : List Field} (h : ∀ field ∈ fields, field.fits) :
    readFields (writeFields fields) = some fields :=
  readMany_flatMap _ writeField_ne_nil fun field hfield => readField_writeField (h field hfield)

/-- The fields of a message of less than 2 GiB fit. -/
theorem fits_of_length_lt {fields : List Field} (hnum : ∀ field ∈ fields, field.number < 2 ^ 29)
    (h : (writeFields fields).length < 2 ^ 31) : ∀ field ∈ fields, field.fits := by
  intro field hfield
  refine ⟨hnum field hfield, fun value hvalue => ?_⟩
  have hwrite : (writeField field).length ≤ (writeFields fields).length := by
    obtain ⟨before, after, rfl⟩ := append_of_mem hfield
    simp only [writeFields, flatMap_append, flatMap_cons, length_append]
    omega
  have hbytes : value.length ≤ (writeField field).length := by
    simp only [writeField, hvalue, length_append]
    omega
  omega

/-! ## Messages -/

section Messages

variable {α β : Type} [DecidableEq α] {toValue : α → Value} {ofValue : Value → Option β}
  {default : α} {number k : Nat}

/-- A field, left out when it has its default. -/
def singleField (toValue : α → Value) (default : α) (number : Nat) (value : α) : List Field :=
  if value = default then [] else [⟨number, toValue value⟩]

/-- A `uint64` field. -/
abbrev varintField : Nat → UInt64 → List Field := singleField .varint 0

/-- A `bytes` or `string` field. -/
abbrev bytesField : Nat → Bytes → List Field := singleField .bytes []

/-- A repeated `string` field. -/
def repeatedField (number : Nat) (values : List Bytes) : List Field :=
  values.map fun value => ⟨number, .bytes value⟩

/-- All values of a field, of one wire type. -/
def select (ofValue : Value → Option β) (number : Nat) (fields : List Field) : List β :=
  fields.filterMap fun field => if field.number = number then ofValue field.value else none

/-- All strings of a field. -/
abbrev strings : Nat → List Field → List Bytes := select Value.bytes?

/-- The last number of a field, or zero. -/
def lastVarint (number : Nat) (fields : List Field) : UInt64 :=
  (select Value.varint? number fields).getLast?.getD 0

/-- The last string of a field, or the empty one. -/
def lastString (number : Nat) (fields : List Field) : Bytes :=
  (strings number fields).getLast?.getD []

/-- Fields are selected in both parts. -/
@[simp] theorem select_append (xs ys : List Field) :
    select ofValue k (xs ++ ys) = select ofValue k xs ++ select ofValue k ys := by simp [select]

/-- A field holds its value, if it is of the wire type and no default. -/
@[simp] theorem select_singleField (value : α) :
    select ofValue k (singleField toValue default number value) =
      if number = k then (if value = default then [] else (ofValue (toValue value)).toList)
      else [] := by
  unfold singleField select
  by_cases hvalue : value = default
  · simp [hvalue]
  · by_cases hnumber : number = k
    · cases hof : ofValue (toValue value) <;> simp [hvalue, hnumber, hof]
    · simp [hvalue, hnumber]

/-- A repeated field holds all its values. -/
@[simp] theorem select_repeatedField (values : List Bytes) :
    select ofValue k (repeatedField number values) =
      if number = k then values.filterMap fun value => ofValue (.bytes value) else [] := by
  unfold repeatedField select
  rw [filterMap_map]
  split_ifs with h <;> simp [h]

/-- A bound on the number of a field. -/
@[simp] theorem forall_mem_singleField {bound : Nat} {value : α} :
    (∀ field ∈ singleField toValue default number value, field.number < bound) ↔
      value = default ∨ number < bound := by
  unfold singleField
  split_ifs with h <;> simp [h]

/-- A bound on the number of a repeated field. -/
@[simp] theorem forall_mem_repeatedField {bound : Nat} {values : List Bytes} :
    (∀ field ∈ repeatedField number values, field.number < bound) ↔
      values = [] ∨ number < bound := by
  cases values with
  | nil => simp [repeatedField]
  | cons => simpa [repeatedField] using fun h _ _ => h

/-- What is left out is the default. -/
@[simp] theorem getLast?_single (value : α) :
    (if value = default then [] else [value]).getLast?.getD default = value := by
  split_ifs with h <;> simp [h]

end Messages

/-! ## Generated code -/

/-- `SerializeToCodedStream` and `ParseFromArray`. A runtime that checks UTF-8 refuses bad `string`
fields only when parsing. -/
structure Codec (M : Type) where
  serialize : M → Bytes
  parse : Bytes → Option M
  checksUtf8 : Bool

/-- The message is refused for one of its `string` fields. -/
def Codec.refuses {M : Type} (codec : Codec M) (strings : M → List Bytes) (message : M) : Bool :=
  codec.checksUtf8 && !(strings message).all utf8Valid

/-- Parsing inverts serializing, but for size and UTF-8. -/
def Codec.Lawful {M : Type} (codec : Codec M) (strings : M → List Bytes) : Prop :=
  ∀ message, (codec.serialize message).length < 2 ^ 31 → codec.parse (codec.serialize message) =
      if codec.refuses strings message then none else some message

section Reference

variable {M : Type} (fields : M → List Field) (read : Bytes → Option M) (strings : M → List Bytes)

/-- A runtime that checks UTF-8. -/
def Codec.reference : Codec M where
  serialize message := writeFields (fields message)
  parse bytes := (read bytes).filter fun message => (strings message).all utf8Valid
  checksUtf8 := true

/-- A reader that inverts the fields makes a lawful codec. -/
theorem Codec.reference_lawful (h : ∀ message, (writeFields (fields message)).length < 2 ^ 31 →
      read (writeFields (fields message)) = some message) :
    (Codec.reference fields read strings).Lawful strings := by
  intro message hlength
  simp only [Codec.reference, h message hlength, Option.filter_some, Codec.refuses, Bool.true_and]
  cases (strings message).all utf8Valid <;> rfl

end Reference

end BoostGateway.Protobuf
