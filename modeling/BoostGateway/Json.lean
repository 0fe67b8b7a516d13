import BoostGateway.Bytes
import Mathlib.Data.String.Basic

/-!
# JSON documents and the libraries around them

`Json` is a value of `nlohmann::json`, with the fields of an object sorted by key. The JSON library
and the digest of OpenSSL are parameters (`Libraries`), and `Libraries.Lawful` states what the code
relies on.
-/

namespace BoostGateway

open List

/-- A value of `nlohmann::json`, with any bytes in strings. -/
inductive Json where
  | null
  | boolean (value : Bool)
  | unsigned (value : Nat)
  | integer (value : Int)
  | float (text : Bytes)
  | string (value : Bytes)
  | array (items : List Json)
  | object (fields : List (String × Json))

namespace Json

def insertField (key : String) (value : Json) : List (String × Json) → List (String × Json)
  | [] => [(key, value)]
  | (k, v) :: rest =>
    if key = k then (key, value) :: rest
    else if key < k then (key, value) :: (k, v) :: rest
    else (k, v) :: insertField key value rest

def ofFields (fields : List (String × Json)) : Json :=
  .object (fields.foldl (fun acc field => insertField field.1 field.2 acc) [])

def set (document : Json) (key : String) (value : Json) : Json :=
  match document with
  | .object fields => .object (insertField key value fields)
  | other => other

def erase (document : Json) (key : String) : Json :=
  match document with
  | .object fields => .object (fields.filter fun field => field.1 != key)
  | other => other

def fields : Json → List (String × Json)
  | .object fields => fields
  | _ => []

def isObject : Json → Bool
  | .object _ => true
  | _ => false

def field? (document : Json) (key : String) : Option Json := document.fields.lookup key

def contains (document : Json) (key : String) : Bool := (document.field? key).isSome

mutual
def utf8 : Json → Bool
  | .string value => utf8Valid value
  | .array items => utf8Items items
  | .object fields => utf8Fields fields
  | _ => true

def utf8Items : List Json → Bool
  | [] => true
  | item :: rest => item.utf8 && utf8Items rest

def utf8Fields : List (String × Json) → Bool
  | [] => true
  | (_, value) :: rest => value.utf8 && utf8Fields rest
end

def asciiKey (key : String) : Bool := key.toList.all fun c => c.toNat < 128

mutual
/-- The only value with its text: numbers fit their types, keys are ASCII, sorted and different, and
there are no floats. -/
def canonical : Json → Bool
  | .null | .boolean _ | .string _ => true
  | .unsigned value => value < 2 ^ 64
  | .integer value => -2 ^ 63 ≤ value && value < 0
  | .float _ => false
  | .array items => canonicalItems items
  | .object fields => decide ((fields.map Prod.fst).Pairwise (· < ·)) && canonicalFields fields

def canonicalItems : List Json → Bool
  | [] => true
  | item :: rest => item.canonical && canonicalItems rest

def canonicalFields : List (String × Json) → Bool
  | [] => true
  | (key, value) :: rest => asciiKey key && value.canonical && canonicalFields rest
end

/-! ## Objects -/

section Objects

variable {key k : String} {value : Json} {fields : List (String × Json)}
variable {field : String × Json} {items : List Json} {document : Json}

theorem mem_insertField :
    field ∈ insertField key value fields → field = (key, value) ∨ field ∈ fields := by
  induction fields with
  | nil => simp [insertField]
  | cons first rest ih =>
    unfold insertField
    split
    · intro h
      rcases mem_cons.mp h with h | h
      · exact .inl h
      · exact .inr (mem_cons_of_mem _ h)
    split
    · intro h
      exact mem_cons.mp h
    · intro h
      rcases mem_cons.mp h with h | h
      · exact .inr (h ▸ mem_cons_self)
      · exact (ih h).imp_right (mem_cons_of_mem _)

theorem sorted_insertField (h : (fields.map Prod.fst).Pairwise (· < ·)) :
    ((insertField key value fields).map Prod.fst).Pairwise (· < ·) := by
  induction fields with
  | nil => simp [insertField]
  | cons first rest ih =>
    obtain ⟨hlt, hrest⟩ := pairwise_cons.mp h
    unfold insertField
    split
    next heq =>
      subst heq
      exact h
    split
    next hkey =>
      refine pairwise_cons.mpr ⟨fun k hk => ?_, h⟩
      rcases mem_cons.mp hk with rfl | hk
      · exact hkey
      · exact hkey.trans (hlt k hk)
    next hne hkey =>
      refine pairwise_cons.mpr ⟨fun k hk => ?_, ih hrest⟩
      obtain ⟨field, hfield, rfl⟩ := mem_map.mp hk
      rcases mem_insertField hfield with rfl | hfield
      · exact lt_of_le_of_ne (not_lt.mp hkey) (Ne.symm hne)
      · exact hlt _ (mem_map_of_mem hfield)

theorem utf8Fields_iff : utf8Fields fields = true ↔ ∀ field ∈ fields, field.2.utf8 = true := by
  induction fields with
  | nil => simp [utf8Fields]
  | cons field rest ih => simp [utf8Fields, ih]

theorem canonicalFields_iff : canonicalFields fields = true ↔
    ∀ field ∈ fields, asciiKey field.1 = true ∧ field.2.canonical = true := by
  induction fields with
  | nil => simp [canonicalFields]
  | cons field rest ih => simp [canonicalFields, ih, and_assoc]

theorem canonicalItems_iff :
    canonicalItems items = true ↔ ∀ item ∈ items, item.canonical = true := by
  induction items with
  | nil => simp [canonicalItems]
  | cons item rest ih => simp [canonicalItems, ih]

theorem mem_foldl_insertField {new : List (String × Json)}
    (h : field ∈ new.foldl (fun acc field => insertField field.1 field.2 acc) fields) :
    field ∈ fields ∨ field ∈ new := by
  induction new generalizing fields with
  | nil => exact .inl h
  | cons first rest ih =>
    rcases ih h with h | h
    · rcases mem_insertField h with rfl | h
      · exact .inr mem_cons_self
      · exact .inl h
    · exact .inr (mem_cons_of_mem _ h)

theorem sorted_foldl_insertField (new : List (String × Json))
    (h : (fields.map Prod.fst).Pairwise (· < ·)) :
    ((new.foldl (fun acc field => insertField field.1 field.2 acc) fields).map
      Prod.fst).Pairwise (· < ·) := by
  induction new generalizing fields with
  | nil => exact h
  | cons first rest ih => exact ih (sorted_insertField h)

theorem utf8_ofFields (h : ∀ field ∈ fields, field.2.utf8 = true) :
    (ofFields fields).utf8 = true := by
  refine utf8Fields_iff.mpr fun field hfield => ?_
  rcases mem_foldl_insertField hfield with hnil | hfield
  · cases hnil
  · exact h field hfield

theorem canonical_ofFields (hkeys : (fields.map Prod.fst).all asciiKey = true)
    (hvalues : ∀ field ∈ fields, field.2.canonical = true) :
    (ofFields fields).canonical = true := by
  refine Bool.and_eq_true_iff.mpr ⟨decide_eq_true (sorted_foldl_insertField _ .nil), ?_⟩
  refine canonicalFields_iff.mpr fun field hfield => ?_
  rcases mem_foldl_insertField hfield with hnil | hfield
  · cases hnil
  · exact ⟨all_eq_true.mp hkeys _ (mem_map_of_mem hfield), hvalues field hfield⟩

theorem utf8_set (h : document.utf8 = true) (hvalue : value.utf8 = true) :
    (document.set key value).utf8 = true := by
  cases document with
  | object =>
    refine utf8Fields_iff.mpr fun field hfield => ?_
    rcases mem_insertField hfield with rfl | hfield
    · exact hvalue
    · exact utf8Fields_iff.mp h field hfield
  | _ => exact h

theorem canonical_set (h : document.canonical = true) (hkey : asciiKey key = true)
    (hvalue : value.canonical = true) : (document.set key value).canonical = true := by
  cases document with
  | object =>
    obtain ⟨hsort, hfields⟩ := Bool.and_eq_true_iff.mp h
    refine Bool.and_eq_true_iff.mpr
      ⟨decide_eq_true (sorted_insertField (of_decide_eq_true hsort)), ?_⟩
    refine canonicalFields_iff.mpr fun field hfield => ?_
    rcases mem_insertField hfield with rfl | hfield
    · exact ⟨hkey, hvalue⟩
    · exact canonicalFields_iff.mp hfields field hfield
  | _ => exact h

end Objects

/-! ## Text -/

/-- One byte of a string as `dump` writes it. -/
def escapeByte (b : UInt8) : Bytes :=
  if b = 8 then ascii "\\b"
  else if b = 9 then ascii "\\t"
  else if b = 10 then ascii "\\n"
  else if b = 12 then ascii "\\f"
  else if b = 13 then ascii "\\r"
  else if b = 34 then ascii "\\\""
  else if b = 92 then ascii "\\\\"
  else if b < 32 then ascii "\\u00" ++ hexByte b
  else [b]

def quote (value : Bytes) : Bytes := [34] ++ value.flatMap escapeByte ++ [34]

mutual
def text : Json → Bytes
  | .null => ascii "null"
  | .boolean value => ascii (if value then "true" else "false")
  | .unsigned value => decimal value
  | .integer value => (if value < 0 then [45] else []) ++ decimal value.natAbs
  | .float text => text
  | .string value => quote value
  | .array items => [91] ++ textItems items ++ [93]
  | .object fields => [123] ++ textFields fields ++ [125]

def textItems : List Json → Bytes
  | [] => []
  | [item] => item.text
  | item :: rest => item.text ++ [44] ++ textItems rest

def textFields : List (String × Json) → Bytes
  | [] => []
  | [(key, value)] => quote (ascii key) ++ [58] ++ value.text
  | (key, value) :: rest => quote (ascii key) ++ [58] ++ value.text ++ [44] ++ textFields rest
end

end Json

/-- The third-party functions, with the messages of failures. -/
structure Libraries where
  /-- `nlohmann::json::dump` with its default arguments. -/
  dump : Json → Except String Bytes
  /-- `nlohmann::json::parse`. -/
  parse : Bytes → Except String Json
  /-- The SHA-256 digest computed by OpenSSL. -/
  sha256 : Bytes → Bytes

/-- `dump` throws exactly on bad UTF-8, `parse` reads back what it writes, and a digest has 32
bytes. -/
structure Libraries.Lawful (lib : Libraries) : Prop where
  dump_ok_iff : ∀ document, (∃ bytes, lib.dump document = .ok bytes) ↔ document.utf8 = true
  parse_dump : ∀ document bytes, document.canonical = true → lib.dump document = .ok bytes →
    lib.parse bytes = .ok document
  sha256_length : ∀ bytes, (lib.sha256 bytes).length = 32

/-! ## Documents of mixed numbers

`nlohmann::json` writes `5` for a signed and an unsigned five alike and reads it as unsigned.
`readBack` is the document that is read for the text of another one. -/

/-- `dump` writes the compact text. -/
def Libraries.WritesText (lib : Libraries) : Prop :=
  ∀ document bytes, lib.dump document = .ok bytes → bytes = document.text

namespace Json

def readBackNumber : Json → Json
  | .integer value => if 0 ≤ value then .unsigned value.toNat else .integer value
  | other => other

def readBackFields (fields : List (String × Json)) : List (String × Json) :=
  fields.map fun field => (field.1, field.2.readBackNumber)

theorem text_readBackNumber (value : Json) : value.readBackNumber.text = value.text := by
  cases value with
  | integer value =>
    by_cases h : 0 ≤ value
    · have hneg : ¬ value < 0 := by omega
      have habs : value.toNat = value.natAbs := by omega
      simp [readBackNumber, text, h, hneg, habs]
    · simp [readBackNumber, h]
  | _ => rfl

theorem utf8_readBackNumber (value : Json) : value.readBackNumber.utf8 = value.utf8 := by
  cases value with
  | integer value =>
    by_cases h : 0 ≤ value <;> simp [readBackNumber, utf8, h]
  | _ => rfl

theorem textFields_readBackFields (fields : List (String × Json)) :
    textFields (readBackFields fields) = textFields fields := by
  induction fields with
  | nil => rfl
  | cons field fields ih =>
    cases fields with
    | nil => simp [readBackFields, textFields, text_readBackNumber]
    | cons =>
      simp only [readBackFields, map_cons, textFields, text_readBackNumber] at ih ⊢
      rw [ih]

theorem utf8Fields_readBackFields (fields : List (String × Json)) :
    utf8Fields (readBackFields fields) = utf8Fields fields := by
  induction fields with
  | nil => rfl
  | cons field fields ih =>
    simp only [readBackFields, map_cons, utf8Fields, utf8_readBackNumber] at ih ⊢
    rw [ih]

theorem canonical_readBackFields {fields : List (String × Json)}
    (hsort : (fields.map Prod.fst).Pairwise (· < ·))
    (hfields : ∀ field ∈ fields,
      asciiKey field.1 = true ∧ field.2.readBackNumber.canonical = true) :
    (object (readBackFields fields)).canonical = true := by
  have hkeys : (readBackFields fields).map Prod.fst = fields.map Prod.fst := by
    simp [readBackFields]
  refine Bool.and_eq_true_iff.mpr ⟨decide_eq_true (hkeys ▸ hsort), ?_⟩
  refine canonicalFields_iff.mpr fun field hfield => ?_
  obtain ⟨original, horiginal, rfl⟩ := mem_map.mp hfield
  exact hfields original horiginal

theorem canonical_readBack_ofFields {new fields : List (String × Json)}
    (h : ofFields new = .object fields) (hkeys : (new.map Prod.fst).all asciiKey = true)
    (hvalues : ∀ field ∈ new, field.2.readBackNumber.canonical = true) :
    (object (readBackFields fields)).canonical = true := by
  cases h
  refine canonical_readBackFields (sorted_foldl_insertField _ .nil) fun field hfield => ?_
  rcases mem_foldl_insertField hfield with hnil | hfield
  · cases hnil
  · exact ⟨all_eq_true.mp hkeys _ (mem_map_of_mem hfield), hvalues field hfield⟩

end Json

section Libraries

variable {lib : Libraries} {fields : List (String × Json)} {bytes : Bytes}

theorem parse_dump_object (hlib : lib.Lawful) (htext : lib.WritesText)
    (hcan : (Json.object (Json.readBackFields fields)).canonical = true)
    (hdump : lib.dump (.object fields) = .ok bytes) :
    lib.parse bytes = .ok (.object (Json.readBackFields fields)) := by
  have hutf8 : (Json.object (Json.readBackFields fields)).utf8 = true := by
    rw [Json.utf8, Json.utf8Fields_readBackFields, ← Json.utf8]
    exact (hlib.dump_ok_iff _).mp ⟨bytes, hdump⟩
  obtain ⟨back, hback⟩ := (hlib.dump_ok_iff _).mpr hutf8
  have hsame : back = bytes := by
    rw [htext _ _ hback, htext _ _ hdump, Json.text, Json.text, Json.textFields_readBackFields]
  exact hsame ▸ hlib.parse_dump _ _ hcan hback

theorem exists_text_object (fields : List (String × Json)) :
    ∃ rest, (Json.object fields).text = 123 :: rest :=
  ⟨Json.textFields fields ++ [125], by simp [Json.text]⟩

end Libraries

/-! ## Fields -/

namespace Json

def unsigned? : Json → Option Nat
  | .unsigned value => some value
  | _ => none

def string? : Json → Option Bytes
  | .string value => some value
  | _ => none

def boolean? : Json → Option Bool
  | .boolean value => some value
  | _ => none

def integer? : Json → Option Int
  | .unsigned value => some value
  | .integer value => some value
  | _ => none

def array? : Json → Option (List Json)
  | .array items => some items
  | _ => none

end Json

/-- A `std::invalid_argument`, or one of the JSON library. -/
inductive CodecException where
  | invalidArgument (what : String)
  | json (what : String)
  deriving DecidableEq

def CodecException.what : CodecException → String
  | .invalidArgument what => what
  | .json what => what

/-- `document.at(key)`, and the check of its type. -/
def required {α : Type} (error : String → CodecException) (read : Json → Option α)
    (expected : String) (document : Json) (key : String) : Except CodecException α :=
  match document.field? key with
  | none => .error (.json ("[json.exception.out_of_range.403] key '" ++ key ++ "' not found"))
  | some field =>
    match read field with
    | some value => .ok value
    | none => .error (error (key ++ " must be " ++ expected))

/-- The document is an object with these keys and no others. -/
def exactKeys (error : String → CodecException) (name : String) (document : Json)
    (keys : List String) : Except CodecException Unit :=
  if !document.isObject || document.fields.length ≠ keys.length then
    .error (error (name ++ " contains missing or unknown fields"))
  else
    match keys.find? fun key => !document.contains key with
    | some key => .error (error (name ++ " is missing " ++ key))
    | none => .ok ()

def dumped (lib : Libraries) (document : Json) : Except CodecException Bytes :=
  (lib.dump document).mapError .json

section Fields

variable {α : Type} {error : String → CodecException} {read : Json → Option α}
  {expected name key : String} {document field : Json} {keys : List String} {value : α}

theorem required_of_field (hfield : document.field? key = some field)
    (hread : read field = some value) : required error read expected document key = .ok value := by
  simp [required, hfield, hread]

theorem required_ok_iff : required error read expected document key = .ok value ↔
    ∃ field, document.field? key = some field ∧ read field = some value := by
  unfold required
  cases document.field? key with
  | none => simp
  | some field => cases h : read field <;> simp [h]

theorem dumped_ok_iff {lib : Libraries} {bytes : Bytes} :
    dumped lib document = .ok bytes ↔ lib.dump document = .ok bytes := by
  unfold dumped
  cases lib.dump document <;> simp [Except.mapError]

end Fields

end BoostGateway
