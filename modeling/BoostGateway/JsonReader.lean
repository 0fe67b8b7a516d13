import BoostGateway.Json

/-!
# Reading JSON back

A reader for the compact text that `Json.text` writes. Together they make a JSON library that can
be evaluated: `readDocument_text` says that every canonical document whose strings are UTF-8 is
read back from its text.
-/

namespace BoostGateway.Json

open List

/-! ## Strings -/

def hexValue (b : UInt8) : Nat :=
  if b < 58 then b.toNat - 48 else b.toNat - 87

def unescape (b : UInt8) : Option UInt8 :=
  if b = 98 then some 8
  else if b = 116 then some 9
  else if b = 110 then some 10
  else if b = 102 then some 12
  else if b = 114 then some 13
  else if b = 34 ∨ b = 92 ∨ b = 47 then some b
  else none

/-- The rest of a string after its opening quote. -/
def readString : Bytes → Option (Bytes × Bytes)
  | [] => none
  | b :: rest =>
    if b = 34 then some ([], rest)
    else if b ≠ 92 then (readString rest).map fun (value, rest) => (b :: value, rest)
    else match rest with
      | [] => none
      | c :: rest =>
        if c ≠ 117 then
          (unescape c).bind fun b =>
            (readString rest).map fun (value, rest) => (b :: value, rest)
        else match rest with
          | _ :: _ :: hi :: lo :: rest =>
            (readString rest).map fun (value, rest) =>
              ((hexValue hi * 16 + hexValue lo).toUInt8 :: value, rest)
          | _ => none

variable {n : Nat} {b : UInt8} {key : String} {rest : Bytes}

theorem hexValue_hexDigit (h : n < 16) : hexValue (hexDigit n) = n := by
  have hall : ∀ n < 16, hexValue (hexDigit n) = n := by decide
  exact hall n h

theorem readString_quote (rest : Bytes) : readString (34 :: rest) = some ([], rest) := by
  rw [readString.eq_def]
  simp

theorem readString_plain (hquote : b ≠ 34) (hslash : b ≠ 92) (rest : Bytes) :
    readString (b :: rest) = (readString rest).map fun (value, rest) => (b :: value, rest) := by
  rw [readString.eq_def]
  simp [hquote, hslash]

theorem readString_escape {c : UInt8} (hc : c ≠ 117) (hb : unescape c = some b) (rest : Bytes) :
    readString (92 :: c :: rest) =
      (readString rest).map fun (value, rest) => (b :: value, rest) := by
  rw [readString.eq_def]
  simp [hc, hb]

theorem readString_code (hi lo : UInt8) (rest : Bytes) :
    readString (92 :: 117 :: 48 :: 48 :: hi :: lo :: rest) =
      (readString rest).map fun (value, rest) =>
        ((hexValue hi * 16 + hexValue lo).toUInt8 :: value, rest) := by
  rw [readString.eq_def]
  simp

theorem readString_escapeByte (b : UInt8) (tail : Bytes) : readString (escapeByte b ++ tail) =
      (readString tail).map fun (value, rest) => (b :: value, rest) := by
  have hescape {text : String} (c : UInt8) (htext : ascii text = [92, c] ∧ c ≠ 117)
      (hb : unescape c = some b) : readString (ascii text ++ tail) =
        (readString tail).map fun (value, rest) => (b :: value, rest) := by
    rw [htext.1]
    exact readString_escape htext.2 hb tail
  unfold escapeByte
  split
  next h => exact hescape 98 (by decide) (by simp [h, unescape])
  split
  next h => exact hescape 116 (by decide) (by simp [h, unescape])
  split
  next h => exact hescape 110 (by decide) (by simp [h, unescape])
  split
  next h => exact hescape 102 (by decide) (by simp [h, unescape])
  split
  next h => exact hescape 114 (by decide) (by simp [h, unescape])
  split
  next h => exact hescape 34 (by decide) (by simp [h, unescape])
  split
  next h => exact hescape 92 (by decide) (by simp [h, unescape])
  split
  · have hhi : b.toNat / 16 < 16 := by
      have := b.toNat_lt
      omega
    have hbyte : (hexValue (hexDigit (b.toNat / 16)) * 16 +
        hexValue (hexDigit (b.toNat % 16))).toUInt8 = b := by
      rw [hexValue_hexDigit hhi, hexValue_hexDigit (Nat.mod_lt _ (by decide)),
        Nat.div_add_mod' b.toNat 16]
      simp
    have htext : ascii "\\u00" = [92, 117, 48, 48] := by decide
    exact (readString_code _ _ tail).trans (by rw [hbyte])
  next hquote hslash _ => exact readString_plain hquote hslash tail

theorem readString_flatMap (value rest : Bytes) :
    readString (value.flatMap escapeByte ++ 34 :: rest) = some (value, rest) := by
  induction value with
  | nil => exact readString_quote rest
  | cons b value ih => rw [flatMap_cons, append_assoc, readString_escapeByte, ih]; rfl

/-! ## Keys and numbers -/

def keyOf (bytes : Bytes) : String := String.ofList (bytes.map fun b => Char.ofNat b.toNat)

theorem ascii_eq_map (h : asciiKey key = true) :
    ascii key = key.toList.map fun c => c.toNat.toUInt8 := by
  obtain ⟨chars, rfl⟩ := String.exists_eq_ofList key
  have hbytes : ascii (String.ofList chars) = chars.flatMap String.utf8EncodeChar := by
    simp [ascii, List.utf8Encode]
  rw [hbytes, String.toList_ofList]
  rw [asciiKey, String.toList_ofList] at h
  clear hbytes
  induction chars with
  | nil => rfl
  | cons c chars ih =>
    obtain ⟨hc, hchars⟩ := Bool.and_eq_true_iff.mp h
    have hsize : c.utf8Size = 1 := by
      have hlt : c.val.toNat < 128 := of_decide_eq_true hc
      exact Char.utf8Size_eq_one_iff.mpr (UInt32.le_iff_toNat_le.mpr (Nat.le_of_lt_succ hlt))
    rw [flatMap_cons, String.utf8EncodeChar_eq_singleton hsize, ih hchars]
    rfl

theorem keyOf_ascii (h : asciiKey key = true) : keyOf (ascii key) = key := by
  rw [ascii_eq_map h, keyOf, map_map]
  conv_rhs => rw [← String.ofList_toList (s := key), ← map_id key.toList]
  congr 1
  refine map_congr_left fun c hc => ?_
  have hlt := of_decide_eq_true (all_eq_true.mp h c hc)
  simp only [Function.comp_apply, id]
  rw [show c.toNat.toUInt8.toNat = c.toNat by simp; omega]
  exact Char.ofNat_toNat c

def isDigit (b : UInt8) : Bool := 48 ≤ b && b ≤ 57

def digitsValue (digits : Bytes) : Nat :=
  digits.foldl (fun value b => 10 * value + (b.toNat - 48)) 0

def numberOf (negative : Bool) (n : Nat) : Option Json :=
  if negative then if 0 < n ∧ n ≤ 2 ^ 63 then some (.integer (-n)) else none
  else if n < 2 ^ 64 then some (.unsigned n) else none

def readNumber (input : Bytes) : Option (Json × Bytes) :=
  let negative := input.head? = some 45
  let body := if negative then input.tail else input
  let digits := body.takeWhile isDigit
  if digits.isEmpty then none
  else (numberOf negative (digitsValue digits)).map fun value => (value, body.dropWhile isDigit)

theorem toNat_of_mem_toDigits {c : Char} (h : c ∈ Nat.toDigits 10 n) :
    48 ≤ c.toNat ∧ c.toNat ≤ 57 ∧ c.toNat.toUInt8.toNat = c.toNat := by
  have hdigit := Nat.isDigit_of_mem_toDigits (by decide) (by decide) h
  simp only [Char.isDigit, Bool.and_eq_true, decide_eq_true_eq] at hdigit
  have hlow : 48 ≤ c.toNat := UInt32.le_iff_toNat_le.mp hdigit.1
  have hhigh : c.toNat ≤ 57 := UInt32.le_iff_toNat_le.mp hdigit.2
  simp only [UInt8.toNat_ofNat']
  omega

theorem isDigit_of_mem_decimal (h : b ∈ decimal n) : isDigit b = true := by
  obtain ⟨c, hc, rfl⟩ := mem_map.mp h
  obtain ⟨hlow, hhigh, heq⟩ := toNat_of_mem_toDigits hc
  simp only [isDigit, Bool.and_eq_true, decide_eq_true_eq, UInt8.le_iff_toNat_le, heq]
  exact ⟨hlow, hhigh⟩

theorem digitsValue_decimal (n : Nat) : digitsValue (decimal n) = n := by
  have hfold : ∀ (digits : List Char) (value : Nat),
      (∀ c ∈ digits, c.toNat.toUInt8.toNat = c.toNat) →
      (digits.map fun digit => digit.toNat.toUInt8).foldl
        (fun value b => 10 * value + (b.toNat - 48)) value = Nat.ofDigitChars 10 digits value := by
    intro digits
    induction digits with
    | nil => intro value _; rfl
    | cons c digits ih =>
      intro value h
      rw [map_cons, foldl_cons, h c mem_cons_self, Nat.ofDigitChars_cons]
      exact ih _ fun c hc => h c (mem_cons_of_mem _ hc)
  rw [digitsValue, decimal, hfold _ _ fun c hc => (toNat_of_mem_toDigits hc).2.2]
  exact Nat.ofDigitChars_ten_toDigits

def Delimited (rest : Bytes) : Prop := ∀ b, rest.head? = some b → isDigit b = false

theorem readDigits_decimal (n : Nat) (h : Delimited rest) :
    (decimal n ++ rest).takeWhile isDigit = decimal n ∧
      (decimal n ++ rest).dropWhile isDigit = rest := by
  have hall : ∀ b ∈ decimal n, isDigit b = true := fun b hb => isDigit_of_mem_decimal hb
  have hrest : rest.takeWhile isDigit = [] ∧ rest.dropWhile isDigit = rest := by
    cases rest with
    | nil => exact ⟨rfl, rfl⟩
    | cons b => simp [h b rfl]
  rw [takeWhile_append_of_pos hall, dropWhile_append_of_pos hall, hrest.1, hrest.2]
  simp

theorem decimal_ne_nil (n : Nat) : decimal n ≠ [] := by simp [decimal, Nat.toDigits_ne_nil]

theorem exists_decimal_eq (n : Nat) : ∃ b rest, decimal n = b :: rest ∧ isDigit b = true := by
  obtain ⟨b, rest, heq⟩ := exists_cons_of_ne_nil (decimal_ne_nil n)
  exact ⟨b, rest, heq, isDigit_of_mem_decimal (heq ▸ mem_cons_self)⟩

theorem readNumber_unsigned (hn : n < 2 ^ 64) (h : Delimited rest) :
    readNumber (decimal n ++ rest) = some (.unsigned n, rest) := by
  obtain ⟨htake, hdrop⟩ := readDigits_decimal n h
  have hhead : (decimal n ++ rest).head? ≠ some 45 := by
    obtain ⟨b, digits, heq, hdigit⟩ := exists_decimal_eq n
    rw [heq]
    rintro hb
    cases hb
    exact absurd hdigit (by decide)
  have hnum : numberOf false n = some (.unsigned n) := by
    rw [numberOf, if_neg (by decide), if_pos hn]
  simp only [readNumber, if_neg hhead, decide_eq_false hhead, htake, hdrop, digitsValue_decimal,
    hnum]
  simp [decimal_ne_nil]

theorem readNumber_integer {n : Int} (hlow : -2 ^ 63 ≤ n) (hneg : n < 0) (h : Delimited rest) :
    readNumber (45 :: decimal n.natAbs ++ rest) = some (.integer n, rest) := by
  obtain ⟨htake, hdrop⟩ := readDigits_decimal n.natAbs h
  have hrange : 0 < n.natAbs ∧ n.natAbs ≤ 2 ^ 63 := by omega
  have habs : -(n.natAbs : Int) = n := by omega
  have hnum : numberOf true n.natAbs = some (.integer n) := by
    rw [numberOf, if_pos rfl, if_pos hrange, habs]
  simp [readNumber, htake, hdrop, decimal_ne_nil, digitsValue_decimal, hnum]

/-! ## Values -/

def readLiteral (input : Bytes) : Option (Json × Bytes) :=
  if ascii "null" <+: input then some (.null, input.drop 4)
  else if ascii "true" <+: input then some (.boolean true, input.drop 4)
  else if ascii "false" <+: input then some (.boolean false, input.drop 5)
  else none

def readQuoted (input : Bytes) : Option (Bytes × Bytes) :=
  if input.head? = some 34 then
    (readString input.tail).filter fun (value, _) => utf8Valid value
  else none

mutual
/-- A value, read with at most `fuel` nested calls. -/
def readValue : Nat → Bytes → Option (Json × Bytes)
  | 0, _ => none
  | fuel + 1, input =>
    if input.head? = some 34 then
      (readQuoted input).map fun (value, rest) => (.string value, rest)
    else if input.head? = some 91 then
      if input.tail.head? = some 93 then some (.array [], input.tail.tail)
      else (readItems fuel input.tail).map fun (items, rest) => (.array items, rest)
    else if input.head? = some 123 then
      if input.tail.head? = some 125 then some (.object [], input.tail.tail)
      else (readFields fuel input.tail).map fun (fields, rest) => (.ofFields fields, rest)
    else (readLiteral input).or (readNumber input)

/-- The items of an array with its closing bracket. -/
def readItems : Nat → Bytes → Option (List Json × Bytes)
  | 0, _ => none
  | fuel + 1, input =>
    (readValue fuel input).bind fun (item, rest) =>
      if rest.head? = some 93 then some ([item], rest.tail)
      else if rest.head? = some 44 then
        (readItems fuel rest.tail).map fun (items, rest) => (item :: items, rest)
      else none

/-- The fields of an object with its closing brace. -/
def readFields : Nat → Bytes → Option (List (String × Json) × Bytes)
  | 0, _ => none
  | fuel + 1, input =>
    (readQuoted input).bind fun (key, rest) =>
      if rest.head? = some 58 then
        (readValue fuel rest.tail).bind fun (value, rest) =>
          if rest.head? = some 125 then some ([(keyOf key, value)], rest.tail)
          else if rest.head? = some 44 then
            (readFields fuel rest.tail).map fun (fields, rest) =>
              ((keyOf key, value) :: fields, rest)
          else none
      else none
end

def readDocument (input : Bytes) : Option Json :=
  match readValue input.length input with
  | some (document, []) => some document
  | _ => none

theorem readQuoted_quote {value : Bytes} (h : utf8Valid value = true) (rest : Bytes) :
    readQuoted (quote value ++ rest) = some (value, rest) := by
  simp [readQuoted, quote, readString_flatMap, h]

/-- The first byte opens the value. -/
theorem text_head {value : Json} (h : value.canonical = true) :
    ∃ b rest, value.text = b :: rest ∧ b ≠ 93 ∧ b ≠ 125 := by
  have hdigit : ∀ n, ∃ b rest, decimal n = b :: rest ∧ b ≠ 93 ∧ b ≠ 125 := by
    intro n
    obtain ⟨b, rest, heq, hb⟩ := exists_decimal_eq n
    refine ⟨b, rest, heq, ?_, ?_⟩ <;>
    · rintro rfl
      exact absurd hb (by decide)
  cases value with
  | null => exact ⟨110, ascii "ull", by decide, by decide, by decide⟩
  | boolean value =>
    cases value with
    | false => exact ⟨102, ascii "alse", by decide, by decide, by decide⟩
    | true => exact ⟨116, ascii "rue", by decide, by decide, by decide⟩
  | unsigned n => exact hdigit n
  | integer n =>
    simp only [canonical, Bool.and_eq_true, decide_eq_true_eq] at h
    exact ⟨45, decimal n.natAbs, by rw [text, if_pos h.2]; rfl, by decide, by decide⟩
  | float => cases h
  | string => exact ⟨34, _, rfl, by decide, by decide⟩
  | array => exact ⟨91, _, rfl, by decide, by decide⟩
  | object => exact ⟨123, _, rfl, by decide, by decide⟩

theorem foldl_insertField_of_sorted {acc fields : List (String × Json)}
    (h : ((acc ++ fields).map Prod.fst).Pairwise (· < ·)) :
    fields.foldl (fun acc field => insertField field.1 field.2 acc) acc = acc ++ fields := by
  have hlast : ∀ {acc : List (String × Json)} {key : String} {value : Json},
      (∀ field ∈ acc, field.1 < key) → insertField key value acc = acc ++ [(key, value)] := by
    intro acc key value hacc
    induction acc with
    | nil => rfl
    | cons field acc ih =>
      obtain ⟨hfirst, hacc⟩ := forall_mem_cons.mp hacc
      rw [insertField, if_neg hfirst.ne', if_neg hfirst.not_gt, ih hacc]
      rfl
  induction fields generalizing acc with
  | nil => simp
  | cons field fields ih =>
    have hsplit : acc ++ field :: fields = (acc ++ [field]) ++ fields := by simp
    rw [foldl_cons, hlast, ih (hsplit ▸ h), ← hsplit]
    intro other hother
    rw [map_append] at h
    exact (pairwise_append.mp h).2.2 _ (mem_map_of_mem hother) _ (by simp)

theorem delimited_cons (h : isDigit b = false) (rest : Bytes) : Delimited (b :: rest) := by
  intro b' hb'
  cases hb'
  exact h

theorem ascii_literals : ascii "null" = [110, 117, 108, 108] ∧
    ascii "true" = [116, 114, 117, 101] ∧ ascii "false" = [102, 97, 108, 115, 101] := by decide

theorem readValue_literal {value : Json} (h : value = .null ∨ ∃ b, value = .boolean b) (fuel : Nat)
    (rest : Bytes) : readValue (fuel + 1) (value.text ++ rest) = some (value, rest) := by
  obtain ⟨hnull, htrue, hfalse⟩ := ascii_literals
  rcases h with rfl | ⟨b, rfl⟩
  · simp [readValue, readLiteral, text, hnull]
  · cases b <;> simp [readValue, readLiteral, text, hnull, htrue, hfalse]

theorem readValue_number {input : Bytes} (hb : b = 45 ∨ isDigit b = true) (fuel : Nat) :
    readValue (fuel + 1) (b :: input) = readNumber (b :: input) := by
  -- the byte starts no string, array, object or literal
  have hmarks : ∀ mark ∈ [34, 91, 123, 110, 116, 102], ¬(mark = 45 ∨ isDigit mark = true) := by
    simp [isDigit]
  have hne : ∀ mark ∈ [34, 91, 123, 110, 116, 102], mark ≠ b :=
    fun mark hmark heq => hmarks mark hmark (heq ▸ hb)
  obtain ⟨hnull, htrue, hfalse⟩ := ascii_literals
  simp [readValue, readLiteral, hnull, htrue, hfalse, hne, Ne.symm]

theorem textItems_cons (item : Json) (items : List Json) : textItems (item :: items) =
      item.text ++ (if items.isEmpty then [] else 44 :: textItems items) := by
  cases items <;> simp [textItems]

theorem textFields_cons (key : String) (value : Json) (fields : List (String × Json)) :
    textFields ((key, value) :: fields) = quote (ascii key) ++ 58 :: (value.text ++
        (if fields.isEmpty then [] else 44 :: textFields fields)) := by
  cases fields <;> simp [textFields]

theorem utf8Valid_ascii (h : asciiKey key = true) : utf8Valid (ascii key) = true := by
  refine utf8Valid_of_lt fun b hb => ?_
  rw [ascii_eq_map h] at hb
  obtain ⟨c, hc, rfl⟩ := mem_map.mp hb
  have hlt := of_decide_eq_true (all_eq_true.mp h c hc)
  rw [UInt8.lt_iff_toNat_lt]
  exact Nat.lt_of_le_of_lt (Nat.mod_le _ _) hlt

mutual
/-- A canonical value is read back from its text. -/
theorem readValue_text (value : Json) {fuel : Nat} {rest : Bytes}
    (hcanonical : value.canonical = true) (hutf8 : value.utf8 = true) (hrest : Delimited rest)
    (hfuel : value.text.length ≤ fuel) :
    readValue fuel (value.text ++ rest) = some (value, rest) := by
  obtain ⟨first, _, hfirst, _⟩ := text_head hcanonical
  obtain ⟨fuel, rfl⟩ : ∃ n, fuel = n + 1 := by
    rw [hfirst, length_cons] at hfuel
    exact ⟨fuel - 1, by omega⟩
  match value, hcanonical, hutf8, hfuel with
  | .null, _, _, _ => exact readValue_literal (.inl rfl) fuel rest
  | .boolean b, _, _, _ => exact readValue_literal (.inr ⟨b, rfl⟩) fuel rest
  | .unsigned n, hcanonical, _, _ =>
    have hread := readNumber_unsigned (of_decide_eq_true hcanonical) hrest
    obtain ⟨b, digits, heq, hb⟩ := exists_decimal_eq n
    rw [text]
    rw [heq, cons_append] at hread ⊢
    rw [readValue_number (.inr hb), hread]
  | .integer n, hcanonical, _, _ =>
    simp only [canonical, Bool.and_eq_true, decide_eq_true_eq] at hcanonical
    have hread := readNumber_integer hcanonical.1 hcanonical.2 hrest
    rw [text, if_pos hcanonical.2]
    exact (readValue_number (.inl rfl) fuel).trans hread
  | .float _, hcanonical, _, _ => cases hcanonical
  | .string value, _, hutf8, _ =>
    have hread := readQuoted_quote hutf8 rest
    rw [text]
    rw [readValue, if_pos (by rfl), hread]
    rfl
  | .array [], _, _, _ => rfl
  | .array (item :: items), hcanonical, hutf8, hfuel =>
    have hlength : (textItems (item :: items)).length + 1 ≤ fuel := by
      simp only [text, length_append, length_cons, length_nil] at hfuel
      omega
    have hread : readItems fuel (textItems (item :: items) ++ 93 :: rest) = _ :=
      readItems_text (item :: items) (by simp) hcanonical hutf8 hlength
    have hhead : (textItems (item :: items) ++ 93 :: rest).head? ≠ some 93 := by
      obtain ⟨b, tail, hb, hne, _⟩ := text_head (Bool.and_eq_true_iff.mp hcanonical).1
      rw [textItems_cons, hb]
      simpa using hne
    have hinput : (Json.array (item :: items)).text ++ rest =
        91 :: (textItems (item :: items) ++ 93 :: rest) := by simp [text]
    rw [hinput, readValue, if_neg (by simp), if_pos (by rfl), tail_cons, if_neg hhead, hread]
    rfl
  | .object [], _, _, _ => rfl
  | .object (field :: fields), hcanonical, hutf8, hfuel =>
    obtain ⟨hsorted, hcanonical⟩ := Bool.and_eq_true_iff.mp hcanonical
    have hlength : (textFields (field :: fields)).length + 1 ≤ fuel := by
      simp only [text, length_append, length_cons, length_nil] at hfuel
      omega
    have hread : readFields fuel (textFields (field :: fields) ++ 125 :: rest) = _ :=
      readFields_text (field :: fields) (by simp) hcanonical hutf8 hlength
    have hhead : (textFields (field :: fields) ++ 125 :: rest).head? ≠ some 125 := by
      rw [textFields_cons]
      simp [quote]
    have hinput : (Json.object (field :: fields)).text ++ rest =
        123 :: (textFields (field :: fields) ++ 125 :: rest) := by simp [text]
    have hfields : ofFields (field :: fields) = .object (field :: fields) :=
      congrArg Json.object (foldl_insertField_of_sorted (of_decide_eq_true hsorted))
    rw [hinput, readValue, if_neg (by simp), if_neg (by simp), if_pos (by rfl), tail_cons,
      if_neg hhead, hread, Option.map_some]
    dsimp only
    rw [hfields]

theorem readItems_text (items : List Json) {fuel : Nat} {rest : Bytes} (hne : items ≠ [])
    (hcan : canonicalItems items = true) (hutf8 : utf8Items items = true)
    (hfuel : (textItems items).length + 1 ≤ fuel) :
    readItems fuel (textItems items ++ 93 :: rest) = some (items, rest) := by
  match items, hne, hcan, hutf8, hfuel with
  | item :: items, _, hcan, hutf8, hfuel =>
    obtain ⟨fuel, rfl⟩ : ∃ n, fuel = n + 1 := ⟨fuel - 1, by omega⟩
    obtain ⟨hitem, hitems⟩ := Bool.and_eq_true_iff.mp hcan
    obtain ⟨hitem8, hitems8⟩ := Bool.and_eq_true_iff.mp hutf8
    rw [textItems_cons, length_append] at hfuel
    rw [textItems_cons, append_assoc, readItems]
    cases items with
    | nil =>
      have hvalue : readValue fuel (item.text ++ 93 :: rest) = _ :=
        readValue_text item hitem hitem8 (delimited_cons (by decide) rest) (by omega)
      simp [hvalue]
    | cons next items =>
      simp only [isEmpty_cons, Bool.false_eq_true, if_false, length_cons] at hfuel ⊢
      have hvalue : readValue fuel (item.text ++ 44 :: (textItems (next :: items) ++
          93 :: rest)) = _ :=
        readValue_text item hitem hitem8 (delimited_cons (by decide) _) (by omega)
      have hread : readItems fuel (textItems (next :: items) ++ 93 :: rest) = _ :=
        readItems_text (next :: items) (by simp) hitems hitems8 (by omega)
      simp [hvalue, hread]

theorem readFields_text (fields : List (String × Json)) {fuel : Nat} {rest : Bytes}
    (hne : fields ≠ []) (hcan : canonicalFields fields = true)
    (hutf8 : utf8Fields fields = true) (hfuel : (textFields fields).length + 1 ≤ fuel) :
    readFields fuel (textFields fields ++ 125 :: rest) = some (fields, rest) := by
  match fields, hne, hcan, hutf8, hfuel with
  | (key, value) :: fields, _, hcan, hutf8, hfuel =>
    obtain ⟨fuel, rfl⟩ : ∃ n, fuel = n + 1 := ⟨fuel - 1, by omega⟩
    obtain ⟨hfield, hfields⟩ := Bool.and_eq_true_iff.mp hcan
    obtain ⟨hkey, hvalue⟩ := Bool.and_eq_true_iff.mp hfield
    obtain ⟨hvlu8, hflds8⟩ := Bool.and_eq_true_iff.mp hutf8
    rw [textFields_cons, length_append, length_cons, length_append] at hfuel
    rw [textFields_cons, append_assoc, readFields, readQuoted_quote (utf8Valid_ascii hkey)]
    cases fields with
    | nil =>
      have hread : readValue fuel (value.text ++ 125 :: rest) = _ :=
        readValue_text value hvalue hvlu8 (delimited_cons (by decide) rest) (by omega)
      simp [hread, keyOf_ascii hkey]
    | cons next fields =>
      simp only [isEmpty_cons, Bool.false_eq_true, if_false, length_cons] at hfuel ⊢
      have hread : readValue fuel (value.text ++ 44 :: (textFields (next :: fields) ++
          125 :: rest)) = _ :=
        readValue_text value hvalue hvlu8 (delimited_cons (by decide) _) (by omega)
      have hmore : readFields fuel (textFields (next :: fields) ++ 125 :: rest) = _ :=
        readFields_text (next :: fields) (by simp) hfields hflds8 (by omega)
      simp [hread, hmore, keyOf_ascii hkey]
end

theorem readDocument_text {document : Json} (hcan : document.canonical = true)
    (hutf8 : document.utf8 = true) : readDocument document.text = some document := by
  have hread : readValue document.text.length (document.text ++ []) = some (document, []) :=
    readValue_text document hcan hutf8 (fun b hb => nomatch hb) le_rfl
  rw [append_nil] at hread
  rw [readDocument, hread]

end BoostGateway.Json
