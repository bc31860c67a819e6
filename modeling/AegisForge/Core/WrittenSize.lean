import AegisForge.Core.KeyOrder

/-!
# The size of what is written

The bytes that a value takes when it is written in ASCII, counted on the value: most
characters take one, but escapes take up to twelve.  The order of keys and items does
not count.
-/

namespace AegisForge.Core

theorem length_utf8_append (left right : List Char) :
    (utf8 (left ++ right)).length = (utf8 left).length + (utf8 right).length := by
  rw [utf8, List.flatMap_append, List.length_append]
  rfl

theorem length_utf8_of_ascii {text : List Char} (hascii : ∀ character ∈ text, character.toNat < 128) :
    (utf8 text).length = text.length := by
  induction text with
  | nil => rfl
  | cons first rest ih =>
      rw [List.forall_mem_cons] at hascii
      have hfirst : first.utf8Size = 1 := Char.utf8Size_eq_one_iff.mpr (by
        rw [UInt32.le_iff_toNat_le]
        exact Nat.le_of_lt_succ hascii.1)
      have hcons : utf8 (first :: rest) = String.utf8EncodeChar first ++ utf8 rest := rfl
      rw [hcons, List.length_append, String.length_utf8EncodeChar, hfirst, ih hascii.2,
        List.length_cons, Nat.add_comm]

namespace Json

/-! ## Sizes -/

/-- The bytes of a character in a text. -/
def charSize (character : Char) : ℕ :=
  if (shortEscapes.lookup character).isSome = true then 2
  else if 32 ≤ character.toNat ∧ character.toNat < 127 then 1
  else if character.toNat < 0x10000 then 6
  else 12

/-- The bytes of a text, with its quotes. -/
def textSize (text : String) : ℕ := 2 + (text.toList.map charSize).sum

mutual

def writtenSize : Json → ℕ
  | null => 4
  | bool true => 4
  | bool false => 5
  | int value => (encodeInt value).length
  | float literal => (utf8 literal.toList).length
  | text value => textSize value
  | array items => 2 + (items.length - 1) + itemsSize items
  | object fields => 2 + (fields.length - 1) + fieldsSize fields

def itemsSize : List Json → ℕ
  | [] => 0
  | item :: rest => writtenSize item + itemsSize rest

def fieldsSize : List (String × Json) → ℕ
  | [] => 0
  | (key, value) :: rest => textSize key + 1 + writtenSize value + fieldsSize rest

end

/-- The bytes of a field, with its colon. -/
def fieldSize (field : String × Json) : ℕ := textSize field.1 + 1 + field.2.writtenSize

theorem itemsSize_eq_sum (items : List Json) : itemsSize items = (items.map writtenSize).sum := by
  induction items with
  | nil => rfl
  | cons item rest ih => rw [itemsSize, List.map_cons, List.sum_cons, ih]

theorem fieldsSize_eq_sum (fields : List (String × Json)) :
    fieldsSize fields = (fields.map fieldSize).sum := by
  induction fields with
  | nil => rfl
  | cons field rest ih =>
      rw [fieldsSize, List.map_cons, List.sum_cons, ih]
      rfl

/-! ## What is written has its size -/

theorem toNat_digitChar_lt : ∀ digit < 16, (Nat.digitChar digit).toNat < 128 := by decide

theorem ascii_escapeCode {code : ℕ} (hcode : code < 0x10000) :
    ∀ character ∈ escapeCode code, character.toNat < 128 := by
  have hhigh := toNat_digitChar_lt (code / 4096) (by omega)
  have hsecond := toNat_digitChar_lt (code / 256 % 16) (by omega)
  have hthird := toNat_digitChar_lt (code / 16 % 16) (by omega)
  have hlow := toNat_digitChar_lt (code % 16) (by omega)
  simp only [escapeCode, List.forall_mem_cons]
  exact ⟨by decide, by decide, hhigh, hsecond, hthird, hlow, by simp⟩

theorem length_utf8_escapePoint (character : Char) :
    (utf8 (escapePoint character.toNat)).length =
      if character.toNat < 0x10000 then 6 else 12 := by
  have hvalid : character.toNat < 0xd800 ∨
      0xdfff < character.toNat ∧ character.toNat < 0x110000 := character.valid
  rw [escapePoint]
  split
  case isTrue hplane =>
    rw [length_utf8_of_ascii (ascii_escapeCode hplane)]
    rfl
  case isFalse hplane =>
    rw [length_utf8_append, length_utf8_of_ascii (ascii_escapeCode (by omega)),
      length_utf8_of_ascii (ascii_escapeCode (by omega))]
    rfl

theorem length_utf8_escapeChar (character : Char) :
    (utf8 (escapeChar true character)).length = charSize character := by
  rw [escapeChar, charSize]
  cases hescape : shortEscapes.lookup character with
  | some letter =>
      have hascii : ∀ escape ∈ shortEscapes, ∀ mark ∈ ['\\', escape.2], mark.toNat < 128 := by
        simp [shortEscapes]
      obtain ⟨before, after, hsplit, -⟩ := List.lookup_eq_some_iff.mp hescape
      have hmem : (character, letter) ∈ shortEscapes := by
        rw [hsplit]
        simp
      rw [Option.isSome_some, if_pos rfl]
      exact length_utf8_of_ascii (hascii _ hmem)
  | none =>
      simp only [Option.isSome_none, Bool.false_eq_true, if_false, true_and]
      by_cases hplain : 32 ≤ character.toNat ∧ character.toNat < 127
      · have hkept : ¬(character.toNat < 32 ∨ 127 ≤ character.toNat) := by omega
        have hascii : character.toNat < 128 := by omega
        rw [if_neg hkept, if_pos hplain]
        exact length_utf8_of_ascii (by simpa using hascii)
      · have hescaped : character.toNat < 32 ∨ 127 ≤ character.toNat := by omega
        rw [if_pos hescaped, if_neg hplain, length_utf8_escapePoint]

theorem length_utf8_escapeChars (characters : List Char) :
    (utf8 (characters.flatMap (escapeChar true))).length = (characters.map charSize).sum := by
  induction characters with
  | nil => rfl
  | cons first rest ih =>
      rw [List.flatMap_cons, length_utf8_append, length_utf8_escapeChar, ih, List.map_cons,
        List.sum_cons]

theorem length_utf8_encodeText (text : String) :
    (utf8 (encodeText true text)).length = textSize text := by
  have hquote : (utf8 ['"']).length = 1 := by decide
  have hcons : encodeText true text =
      ['"'] ++ text.toList.flatMap (escapeChar true) ++ ['"'] := rfl
  rw [hcons, length_utf8_append, length_utf8_append, length_utf8_escapeChars, hquote, textSize]
  omega

theorem length_utf8_encodeInt (value : ℤ) :
    (utf8 (encodeInt value)).length = (encodeInt value).length := by
  have hdigits (number : ℕ) : ∀ digit ∈ Nat.toDigits 10 number, digit.toNat < 128 := by
    intro digit hdigit
    have hdecimal := isDigit_of_mem_toDigits hdigit
    simp only [Char.isDigit, Bool.and_eq_true, decide_eq_true_eq] at hdecimal
    have hupper := UInt32.le_iff_toNat_le.mp hdecimal.2
    exact lt_of_le_of_lt hupper (by decide)
  apply length_utf8_of_ascii
  cases value with
  | ofNat number => exact hdigits number
  | negSucc number =>
      rw [encodeInt, List.forall_mem_cons]
      exact ⟨by decide, hdigits (number + 1)⟩

theorem length_utf8_cons {mark : Char} (hmark : mark.toNat < 128) (text : List Char) :
    (utf8 (mark :: text)).length = (utf8 text).length + 1 := by
  have hsingle : (utf8 [mark]).length = 1 := length_utf8_of_ascii (by simpa using hmark)
  rw [← List.singleton_append, length_utf8_append, hsingle, Nat.add_comm]

mutual

theorem length_utf8_encode (value : Json) : (utf8 (encode true value)).length = value.writtenSize := by
  match value with
  | null => rfl
  | bool true => rfl
  | bool false => rfl
  | int number => exact length_utf8_encodeInt number
  | float literal => rfl
  | text value => exact length_utf8_encodeText value
  | array [] => rfl
  | array (item :: rest) =>
      rw [encode, List.cons_append, length_utf8_cons (by decide), length_utf8_append,
        length_utf8_encode item, length_utf8_encodeItems rest, writtenSize, itemsSize,
        List.length_cons]
      omega
  | object [] => rfl
  | object ((key, value) :: rest) =>
      rw [encode, List.cons_append, List.cons_append, length_utf8_cons (by decide),
        length_utf8_append, length_utf8_append, length_utf8_encodeText,
        length_utf8_cons (by decide), length_utf8_encode value, length_utf8_encodeFields rest,
        writtenSize, fieldsSize, List.length_cons]
      omega

theorem length_utf8_encodeItems (items : List Json) :
    (utf8 (encodeItems true items)).length = items.length + itemsSize items + 1 := by
  match items with
  | [] => rfl
  | item :: rest =>
      rw [encodeItems, List.cons_append, length_utf8_cons (by decide), length_utf8_append,
        length_utf8_encode item, length_utf8_encodeItems rest, itemsSize, List.length_cons]
      omega

theorem length_utf8_encodeFields (fields : List (String × Json)) :
    (utf8 (encodeFields true fields)).length = fields.length + fieldsSize fields + 1 := by
  match fields with
  | [] => rfl
  | (key, value) :: rest =>
      rw [encodeFields, List.cons_append, List.cons_append, length_utf8_cons (by decide),
        length_utf8_append, length_utf8_append, length_utf8_encodeText,
        length_utf8_cons (by decide), length_utf8_encode value, length_utf8_encodeFields rest,
        fieldsSize, List.length_cons]
      omega

end

/-! ## The order of keys -/

mutual

theorem writtenSize_sortKeys (value : Json) (honce : value.KeysOnce) :
    value.sortKeys.writtenSize = value.writtenSize := by
  match value with
  | null => rfl
  | bool true => rfl
  | bool false => rfl
  | int _ => rfl
  | float _ => rfl
  | text _ => rfl
  | array items =>
      have hlength : (sortItems items).length = items.length := by
        rw [sortItems_eq_map, List.length_map]
      rw [sortKeys, writtenSize, writtenSize, hlength, itemsSize_sortItems items honce.items]
  | object fields =>
      have hperm := perm_sortFields honce.1
      have hsize : fieldsSize (sortFields fields) =
          fieldsSize (fields.map fun field => (field.1, field.2.sortKeys)) := by
        rw [fieldsSize_eq_sum, fieldsSize_eq_sum]
        exact (hperm.map fieldSize).sum_nat
      rw [sortKeys, writtenSize, writtenSize, hperm.length_eq, List.length_map, hsize,
        fieldsSize_sortValues fields (fieldsKeysOnce_iff.mp honce.2)]

theorem itemsSize_sortItems (items : List Json) (honce : ∀ item ∈ items, item.KeysOnce) :
    itemsSize (sortItems items) = itemsSize items := by
  match items with
  | [] => rfl
  | item :: rest =>
      rw [List.forall_mem_cons] at honce
      rw [sortItems, itemsSize, itemsSize, writtenSize_sortKeys item honce.1,
        itemsSize_sortItems rest honce.2]

theorem fieldsSize_sortValues (fields : List (String × Json))
    (honce : ∀ field ∈ fields, field.2.KeysOnce) :
    fieldsSize (fields.map fun field => (field.1, field.2.sortKeys)) = fieldsSize fields := by
  match fields with
  | [] => rfl
  | (key, value) :: rest =>
      rw [List.forall_mem_cons] at honce
      rw [List.map_cons, fieldsSize, fieldsSize, writtenSize_sortKeys value honce.1,
        fieldsSize_sortValues rest honce.2]

end

/-- A dictionary with known keys takes the size of its values. -/
theorem writtenSize_of_keys {value : Json} (hobject : value.isObject = true)
    (hnodup : value.keys.Nodup) {expected : List String} (hexpected : expected.Nodup)
    (hkeys : ∀ key, key ∈ value.keys ↔ key ∈ expected) :
    value.writtenSize = 2 + (expected.length - 1) +
      (expected.map fun key => fieldSize (key, value.get key)).sum := by
  obtain ⟨fields, rfl⟩ := isObject_eq_true_iff.mp hobject
  have hperm : (fields.map Prod.fst).Perm expected :=
    (List.perm_ext_iff_of_nodup hnodup hexpected).mpr hkeys
  have hfields : fields.map fieldSize =
      (fields.map Prod.fst).map fun key => fieldSize (key, (object fields).get key) := by
    rw [List.map_map]
    apply List.map_congr_left
    intro field hfield
    have hlookup := lookup_of_mem hnodup hfield
    rw [Function.comp_apply, Json.get, get?, hlookup, Option.getD_some]
  rw [writtenSize, fieldsSize_eq_sum, hfields, (hperm.map _).sum_nat, ← hperm.length_eq,
    List.length_map]

end Json

end AegisForge.Core
