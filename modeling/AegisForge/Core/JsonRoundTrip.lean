import Mathlib.Data.String.Basic
import AegisForge.Core.JsonLayout

/-!
# Reading back what was written

Every value is read back from its text, so a text belongs to one value only.
Decoding sorts the keys of dictionaries, whose order does not count.
-/

namespace AegisForge.Core.Json

/-! ## Hexadecimal digits -/

theorem hexValue?_digitChar : ∀ digit < 16, hexValue? (Nat.digitChar digit) = some digit := by
  decide

theorem readCode_escapeCode {code : ℕ} (hcode : code < 0x10000) (rest : List Char) :
    readCode ((escapeCode code).drop 2 ++ rest) = some (code, rest) := by
  have ha := hexValue?_digitChar (code / 4096) (by omega)
  have hb := hexValue?_digitChar (code / 256 % 16) (by omega)
  have hc := hexValue?_digitChar (code / 16 % 16) (by omega)
  have hd := hexValue?_digitChar (code % 16) (by omega)
  have hsum : 4096 * (code / 4096) + 256 * (code / 256 % 16) + 16 * (code / 16 % 16) +
      code % 16 = code := by omega
  simp [escapeCode, readCode, ha, hb, hc, hd, hsum]

/-! ## Strings -/

theorem readPoint_escapeCode {code : ℕ} (hcode : code < 0x10000)
    (hscalar : ¬(0xd800 ≤ code ∧ code < 0xe000)) (rest : List Char) :
    readPoint ((escapeCode code).drop 2 ++ rest) = some (Char.ofNat code, rest) := by
  have hlow : ¬(0xd800 ≤ code ∧ code < 0xdc00) := by omega
  have hhigh : ¬(0xdc00 ≤ code ∧ code < 0xe000) := by omega
  rw [readPoint, readCode_escapeCode hcode]
  simp only [Option.bind_eq_bind, Option.bind_some, if_neg hlow, if_neg hhigh]

theorem readPoint_surrogates {high low : ℕ} (hhigh : high < 0x400) (hlow : low < 0x400)
    (rest : List Char) :
    readPoint ((escapeCode (0xd800 + high)).drop 2 ++ (escapeCode (0xdc00 + low) ++ rest)) =
      some (Char.ofNat (0x10000 + 0x400 * high + low), rest) := by
  have hfirst : 0xd800 ≤ 0xd800 + high ∧ 0xd800 + high < 0xdc00 := by omega
  have hsecond : 0xdc00 ≤ 0xdc00 + low ∧ 0xdc00 + low < 0xe000 := by omega
  have hcons : escapeCode (0xdc00 + low) ++ rest =
      '\\' :: 'u' :: ((escapeCode (0xdc00 + low)).drop 2 ++ rest) := rfl
  rw [readPoint, readCode_escapeCode (by omega), hcons]
  simp only [Option.bind_eq_bind, Option.bind_some, if_pos hfirst,
    readCode_escapeCode (show 0xdc00 + low < 0x10000 by omega), if_pos hsecond,
    Nat.add_sub_cancel_left]

/-- An escaped character is read back. -/
theorem readPoint_escapePoint (character : Char) (rest : List Char) :
    readPoint ((escapePoint character.toNat).drop 2 ++ rest) = some (character, rest) := by
  have hvalid : character.toNat < 0xd800 ∨
      0xdfff < character.toNat ∧ character.toNat < 0x110000 := character.valid
  rw [escapePoint]
  split
  case isTrue hplane =>
    rw [readPoint_escapeCode hplane (by omega), Char.ofNat_toNat]
  case isFalse hplane =>
    have hpair : 0x10000 + 0x400 * ((character.toNat - 0x10000) / 0x400) +
        (character.toNat - 0x10000) % 0x400 = character.toNat := by omega
    have hdrop : ∀ code more, (escapeCode code ++ more).drop 2 =
        (escapeCode code).drop 2 ++ more := fun _ _ => rfl
    rw [hdrop, List.append_assoc, readPoint_surrogates (by omega) (by omega), hpair,
      Char.ofNat_toNat]

theorem escapePoint_eq_cons (code : ℕ) :
    escapePoint code = '\\' :: 'u' :: (escapePoint code).drop 2 := by
  rw [escapePoint]
  split <;> rfl

theorem readEscape_shortEscapes :
    ∀ escape ∈ shortEscapes, ∀ rest, readEscape (escape.2 :: rest) = some (escape.1, rest) := by
  simp [shortEscapes, readEscape]

theorem mem_of_lookup_shortEscapes {character letter : Char}
    (hescape : shortEscapes.lookup character = some letter) :
    (character, letter) ∈ shortEscapes := by
  obtain ⟨before, after, hsplit, -⟩ := List.lookup_eq_some_iff.mp hescape
  rw [hsplit]
  simp

theorem readChars_escapeChar (ensureAscii : Bool) (character : Char) (fuel : ℕ)
    (rest : List Char) :
    readChars (fuel + 1) (escapeChar ensureAscii character ++ rest) =
      (readChars fuel rest).map fun read => (character :: read.1, read.2) := by
  rw [escapeChar]
  split
  case h_1 letter hescape =>
    have hread := readEscape_shortEscapes _ (mem_of_lookup_shortEscapes hescape) rest
    simp only [List.cons_append, List.nil_append, readChars, hread]
    cases hrest : readChars fuel rest <;> simp [hrest]
  case h_2 hescape =>
    split
    case isTrue =>
      have hread : readEscape ('u' :: ((escapePoint character.toNat).drop 2 ++ rest)) =
          some (character, rest) := readPoint_escapePoint character rest
      rw [escapePoint_eq_cons]
      simp only [List.cons_append, readChars, hread]
      cases hrest : readChars fuel rest <;> simp [hrest]
    case isFalse hplain =>
      rw [not_or] at hplain
      have hquote : character ≠ '"' := by
        rintro rfl
        cases hescape
      have hslash : character ≠ '\\' := by
        rintro rfl
        cases hescape
      simp only [List.cons_append, List.nil_append, readChars, if_neg hquote, if_neg hslash,
        if_neg hplain.1]
      cases readChars fuel rest <;> simp

theorem readChars_flatMap (ensureAscii : Bool) (characters : List Char) {fuel : ℕ}
    (hfuel : characters.length < fuel) (rest : List Char) :
    readChars fuel (characters.flatMap (escapeChar ensureAscii) ++ '"' :: rest) =
      some (characters, rest) := by
  induction characters generalizing fuel with
  | nil =>
      obtain ⟨fuel, rfl⟩ := Nat.exists_eq_succ_of_ne_zero (Nat.ne_of_gt hfuel)
      rfl
  | cons character tail ih =>
      obtain ⟨fuel, rfl⟩ := Nat.exists_eq_succ_of_ne_zero (Nat.ne_of_gt
        (Nat.lt_of_le_of_lt (Nat.zero_le _) hfuel))
      rw [List.flatMap_cons, List.append_assoc, readChars_escapeChar,
        ih (by simpa using hfuel)]
      rfl

theorem length_le_length_flatMap_escapeChar (ensureAscii : Bool) (characters : List Char) :
    characters.length ≤ (characters.flatMap (escapeChar ensureAscii)).length := by
  induction characters with
  | nil => simp
  | cons character tail ih =>
      have hpositive : 1 ≤ (escapeChar ensureAscii character).length := by
        rw [escapeChar]
        split
        · simp
        · split
          · rw [escapePoint_eq_cons]
            simp
          · simp
      rw [List.flatMap_cons, List.length_append, List.length_cons]
      omega

/-- A string is read back. -/
theorem readText_encodeText (ensureAscii : Bool) (value : String) {fuel : ℕ}
    (hfuel : (encodeText ensureAscii value).length ≤ fuel + 1) (rest : List Char) :
    readText fuel (encodeText ensureAscii value ++ rest) = some (value, rest) := by
  have hlength := length_le_length_flatMap_escapeChar ensureAscii value.toList
  simp only [encodeText, List.cons_append, List.length_cons, List.length_append,
    List.length_nil] at hfuel
  have hread := readChars_flatMap ensureAscii value.toList
    (show value.toList.length < fuel by omega) rest
  simp only [encodeText, List.cons_append, List.append_assoc, List.nil_append, readText, hread,
    if_true, Option.bind_eq_bind, Option.bind_some, String.ofList_toList]

/-! ## Numbers -/

/-- What may follow a value: nothing, a blank, or the mark of what contains it. -/
def Delimited (rest : List Char) : Prop :=
  ∀ mark ∈ rest.head?, isBlankChar mark = true ∨ mark = ',' ∨ mark = ']' ∨ mark = '}'

theorem delimited_cons {mark : Char} {rest : List Char}
    (hmark : isBlankChar mark = true ∨ mark = ',' ∨ mark = ']' ∨ mark = '}') :
    Delimited (mark :: rest) := by
  intro other hother
  obtain rfl := Option.some.inj hother
  exact hmark

/-- Blanks may follow a value where what comes after them may. -/
theorem delimited_append {blanks rest : List Char} (hblanks : AreBlanks blanks)
    (hrest : Delimited rest) : Delimited (blanks ++ rest) := by
  cases blanks with
  | nil => exact hrest
  | cons blank blanks => exact delimited_cons (Or.inl (hblanks blank List.mem_cons_self))

section Numbers

variable {rest : List Char} (hrest : Delimited rest)
include hrest

theorem Delimited.cases : rest = [] ∨ ∃ mark tail, rest = mark :: tail ∧
    (mark = ' ' ∨ mark = '\t' ∨ mark = '\n' ∨ mark = '\r' ∨ mark = ',' ∨ mark = ']' ∨
      mark = '}') := by
  cases rest with
  | nil => exact Or.inl rfl
  | cons mark tail =>
      have hmark := hrest mark rfl
      simp only [isBlankChar, Bool.or_eq_true, decide_eq_true_eq, or_assoc] at hmark
      exact Or.inr ⟨mark, tail, rfl, hmark⟩

theorem scanSign_append (input : List Char) :
    scanSign (input ++ rest) = ((scanSign input).1, (scanSign input).2 ++ rest) := by
  cases input with
  | nil =>
      obtain rfl | ⟨mark, tail, rfl, rfl | rfl | rfl | rfl | rfl | rfl | rfl⟩ := hrest.cases <;>
        rfl
  | cons sign tail =>
      rw [List.cons_append, scanSign, scanSign]
      split <;> rfl

theorem scanDigits_append (input : List Char) :
    scanDigits (input ++ rest) = ((scanDigits input).1, (scanDigits input).2 ++ rest) := by
  induction input with
  | nil =>
      obtain rfl | ⟨mark, tail, rfl, rfl | rfl | rfl | rfl | rfl | rfl | rfl⟩ := hrest.cases <;>
        rfl
  | cons digit tail ih =>
      simp only [scanDigits, Prod.mk.injEq] at ih ⊢
      by_cases hdigit : digit.isDigit = true
      · simp [hdigit, ih.1, ih.2]
      · simp [hdigit]

theorem scanWhole_append (input : List Char) :
    scanWhole (input ++ rest) = ((scanWhole input).1, (scanWhole input).2 ++ rest) := by
  cases input with
  | nil =>
      obtain rfl | ⟨mark, tail, rfl, rfl | rfl | rfl | rfl | rfl | rfl | rfl⟩ := hrest.cases <;>
        rfl
  | cons digit tail =>
      rw [List.cons_append, scanWhole, scanWhole]
      split
      · rfl
      · exact scanDigits_append hrest (digit :: tail)

theorem scanFraction_append (input : List Char) :
    scanFraction (input ++ rest) = ((scanFraction input).1, (scanFraction input).2 ++ rest) := by
  cases input with
  | nil =>
      obtain rfl | ⟨mark, tail, rfl, rfl | rfl | rfl | rfl | rfl | rfl | rfl⟩ := hrest.cases <;>
        rfl
  | cons point tail =>
      rw [List.cons_append, scanFraction, scanFraction, scanDigits_append hrest]
      split <;> rfl

theorem scanExponentSign_append (input : List Char) :
    scanExponentSign (input ++ rest) =
      ((scanExponentSign input).1, (scanExponentSign input).2 ++ rest) := by
  cases input with
  | nil =>
      obtain rfl | ⟨mark, tail, rfl, rfl | rfl | rfl | rfl | rfl | rfl | rfl⟩ := hrest.cases <;>
        rfl
  | cons sign tail =>
      rw [List.cons_append, scanExponentSign, scanExponentSign]
      split <;> rfl

theorem scanExponent_append (input : List Char) :
    scanExponent (input ++ rest) = ((scanExponent input).1, (scanExponent input).2 ++ rest) := by
  cases input with
  | nil =>
      obtain rfl | ⟨mark, tail, rfl, rfl | rfl | rfl | rfl | rfl | rfl | rfl⟩ := hrest.cases <;>
        rfl
  | cons letter tail =>
      simp only [List.cons_append, scanExponent, scanExponentSign_append hrest,
        scanDigits_append hrest]
      split <;> rfl

/-- A number ends where a value may end. -/
theorem scanNumber_append (input : List Char) :
    scanNumber (input ++ rest) = ((scanNumber input).1, (scanNumber input).2 ++ rest) := by
  simp only [scanNumber, scanSign_append hrest, scanWhole_append hrest,
    scanFraction_append hrest, scanExponent_append hrest]

end Numbers

theorem scanSign_text (input : List Char) : (scanSign input).1 ++ (scanSign input).2 = input := by
  cases input with
  | nil => rfl
  | cons sign tail =>
      rw [scanSign]
      split
      case isTrue hsign => simp [hsign]
      case isFalse => rfl

theorem scanDigits_text (input : List Char) :
    (scanDigits input).1 ++ (scanDigits input).2 = input :=
  List.takeWhile_append_dropWhile

theorem scanWhole_text (input : List Char) :
    (scanWhole input).1 ++ (scanWhole input).2 = input := by
  cases input with
  | nil => rfl
  | cons digit tail =>
      rw [scanWhole]
      split
      case isTrue hzero => simp [hzero]
      case isFalse => exact scanDigits_text _

theorem scanFraction_text (input : List Char) :
    (scanFraction input).1 ++ (scanFraction input).2 = input := by
  cases input with
  | nil => rfl
  | cons point tail =>
      rw [scanFraction]
      split
      · simp [scanDigits_text tail]
      · rfl

theorem scanExponentSign_text (input : List Char) :
    (scanExponentSign input).1 ++ (scanExponentSign input).2 = input := by
  cases input with
  | nil => rfl
  | cons sign tail =>
      rw [scanExponentSign]
      split <;> rfl

theorem scanExponent_text (input : List Char) :
    (scanExponent input).1 ++ (scanExponent input).2 = input := by
  cases input with
  | nil => rfl
  | cons letter tail =>
      simp only [scanExponent]
      split
      · simp [scanDigits_text, scanExponentSign_text]
      · rfl

/-- The parts of a number make up what was read. -/
theorem scanNumber_text (input : List Char) :
    (scanNumber input).1.text ++ (scanNumber input).2 = input := by
  simp [scanNumber, NumberText.text, scanExponent_text, scanFraction_text, scanWhole_text,
    scanSign_text]

/-! ### Whole numbers -/

theorem digitChar_ne_zero : ∀ value < 10, 0 < value → Nat.digitChar value ≠ '0' := by
  decide

/-- A number begins with a digit, which is zero for zero only. -/
theorem toDigits_eq_cons (value : ℕ) : ∃ digit tail, Nat.toDigits 10 value = digit :: tail ∧
    (0 < value → digit ≠ '0') := by
  induction value using Nat.strong_induction_on with
  | _ value ih =>
      by_cases hsmall : value < 10
      · exact ⟨_, _, Nat.toDigits_of_lt_base hsmall, digitChar_ne_zero value hsmall⟩
      · obtain ⟨digit, tail, hdigits, hzero⟩ := ih (value / 10) (by omega)
        have hbase : Nat.toDigits 10 value =
            Nat.toDigits 10 (value / 10) ++ [Nat.digitChar (value % 10)] :=
          Nat.toDigits_of_base_le (by decide) (by omega)
        refine ⟨digit, tail ++ [Nat.digitChar (value % 10)], ?_, fun _ => hzero (by omega)⟩
        rw [hbase, hdigits, List.cons_append]

theorem isDigit_of_mem_toDigits {value : ℕ} {digit : Char}
    (hdigit : digit ∈ Nat.toDigits 10 value) : digit.isDigit = true :=
  Nat.isDigit_of_mem_toDigits (by decide) (by decide) hdigit

theorem scanDigits_toDigits (value : ℕ) :
    scanDigits (Nat.toDigits 10 value) = (Nat.toDigits 10 value, []) := by
  have hall : ∀ digit ∈ Nat.toDigits 10 value, digit.isDigit = true :=
    fun _ => isDigit_of_mem_toDigits
  rw [scanDigits, List.takeWhile_eq_self_iff.mpr hall, List.dropWhile_eq_nil_iff.mpr hall]

theorem scanWhole_toDigits (value : ℕ) :
    scanWhole (Nat.toDigits 10 value) = (Nat.toDigits 10 value, []) := by
  obtain ⟨digit, tail, hdigits, hzero⟩ := toDigits_eq_cons value
  cases value with
  | zero => rfl
  | succ value =>
      have hscan := scanDigits_toDigits (value + 1)
      rw [hdigits] at hscan ⊢
      rw [scanWhole, if_neg (hzero (Nat.succ_pos value)), hscan]

theorem scanNumber_encodeInt (value : ℤ) : scanNumber (encodeInt value) =
    (⟨if value < 0 then ['-'] else [], Nat.toDigits 10 value.natAbs, [], []⟩, []) := by
  cases value with
  | ofNat value =>
      have hpositive : ¬(Int.ofNat value < 0) := by simp
      obtain ⟨digit, tail, hdigits, -⟩ := toDigits_eq_cons value
      have hdigit : digit.isDigit = true := isDigit_of_mem_toDigits (by rw [hdigits]; simp)
      have hsign : digit ≠ '-' := by
        rintro rfl
        cases hdigit
      have hscan : scanSign (Nat.toDigits 10 value) = ([], Nat.toDigits 10 value) := by
        rw [hdigits, scanSign, if_neg hsign]
      simp only [encodeInt, scanNumber, hscan, scanWhole_toDigits, scanFraction, scanExponent,
        if_neg hpositive]
      rfl
  | negSucc value =>
      have hnegative : Int.negSucc value < 0 := Int.negSucc_lt_zero value
      simp only [encodeInt, scanNumber, scanSign, if_true, scanWhole_toDigits, scanFraction,
        scanExponent, if_pos hnegative]
      rfl

/-! ### Scalars -/

/-- The text of a float: a number with a fraction or an exponent, or the text of
an infinity or of what is no number. -/
def IsFloatText (literal : String) : Prop :=
  ((scanNumber literal.toList).2 = [] ∧ (scanNumber literal.toList).1.whole ≠ [] ∧
    (scanNumber literal.toList).1.isInt = false) ∨
  literal ∈ ["NaN", "Infinity", "-Infinity"]

instance (literal : String) : Decidable (IsFloatText literal) :=
  inferInstanceAs (Decidable (_ ∨ _))

theorem readScalar_words (rest : List Char) : ∀ word ∈ words,
    readScalar (word.1 ++ rest) = some (word.2, rest) := by
  simp only [words, List.forall_mem_cons]
  exact ⟨rfl, rfl, rfl, rfl, rfl, rfl, nofun⟩

theorem readScalar_encodeInt (value : ℤ) {rest : List Char} (hrest : Delimited rest) :
    readScalar (encodeInt value ++ rest) = some (int value, rest) := by
  rw [readScalar, scanNumber_append hrest, scanNumber_encodeInt]
  simp only [Nat.toDigits_ne_nil, if_false, List.nil_append, NumberText.value,
    NumberText.isInt, decide_true, Bool.and_self, if_true, Nat.ofDigitChars_ten_toDigits]
  split
  case isTrue hnegative =>
    simp only [List.cons_ne_self, if_false]
    rw [show -(value.natAbs : ℤ) = value by omega]
  case isFalse hpositive =>
    simp only [if_true]
    rw [show (value.natAbs : ℤ) = value by omega]

theorem readScalar_float {literal : String} (hliteral : IsFloatText literal)
    {rest : List Char} (hrest : Delimited rest) :
    readScalar (literal.toList ++ rest) = some (float literal, rest) := by
  rcases hliteral with ⟨hall, hwhole, hfloat⟩ | hword
  · have htext := scanNumber_text literal.toList
    rw [hall, List.append_nil] at htext
    rw [readScalar, scanNumber_append hrest]
    simp only [hwhole, if_false, hall, List.nil_append, NumberText.value, hfloat,
      Bool.false_eq_true, htext, String.ofList_toList]
  · simp only [List.mem_cons, List.not_mem_nil, or_false] at hword
    rcases hword with rfl | rfl | rfl
    · exact readScalar_words rest (['N', 'a', 'N'], float "NaN") (by simp [words])
    · exact readScalar_words rest (['I', 'n', 'f', 'i', 'n', 'i', 't', 'y'], float "Infinity")
        (by simp [words])
    · exact readScalar_words rest
        (['-', 'I', 'n', 'f', 'i', 'n', 'i', 't', 'y'], float "-Infinity") (by simp [words])

/-- The marks that a scalar begins with. -/
def startsScalar (mark : Char) : Bool :=
  mark.isDigit || mark = '-' || mark = 'n' || mark = 't' || mark = 'f' || mark = 'N' ||
    mark = 'I'

theorem startsScalar_ne {mark other : Char} (hmark : startsScalar mark = true)
    (hother : startsScalar other = false) : mark ≠ other := by
  rintro rfl
  rw [hmark] at hother
  cases hother

theorem readValue_scalar {mark : Char} {tail rest : List Char} {value : Json} {fuel : ℕ}
    (hmark : startsScalar mark = true)
    (hscalar : readScalar (mark :: tail ++ rest) = some (value, rest)) (hfuel : 0 < fuel) :
    readValue fuel (mark :: tail ++ rest) = some (value, rest) := by
  obtain ⟨fuel, rfl⟩ := Nat.exists_eq_succ_of_ne_zero hfuel.ne'
  rw [List.cons_append, readValue, if_neg (startsScalar_ne hmark rfl),
    if_neg (startsScalar_ne hmark rfl), if_neg (startsScalar_ne hmark rfl)]
  exact hscalar

/-! ## Values -/

mutual

/-- Every float has the text of one. -/
def Readable : Json → Prop
  | float literal => IsFloatText literal
  | array items => ReadableItems items
  | object fields => ReadableFields fields
  | _ => True

def ReadableItems : List Json → Prop
  | [] => True
  | item :: rest => Readable item ∧ ReadableItems rest

def ReadableFields : List (String × Json) → Prop
  | [] => True
  | (_, value) :: rest => Readable value ∧ ReadableFields rest

end

theorem encodeInt_eq_cons (value : ℤ) :
    ∃ mark tail, encodeInt value = mark :: tail ∧ startsScalar mark = true := by
  cases value with
  | ofNat value =>
      obtain ⟨digit, tail, hdigits, -⟩ := toDigits_eq_cons value
      have hdigit : digit.isDigit = true := isDigit_of_mem_toDigits (by rw [hdigits]; simp)
      exact ⟨digit, tail, hdigits, by simp [startsScalar, hdigit]⟩
  | negSucc value => exact ⟨'-', _, rfl, rfl⟩

theorem isDigit_of_scanWhole {input : List Char} (hwhole : (scanWhole input).1 ≠ []) :
    ∃ digit tail, input = digit :: tail ∧ digit.isDigit = true := by
  cases input with
  | nil => exact absurd rfl hwhole
  | cons digit tail =>
      refine ⟨digit, tail, rfl, ?_⟩
      rw [scanWhole] at hwhole
      split at hwhole
      case isTrue hzero => rw [hzero]; rfl
      case isFalse =>
        by_contra hdigit
        simp [scanDigits, hdigit] at hwhole

theorem floatText_eq_cons {literal : String} (hliteral : IsFloatText literal) :
    ∃ mark tail, literal.toList = mark :: tail ∧ startsScalar mark = true := by
  rcases hliteral with ⟨-, hwhole, -⟩ | hword
  · rcases hinput : literal.toList with _ | ⟨mark, tail⟩
    · rw [hinput] at hwhole
      exact absurd rfl hwhole
    · refine ⟨mark, tail, rfl, ?_⟩
      rw [hinput] at hwhole
      simp only [scanNumber, scanSign] at hwhole
      split at hwhole
      case isTrue hsign => simp [startsScalar, hsign]
      case isFalse =>
        obtain ⟨digit, digits, hcons, hdigit⟩ := isDigit_of_scanWhole hwhole
        obtain ⟨rfl, rfl⟩ := List.cons.inj hcons
        simp [startsScalar, hdigit]
  · simp only [List.mem_cons, List.not_mem_nil, or_false] at hword
    rcases hword with rfl | rfl | rfl
    · exact ⟨'N', ['a', 'N'], rfl, rfl⟩
    · exact ⟨'I', ['n', 'f', 'i', 'n', 'i', 't', 'y'], rfl, rfl⟩
    · exact ⟨'-', ['I', 'n', 'f', 'i', 'n', 'i', 't', 'y'], rfl, rfl⟩

theorem skipBlanks_cons {mark : Char} (hmark : isBlankChar mark = false) (rest : List Char) :
    skipBlanks (mark :: rest) = mark :: rest := by
  rw [skipBlanks, List.dropWhile_cons_of_neg (by simp [hmark])]

theorem skipBlanks_append {blanks : List Char} (hblanks : AreBlanks blanks)
    (rest : List Char) : skipBlanks (blanks ++ rest) = skipBlanks rest :=
  List.dropWhile_append_of_pos hblanks

theorem isBlankChar_of_startsScalar {mark : Char} (hmark : startsScalar mark = true) :
    isBlankChar mark = false := by
  have hspace := @startsScalar_ne mark ' ' hmark rfl
  have htab := @startsScalar_ne mark '\t' hmark rfl
  have hline := @startsScalar_ne mark '\n' hmark rfl
  have hreturn := @startsScalar_ne mark '\r' hmark rfl
  simp [isBlankChar, hspace, htab, hline, hreturn]

theorem readMark_skipBlanks {mark : Char} (hmark : isBlankChar mark = false)
    (rest : List Char) : readMark mark (skipBlanks (mark :: rest)) = some rest := by
  rw [skipBlanks_cons hmark, readMark, if_pos rfl]

theorem skipBlanks_encodeText (ensureAscii : Bool) (value : String) (rest : List Char) :
    skipBlanks (encodeText ensureAscii value ++ rest) = encodeText ensureAscii value ++ rest :=
  skipBlanks_cons rfl _

theorem length_encodeText_ge (ensureAscii : Bool) (value : String) :
    2 ≤ (encodeText ensureAscii value).length := by
  simp [encodeText]

section Layouts

variable (layout : Layout) (ensureAscii : Bool)

/-- The text of a value begins with a mark of its own. -/
theorem write_eq_cons {value : Json} (hreadable : value.Readable) (depth : ℕ) :
    ∃ mark tail, write layout ensureAscii depth value = mark :: tail ∧
      (startsScalar mark = true ∨ mark = '"' ∨ mark = '[' ∨ mark = '{') := by
  cases value with
  | null => exact ⟨'n', _, rfl, by decide⟩
  | bool value => cases value <;> exact ⟨_, _, rfl, by decide⟩
  | int value =>
      obtain ⟨mark, tail, htext, hmark⟩ := encodeInt_eq_cons value
      exact ⟨mark, tail, htext, Or.inl hmark⟩
  | float literal =>
      obtain ⟨mark, tail, htext, hmark⟩ := floatText_eq_cons hreadable
      exact ⟨mark, tail, htext, Or.inl hmark⟩
  | text value => exact ⟨'"', _, rfl, by decide⟩
  | array items =>
      cases items with
      | nil => exact ⟨'[', _, by rw [write], by decide⟩
      | cons item rest => exact ⟨'[', _, by rw [write], by decide⟩
  | object fields =>
      cases fields with
      | nil => exact ⟨'{', _, by rw [write], by decide⟩
      | cons field rest => exact ⟨'{', _, by rw [write], by decide⟩

/-- No blanks are skipped before a value, and no list or dictionary ends there. -/
theorem skipBlanks_write {value : Json} (hreadable : value.Readable) (depth : ℕ)
    (rest : List Char) :
    ∃ mark tail, write layout ensureAscii depth value ++ rest = mark :: tail ∧ mark ≠ ']' ∧
      skipBlanks (write layout ensureAscii depth value ++ rest) =
        write layout ensureAscii depth value ++ rest := by
  obtain ⟨mark, tail, htext, hmark⟩ := write_eq_cons layout ensureAscii hreadable depth
  refine ⟨mark, tail ++ rest, by rw [htext, List.cons_append], ?_, ?_⟩
  · rcases hmark with hscalar | rfl | rfl | rfl
    · exact startsScalar_ne hscalar rfl
    all_goals decide
  · rw [htext, List.cons_append]
    apply skipBlanks_cons
    rcases hmark with hscalar | rfl | rfl | rfl
    · exact isBlankChar_of_startsScalar hscalar
    all_goals rfl

theorem length_write_pos {value : Json} (hreadable : value.Readable) (depth : ℕ) :
    0 < (write layout ensureAscii depth value).length := by
  obtain ⟨mark, tail, htext, -⟩ := write_eq_cons layout ensureAscii hreadable depth
  simp [htext]

/-- A value may end before the items after it. -/
theorem delimited_writeItems (depth : ℕ) (items : List Json) (rest : List Char) :
    Delimited (writeItems layout ensureAscii depth items ++ rest) := by
  cases items with
  | nil =>
      rw [writeItems, List.append_assoc]
      exact delimited_append (layout.areBlanks_line depth) (delimited_cons (by decide))
  | cons item others =>
      rw [writeItems]
      exact delimited_cons (by decide)

theorem delimited_writeFields (depth : ℕ) (fields : List (String × Json)) (rest : List Char) :
    Delimited (writeFields layout ensureAscii depth fields ++ rest) := by
  cases fields with
  | nil =>
      rw [writeFields, List.append_assoc]
      exact delimited_append (layout.areBlanks_line depth) (delimited_cons (by decide))
  | cons field others =>
      rw [writeFields]
      exact delimited_cons (by decide)

theorem length_writeItems_pos (depth : ℕ) (items : List Json) :
    0 < (writeItems layout ensureAscii depth items).length := by
  cases items <;> simp [writeItems]

theorem length_writeFields_pos (depth : ℕ) (fields : List (String × Json)) :
    0 < (writeFields layout ensureAscii depth fields).length := by
  cases fields <;> simp [writeFields]

/-- A field is read back when its value and what follows it are. -/
theorem readField_write (depth : ℕ) (key : String) {value : Json}
    {others : List (String × Json)} {fuel : ℕ} (hreadable : value.Readable)
    (hfuel : (encodeText ensureAscii key).length +
      (write layout ensureAscii (depth + 1) value).length +
      (writeFields layout ensureAscii depth others).length ≤ fuel) {rest : List Char}
    (hvalue : ∀ {fuel : ℕ}, (write layout ensureAscii (depth + 1) value).length ≤ fuel →
      ∀ {rest : List Char}, Delimited rest →
        readValue fuel (write layout ensureAscii (depth + 1) value ++ rest) =
          some (value, rest))
    (hothers : ∀ {fuel : ℕ}, (writeFields layout ensureAscii depth others).length ≤ fuel →
      readFields fuel (skipBlanks (writeFields layout ensureAscii depth others ++ rest)) =
        some (others, rest)) :
    readField fuel (encodeText ensureAscii key ++ ':' :: (layout.colon ++
        (write layout ensureAscii (depth + 1) value ++
          (writeFields layout ensureAscii depth others ++ rest)))) =
      some ((key, value) :: others, rest) := by
  have hkeyLength := length_encodeText_ge ensureAscii key
  obtain ⟨fuel, rfl⟩ := Nat.exists_eq_succ_of_ne_zero (show fuel ≠ 0 by omega)
  have hdelimited := delimited_writeFields layout ensureAscii depth others rest
  obtain ⟨-, -, -, -, hskipValue⟩ := skipBlanks_write layout ensureAscii hreadable (depth + 1)
    (writeFields layout ensureAscii depth others ++ rest)
  rw [readField, readText_encodeText ensureAscii key (by omega)]
  simp only [Option.bind_eq_bind, Option.bind_some,
    readMark_skipBlanks (show isBlankChar ':' = false from rfl),
    skipBlanks_append layout.areBlanks_colon, hskipValue,
    hvalue (show (write layout ensureAscii (depth + 1) value).length ≤ fuel by omega) hdelimited,
    hothers (show (writeFields layout ensureAscii depth others).length ≤ fuel by omega)]

mutual

/-- A value is read back as it was written. -/
theorem readValue_write (depth : ℕ) (value : Json) (hreadable : value.Readable)
    {fuel : ℕ} (hfuel : (write layout ensureAscii depth value).length ≤ fuel)
    {rest : List Char} (hrest : Delimited rest) :
    readValue fuel (write layout ensureAscii depth value ++ rest) = some (value, rest) := by
  have hpositive : 0 < fuel :=
    Nat.lt_of_lt_of_le (length_write_pos layout ensureAscii hreadable depth) hfuel
  obtain ⟨fuel, rfl⟩ := Nat.exists_eq_succ_of_ne_zero hpositive.ne'
  match value with
  | null =>
      exact readValue_scalar rfl
        (readScalar_words rest (['n', 'u', 'l', 'l'], null) (by simp [words])) hpositive
  | bool true =>
      exact readValue_scalar rfl
        (readScalar_words rest (['t', 'r', 'u', 'e'], bool true) (by simp [words])) hpositive
  | bool false =>
      exact readValue_scalar rfl
        (readScalar_words rest (['f', 'a', 'l', 's', 'e'], bool false) (by simp [words]))
        hpositive
  | int value =>
      obtain ⟨mark, tail, htext, hmark⟩ := encodeInt_eq_cons value
      have hread := readScalar_encodeInt value hrest
      rw [write]
      rw [htext] at hread ⊢
      exact readValue_scalar hmark hread hpositive
  | float literal =>
      obtain ⟨mark, tail, htext, hmark⟩ := floatText_eq_cons hreadable
      have hread := readScalar_float hreadable hrest
      rw [write]
      rw [htext] at hread ⊢
      exact readValue_scalar hmark hread hpositive
  | text value =>
      rw [write] at hfuel
      have hread := readText_encodeText ensureAscii value hfuel rest
      rw [write]
      simp only [encodeText, List.cons_append] at hread ⊢
      rw [readValue, if_pos rfl, hread]
      rfl
  | array [] =>
      obtain ⟨fuel, rfl⟩ := Nat.exists_eq_succ_of_ne_zero
        (show fuel ≠ 0 by rintro rfl; simp [write] at hfuel)
      rfl
  | array (item :: items) =>
      obtain ⟨hitem, hitems⟩ := hreadable
      have hlength := length_write_pos layout ensureAscii hitem (depth + 1)
      have hitemsLength := length_writeItems_pos layout ensureAscii depth items
      have hdelimited := delimited_writeItems layout ensureAscii depth items rest
      obtain ⟨first, more, hcons, hne, hskipItem⟩ := skipBlanks_write layout ensureAscii hitem
        (depth + 1) (writeItems layout ensureAscii depth items ++ rest)
      simp only [write, List.length_cons, List.length_append] at hfuel
      obtain ⟨fuel, rfl⟩ := Nat.exists_eq_succ_of_ne_zero (show fuel ≠ 0 by omega)
      have hread := readValue_write (depth + 1) item hitem
        (show (write layout ensureAscii (depth + 1) item).length ≤ fuel by omega) hdelimited
      have hreadItems := readItems_write depth items hitems
        (show (writeItems layout ensureAscii depth items).length ≤ fuel by omega) rest
      simp only [write, List.cons_append, List.append_assoc]
      rw [readValue, if_neg (by decide), if_pos rfl,
        skipBlanks_append (layout.areBlanks_line (depth + 1)), hskipItem]
      rw [hcons] at hread ⊢
      rw [readArray, if_neg hne, hread]
      simp only [Option.bind_eq_bind, Option.bind_some, hreadItems]
  | object [] =>
      obtain ⟨fuel, rfl⟩ := Nat.exists_eq_succ_of_ne_zero
        (show fuel ≠ 0 by rintro rfl; simp [write] at hfuel)
      rfl
  | object ((key, value) :: others) =>
      obtain ⟨hvalue, hothers⟩ := hreadable
      simp only [write, List.length_cons, List.length_append] at hfuel
      obtain ⟨fuel, rfl⟩ := Nat.exists_eq_succ_of_ne_zero (show fuel ≠ 0 by omega)
      have hread := readField_write layout ensureAscii depth key hvalue
        (show (encodeText ensureAscii key).length +
          (write layout ensureAscii (depth + 1) value).length +
          (writeFields layout ensureAscii depth others).length ≤ fuel by omega)
        (fun hlength _ hdelimited => readValue_write (depth + 1) value hvalue hlength hdelimited)
        (fun hlength => readFields_write depth others hothers hlength rest)
      simp only [write, List.cons_append, List.append_assoc]
      rw [readValue, if_neg (by decide), if_neg (by decide), if_pos rfl,
        skipBlanks_append (layout.areBlanks_line (depth + 1)), skipBlanks_encodeText]
      rw [encodeText] at hread ⊢
      simp only [List.cons_append, List.append_assoc] at hread ⊢
      rw [readObject, if_neg (by decide), hread]
      simp only [Option.bind_eq_bind, Option.bind_some]

theorem readItems_write (depth : ℕ) (items : List Json) (hreadable : ReadableItems items)
    {fuel : ℕ} (hfuel : (writeItems layout ensureAscii depth items).length ≤ fuel)
    (rest : List Char) :
    readItems fuel (skipBlanks (writeItems layout ensureAscii depth items ++ rest)) =
      some (items, rest) := by
  have hpositive := length_writeItems_pos layout ensureAscii depth items
  obtain ⟨fuel, rfl⟩ := Nat.exists_eq_succ_of_ne_zero (show fuel ≠ 0 by omega)
  match items with
  | [] =>
      rw [writeItems, List.append_assoc, skipBlanks_append (layout.areBlanks_line depth)]
      rfl
  | item :: others =>
      obtain ⟨hitem, hothers⟩ := hreadable
      have hdelimited := delimited_writeItems layout ensureAscii depth others rest
      obtain ⟨-, -, -, -, hskipItem⟩ := skipBlanks_write layout ensureAscii hitem (depth + 1)
        (writeItems layout ensureAscii depth others ++ rest)
      simp only [writeItems, List.length_cons, List.length_append] at hfuel
      have hread := readValue_write (depth + 1) item hitem
        (show (write layout ensureAscii (depth + 1) item).length ≤ fuel by omega) hdelimited
      have hreadOthers := readItems_write depth others hothers
        (show (writeItems layout ensureAscii depth others).length ≤ fuel by omega) rest
      simp only [writeItems, List.cons_append, List.append_assoc]
      rw [skipBlanks_cons rfl, readItems, if_neg (by decide), if_pos rfl,
        skipBlanks_append layout.areBlanks_comma,
        skipBlanks_append (layout.areBlanks_line (depth + 1)), hskipItem, hread]
      simp only [Option.bind_eq_bind, Option.bind_some, hreadOthers]

theorem readFields_write (depth : ℕ) (fields : List (String × Json))
    (hreadable : ReadableFields fields) {fuel : ℕ}
    (hfuel : (writeFields layout ensureAscii depth fields).length ≤ fuel) (rest : List Char) :
    readFields fuel (skipBlanks (writeFields layout ensureAscii depth fields ++ rest)) =
      some (fields, rest) := by
  have hpositive := length_writeFields_pos layout ensureAscii depth fields
  obtain ⟨fuel, rfl⟩ := Nat.exists_eq_succ_of_ne_zero (show fuel ≠ 0 by omega)
  match fields with
  | [] =>
      rw [writeFields, List.append_assoc, skipBlanks_append (layout.areBlanks_line depth)]
      rfl
  | (key, value) :: others =>
      obtain ⟨hvalue, hothers⟩ := hreadable
      simp only [writeFields, List.length_cons, List.length_append] at hfuel
      have hread := readField_write layout ensureAscii depth key hvalue
        (show (encodeText ensureAscii key).length +
          (write layout ensureAscii (depth + 1) value).length +
          (writeFields layout ensureAscii depth others).length ≤ fuel by omega)
        (fun hlength _ hdelimited => readValue_write (depth + 1) value hvalue hlength hdelimited)
        (fun hlength => readFields_write depth others hothers hlength rest)
      simp only [writeFields, List.cons_append, List.append_assoc]
      rw [skipBlanks_cons rfl, readFields, if_neg (by decide), if_pos rfl,
        skipBlanks_append layout.areBlanks_comma,
        skipBlanks_append (layout.areBlanks_line (depth + 1)), skipBlanks_encodeText, hread]

end

/-- A text may end with blanks. -/
theorem readAll_write {value : Json} (hreadable : value.Readable) {blanks : List Char}
    (hblanks : AreBlanks blanks) :
    readAll (write layout ensureAscii 0 value ++ blanks) = some value := by
  have hrest : Delimited blanks := by
    have hdelimited := delimited_append hblanks (show Delimited [] from nofun)
    rwa [List.append_nil] at hdelimited
  obtain ⟨mark, tail, htext, -, hskip⟩ := skipBlanks_write layout ensureAscii hreadable 0 blanks
  have hlength : (write layout ensureAscii 0 value).length ≤
      (write layout ensureAscii 0 value ++ blanks).length + 1 := by
    rw [List.length_append]
    omega
  have hread := readValue_write layout ensureAscii 0 value hreadable hlength hrest
  have hend : skipBlanks blanks = [] := List.dropWhile_eq_nil_iff.mpr hblanks
  rw [readAll, hskip, hread]
  simp only [hend, if_true]

/-- `json.loads` reads a value back from its text with its keys sorted. -/
theorem loads_write {value : Json} (hreadable : value.Readable) {blanks : List Char}
    (hblanks : AreBlanks blanks) :
    loads (write layout ensureAscii 0 value ++ blanks) = some value.sortKeys := by
  rw [loads, readAll_write layout ensureAscii hreadable hblanks, Option.map_some]

end Layouts

theorem readAll_encode (ensureAscii : Bool) {value : Json} (hreadable : value.Readable) :
    readAll (encode ensureAscii value) = some value := by
  have hblanks : AreBlanks [] := fun _ hchar => absurd hchar List.not_mem_nil
  have hread := readAll_write .compact ensureAscii hreadable hblanks
  rwa [List.append_nil, write_compact] at hread

theorem loads_encode (ensureAscii : Bool) {value : Json} (hreadable : value.Readable) :
    loads (encode ensureAscii value) = some value.sortKeys := by
  rw [loads, readAll_encode ensureAscii hreadable, Option.map_some]

/-- A text belongs to one value only. -/
theorem eq_of_encode_eq {ensureAscii : Bool} {left right : Json}
    (hleft : left.Readable) (hright : right.Readable)
    (htext : encode ensureAscii left = encode ensureAscii right) : left = right := by
  have hread := readAll_encode ensureAscii hleft
  rw [htext, readAll_encode ensureAscii hright] at hread
  exact (Option.some.inj hread).symm

/-! ## Sorted keys -/

theorem insertField_of_lt {key : String} (value : Json) {fields : List (String × Json)}
    (hkeys : ∀ field ∈ fields, key < field.1) :
    insertField key value fields = (key, value) :: fields := by
  cases fields with
  | nil => rfl
  | cons field rest =>
      obtain ⟨other, held⟩ := field
      rw [insertField, if_pos (hkeys (other, held) (by simp))]

theorem sortItems_eq_self {items : List Json} (hitems : ∀ item ∈ items, item.sortKeys = item) :
    sortItems items = items := by
  induction items with
  | nil => rfl
  | cons item rest ih =>
      simp only [List.forall_mem_cons] at hitems
      rw [sortItems, hitems.1, ih hitems.2]

/-- Where the keys are sorted, only the values change. -/
theorem sortFields_of_pairwise {fields : List (String × Json)}
    (hkeys : fields.Pairwise fun left right => left.1 < right.1) :
    sortFields fields = fields.map fun field => (field.1, field.2.sortKeys) := by
  induction fields with
  | nil => rfl
  | cons field rest ih =>
      obtain ⟨key, value⟩ := field
      rw [List.pairwise_cons] at hkeys
      have hrest : ∀ field ∈ rest.map fun field => (field.1, field.2.sortKeys), key < field.1 := by
        intro field hfield
        obtain ⟨held, hheld, rfl⟩ := List.mem_map.mp hfield
        exact hkeys.1 held hheld
      rw [sortFields, ih hkeys.2, insertField_of_lt _ hrest, List.map_cons]

theorem sortKeys_object {fields : List (String × Json)} (names : List String)
    (hnames : fields.map Prod.fst = names) (hkeys : names.Pairwise (· < ·)) :
    (object fields).sortKeys = object (fields.map fun field => (field.1, field.2.sortKeys)) := by
  subst hnames
  rw [sortKeys, sortFields_of_pairwise (List.pairwise_map.mp hkeys)]

theorem sortFields_eq_self {fields : List (String × Json)}
    (hkeys : fields.Pairwise fun left right => left.1 < right.1)
    (hfields : ∀ field ∈ fields, field.2.sortKeys = field.2) : sortFields fields = fields := by
  rw [sortFields_of_pairwise hkeys]
  refine (List.map_congr_left ?_).trans (List.map_id fields)
  intro field hfield
  rw [hfields field hfield]
  rfl

/-- Sorting changes nothing where the keys are sorted already. -/
theorem sortKeys_of_isCanonical {value : Json} (hcanonical : value.IsCanonical) :
    value.sortKeys = value := by
  induction hcanonical with
  | array _ ih => rw [sortKeys, sortItems_eq_self ih]
  | object hkeys _ ih => rw [sortKeys, sortFields_eq_self hkeys ih]
  | _ => rfl

theorem mem_insertField {key : String} {value : Json} {fields : List (String × Json)}
    {field : String × Json} (hfield : field ∈ insertField key value fields) :
    field = (key, value) ∨ field ∈ fields := by
  induction fields with
  | nil => simpa [insertField] using hfield
  | cons first rest ih =>
      obtain ⟨other, held⟩ := first
      rw [insertField] at hfield
      split at hfield
      · simpa using hfield
      · split at hfield
        · exact Or.inr hfield
        · rcases List.mem_cons.mp hfield with rfl | hrest
          · simp
          · rcases ih hrest with hnew | hold
            · exact Or.inl hnew
            · exact Or.inr (List.mem_cons_of_mem _ hold)

theorem pairwise_insertField {key : String} {value : Json} {fields : List (String × Json)}
    (hkeys : fields.Pairwise fun left right => left.1 < right.1) :
    (insertField key value fields).Pairwise fun left right => left.1 < right.1 := by
  induction fields with
  | nil => exact List.pairwise_singleton _ _
  | cons first rest ih =>
      obtain ⟨other, held⟩ := first
      rw [List.pairwise_cons] at hkeys
      rw [insertField]
      split
      case isTrue hless =>
        rw [List.pairwise_cons, List.forall_mem_cons, List.pairwise_cons]
        exact ⟨⟨hless, fun field hfield => lt_trans hless (hkeys.1 field hfield)⟩, hkeys⟩
      case isFalse hnotless =>
        split
        case isTrue => exact List.pairwise_cons.mpr hkeys
        case isFalse hne =>
          rw [List.pairwise_cons]
          refine ⟨?_, ih hkeys.2⟩
          intro field hfield
          rcases mem_insertField hfield with rfl | hold
          · exact lt_of_le_of_ne (not_lt.mp hnotless) (Ne.symm hne)
          · exact hkeys.1 field hold

mutual

theorem isCanonical_sortKeys (value : Json) : value.sortKeys.IsCanonical := by
  match value with
  | null => exact .null
  | bool value => exact .bool value
  | int value => exact .int value
  | float literal => exact .float literal
  | text value => exact .text value
  | array items => exact .array (isCanonical_sortItems items)
  | object fields => exact .object (sortFields_sorted fields).1 (sortFields_sorted fields).2

theorem isCanonical_sortItems (items : List Json) :
    ∀ item ∈ sortItems items, item.IsCanonical := by
  match items with
  | [] => exact nofun
  | item :: rest =>
      rw [sortItems, List.forall_mem_cons]
      exact ⟨isCanonical_sortKeys item, isCanonical_sortItems rest⟩

theorem sortFields_sorted (fields : List (String × Json)) :
    ((sortFields fields).Pairwise fun left right => left.1 < right.1) ∧
      ∀ field ∈ sortFields fields, field.2.IsCanonical := by
  match fields with
  | [] => exact ⟨List.Pairwise.nil, nofun⟩
  | (key, value) :: rest =>
      obtain ⟨hkeys, hfields⟩ := sortFields_sorted rest
      refine ⟨pairwise_insertField hkeys, ?_⟩
      intro field hfield
      rcases mem_insertField hfield with rfl | hold
      · exact isCanonical_sortKeys value
      · exact hfields field hold

end

/-- The values that sorting leaves alone. -/
theorem sortKeys_eq_self_iff {value : Json} : value.sortKeys = value ↔ value.IsCanonical := by
  constructor
  · intro hsorted
    rw [← hsorted]
    exact isCanonical_sortKeys value
  · exact sortKeys_of_isCanonical

end AegisForge.Core.Json
