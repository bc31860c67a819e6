import AegisForge.Core.CanonicalJson

/-!
# Values that were decoded

What `json.loads` answers has its keys in order, and its floats are texts of floats.
-/

namespace AegisForge.Core.Json

/-! ## Numbers -/

/-- No digit follows. -/
def EndsDigits (rest : List Char) : Prop := ∀ mark ∈ rest.head?, mark.isDigit = false

theorem isDigit_of_mem_scanDigits {input : List Char} {digit : Char}
    (hdigit : digit ∈ (scanDigits input).1) : digit.isDigit = true :=
  List.mem_takeWhile_imp hdigit

theorem scanDigits_scanned (input : List Char) {rest : List Char} (hrest : EndsDigits rest) :
    scanDigits ((scanDigits input).1 ++ rest) = ((scanDigits input).1, rest) := by
  have hall : ∀ digit ∈ input.takeWhile Char.isDigit, digit.isDigit = true :=
    fun _ => List.mem_takeWhile_imp
  have hnone : rest.takeWhile Char.isDigit = [] ∧ rest.dropWhile Char.isDigit = rest := by
    cases rest with
    | nil => exact ⟨rfl, rfl⟩
    | cons mark tail =>
        have hmark := hrest mark rfl
        simp [hmark]
  simp only [scanDigits, List.takeWhile_append_of_pos hall, List.dropWhile_append_of_pos hall,
    hnone, List.append_nil]

theorem scanWhole_scanned (input : List Char) {rest : List Char} (hrest : EndsDigits rest)
    (hwhole : (scanWhole input).1 ≠ []) :
    scanWhole ((scanWhole input).1 ++ rest) = ((scanWhole input).1, rest) := by
  cases input with
  | nil => exact absurd rfl hwhole
  | cons digit tail =>
      by_cases hzero : digit = '0'
      · simp [scanWhole, hzero]
      · have hscanned := scanDigits_scanned (digit :: tail) hrest
        rw [scanWhole, if_neg hzero] at hwhole ⊢
        by_cases hdigit : digit.isDigit = true
        · have hcons : (scanDigits (digit :: tail)).1 = digit :: (scanDigits tail).1 := by
            simp [scanDigits, hdigit]
          rw [hcons] at hscanned ⊢
          rw [List.cons_append] at hscanned ⊢
          rw [scanWhole, if_neg hzero, hscanned]
        · simp [scanDigits, hdigit] at hwhole

theorem isDigit_of_mem_scanWhole {input : List Char} {digit : Char}
    (hdigit : digit ∈ (scanWhole input).1) : digit.isDigit = true := by
  cases input with
  | nil => cases hdigit
  | cons first tail =>
      rw [scanWhole] at hdigit
      split at hdigit
      case isTrue =>
        rw [List.mem_singleton] at hdigit
        rw [hdigit]
        rfl
      case isFalse => exact isDigit_of_mem_scanDigits hdigit

theorem scanSign_cases (input : List Char) :
    (scanSign input).1 = [] ∨ (scanSign input).1 = ['-'] := by
  cases input with
  | nil => exact Or.inl rfl
  | cons sign tail =>
      rw [scanSign]
      split
      · exact Or.inr rfl
      · exact Or.inl rfl

theorem scanFraction_cases (input : List Char) :
    (scanFraction input).1 = [] ∨ ∃ digits, (scanDigits digits).1 ≠ [] ∧
      (scanFraction input).1 = '.' :: (scanDigits digits).1 := by
  cases input with
  | nil => exact Or.inl rfl
  | cons point tail =>
      rw [scanFraction]
      split
      case isTrue hpoint => exact Or.inr ⟨tail, hpoint.2, by rw [hpoint.1]⟩
      case isFalse => exact Or.inl rfl

theorem scanExponentSign_cases (input : List Char) :
    (scanExponentSign input).1 = [] ∨ (scanExponentSign input).1 = ['-'] ∨
      (scanExponentSign input).1 = ['+'] := by
  cases input with
  | nil => exact Or.inl rfl
  | cons sign tail =>
      rw [scanExponentSign]
      split
      case isTrue hsign => rcases hsign with rfl | rfl <;> simp
      case isFalse => exact Or.inl rfl

theorem scanExponent_cases (input : List Char) :
    (scanExponent input).1 = [] ∨ ∃ letter sign digits,
      (letter = 'e' ∨ letter = 'E') ∧ (sign = [] ∨ sign = ['-'] ∨ sign = ['+']) ∧
      (scanDigits digits).1 ≠ [] ∧
      (scanExponent input).1 = letter :: (sign ++ (scanDigits digits).1) := by
  cases input with
  | nil => exact Or.inl rfl
  | cons letter tail =>
      simp only [scanExponent]
      split
      case isTrue hletter =>
        exact Or.inr ⟨letter, _, _, hletter.1, scanExponentSign_cases tail, hletter.2, rfl⟩
      case isFalse => exact Or.inl rfl

theorem endsDigits_exponent (input : List Char) : EndsDigits (scanExponent input).1 := by
  obtain hnone | ⟨letter, sign, digits, hletter, -, -, htext⟩ := scanExponent_cases input
  · rw [hnone]
    exact nofun
  · rw [htext]
    rintro mark ⟨⟩
    rcases hletter with rfl | rfl <;> rfl

theorem scanExponent_scanned (input : List Char) :
    scanExponent (scanExponent input).1 = ((scanExponent input).1, []) := by
  obtain hnone | ⟨letter, sign, digits, hletter, hsign, hdigits, htext⟩ :=
    scanExponent_cases input
  · rw [hnone]
    rfl
  · have hscanned := scanDigits_scanned digits (show EndsDigits [] from nofun)
    rw [List.append_nil] at hscanned
    have hrest : scanExponentSign (sign ++ (scanDigits digits).1) =
        (sign, (scanDigits digits).1) := by
      rcases hsign with rfl | rfl | rfl
      · cases hfirst : (scanDigits digits).1 with
        | nil => exact absurd hfirst hdigits
        | cons first more =>
            have hdigit := isDigit_of_mem_scanDigits (show first ∈ (scanDigits digits).1 by
              rw [hfirst]
              exact List.mem_cons_self)
            rw [List.nil_append, scanExponentSign, if_neg ?_]
            rintro (rfl | rfl) <;> cases hdigit
      · rfl
      · rfl
    rw [htext, scanExponent]
    simp only [hrest, hscanned]
    rw [if_pos ⟨hletter, hdigits⟩]
    rfl

theorem scanFraction_scanned (input exponentInput : List Char) :
    scanFraction ((scanFraction input).1 ++ (scanExponent exponentInput).1) =
      ((scanFraction input).1, (scanExponent exponentInput).1) := by
  have hends := endsDigits_exponent exponentInput
  obtain hnone | ⟨digits, hdigits, htext⟩ := scanFraction_cases input
  · rw [hnone, List.nil_append]
    obtain hempty | ⟨letter, sign, digits, hletter, -, -, htext⟩ :=
      scanExponent_cases exponentInput
    · rw [hempty]
      rfl
    · rw [htext, scanFraction, if_neg]
      rintro ⟨rfl, -⟩
      rcases hletter with hletter | hletter <;> cases hletter
  · rw [htext, List.cons_append, scanFraction, scanDigits_scanned digits hends,
      if_pos ⟨rfl, hdigits⟩]

theorem endsDigits_fraction (input exponentInput : List Char) :
    EndsDigits ((scanFraction input).1 ++ (scanExponent exponentInput).1) := by
  obtain hnone | ⟨digits, -, htext⟩ := scanFraction_cases input
  · rw [hnone, List.nil_append]
    exact endsDigits_exponent exponentInput
  · rw [htext]
    rintro mark ⟨⟩
    rfl

theorem scanSign_scanned (input : List Char) (hwhole : (scanWhole (scanSign input).2).1 ≠ [])
    (rest : List Char) :
    scanSign ((scanSign input).1 ++ ((scanWhole (scanSign input).2).1 ++ rest)) =
      ((scanSign input).1, (scanWhole (scanSign input).2).1 ++ rest) := by
  have hdigits := @isDigit_of_mem_scanWhole (scanSign input).2
  obtain hnone | hminus := scanSign_cases input
  · rw [hnone, List.nil_append]
    cases hfirst : (scanWhole (scanSign input).2).1 with
    | nil => exact absurd hfirst hwhole
    | cons first more =>
        have hdigit := hdigits (by rw [hfirst]; exact List.mem_cons_self)
        rw [List.cons_append, scanSign, if_neg]
        rintro rfl
        cases hdigit
  · rw [hminus]
    rfl

/-- The text of a number that was scanned is scanned as that number. -/
theorem scanNumber_scanned {input : List Char} (hwhole : (scanNumber input).1.whole ≠ []) :
    scanNumber (scanNumber input).1.text = ((scanNumber input).1, []) := by
  simp only [scanNumber, NumberText.text, List.append_assoc] at hwhole ⊢
  have hrest := endsDigits_fraction (scanWhole (scanSign input).2).2
    (scanFraction (scanWhole (scanSign input).2).2).2
  have hscanned := scanWhole_scanned (scanSign input).2 hrest hwhole
  have hsign := scanSign_scanned input hwhole
  rw [hsign]
  simp only [hscanned, scanFraction_scanned, scanExponent_scanned]

theorem readable_value (input : List Char) (hwhole : (scanNumber input).1.whole ≠ []) :
    (scanNumber input).1.value.Readable := by
  rw [NumberText.value]
  split
  case isTrue => split <;> trivial
  case isFalse hfloat =>
    have htext : (String.ofList (scanNumber input).1.text).toList = (scanNumber input).1.text :=
      String.toList_ofList
    refine Or.inl ⟨?_, ?_, ?_⟩
    all_goals rw [htext, scanNumber_scanned hwhole]
    · exact hwhole
    · simpa using hfloat

/-! ## Values -/

theorem readable_words : ∀ word ∈ words, word.2.Readable := by
  simp only [words, List.forall_mem_cons]
  refine ⟨trivial, trivial, trivial, ?_, ?_, ?_, nofun⟩
  all_goals exact Or.inr (by simp)

theorem readable_readScalar {input rest : List Char} {value : Json}
    (hread : readScalar input = some (value, rest)) : value.Readable := by
  simp only [readScalar] at hread
  split at hread
  case isTrue =>
    obtain ⟨word, hword, hvalue⟩ := Option.map_eq_some_iff.mp hread
    obtain ⟨rfl, -⟩ := Prod.mk.inj hvalue
    exact readable_words word (List.mem_of_find?_eq_some hword)
  case isFalse hwhole =>
    obtain ⟨rfl, -⟩ := Prod.mk.inj (Option.some.inj hread)
    exact readable_value input hwhole

/-- What the readers answer with some fuel is readable. -/
structure ReadsReadable (fuel : ℕ) : Prop where
  value : ∀ {input rest value}, readValue fuel input = some (value, rest) → value.Readable
  array : ∀ {input rest value}, readArray fuel input = some (value, rest) → value.Readable
  items : ∀ {input rest items}, readItems fuel input = some (items, rest) → ReadableItems items
  object : ∀ {input rest value}, readObject fuel input = some (value, rest) → value.Readable
  field : ∀ {input rest fields}, readField fuel input = some (fields, rest) →
    ReadableFields fields
  fields : ∀ {input rest fields}, readFields fuel input = some (fields, rest) →
    ReadableFields fields

theorem ReadsReadable.succ {fuel : ℕ} (hfuel : ReadsReadable fuel) : ReadsReadable (fuel + 1) where
  value := by
    intro input rest value hread
    cases input with
    | nil => cases hread
    | cons mark tail =>
        rw [readValue] at hread
        split at hread
        case isTrue =>
          simp only [Option.bind_eq_bind, Option.bind_eq_some_iff, Option.some.injEq,
            Prod.mk.injEq] at hread
          obtain ⟨_, -, rfl, -⟩ := hread
          trivial
        case isFalse =>
          split at hread
          case isTrue => exact hfuel.array hread
          case isFalse =>
            split at hread
            case isTrue => exact hfuel.object hread
            case isFalse => exact readable_readScalar hread
  array := by
    intro input rest value hread
    cases input with
    | nil => cases hread
    | cons mark tail =>
        rw [readArray] at hread
        split at hread
        case isTrue =>
          obtain ⟨rfl, -⟩ := Prod.mk.inj (Option.some.inj hread)
          trivial
        case isFalse =>
          simp only [Option.bind_eq_bind, Option.bind_eq_some_iff, Option.some.injEq,
            Prod.mk.injEq] at hread
          obtain ⟨_, hitem, _, hitems, rfl, -⟩ := hread
          exact ⟨hfuel.value hitem, hfuel.items hitems⟩
  items := by
    intro input rest items hread
    cases input with
    | nil => cases hread
    | cons mark tail =>
        rw [readItems] at hread
        split at hread
        case isTrue =>
          obtain ⟨rfl, -⟩ := Prod.mk.inj (Option.some.inj hread)
          trivial
        case isFalse =>
          split at hread
          case isTrue =>
            simp only [Option.bind_eq_bind, Option.bind_eq_some_iff, Option.some.injEq,
              Prod.mk.injEq] at hread
            obtain ⟨_, hitem, _, hitems, rfl, -⟩ := hread
            exact ⟨hfuel.value hitem, hfuel.items hitems⟩
          case isFalse => cases hread
  object := by
    intro input rest value hread
    cases input with
    | nil => cases hread
    | cons mark tail =>
        rw [readObject] at hread
        split at hread
        case isTrue =>
          obtain ⟨rfl, -⟩ := Prod.mk.inj (Option.some.inj hread)
          trivial
        case isFalse =>
          simp only [Option.bind_eq_bind, Option.bind_eq_some_iff, Option.some.injEq,
            Prod.mk.injEq] at hread
          obtain ⟨_, hfields, rfl, -⟩ := hread
          exact hfuel.field hfields
  field := by
    intro input rest fields hread
    simp only [readField, Option.bind_eq_bind, Option.bind_eq_some_iff, Option.some.injEq,
      Prod.mk.injEq] at hread
    obtain ⟨_, -, _, -, _, hvalue, _, hfields, rfl, -⟩ := hread
    exact ⟨hfuel.value hvalue, hfuel.fields hfields⟩
  fields := by
    intro input rest fields hread
    cases input with
    | nil => cases hread
    | cons mark tail =>
        rw [readFields] at hread
        split at hread
        case isTrue =>
          obtain ⟨rfl, -⟩ := Prod.mk.inj (Option.some.inj hread)
          trivial
        case isFalse =>
          split at hread
          case isTrue => exact hfuel.field hread
          case isFalse => cases hread

theorem readsReadable (fuel : ℕ) : ReadsReadable fuel := by
  induction fuel with
  | zero => constructor <;> exact fun {_ _ _} hread => nomatch hread
  | succ fuel ih => exact ih.succ

theorem readable_readAll {input : List Char} {value : Json}
    (hread : readAll input = some value) : value.Readable := by
  rw [readAll] at hread
  split at hread
  case h_1 hvalue =>
    split at hread
    case isTrue =>
      obtain rfl := Option.some.inj hread
      exact (readsReadable _).value hvalue
    case isFalse => cases hread
  case h_2 => cases hread

theorem readable_loads {input : List Char} {value : Json} (hread : loads input = some value) :
    value.Readable := by
  obtain ⟨written, hwritten, rfl⟩ := Option.map_eq_some_iff.mp hread
  exact readable_sortKeys (readable_readAll hwritten)

theorem isCanonical_loads {input : List Char} {value : Json} (hread : loads input = some value) :
    value.IsCanonical := by
  obtain ⟨written, -, rfl⟩ := Option.map_eq_some_iff.mp hread
  exact isCanonical_sortKeys written

end AegisForge.Core.Json
