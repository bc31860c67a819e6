import Mathlib.Algebra.Field.Rat
import AegisForge.Core.CanonicalJson

/-!
# Equality of decoded values

`left == right` on what a reader answers: `1`, `1.0` and `True` are the same
number, and a float that is no number is not even itself.
-/

namespace AegisForge.Core

/-! ## Numbers -/

/-- The value of a number. -/
inductive Magnitude
  | finite (value : ℚ)
  | infinite (negative : Bool)
  deriving DecidableEq

namespace Magnitude

/-- The nearest integer, of two the even one. -/
def roundHalfEven (value : ℚ) : ℤ :=
  let below := value.floor
  let rest := value - below
  if rest < 1 / 2 ∨ rest = 1 / 2 ∧ below % 2 = 0 then below else below + 1

/-- The exponent of the leading binary digit, but at least that of the smallest
normal double. -/
def binaryExponent (value : ℚ) : ℤ :=
  let estimate : ℤ := Nat.log2 value.num.natAbs - Nat.log2 value.den
  max (-1022) (if (2 : ℚ) ^ estimate ≤ value then estimate else estimate - 1)

/-- The double that is nearest to a number that is not negative. -/
def nearestDouble (value : ℚ) : Magnitude :=
  let unit : ℚ := 2 ^ (binaryExponent value - 52)
  let rounded := roundHalfEven (value / unit) * unit
  if (2 : ℚ) ^ (1024 : ℤ) ≤ rounded then infinite false else finite rounded

def negate : Magnitude → Magnitude
  | finite value => finite (-value)
  | infinite negative => infinite !negative

/-- The digits of an exponent after its letter. -/
def exponentValue : List Char → ℤ
  | [] => 0
  | sign :: digits =>
      if sign = '-' then -Nat.ofDigitChars 10 digits 0
      else if sign = '+' then Nat.ofDigitChars 10 digits 0
      else Nat.ofDigitChars 10 (sign :: digits) 0

/-- The number that a text of a float denotes. -/
def ofLiteral (literal : String) : Option Magnitude :=
  if literal = "NaN" then none
  else if literal = "Infinity" then some (infinite false)
  else if literal = "-Infinity" then some (infinite true)
  else
    let number := (Json.scanNumber literal.toList).1
    let fraction := number.fraction.tail
    let digits : ℚ := (Nat.ofDigitChars 10 (number.whole ++ fraction) 0 : ℕ)
    let double := nearestDouble
      (digits * 10 ^ (exponentValue number.exponent.tail - fraction.length))
    some (if number.sign = [] then double else double.negate)

end Magnitude

namespace Json

/-- The number that a value is, where it is one. -/
def magnitude? : Json → Option Magnitude
  | bool value => some (.finite (if value then 1 else 0))
  | int value => some (.finite value)
  | float literal => Magnitude.ofLiteral literal
  | _ => none

/-! ## Equality -/

mutual

/-- `left == right`. -/
def equal : Json → Json → Bool
  | null, null => true
  | text left, text right => left = right
  | array left, array right => equalItems left right
  | object left, object right => equalFields left right
  | left, right => left.magnitude?.any fun value => right.magnitude? = some value

def equalItems : List Json → List Json → Bool
  | [], [] => true
  | left :: leftRest, right :: rightRest => equal left right && equalItems leftRest rightRest
  | _, _ => false

def equalFields : List (String × Json) → List (String × Json) → Bool
  | [], [] => true
  | (leftKey, left) :: leftRest, (rightKey, right) :: rightRest =>
      leftKey = rightKey && equal left right && equalFields leftRest rightRest
  | _, _ => false

end

theorem equal_text_iff {left : String} {right : Json} :
    equal (text left) right = true ↔ right = text left := by
  cases right <;> simp [equal, magnitude?, eq_comm]

theorem equal_text_right_iff {left : Json} {right : String} :
    equal left (text right) = true ↔ left = text right := by
  cases left <;> simp [equal, magnitude?]

theorem equal_null_right_iff {left : Json} : equal left null = true ↔ left = null := by
  cases left <;> simp [equal, magnitude?]

theorem equal_int_iff {left right : ℤ} : equal (int left) (int right) = true ↔ left = right := by
  simp [equal, magnitude?, eq_comm]

/-- Equal dictionaries have the same keys. -/
theorem keys_of_equalFields {left right : List (String × Json)}
    (hequal : equalFields left right = true) : left.map Prod.fst = right.map Prod.fst := by
  induction left generalizing right with
  | nil =>
      cases right with
      | nil => rfl
      | cons field rest => simp [equalFields] at hequal
  | cons field rest ih =>
      cases right with
      | nil => simp [equalFields] at hequal
      | cons other others =>
          simp only [equalFields, Bool.and_eq_true, decide_eq_true_eq] at hequal
          rw [List.map_cons, List.map_cons, hequal.1.1, ih hequal.2]

/-- What is equal to a dictionary is a dictionary with the same keys. -/
theorem keys_of_equal_object {fields : List (String × Json)} {value : Json}
    (hequal : equal (object fields) value = true) :
    value.isObject = true ∧ value.keys = fields.map Prod.fst := by
  cases value with
  | object others =>
      rw [equal] at hequal
      exact ⟨rfl, (keys_of_equalFields hequal).symm⟩
  | _ => simp [equal, magnitude?] at hequal

theorem equalItems_iff {left right : List Json} :
    equalItems left right = true ↔ List.Forall₂ (fun left right => equal left right = true)
      left right := by
  induction left generalizing right with
  | nil => cases right <;> simp [equalItems]
  | cons item rest ih => cases right <;> simp [equalItems, ih]

/-- What is equal to a list is a list with equal items. -/
theorem items_of_equal_array {items : List Json} {value : Json}
    (hequal : equal (array items) value = true) :
    ∃ others, value = array others ∧
      List.Forall₂ (fun left right => equal left right = true) items others := by
  cases value with
  | array others => exact ⟨others, rfl, equalItems_iff.mp hequal⟩
  | _ => simp [equal, magnitude?] at hequal

theorem lookup_of_equalFields {left right : List (String × Json)}
    (hequal : equalFields left right = true) {key : String} {value : Json}
    (hvalue : left.lookup key = some value) :
    ∃ other, right.lookup key = some other ∧ equal value other = true := by
  induction left generalizing right with
  | nil => cases hvalue
  | cons field rest ih =>
      cases right with
      | nil => simp [equalFields] at hequal
      | cons other others =>
          simp only [equalFields, Bool.and_eq_true, decide_eq_true_eq] at hequal
          obtain ⟨⟨hkey, hfirst⟩, hrest⟩ := hequal
          rw [List.lookup_cons] at hvalue ⊢
          rw [← hkey]
          by_cases hfield : key = field.1
          · rw [beq_iff_eq.mpr hfield] at hvalue ⊢
            obtain rfl := Option.some.inj hvalue
            exact ⟨other.2, rfl, hfirst⟩
          · rw [beq_false_of_ne hfield] at hvalue ⊢
            exact ih hrest hvalue

/-- Equal dictionaries have equal values. -/
theorem equal_get_of_equal_object {fields : List (String × Json)} {value : Json}
    (hequal : equal (object fields) value = true) {key : String} {held : Json}
    (hheld : fields.lookup key = some held) : equal held (value.get key) = true := by
  cases value with
  | object others =>
      rw [equal] at hequal
      obtain ⟨other, hother, hsame⟩ := lookup_of_equalFields hequal hheld
      rw [get, get?, hother]
      exact hsame
  | _ => simp [equal, magnitude?] at hequal

mutual

/-- A value without floats is equal to itself. -/
def Exact : Json → Prop
  | float _ => False
  | array items => ExactItems items
  | object fields => ExactFields fields
  | _ => True

def ExactItems : List Json → Prop
  | [] => True
  | item :: rest => Exact item ∧ ExactItems rest

def ExactFields : List (String × Json) → Prop
  | [] => True
  | (_, value) :: rest => Exact value ∧ ExactFields rest

end

mutual

theorem equal_self {value : Json} (hexact : value.Exact) : equal value value = true := by
  match value with
  | null => rfl
  | bool _ => simp [equal, magnitude?]
  | int _ => simp [equal, magnitude?]
  | text _ => simp [equal]
  | array items =>
      rw [equal]
      exact equalItems_self hexact
  | object fields =>
      rw [equal]
      exact equalFields_self hexact

theorem equalItems_self {items : List Json} (hexact : ExactItems items) :
    equalItems items items = true := by
  match items with
  | [] => rfl
  | item :: rest =>
      rw [equalItems, Bool.and_eq_true]
      exact ⟨equal_self hexact.1, equalItems_self hexact.2⟩

theorem equalFields_self {fields : List (String × Json)} (hexact : ExactFields fields) :
    equalFields fields fields = true := by
  match fields with
  | [] => rfl
  | (key, value) :: rest =>
      rw [equalFields, equal_self hexact.1, equalFields_self hexact.2]
      simp

end

/-! ## Values without floats -/

theorem exactItems_iff {items : List Json} : ExactItems items ↔ ∀ item ∈ items, item.Exact := by
  induction items with
  | nil => simp [ExactItems]
  | cons item rest ih => rw [ExactItems, ih, List.forall_mem_cons]

theorem exactFields_iff {fields : List (String × Json)} :
    ExactFields fields ↔ ∀ value ∈ fields.map Prod.snd, value.Exact := by
  induction fields with
  | nil => simp [ExactFields]
  | cons field rest ih =>
      obtain ⟨key, value⟩ := field
      rw [ExactFields, ih, List.map_cons, List.forall_mem_cons]

mutual

theorem readable_of_exact {value : Json} (hexact : value.Exact) : value.Readable := by
  match value with
  | null => trivial
  | bool _ => trivial
  | int _ => trivial
  | text _ => trivial
  | array items => exact readableItems_of_exact hexact
  | object fields => exact readableFields_of_exact hexact

theorem readableItems_of_exact {items : List Json} (hexact : ExactItems items) :
    ReadableItems items := by
  match items with
  | [] => trivial
  | item :: rest => exact ⟨readable_of_exact hexact.1, readableItems_of_exact hexact.2⟩

theorem readableFields_of_exact {fields : List (String × Json)} (hexact : ExactFields fields) :
    ReadableFields fields := by
  match fields with
  | [] => trivial
  | (key, value) :: rest => exact ⟨readable_of_exact hexact.1, readableFields_of_exact hexact.2⟩

end

mutual

theorem isFinite_of_exact {value : Json} (hexact : value.Exact) : value.isFinite = true := by
  match value with
  | null => rfl
  | bool _ => rfl
  | int _ => rfl
  | text _ => rfl
  | array items =>
      rw [isFinite]
      exact finiteItems_of_exact hexact
  | object fields =>
      rw [isFinite]
      exact finiteFields_of_exact hexact

theorem finiteItems_of_exact {items : List Json} (hexact : ExactItems items) :
    finiteItems items = true := by
  match items with
  | [] => rfl
  | item :: rest =>
      rw [finiteItems, isFinite_of_exact hexact.1, finiteItems_of_exact hexact.2]
      rfl

theorem finiteFields_of_exact {fields : List (String × Json)} (hexact : ExactFields fields) :
    finiteFields fields = true := by
  match fields with
  | [] => rfl
  | (key, value) :: rest =>
      rw [finiteFields, isFinite_of_exact hexact.1, finiteFields_of_exact hexact.2]
      rfl

end

end Json

end AegisForge.Core
