import AegisForge.Core.Text

/-!
# Decoded JSON

The values that `json.loads` can answer, as untrusted arguments of verifiers.
-/

namespace AegisForge.Core

inductive Json
  | null
  | bool (value : Bool)
  | int (value : Int)
  /-- A float, by its `repr`. -/
  | float (literal : String)
  | text (value : String)
  | array (items : List Json)
  | object (fields : List (String × Json))
  deriving Inhabited

namespace Json

/-- `value.get(key)` on a dictionary. -/
def get? (value : Json) (key : String) : Option Json :=
  match value with
  | object fields => fields.lookup key
  | _ => none

/-- `value.get(key)`, where a missing field is `None`. -/
def get (value : Json) (key : String) : Json := (value.get? key).getD null

/-- `set(value)` on a dictionary. -/
def keys : Json → List String
  | object fields => fields.map Prod.fst
  | _ => []

/-- The value as a condition. -/
def isTruthy : Json → Bool
  | null => false
  | bool value => value
  | int value => value ≠ 0
  | float literal => literal ≠ "0.0" && literal ≠ "-0.0"
  | text value => value ≠ ""
  | array items => !items.isEmpty
  | object fields => !fields.isEmpty

def isObject : Json → Bool
  | object _ => true
  | _ => false

/-- `value is None`. -/
def isNull : Json → Bool
  | null => true
  | _ => false

/-- Whether `hash(value)` is defined. -/
def isHashable : Json → Bool
  | array _ => false
  | object _ => false
  | _ => true

/-- `isinstance(value, str)`, with the text. -/
def text? : Json → Option String
  | text value => some value
  | _ => none

theorem text?_eq_some_iff {value : Json} {text : String} :
    value.text? = some text ↔ value = .text text := by
  cases value <;> simp [text?]

/-- A text that is not blank. -/
def filledText? (value : Json) : Option String := value.text?.filter fun text => !isBlank text

theorem text_of_filledText? {value : Json} {text : String}
    (hfilled : value.filledText? = some text) : value = .text text ∧ isBlank text = false := by
  obtain ⟨htext, hblank⟩ := Option.filter_eq_some_iff.mp hfilled
  refine ⟨?_, by simpa using hblank⟩
  cases value with
  | text value => exact congrArg Json.text (Option.some.inj htext)
  | _ => cases htext

theorem isTruthy_of_filledText? {value : Json} {text : String}
    (hfilled : value.filledText? = some text) : value.isTruthy = true := by
  obtain ⟨rfl, hblank⟩ := text_of_filledText? hfilled
  rw [isTruthy, decide_eq_true_eq]
  rintro rfl
  cases hblank

/-- Every dictionary has its keys in their order, each once: the values up to the
order in which their keys were added. -/
inductive IsCanonical : Json → Prop
  | null : IsCanonical null
  | bool (value : Bool) : IsCanonical (bool value)
  | int (value : Int) : IsCanonical (int value)
  | float (literal : String) : IsCanonical (float literal)
  | text (value : String) : IsCanonical (text value)
  | array {items : List Json} (hitems : ∀ item ∈ items, IsCanonical item) :
      IsCanonical (array items)
  | object {fields : List (String × Json)}
      (hkeys : fields.Pairwise fun left right => left.1 < right.1)
      (hfields : ∀ field ∈ fields, IsCanonical field.2) : IsCanonical (object fields)

attribute [simp] IsCanonical.null IsCanonical.bool IsCanonical.int IsCanonical.float
  IsCanonical.text

@[simp]
theorem isCanonical_array_iff {items : List Json} :
    (array items).IsCanonical ↔ ∀ item ∈ items, item.IsCanonical := by
  constructor
  · rintro ⟨⟩
    assumption
  · exact IsCanonical.array

@[simp]
theorem isCanonical_object_iff {fields : List (String × Json)} :
    (object fields).IsCanonical ↔
      (fields.map Prod.fst).IsChain (· < ·) ∧ ∀ field ∈ fields, field.2.IsCanonical := by
  rw [List.isChain_iff_pairwise, List.pairwise_map]
  constructor
  · rintro ⟨⟩
    constructor <;> assumption
  · rintro ⟨hkeys, hfields⟩
    exact IsCanonical.object hkeys hfields

/-- The required keys that a dictionary lacks, sorted and joined by commas. -/
def missing (value : Json) (required : List String) : Option String :=
  match sorted (required.filter fun key => key ∉ value.keys) with
  | [] => none
  | absent => some (",".intercalate absent)

theorem missing_eq_none_iff {value : Json} {required : List String} :
    value.missing required = none ↔ ∀ key ∈ required, key ∈ value.keys := by
  rw [missing]
  split
  case h_1 hsorted =>
    simp only [true_iff]
    intro key hkey
    by_contra habsent
    have hmem : key ∈ sorted (required.filter fun key => key ∉ value.keys) := by
      simp [hkey, habsent]
    rw [hsorted] at hmem
    cases hmem
  case h_2 hsorted =>
    simp only [reduceCtorEq, false_iff]
    intro hpresent
    apply hsorted
    have hnone : (required.filter fun key => key ∉ value.keys) = [] := by
      simpa using hpresent
    rw [hnone]
    rfl

end Json

end AegisForge.Core
