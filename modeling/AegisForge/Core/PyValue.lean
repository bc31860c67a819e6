import Mathlib.Algebra.Order.Ring.Rat
import AegisForge.Core.CanonicalJson

/-!
# Values before serialization

The objects of the language that reach a serializer: their dictionaries may have
keys that are no texts.  Keys are sorted as they are and written as texts.
-/

namespace AegisForge.Core

/-- The text of a float that is finite. -/
structure FloatText where
  literal : String
  isFloat : Json.IsFloatText literal
  isFinite : literal ∉ ["NaN", "Infinity", "-Infinity"]

/-- A key of a dictionary.  A float comes with its value, which it is sorted by. -/
inductive PyKey
  | none
  | bool (value : Bool)
  | int (value : ℤ)
  | float (literal : FloatText) (value : ℚ)
  | text (value : String)
  /-- A key that no serializer takes. -/
  | other

inductive PyValue
  | none
  | bool (value : Bool)
  | int (value : ℤ)
  | float (literal : FloatText)
  /-- An infinity or a float that is no number. -/
  | nonFinite
  | text (value : String)
  | list (items : List PyValue)
  | tuple (items : List PyValue)
  | dict (fields : List (PyKey × PyValue))
  /-- An object that no serializer takes. -/
  | other

namespace PyKey

/-- The number that a key is. -/
def number? : PyKey → Option ℚ
  | bool value => some (if value then 1 else 0)
  | int value => some value
  | float _ value => some value
  | _ => Option.none

def isText : PyKey → Bool
  | text _ => true
  | _ => false

/-- `left < right`, of keys that can be compared. -/
def less : PyKey → PyKey → Bool
  | text left, text right => left < right
  | left, right =>
      match left.number?, right.number? with
      | some left, some right => left < right
      | _, _ => false

/-- `key == name`. -/
def isNamed (name : String) : PyKey → Bool
  | text value => value = name
  | _ => false

/-- The key as it is written. -/
def text? : PyKey → Option String
  | none => some "null"
  | bool value => some (if value then "true" else "false")
  | int value => some (String.ofList (Json.encodeInt value))
  | float literal _ => some literal.literal
  | text value => some value
  | other => Option.none

/-- Keys of which each can be compared with each, which a single key need not be. -/
def sortable (keys : List PyKey) : Bool :=
  keys.length ≤ 1 || keys.all isText || keys.all fun key => key.number?.isSome

/-- `sorted` on keys. -/
def sorted (keys : List PyKey) : List PyKey :=
  keys.insertionSort fun left right => right.less left = false

end PyKey

/-- `sorted(dict.items())` with the keys as they are written. -/
def sortedFields (fields : List (PyKey × Json)) : Option (List (String × Json)) :=
  if PyKey.sortable (fields.map Prod.fst) = true then
    (fields.insertionSort fun left right => right.1.less left.1 = false).mapM fun field =>
      field.1.text?.map fun key => (key, field.2)
  else none

namespace PyValue

mutual

/-- What `json.dumps` with sorted keys and without infinities writes. -/
def tree : PyValue → Option Json
  | none => some .null
  | bool value => some (.bool value)
  | int value => some (.int value)
  | float literal => some (.float literal.literal)
  | text value => some (.text value)
  | list items => (treeItems items).map .array
  | tuple items => (treeItems items).map .array
  | dict fields => (treeFields fields).bind fun fields => (sortedFields fields).map .object
  | nonFinite => Option.none
  | other => Option.none

def treeItems : List PyValue → Option (List Json)
  | [] => some []
  | item :: rest => do
      let item ← tree item
      let rest ← treeItems rest
      some (item :: rest)

def treeFields : List (PyKey × PyValue) → Option (List (PyKey × Json))
  | [] => some []
  | (key, value) :: rest => do
      let value ← tree value
      let rest ← treeFields rest
      some ((key, value) :: rest)

end

mutual

/-- In every dictionary the sorted keys have texts in the order of texts. -/
def KeysInTextOrder : PyValue → Prop
  | list items => ItemsInTextOrder items
  | tuple items => ItemsInTextOrder items
  | dict fields =>
      ((PyKey.sorted (fields.map Prod.fst)).filterMap PyKey.text?).Pairwise (· < ·) ∧
        FieldsInTextOrder fields
  | _ => True

def ItemsInTextOrder : List PyValue → Prop
  | [] => True
  | item :: rest => KeysInTextOrder item ∧ ItemsInTextOrder rest

def FieldsInTextOrder : List (PyKey × PyValue) → Prop
  | [] => True
  | (_, value) :: rest => KeysInTextOrder value ∧ FieldsInTextOrder rest

end

mutual

instance decideKeysInTextOrder : (value : PyValue) → Decidable value.KeysInTextOrder
  | list items => decideItemsInTextOrder items
  | tuple items => decideItemsInTextOrder items
  | dict fields => @instDecidableAnd _ _ inferInstance (decideFieldsInTextOrder fields)
  | none => isTrue trivial
  | bool _ => isTrue trivial
  | int _ => isTrue trivial
  | float _ => isTrue trivial
  | nonFinite => isTrue trivial
  | text _ => isTrue trivial
  | other => isTrue trivial

instance decideItemsInTextOrder : (items : List PyValue) → Decidable (ItemsInTextOrder items)
  | [] => isTrue trivial
  | item :: rest =>
      @instDecidableAnd _ _ (decideKeysInTextOrder item) (decideItemsInTextOrder rest)

instance decideFieldsInTextOrder : (fields : List (PyKey × PyValue)) →
    Decidable (FieldsInTextOrder fields)
  | [] => isTrue trivial
  | (_, value) :: rest =>
      @instDecidableAnd _ _ (decideKeysInTextOrder value) (decideFieldsInTextOrder rest)

end

/-- `value[key]` on a dictionary. -/
def lookup? (value : PyValue) (key : String) : Option PyValue :=
  match value with
  | dict fields =>
      (fields.find? fun field => field.1.isNamed key).map Prod.snd
  | _ => Option.none

/-- `isinstance(value, str)`, with the text. -/
def text? : PyValue → Option String
  | text value => some value
  | _ => Option.none

/-- `isinstance(value, list)`, with the items. -/
def list? : PyValue → Option (List PyValue)
  | list items => some items
  | _ => Option.none

def isDict : PyValue → Bool
  | dict _ => true
  | _ => false

/-- `value[key]` of a key that is there. -/
def item (value : PyValue) (key : String) : PyValue := (value.lookup? key).getD none

/-- `required.issubset(value)` on a dictionary. -/
def hasKeys (value : PyValue) (required : List String) : Bool :=
  value.isDict && required.all fun key => (value.lookup? key).isSome

/-- The dictionary with the given texts as its keys. -/
def record (fields : List (String × PyValue)) : PyValue :=
  dict (fields.map fun field => (.text field.1, field.2))

/-- The dictionary without some of its keys. -/
def without (value : PyValue) (names : List String) : PyValue :=
  match value with
  | dict fields => dict (fields.filter fun field => !names.any fun name => field.1.isNamed name)
  | value => value

mutual

/-- A decoded value as an object of the language. -/
def ofJson : Json → PyValue
  | .null => none
  | .bool value => bool value
  | .int value => int value
  | .float literal =>
      if hliteral : Json.IsFloatText literal ∧ literal ∉ ["NaN", "Infinity", "-Infinity"] then
        float ⟨literal, hliteral.1, hliteral.2⟩
      else nonFinite
  | .text value => text value
  | .array items => list (ofItems items)
  | .object fields => dict (ofFields fields)

def ofItems : List Json → List PyValue
  | [] => []
  | item :: rest => ofJson item :: ofItems rest

def ofFields : List (String × Json) → List (PyKey × PyValue)
  | [] => []
  | (key, value) :: rest => (.text key, ofJson value) :: ofFields rest

end

end PyValue

/-! ## What is written -/

/-- Keys and values of what is written, in the order of the keys. -/
theorem mapM_text {pairs : List (PyKey × Json)} {fields : List (String × Json)}
    (hfields : (pairs.mapM fun pair => pair.1.text?.map fun key => (key, pair.2)) = some fields) :
    fields.map Prod.fst = (pairs.map Prod.fst).filterMap PyKey.text? ∧
      fields.map Prod.snd = pairs.map Prod.snd := by
  induction pairs generalizing fields with
  | nil =>
      obtain rfl := Option.some.inj hfields
      exact ⟨rfl, rfl⟩
  | cons pair rest ih =>
      simp only [List.mapM_cons, Option.bind_eq_bind, Option.bind_eq_some_iff,
        Option.map_eq_some_iff] at hfields
      obtain ⟨_, ⟨key, hkey, rfl⟩, others, hothers, hanswer⟩ := hfields
      obtain rfl := Option.some.inj hanswer
      obtain ⟨hkeys, hvalues⟩ := ih hothers
      simp [hkey, hkeys, hvalues]

theorem sortedFields_eq_some {pairs : List (PyKey × Json)} {fields : List (String × Json)}
    (hfields : sortedFields pairs = some fields) :
    fields.map Prod.fst = (PyKey.sorted (pairs.map Prod.fst)).filterMap PyKey.text? ∧
      (fields.map Prod.snd).Perm (pairs.map Prod.snd) := by
  rw [sortedFields] at hfields
  split at hfields
  case isTrue =>
    obtain ⟨hkeys, hvalues⟩ := mapM_text hfields
    rw [hkeys, hvalues]
    constructor
    · rw [PyKey.sorted]
      congr 1
      exact List.map_insertionSort _ (fun left right : PyKey => right.less left = false) Prod.fst
        pairs fun _ _ _ _ => Iff.rfl
    · exact (List.perm_insertionSort _ pairs).map _
  case isFalse => cases hfields

/-- A dictionary is canonical when its sorted keys are, and its values. -/
theorem isCanonical_sortedFields_iff {pairs : List (PyKey × Json)}
    {fields : List (String × Json)} (hfields : sortedFields pairs = some fields) :
    (Json.object fields).IsCanonical ↔
      ((PyKey.sorted (pairs.map Prod.fst)).filterMap PyKey.text?).Pairwise (· < ·) ∧
        ∀ pair ∈ pairs, pair.2.IsCanonical := by
  obtain ⟨hkeys, hvalues⟩ := sortedFields_eq_some hfields
  rw [Json.isCanonical_object_iff, List.isChain_iff_pairwise, hkeys]
  apply and_congr_right
  intro _
  have hall : ∀ value : Json, value ∈ fields.map Prod.snd ↔ value ∈ pairs.map Prod.snd :=
    fun value => hvalues.mem_iff
  constructor
  · intro hcanonical pair hpair
    obtain ⟨field, hfield, hsame⟩ :=
      List.mem_map.mp ((hall pair.2).mpr (List.mem_map_of_mem hpair))
    rw [← hsame]
    exact hcanonical field hfield
  · intro hcanonical field hfield
    obtain ⟨pair, hpair, hsame⟩ :=
      List.mem_map.mp ((hall field.2).mp (List.mem_map_of_mem hfield))
    rw [← hsame]
    exact hcanonical pair hpair

/-! ## Records -/

namespace PyKey

theorem less_text (left right : String) : (text left).less (text right) = decide (left < right) :=
  rfl

theorem sortable_map_text (keys : List String) : sortable (keys.map text) = true := by
  have hall : (keys.map text).all isText = true := by
    simp [isText]
  rw [sortable, hall, Bool.or_true, Bool.true_or]

end PyKey

theorem sortedFields_text (fields : List (String × Json)) :
    sortedFields (fields.map fun field => (.text field.1, field.2)) =
      some (fields.insertionSort fun left right => left.1 ≤ right.1) := by
  have hsorted : ((fields.map fun field => (PyKey.text field.1, field.2)).insertionSort
      fun left right => right.1.less left.1 = false) =
        (fields.insertionSort fun left right => left.1 ≤ right.1).map
          fun field => (PyKey.text field.1, field.2) := by
    symm
    apply List.map_insertionSort
    intro left _ right _
    rw [PyKey.less_text, decide_eq_false_iff_not, not_lt]
  have hkeys : PyKey.sortable ((fields.map fun field => (PyKey.text field.1, field.2)).map
      Prod.fst) = true := by
    have hsortable := PyKey.sortable_map_text (fields.map Prod.fst)
    rwa [List.map_map] at hsortable ⊢
  rw [sortedFields, if_pos hkeys, hsorted, List.mapM_map]
  calc (fields.insertionSort fun left right => left.1 ≤ right.1).mapM
        (fun field => (some field : Option (String × Json)))
      = some ((fields.insertionSort fun left right => left.1 ≤ right.1).map fun field => field) :=
        List.mapM_pure
    _ = some (fields.insertionSort fun left right => left.1 ≤ right.1) := by rw [List.map_id']

namespace PyValue

theorem treeFields_record (fields : List (String × PyValue)) :
    treeFields (fields.map fun field => (.text field.1, field.2)) =
      (treeItems (fields.map Prod.snd)).map fun trees =>
        ((fields.map Prod.fst).zip trees).map fun field => (.text field.1, field.2) := by
  induction fields with
  | nil => rfl
  | cons field rest ih =>
      obtain ⟨key, value⟩ := field
      simp only [List.map_cons, treeFields, treeItems, ih]
      cases tree value with
      | none => rfl
      | some value => cases treeItems (rest.map Prod.snd) <;> rfl

theorem length_of_treeItems {items : List PyValue} {trees : List Json}
    (htrees : treeItems items = some trees) : trees.length = items.length := by
  induction items generalizing trees with
  | nil =>
      obtain rfl := Option.some.inj htrees
      rfl
  | cons item rest ih =>
      obtain ⟨first, hfirst, hrest⟩ := Option.bind_eq_some_iff.mp htrees
      obtain ⟨others, hothers, hanswer⟩ := Option.bind_eq_some_iff.mp hrest
      obtain rfl := Option.some.inj hanswer
      rw [List.length_cons, ih hothers, List.length_cons]

/-- A record is written with its keys in their order. -/
theorem tree_record {fields : List (String × PyValue)} (names expected : List String)
    (hnames : fields.map Prod.fst = names) (hkeys : names.Perm expected)
    (hexpected : expected.Pairwise (· < ·)) :
    (record fields).tree = (treeItems (fields.map Prod.snd)).map fun trees =>
      .object (expected.map fun key => (key, (Json.object (names.zip trees)).get key)) := by
  subst hnames
  rw [record, tree, treeFields_record]
  cases htrees : treeItems (fields.map Prod.snd) with
  | none => rfl
  | some trees =>
      have hlength : (fields.map Prod.fst).length ≤ trees.length := by
        rw [length_of_treeItems htrees, List.length_map, List.length_map]
      have hfields : (((fields.map Prod.fst).zip trees).map Prod.fst).Perm expected := by
        rwa [List.map_fst_zip hlength]
      rw [Option.map_some, Option.bind_some, sortedFields_text, Option.map_some, Option.map_some,
        Json.insertionSort_fields hfields hexpected]

end PyValue

/-- Sorting fields keeps the first one of every key. -/
theorem lookup_orderedInsert (field : String × Json) (fields : List (String × Json))
    (key : String) :
    (fields.orderedInsert (fun left right => left.1 ≤ right.1) field).lookup key =
      (field :: fields).lookup key := by
  induction fields with
  | nil => rfl
  | cons first rest ih =>
      rw [List.orderedInsert_cons]
      split
      case isTrue => rfl
      case isFalse hgreater =>
        have hne : field.1 ≠ first.1 := fun hsame => hgreater hsame.le
        rw [List.lookup_cons, ih, List.lookup_cons, List.lookup_cons, List.lookup_cons]
        by_cases hfirst : key = first.1
        · have hfield : (key == field.1) = false := by
            rw [hfirst]
            exact beq_false_of_ne hne.symm
          rw [hfield]
        · rw [beq_false_of_ne hfirst]

theorem lookup_insertionSort (fields : List (String × Json)) (key : String) :
    (fields.insertionSort fun left right => left.1 ≤ right.1).lookup key = fields.lookup key := by
  induction fields with
  | nil => rfl
  | cons field rest ih =>
      rw [List.insertionSort_cons, lookup_orderedInsert, List.lookup_cons, List.lookup_cons, ih]

/-! ## What is read back -/

namespace PyValue

mutual

/-- What is written has sorted keys where the keys are in the order of their texts. -/
theorem isCanonical_tree_iff {value : PyValue} {written : Json}
    (hwritten : value.tree = some written) : written.IsCanonical ↔ value.KeysInTextOrder := by
  match value with
  | none =>
      obtain rfl := Option.some.inj hwritten
      simp [KeysInTextOrder]
  | bool _ =>
      obtain rfl := Option.some.inj hwritten
      simp [KeysInTextOrder]
  | int _ =>
      obtain rfl := Option.some.inj hwritten
      simp [KeysInTextOrder]
  | float _ =>
      obtain rfl := Option.some.inj hwritten
      simp [KeysInTextOrder]
  | text _ =>
      obtain rfl := Option.some.inj hwritten
      simp [KeysInTextOrder]
  | list items =>
      obtain ⟨written, hitems, rfl⟩ := Option.map_eq_some_iff.mp hwritten
      rw [Json.isCanonical_array_iff, isCanonical_treeItems_iff hitems, KeysInTextOrder]
  | tuple items =>
      obtain ⟨written, hitems, rfl⟩ := Option.map_eq_some_iff.mp hwritten
      rw [Json.isCanonical_array_iff, isCanonical_treeItems_iff hitems, KeysInTextOrder]
  | dict fields =>
      obtain ⟨pairs, hpairs, hsorted⟩ := Option.bind_eq_some_iff.mp hwritten
      obtain ⟨written, hfields, rfl⟩ := Option.map_eq_some_iff.mp hsorted
      obtain ⟨hkeys, hvalues⟩ := isCanonical_treeFields_iff hpairs
      rw [isCanonical_sortedFields_iff hfields, hkeys, hvalues, KeysInTextOrder]

theorem isCanonical_treeItems_iff {items : List PyValue} {written : List Json}
    (hwritten : treeItems items = some written) :
    (∀ item ∈ written, item.IsCanonical) ↔ ItemsInTextOrder items := by
  match items with
  | [] =>
      obtain rfl := Option.some.inj hwritten
      simp [ItemsInTextOrder]
  | item :: rest =>
      obtain ⟨first, hfirst, hrest⟩ := Option.bind_eq_some_iff.mp hwritten
      obtain ⟨others, hothers, hanswer⟩ := Option.bind_eq_some_iff.mp hrest
      obtain rfl := Option.some.inj hanswer
      rw [List.forall_mem_cons, isCanonical_tree_iff hfirst, isCanonical_treeItems_iff hothers,
        ItemsInTextOrder]

theorem isCanonical_treeFields_iff {fields : List (PyKey × PyValue)}
    {written : List (PyKey × Json)} (hwritten : treeFields fields = some written) :
    written.map Prod.fst = fields.map Prod.fst ∧
      ((∀ field ∈ written, field.2.IsCanonical) ↔ FieldsInTextOrder fields) := by
  match fields with
  | [] =>
      obtain rfl := Option.some.inj hwritten
      simp [FieldsInTextOrder]
  | (key, value) :: rest =>
      obtain ⟨first, hfirst, hrest⟩ := Option.bind_eq_some_iff.mp hwritten
      obtain ⟨others, hothers, hanswer⟩ := Option.bind_eq_some_iff.mp hrest
      obtain rfl := Option.some.inj hanswer
      obtain ⟨hkeys, hvalues⟩ := isCanonical_treeFields_iff hothers
      rw [List.map_cons, List.map_cons, hkeys, List.forall_mem_cons, isCanonical_tree_iff hfirst,
        hvalues, FieldsInTextOrder]
      exact ⟨rfl, Iff.rfl⟩

end

mutual

/-- What is written can be read back, and holds no infinities. -/
theorem readable_tree {value : PyValue} {written : Json} (hwritten : value.tree = some written) :
    written.Readable ∧ written.isFinite = true := by
  match value with
  | none =>
      obtain rfl := Option.some.inj hwritten
      exact ⟨trivial, rfl⟩
  | bool _ =>
      obtain rfl := Option.some.inj hwritten
      exact ⟨trivial, rfl⟩
  | int _ =>
      obtain rfl := Option.some.inj hwritten
      exact ⟨trivial, rfl⟩
  | float literal =>
      obtain rfl := Option.some.inj hwritten
      exact ⟨literal.isFloat, by simpa [Json.isFinite] using literal.isFinite⟩
  | text _ =>
      obtain rfl := Option.some.inj hwritten
      exact ⟨trivial, rfl⟩
  | list items =>
      obtain ⟨written, hitems, rfl⟩ := Option.map_eq_some_iff.mp hwritten
      exact readable_treeItems hitems
  | tuple items =>
      obtain ⟨written, hitems, rfl⟩ := Option.map_eq_some_iff.mp hwritten
      exact readable_treeItems hitems
  | dict fields =>
      obtain ⟨pairs, hpairs, hsorted⟩ := Option.bind_eq_some_iff.mp hwritten
      obtain ⟨written, hfields, rfl⟩ := Option.map_eq_some_iff.mp hsorted
      have hvalues := (sortedFields_eq_some hfields).2
      have hall := readable_treeFields hpairs
      rw [Json.Readable, Json.readableFields_iff, Json.isFinite, Json.finiteFields_iff]
      exact ⟨fun value hvalue => (hall value (hvalues.mem_iff.mp hvalue)).1,
        fun value hvalue => (hall value (hvalues.mem_iff.mp hvalue)).2⟩

theorem readable_treeItems {items : List PyValue} {written : List Json}
    (hwritten : treeItems items = some written) :
    Json.ReadableItems written ∧ Json.finiteItems written = true := by
  match items with
  | [] =>
      obtain rfl := Option.some.inj hwritten
      exact ⟨trivial, rfl⟩
  | item :: rest =>
      obtain ⟨first, hfirst, hrest⟩ := Option.bind_eq_some_iff.mp hwritten
      obtain ⟨others, hothers, hanswer⟩ := Option.bind_eq_some_iff.mp hrest
      obtain rfl := Option.some.inj hanswer
      have hitem := readable_tree hfirst
      have hitems := readable_treeItems hothers
      exact ⟨⟨hitem.1, hitems.1⟩, by rw [Json.finiteItems, hitem.2, hitems.2]; rfl⟩

theorem readable_treeFields {fields : List (PyKey × PyValue)} {written : List (PyKey × Json)}
    (hwritten : treeFields fields = some written) :
    ∀ value ∈ written.map Prod.snd, value.Readable ∧ value.isFinite = true := by
  match fields with
  | [] =>
      obtain rfl := Option.some.inj hwritten
      exact nofun
  | (key, value) :: rest =>
      obtain ⟨first, hfirst, hrest⟩ := Option.bind_eq_some_iff.mp hwritten
      obtain ⟨others, hothers, hanswer⟩ := Option.bind_eq_some_iff.mp hrest
      obtain rfl := Option.some.inj hanswer
      rw [List.map_cons, List.forall_mem_cons]
      exact ⟨readable_tree hfirst, readable_treeFields hothers⟩

end

/-! ## Items -/

theorem lookup?_record (fields : List (String × PyValue)) (key : String) :
    (record fields).lookup? key = fields.lookup key := by
  induction fields with
  | nil => rfl
  | cons field rest ih =>
      rw [record, lookup?] at ih
      rw [record, lookup?, List.map_cons, List.find?_cons, List.lookup_cons, ← ih]
      by_cases hkey : key = field.1
      · have hnamed : PyKey.isNamed key (.text field.1) = true := decide_eq_true hkey.symm
        rw [hnamed, beq_iff_eq.mpr hkey]
        rfl
      · have hnamed : PyKey.isNamed key (.text field.1) = false :=
          decide_eq_false fun hsame => hkey hsame.symm
        rw [hnamed, beq_false_of_ne hkey]

/-- A dictionary with a text among its keys has texts only, once it is sorted. -/
theorem exists_record {fields : List (PyKey × PyValue)} {field : PyKey × PyValue}
    (hsortable : PyKey.sortable (fields.map Prod.fst) = true) (hfield : field ∈ fields)
    (htext : field.1.isText = true) : ∃ named, dict fields = record named := by
  have hall : ∀ other ∈ fields, ∃ name, other.1 = .text name := by
    intro other hother
    have htexts : (fields.map Prod.fst).all PyKey.isText = true := by
      simp only [PyKey.sortable, Bool.or_eq_true, decide_eq_true_eq] at hsortable
      obtain (hshort | htexts) | hnumbers := hsortable
      · have hsingle : fields = [field] := by
          match fields, hfield, hshort with
          | [_], hfield, _ => rw [List.mem_singleton.mp hfield]
          | _ :: _ :: _, _, hshort => simp at hshort
        rw [hsingle, List.map_singleton, List.all_cons, htext, List.all_nil, Bool.and_self]
      · exact htexts
      · have hnumber := List.all_eq_true.mp hnumbers field.1 (List.mem_map_of_mem hfield)
        cases hkey : field.1 <;> simp [hkey, PyKey.isText, PyKey.number?] at htext hnumber
    have hother := List.all_eq_true.mp htexts other.1 (List.mem_map_of_mem hother)
    cases hkey : other.1 with
    | text name => exact ⟨name, rfl⟩
    | _ => rw [hkey] at hother; cases hother
  refine ⟨fields.map fun other => ((other.1.text?).getD "", other.2), ?_⟩
  rw [record, List.map_map]
  congr 1
  symm
  refine (List.map_congr_left ?_).trans (List.map_id fields)
  intro other hother
  obtain ⟨name, hname⟩ := hall other hother
  rw [Function.comp_apply, hname]
  exact Prod.ext hname.symm rfl

theorem lookup_treeItems {fields : List (String × PyValue)} {trees : List Json}
    (htrees : treeItems (fields.map Prod.snd) = some trees) {key : String} {item : PyValue}
    (hitem : fields.lookup key = some item) :
    ∃ written, item.tree = some written ∧
      ((fields.map Prod.fst).zip trees).lookup key = some written := by
  induction fields generalizing trees with
  | nil => cases hitem
  | cons field rest ih =>
      obtain ⟨first, hfirst, hrest⟩ := Option.bind_eq_some_iff.mp htrees
      obtain ⟨others, hothers, hanswer⟩ := Option.bind_eq_some_iff.mp hrest
      obtain rfl := Option.some.inj hanswer
      rw [List.lookup_cons] at hitem
      rw [List.map_cons, List.zip_cons_cons, List.lookup_cons]
      split at hitem
      · obtain rfl := Option.some.inj hitem
        exact ⟨first, hfirst, rfl⟩
      · exact ih hothers hitem

/-- An item of a dictionary is written under its key. -/
theorem get?_tree {value : PyValue} {written : Json} (hwritten : value.tree = some written)
    {key : String} {item : PyValue} (hitem : value.lookup? key = some item) :
    ∃ tree, item.tree = some tree ∧ written.get? key = some tree := by
  cases value with
  | dict fields =>
      obtain ⟨pairs, hpairs, hsorted⟩ := Option.bind_eq_some_iff.mp hwritten
      obtain ⟨trees, htrees, rfl⟩ := Option.map_eq_some_iff.mp hsorted
      obtain ⟨field, hfound, rfl⟩ := Option.map_eq_some_iff.mp hitem
      have hkeys := (isCanonical_treeFields_iff hpairs).1
      have hsortable : PyKey.sortable (fields.map Prod.fst) = true := by
        rw [sortedFields, hkeys] at htrees
        split at htrees
        · assumption
        · cases htrees
      have htext : field.1.isText = true := by
        have hnamed := List.find?_some hfound
        cases hkey : field.1 <;> simp [hkey, PyKey.isNamed, PyKey.isText] at hnamed ⊢
      obtain ⟨named, hrecord⟩ := exists_record hsortable (List.mem_of_find?_eq_some hfound) htext
      rw [hrecord, lookup?_record] at hitem
      obtain rfl : fields = named.map fun field => (.text field.1, field.2) :=
        PyValue.dict.inj hrecord
      rw [treeFields_record, Option.map_eq_some_iff] at hpairs
      obtain ⟨values, hvalues, rfl⟩ := hpairs
      rw [sortedFields_text] at htrees
      obtain rfl := Option.some.inj htrees
      obtain ⟨tree, htree, hlookup⟩ := lookup_treeItems hvalues hitem
      exact ⟨tree, htree, by rw [Json.get?, lookup_insertionSort, hlookup]⟩
  | _ => cases hitem

theorem isObject_of_tree {value : PyValue} (hdict : value.isDict = true) {written : Json}
    (hwritten : value.tree = some written) : written.isObject = true := by
  cases value with
  | dict fields =>
      obtain ⟨pairs, -, hsorted⟩ := Option.bind_eq_some_iff.mp hwritten
      obtain ⟨trees, -, rfl⟩ := Option.map_eq_some_iff.mp hsorted
      rfl
  | _ => cases hdict

/-- A list is written as a list, empty where it is. -/
theorem array?_of_tree {value : PyValue} {items : List PyValue} (hlist : value.list? = some items)
    {written : Json} (hwritten : value.tree = some written) :
    ∃ trees, written.array? = some trees ∧ (trees = [] ↔ items = []) := by
  cases value with
  | list items' =>
      obtain rfl := Option.some.inj hlist
      obtain ⟨trees, htrees, rfl⟩ := Option.map_eq_some_iff.mp hwritten
      refine ⟨trees, rfl, ?_⟩
      rw [← List.length_eq_zero_iff, length_of_treeItems htrees, List.length_eq_zero_iff]
  | _ => cases hlist

/-! ## Decoded values -/

theorem keys_ofFields (fields : List (String × Json)) :
    (ofFields fields).map Prod.fst = (fields.map Prod.fst).map PyKey.text := by
  induction fields with
  | nil => rfl
  | cons field rest ih => rw [ofFields, List.map_cons, ih, List.map_cons, List.map_cons]

/-- Sorted texts stay as they are. -/
theorem sorted_map_text {keys : List String} (hkeys : keys.Pairwise (· < ·)) :
    PyKey.sorted (keys.map PyKey.text) = keys.map PyKey.text := by
  apply List.Pairwise.insertionSort_eq
  rw [List.pairwise_map]
  refine hkeys.imp ?_
  intro left right hless
  rw [PyKey.less_text, decide_eq_false_iff_not]
  exact not_lt_of_gt hless

theorem pairwise_ofFields {fields : List (String × Json)}
    (hkeys : (fields.map Prod.fst).Pairwise (· < ·)) :
    ((PyKey.sorted ((ofFields fields).map Prod.fst)).filterMap PyKey.text?).Pairwise
      (· < ·) := by
  have htexts : ((fields.map Prod.fst).map PyKey.text).filterMap PyKey.text? =
      fields.map Prod.fst := by
    rw [List.filterMap_map]
    exact List.filterMap_some
  rw [keys_ofFields, sorted_map_text hkeys, htexts]
  exact hkeys

mutual

/-- A decoded value has texts as its keys. -/
theorem keysInTextOrder_ofJson {value : Json} (hcanonical : value.IsCanonical) :
    (ofJson value).KeysInTextOrder := by
  match value with
  | .null => exact trivial
  | .bool _ => exact trivial
  | .int _ => exact trivial
  | .float _ =>
      rw [ofJson]
      split <;> exact trivial
  | .text _ => exact trivial
  | .array items =>
      rw [Json.isCanonical_array_iff] at hcanonical
      rw [ofJson, KeysInTextOrder]
      exact itemsInTextOrder_ofItems hcanonical
  | .object fields =>
      rw [Json.isCanonical_object_iff, List.isChain_iff_pairwise] at hcanonical
      rw [ofJson, KeysInTextOrder]
      exact ⟨pairwise_ofFields hcanonical.1, fieldsInTextOrder_ofFields hcanonical.2⟩

theorem itemsInTextOrder_ofItems {items : List Json}
    (hcanonical : ∀ item ∈ items, item.IsCanonical) : ItemsInTextOrder (ofItems items) := by
  match items with
  | [] => exact trivial
  | item :: rest =>
      rw [List.forall_mem_cons] at hcanonical
      exact ⟨keysInTextOrder_ofJson hcanonical.1, itemsInTextOrder_ofItems hcanonical.2⟩

theorem fieldsInTextOrder_ofFields {fields : List (String × Json)}
    (hcanonical : ∀ field ∈ fields, field.2.IsCanonical) :
    FieldsInTextOrder (ofFields fields) := by
  match fields with
  | [] => exact trivial
  | (key, value) :: rest =>
      rw [List.forall_mem_cons] at hcanonical
      exact ⟨keysInTextOrder_ofJson hcanonical.1, fieldsInTextOrder_ofFields hcanonical.2⟩

end

end PyValue

end AegisForge.Core
