import AegisForge.Core.PyValue

/-!
# Objects that are written with infinities

`json.dumps` takes infinities and floats that are no numbers unless it is told not to.
Dictionaries are sorted by their keys as they are and written with the texts of the keys.
-/

namespace AegisForge.Core

/-- The text of any float. -/
structure FloatRepr where
  literal : String
  isFloat : Json.IsFloatText literal

inductive PyObject
  | none
  | bool (value : Bool)
  | int (value : ℤ)
  | float (literal : FloatRepr)
  | text (value : String)
  | list (items : List PyObject)
  | tuple (items : List PyObject)
  | dict (fields : List (PyKey × PyObject))
  /-- An object that no serializer takes. -/
  | other

namespace PyObject

def isDict : PyObject → Bool
  | dict _ => true
  | _ => false

mutual

/-- What `json.dumps` with sorted keys writes, in the order in which it does. -/
def tree : PyObject → Option Json
  | none => some .null
  | bool value => some (.bool value)
  | int value => some (.int value)
  | float literal => some (.float literal.literal)
  | text value => some (.text value)
  | list items => (treeItems items).map .array
  | tuple items => (treeItems items).map .array
  | dict fields => (treeFields fields).bind fun fields => (sortedFields fields).map .object
  | other => Option.none

def treeItems : List PyObject → Option (List Json)
  | [] => some []
  | item :: rest => do
      let item ← tree item
      let rest ← treeItems rest
      some (item :: rest)

def treeFields : List (PyKey × PyObject) → Option (List (PyKey × Json))
  | [] => some []
  | (key, value) :: rest => do
      let value ← tree value
      let rest ← treeFields rest
      some ((key, value) :: rest)

end

mutual

/-- In every dictionary the sorted keys have texts in the order of texts. -/
def KeysInTextOrder : PyObject → Prop
  | list items => ItemsInTextOrder items
  | tuple items => ItemsInTextOrder items
  | dict fields =>
      ((PyKey.sorted (fields.map Prod.fst)).filterMap PyKey.text?).Pairwise (· < ·) ∧
        FieldsInTextOrder fields
  | _ => True

def ItemsInTextOrder : List PyObject → Prop
  | [] => True
  | item :: rest => KeysInTextOrder item ∧ ItemsInTextOrder rest

def FieldsInTextOrder : List (PyKey × PyObject) → Prop
  | [] => True
  | (_, value) :: rest => KeysInTextOrder value ∧ FieldsInTextOrder rest

end

/-! ## What is written -/

mutual

/-- What is written can be read back, and its keys are sorted where those of the object
are in the order of their texts. -/
theorem tree_spec {value : PyObject} {written : Json} (hwritten : value.tree = some written) :
    written.Readable ∧ (written.IsCanonical ↔ value.KeysInTextOrder) := by
  match value with
  | none =>
      obtain rfl := Option.some.inj hwritten
      simp [KeysInTextOrder, Json.Readable]
  | bool _ =>
      obtain rfl := Option.some.inj hwritten
      simp [KeysInTextOrder, Json.Readable]
  | int _ =>
      obtain rfl := Option.some.inj hwritten
      simp [KeysInTextOrder, Json.Readable]
  | float literal =>
      obtain rfl := Option.some.inj hwritten
      simpa [KeysInTextOrder, Json.Readable] using literal.isFloat
  | text _ =>
      obtain rfl := Option.some.inj hwritten
      simp [KeysInTextOrder, Json.Readable]
  | list items =>
      obtain ⟨written, hitems, rfl⟩ := Option.map_eq_some_iff.mp hwritten
      rw [Json.isCanonical_array_iff, KeysInTextOrder]
      exact treeItems_spec hitems
  | tuple items =>
      obtain ⟨written, hitems, rfl⟩ := Option.map_eq_some_iff.mp hwritten
      rw [Json.isCanonical_array_iff, KeysInTextOrder]
      exact treeItems_spec hitems
  | dict fields =>
      obtain ⟨pairs, hpairs, hsorted⟩ := Option.bind_eq_some_iff.mp hwritten
      obtain ⟨written, hfields, rfl⟩ := Option.map_eq_some_iff.mp hsorted
      obtain ⟨hkeys, hreadable, hvalues⟩ := treeFields_spec hpairs
      rw [isCanonical_sortedFields_iff hfields, hkeys, hvalues, KeysInTextOrder, Json.Readable,
        Json.readableFields_iff]
      refine ⟨?_, Iff.rfl⟩
      intro value hvalue
      exact hreadable value ((sortedFields_eq_some hfields).2.mem_iff.mp hvalue)

theorem treeItems_spec {items : List PyObject} {written : List Json}
    (hwritten : treeItems items = some written) :
    Json.ReadableItems written ∧
      ((∀ item ∈ written, item.IsCanonical) ↔ ItemsInTextOrder items) := by
  match items with
  | [] =>
      obtain rfl := Option.some.inj hwritten
      simp [ItemsInTextOrder, Json.ReadableItems]
  | item :: rest =>
      obtain ⟨first, hfirst, hrest⟩ := Option.bind_eq_some_iff.mp hwritten
      obtain ⟨others, hothers, hanswer⟩ := Option.bind_eq_some_iff.mp hrest
      obtain rfl := Option.some.inj hanswer
      obtain ⟨hreadable, hcanonical⟩ := tree_spec hfirst
      obtain ⟨hreadables, hcanonicals⟩ := treeItems_spec hothers
      rw [List.forall_mem_cons, hcanonical, hcanonicals, ItemsInTextOrder]
      exact ⟨⟨hreadable, hreadables⟩, Iff.rfl⟩

theorem treeFields_spec {fields : List (PyKey × PyObject)} {written : List (PyKey × Json)}
    (hwritten : treeFields fields = some written) :
    written.map Prod.fst = fields.map Prod.fst ∧
      (∀ value ∈ written.map Prod.snd, value.Readable) ∧
        ((∀ field ∈ written, field.2.IsCanonical) ↔ FieldsInTextOrder fields) := by
  match fields with
  | [] =>
      obtain rfl := Option.some.inj hwritten
      simp [FieldsInTextOrder]
  | (key, value) :: rest =>
      obtain ⟨first, hfirst, hrest⟩ := Option.bind_eq_some_iff.mp hwritten
      obtain ⟨others, hothers, hanswer⟩ := Option.bind_eq_some_iff.mp hrest
      obtain rfl := Option.some.inj hanswer
      obtain ⟨hreadable, hcanonical⟩ := tree_spec hfirst
      obtain ⟨hkeys, hreadables, hcanonicals⟩ := treeFields_spec hothers
      rw [List.map_cons, List.map_cons, hkeys, List.forall_mem_cons, hcanonical, hcanonicals,
        FieldsInTextOrder, List.map_cons, List.forall_mem_cons]
      exact ⟨rfl, ⟨hreadable, hreadables⟩, Iff.rfl⟩

end

theorem isObject_of_tree {value : PyObject} (hdict : value.isDict = true) {written : Json}
    (hwritten : value.tree = some written) : written.isObject = true := by
  cases value with
  | dict fields =>
      obtain ⟨pairs, -, hsorted⟩ := Option.bind_eq_some_iff.mp hwritten
      obtain ⟨trees, -, rfl⟩ := Option.map_eq_some_iff.mp hsorted
      rfl
  | _ => cases hdict

end PyObject

end AegisForge.Core
