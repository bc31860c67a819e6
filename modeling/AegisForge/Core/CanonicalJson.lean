import AegisForge.Core.Digest
import AegisForge.Core.JsonRoundTrip

/-!
# Canonical JSON

The bytes that are hashed and signed: ASCII text with sorted keys and without
blanks.  They belong to one value only.
-/

namespace AegisForge.Core

/-! ## Bytes of texts -/

/-- `text.encode("utf-8")`. -/
def utf8 (text : List Char) : Octets := text.flatMap String.utf8EncodeChar

theorem utf8_injective : Function.Injective utf8 := by
  intro left right hbytes
  have harray := congrArg List.toByteArray hbytes
  apply String.ofList_injective
  rw [← String.toByteArray_inj, String.toByteArray_ofList, String.toByteArray_ofList]
  exact harray

namespace Json

/-! ## Equality -/

mutual

/-- Whether two values are the same. -/
def same : Json → Json → Bool
  | null, null => true
  | bool left, bool right => left = right
  | int left, int right => left = right
  | float left, float right => left = right
  | text left, text right => left = right
  | array left, array right => sameItems left right
  | object left, object right => sameFields left right
  | _, _ => false

def sameItems : List Json → List Json → Bool
  | [], [] => true
  | left :: leftRest, right :: rightRest => same left right && sameItems leftRest rightRest
  | _, _ => false

def sameFields : List (String × Json) → List (String × Json) → Bool
  | [], [] => true
  | (leftKey, left) :: leftRest, (rightKey, right) :: rightRest =>
      leftKey = rightKey && same left right && sameFields leftRest rightRest
  | _, _ => false

end

mutual

theorem same_iff (left right : Json) : same left right = true ↔ left = right := by
  match left with
  | null => cases right <;> simp [same]
  | bool _ => cases right <;> simp [same]
  | int _ => cases right <;> simp [same]
  | float _ => cases right <;> simp [same]
  | text _ => cases right <;> simp [same]
  | array items =>
      cases right with
      | array others => rw [same, sameItems_iff items others, array.injEq]
      | _ => simp [same]
  | object fields =>
      cases right with
      | object others => rw [same, sameFields_iff fields others, object.injEq]
      | _ => simp [same]

theorem sameItems_iff (left right : List Json) : sameItems left right = true ↔ left = right := by
  match left, right with
  | [], [] => simp [sameItems]
  | [], _ :: _ => simp [sameItems]
  | _ :: _, [] => simp [sameItems]
  | item :: rest, other :: others =>
      rw [sameItems, Bool.and_eq_true, same_iff item other, sameItems_iff rest others,
        List.cons.injEq]

theorem sameFields_iff (left right : List (String × Json)) :
    sameFields left right = true ↔ left = right := by
  match left, right with
  | [], [] => simp [sameFields]
  | [], _ :: _ => simp [sameFields]
  | _ :: _, [] => simp [sameFields]
  | (key, value) :: rest, (otherKey, other) :: others =>
      rw [sameFields, Bool.and_eq_true, Bool.and_eq_true, decide_eq_true_eq,
        same_iff value other, sameFields_iff rest others, List.cons.injEq, Prod.mk.injEq]

end

instance : DecidableEq Json := fun left right =>
  decidable_of_iff (same left right = true) (same_iff left right)

/-! ## Lists and numbers -/

/-- `isinstance(value, list)`, with the items. -/
def array? : Json → Option (List Json)
  | .array items => some items
  | _ => none

/-- `type(value) is int`, with the number. -/
def int? : Json → Option ℤ
  | .int value => some value
  | _ => none

theorem array?_eq_some_iff {value : Json} {items : List Json} :
    array? value = some items ↔ value = .array items := by
  cases value <;> simp [array?]

theorem int?_eq_some_iff {value : Json} {number : ℤ} :
    int? value = some number ↔ value = .int number := by
  cases value <;> simp [int?]

/-! ## Dictionaries -/

/-- `set(value) == expected` on a dictionary. -/
def hasExactly (value : Json) (expected : List String) : Bool :=
  value.isObject && value.keys.all (· ∈ expected) && expected.all (· ∈ value.keys)

/-- The dictionary without some of its keys. -/
def without (value : Json) (names : List String) : Json :=
  match value with
  | object fields => object (fields.filter fun field => field.1 ∉ names)
  | value => value

theorem get_without {value : Json} {names : List String} {key : String} (hkey : key ∉ names) :
    (value.without names).get key = value.get key := by
  cases value with
  | object fields =>
      have hlookup : (fields.filter fun field => field.1 ∉ names).lookup key =
          fields.lookup key := by
        induction fields with
        | nil => rfl
        | cons field rest ih =>
            rw [List.filter_cons, List.lookup_cons]
            by_cases hname : field.1 ∈ names
            · have hne : key ≠ field.1 := fun hsame => hkey (hsame ▸ hname)
              rw [if_neg (by simpa using hname), ih, beq_false_of_ne hne]
            · rw [if_pos (by simpa using hname), List.lookup_cons, ih]
      rw [without, get, get?, hlookup]
      rfl
  | _ => rfl

theorem isObject_eq_true_iff {value : Json} :
    value.isObject = true ↔ ∃ fields, value = object fields := by
  cases value <;> simp [isObject]

theorem mem_keys_of_hasExactly {value : Json} {expected : List String}
    (hexactly : value.hasExactly expected = true) {key : String} :
    key ∈ value.keys ↔ key ∈ expected := by
  simp only [hasExactly, Bool.and_eq_true, List.all_eq_true, decide_eq_true_eq] at hexactly
  exact ⟨hexactly.1.2 key, hexactly.2 key⟩

/-- The keys of a dictionary with sorted keys are fixed by their set. -/
theorem keys_eq_of_hasExactly {value : Json} {expected : List String}
    (hcanonical : value.IsCanonical) (hexpected : expected.Pairwise (· < ·))
    (hexactly : value.hasExactly expected = true) : value.keys = expected := by
  have hobject : value.isObject = true := by
    simp only [hasExactly, Bool.and_eq_true] at hexactly
    exact hexactly.1.1
  obtain ⟨fields, rfl⟩ := isObject_eq_true_iff.mp hobject
  rw [isCanonical_object_iff, List.isChain_iff_pairwise] at hcanonical
  exact List.Subset.antisymm_of_pairwise hcanonical.1 hexpected
    (fun _ hkey => (mem_keys_of_hasExactly hexactly).mp hkey)
    (fun _ hkey => (mem_keys_of_hasExactly hexactly).mpr hkey)

theorem lookup_of_mem {fields : List (String × Json)} (hkeys : (fields.map Prod.fst).Nodup)
    {field : String × Json} (hfield : field ∈ fields) :
    fields.lookup field.1 = some field.2 := by
  induction fields with
  | nil => cases hfield
  | cons first rest ih =>
      obtain ⟨key, value⟩ := first
      rw [List.map_cons, List.nodup_cons] at hkeys
      rw [List.lookup_cons]
      rcases List.mem_cons.mp hfield with rfl | hrest
      · simp
      · have hne : field.1 ≠ key := by
          rintro rfl
          exact hkeys.1 (List.mem_map.mpr ⟨field, hrest, rfl⟩)
        rw [beq_false_of_ne hne]
        exact ih hkeys.2 hrest

theorem get?_eq_some_get {value : Json} {key : String} (hkey : key ∈ value.keys) :
    value.get? key = some (value.get key) := by
  cases value with
  | object fields =>
      obtain ⟨field, hfield, rfl⟩ := List.mem_map.mp hkey
      have hlookup : (fields.lookup field.1).isSome = true :=
        List.lookup_isSome_iff.mpr ⟨field, hfield, beq_self_eq_true _⟩
      obtain ⟨held, hheld⟩ := Option.isSome_iff_exists.mp hlookup
      rw [get, get?, hheld]
      rfl
  | _ => cases hkey

theorem get?_eq_none {value : Json} {key : String} (hkey : key ∉ value.keys) :
    value.get? key = none := by
  cases value with
  | object fields =>
      rw [get?, List.lookup_eq_none_iff]
      intro field hfield
      simp only [bne_iff_ne]
      rintro rfl
      exact hkey (List.mem_map_of_mem hfield)
  | _ => rfl

/-- Fields with different keys, sorted by them. -/
theorem insertionSort_fields {fields : List (String × Json)} {expected : List String}
    (hkeys : (fields.map Prod.fst).Perm expected) (hexpected : expected.Pairwise (· < ·)) :
    (fields.insertionSort fun left right => left.1 ≤ right.1) =
      expected.map fun key => (key, (object fields).get key) := by
  have hnodup : (fields.map Prod.fst).Nodup := hkeys.nodup_iff.mpr hexpected.nodup
  have hfields : ((fields.map Prod.fst).map fun key => (key, (object fields).get key)) = fields := by
    rw [List.map_map]
    refine (List.map_congr_left ?_).trans (List.map_id fields)
    intro field hfield
    rw [Function.comp_apply, get, get?, lookup_of_mem hnodup hfield]
    rfl
  have hperm : (fields.insertionSort fun left right => left.1 ≤ right.1).Perm
      (expected.map fun key => (key, (object fields).get key)) := by
    refine (List.perm_insertionSort _ fields).trans ?_
    conv_lhs => rw [← hfields]
    exact hkeys.map _
  refine List.Perm.eq_of_pairwise ?_ (List.pairwise_insertionSort _ fields)
    (List.pairwise_map.mpr (hexpected.imp le_of_lt)) hperm
  intro left right hleft hright hle hge
  obtain ⟨key, -, rfl⟩ := List.mem_map.mp hright
  obtain ⟨other, -, rfl⟩ := List.mem_map.mp (hperm.mem_iff.mp hleft)
  have hsame : other = key := le_antisymm hle hge
  rw [hsame]

/-- A dictionary by its keys and its values. -/
theorem eq_object_of_keys {value : Json} (hobject : value.isObject = true)
    (hkeys : value.keys.Nodup) : value = object (value.keys.map fun key => (key, value.get key)) := by
  obtain ⟨fields, rfl⟩ := isObject_eq_true_iff.mp hobject
  rw [keys, List.map_map]
  congr 1
  symm
  refine (List.map_congr_left ?_).trans (List.map_id fields)
  intro field hfield
  rw [Function.comp_apply, get, get?, lookup_of_mem hkeys hfield]
  rfl

/-- A dictionary with sorted keys, by its values. -/
theorem eq_object_of_hasExactly {value : Json} {expected : List String}
    (hcanonical : value.IsCanonical) (hexpected : expected.Pairwise (· < ·))
    (hexactly : value.hasExactly expected = true) :
    value = object (expected.map fun key => (key, value.get key)) := by
  have hkeys := keys_eq_of_hasExactly hcanonical hexpected hexactly
  have hobject : value.isObject = true := by
    simp only [hasExactly, Bool.and_eq_true] at hexactly
    exact hexactly.1.1
  have hnodup : value.keys.Nodup := by
    rw [hkeys]
    exact hexpected.nodup
  rw [← hkeys]
  exact eq_object_of_keys hobject hnodup

/-- The values of a dictionary with sorted keys have sorted keys. -/
theorem isCanonical_get {value : Json} (hcanonical : value.IsCanonical) (key : String) :
    (value.get key).IsCanonical := by
  cases hcanonical with
  | @object fields hkeys hfields =>
      rw [get, get?]
      rcases hlookup : fields.lookup key with _ | held
      · exact .null
      · obtain ⟨before, after, rfl, -⟩ := List.lookup_eq_some_iff.mp hlookup
        exact hfields (key, held) (by simp)
  | _ => exact .null

/-! ## Canonical texts -/

mutual

/-- `allow_nan=False`. -/
def isFinite : Json → Bool
  | float literal => literal ∉ ["NaN", "Infinity", "-Infinity"]
  | array items => finiteItems items
  | object fields => finiteFields fields
  | _ => true

def finiteItems : List Json → Bool
  | [] => true
  | item :: rest => isFinite item && finiteItems rest

def finiteFields : List (String × Json) → Bool
  | [] => true
  | (_, value) :: rest => isFinite value && finiteFields rest

end

theorem finiteItems_iff {items : List Json} :
    finiteItems items = true ↔ ∀ item ∈ items, item.isFinite = true := by
  induction items with
  | nil => simp [finiteItems]
  | cons item rest ih => rw [finiteItems, Bool.and_eq_true, ih, List.forall_mem_cons]

theorem finiteFields_iff {fields : List (String × Json)} :
    finiteFields fields = true ↔ ∀ value ∈ fields.map Prod.snd, value.isFinite = true := by
  induction fields with
  | nil => simp [finiteFields]
  | cons field rest ih =>
      obtain ⟨key, value⟩ := field
      rw [finiteFields, Bool.and_eq_true, ih, List.map_cons, List.forall_mem_cons]

theorem readableItems_iff {items : List Json} :
    ReadableItems items ↔ ∀ item ∈ items, item.Readable := by
  induction items with
  | nil => simp [ReadableItems]
  | cons item rest ih => rw [ReadableItems, ih, List.forall_mem_cons]

theorem readableFields_iff {fields : List (String × Json)} :
    ReadableFields fields ↔ ∀ value ∈ fields.map Prod.snd, value.Readable := by
  induction fields with
  | nil => simp [ReadableFields]
  | cons field rest ih =>
      obtain ⟨key, value⟩ := field
      rw [ReadableFields, ih, List.map_cons, List.forall_mem_cons]

theorem readable_get {value : Json} (hreadable : value.Readable) (key : String) :
    (value.get key).Readable := by
  cases value with
  | object fields =>
      rw [Readable, readableFields_iff] at hreadable
      rw [get, get?]
      cases hlookup : fields.lookup key with
      | none => exact trivial
      | some held =>
          obtain ⟨before, after, rfl, -⟩ := List.lookup_eq_some_iff.mp hlookup
          exact hreadable held (by simp)
  | _ => exact trivial

theorem readable_without {value : Json} (hreadable : value.Readable) (names : List String) :
    (value.without names).Readable := by
  cases value with
  | object fields =>
      rw [Readable, readableFields_iff] at hreadable
      rw [without, Readable, readableFields_iff]
      intro held hheld
      obtain ⟨field, hfield, rfl⟩ := List.mem_map.mp hheld
      exact hreadable _ (List.mem_map_of_mem (List.mem_of_mem_filter hfield))
  | _ => exact hreadable

mutual

theorem readable_sortKeys {value : Json} (hreadable : value.Readable) :
    value.sortKeys.Readable := by
  match value with
  | null => exact hreadable
  | bool _ => exact hreadable
  | int _ => exact hreadable
  | float _ => exact hreadable
  | text _ => exact hreadable
  | array items =>
      rw [sortKeys, Readable, readableItems_iff]
      exact readable_sortItems (readableItems_iff.mp hreadable)
  | object fields =>
      rw [sortKeys, Readable, readableFields_iff, List.forall_mem_map]
      exact readable_sortFields (readableFields_iff.mp hreadable)

theorem readable_sortItems {items : List Json} (hreadable : ∀ item ∈ items, item.Readable) :
    ∀ item ∈ sortItems items, item.Readable := by
  match items with
  | [] => exact nofun
  | item :: rest =>
      rw [List.forall_mem_cons] at hreadable
      rw [sortItems, List.forall_mem_cons]
      exact ⟨readable_sortKeys hreadable.1, readable_sortItems hreadable.2⟩

theorem readable_sortFields {fields : List (String × Json)}
    (hreadable : ∀ value ∈ fields.map Prod.snd, value.Readable) :
    ∀ field ∈ sortFields fields, field.2.Readable := by
  match fields with
  | [] => exact nofun
  | (key, value) :: rest =>
      rw [List.map_cons, List.forall_mem_cons] at hreadable
      intro field hfield
      rcases mem_insertField hfield with rfl | hold
      · exact readable_sortKeys hreadable.1
      · exact readable_sortFields hreadable.2 field hold

end

/-- `canonical_json` of a value with sorted keys. -/
def canonicalText? (value : Json) : Option (List Char) :=
  if value.isFinite = true then some (encode true value) else none

/-- `canonical_json(value).encode("utf-8")` of a value with sorted keys. -/
def canonicalBytes (value : Json) : Octets := utf8 (encode true value)

theorem eq_of_canonicalBytes_eq {left right : Json} (hleft : left.Readable)
    (hright : right.Readable) (hbytes : canonicalBytes left = canonicalBytes right) :
    left = right :=
  eq_of_encode_eq hleft hright (utf8_injective hbytes)

end Json

end AegisForge.Core
