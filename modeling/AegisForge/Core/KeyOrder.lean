import Mathlib.Data.List.Sort
import AegisForge.Core.JsonIdentity

/-!
# The order of keys

A dictionary of the language has each key once.  Two such values that sort to one are
the same but for the order in which their keys were added.
-/

namespace AegisForge.Core

/-! ## Items sorted by a text -/

section Sorting

variable {A : Type} (key : A → String)

/-- Items with different keys are sorted strictly. -/
theorem pairwise_insertionSort_key {items : List A} (hnodup : (items.map key).Nodup) :
    (items.insertionSort fun left right => key left ≤ key right).Pairwise
      fun left right => key left < key right := by
  have hsorted := List.pairwise_insertionSort (fun left right => key left ≤ key right) items
  have hperm := (List.perm_insertionSort (fun left right => key left ≤ key right) items).map key
  have hdiffer := List.pairwise_map.mp (hperm.nodup_iff.mpr hnodup)
  exact (hsorted.and hdiffer).imp fun hboth => lt_of_le_of_ne hboth.1 hboth.2

/-- What is sorted strictly is what its items sort to. -/
theorem insertionSort_key_eq_of_perm {items sorted : List A} (hperm : items.Perm sorted)
    (hsorted : sorted.Pairwise fun left right => key left < key right) :
    (items.insertionSort fun left right => key left ≤ key right) = sorted := by
  refine List.Perm.eq_of_pairwise ?_
    (List.pairwise_insertionSort (fun left right => key left ≤ key right) items)
    (hsorted.imp fun hless => hless.le)
    ((List.perm_insertionSort (fun left right => key left ≤ key right) items).trans hperm)
  intro left right hleft hright hle hge
  have hmem : left ∈ sorted := hperm.mem_iff.mp ((List.mem_insertionSort _).mp hleft)
  have hnodup : (sorted.map key).Nodup := (List.pairwise_map.mpr hsorted).nodup
  exact List.inj_on_of_nodup_map hnodup hmem hright (le_antisymm hle hge)

end Sorting

namespace Json

/-! ## Keys that occur once -/

mutual

/-- Every dictionary has each key once. -/
def KeysOnce : Json → Prop
  | array items => ItemsKeysOnce items
  | object fields => (fields.map Prod.fst).Nodup ∧ FieldsKeysOnce fields
  | _ => True

def ItemsKeysOnce : List Json → Prop
  | [] => True
  | item :: rest => KeysOnce item ∧ ItemsKeysOnce rest

def FieldsKeysOnce : List (String × Json) → Prop
  | [] => True
  | (_, value) :: rest => KeysOnce value ∧ FieldsKeysOnce rest

end

theorem itemsKeysOnce_iff {items : List Json} :
    ItemsKeysOnce items ↔ ∀ item ∈ items, item.KeysOnce := by
  induction items with
  | nil => simp [ItemsKeysOnce]
  | cons item rest ih => rw [ItemsKeysOnce, ih, List.forall_mem_cons]

theorem fieldsKeysOnce_iff {fields : List (String × Json)} :
    FieldsKeysOnce fields ↔ ∀ field ∈ fields, field.2.KeysOnce := by
  induction fields with
  | nil => simp [FieldsKeysOnce]
  | cons field rest ih =>
      obtain ⟨key, value⟩ := field
      rw [FieldsKeysOnce, ih, List.forall_mem_cons]

theorem keysOnce_of_isCanonical {value : Json} (hcanonical : value.IsCanonical) :
    value.KeysOnce := by
  induction hcanonical with
  | array _ ih => exact itemsKeysOnce_iff.mpr ih
  | object hkeys _ ih =>
      have hsorted := List.pairwise_map.mpr hkeys
      exact ⟨hsorted.nodup, fieldsKeysOnce_iff.mpr ih⟩
  | _ => exact trivial

namespace KeysOnce

variable {value : Json} (honce : value.KeysOnce)

include honce

theorem nodup : value.keys.Nodup := by
  cases value with
  | object fields => exact honce.1
  | _ => exact List.nodup_nil

theorem get (key : String) : (value.get key).KeysOnce := by
  cases value with
  | object fields =>
      rw [Json.get, get?]
      cases hlookup : fields.lookup key with
      | none => exact trivial
      | some held =>
          obtain ⟨before, after, rfl, -⟩ := List.lookup_eq_some_iff.mp hlookup
          exact fieldsKeysOnce_iff.mp honce.2 (key, held) (by simp)
  | _ => exact trivial

end KeysOnce

theorem KeysOnce.items {items : List Json} (honce : (array items).KeysOnce) :
    ∀ item ∈ items, item.KeysOnce :=
  itemsKeysOnce_iff.mp honce

/-! ## Sorting only moves fields -/

theorem perm_insertField {key : String} {value : Json} {fields : List (String × Json)}
    (hkey : key ∉ fields.map Prod.fst) :
    (insertField key value fields).Perm ((key, value) :: fields) := by
  induction fields with
  | nil => exact List.Perm.refl _
  | cons field rest ih =>
      obtain ⟨first, held⟩ := field
      rw [List.map_cons, List.mem_cons, not_or] at hkey
      rw [insertField]
      split
      case isTrue => exact List.Perm.refl _
      case isFalse =>
        rw [if_neg hkey.1]
        exact ((ih hkey.2).cons _).trans (List.Perm.swap _ _ _)

theorem perm_sortFields {fields : List (String × Json)} (hnodup : (fields.map Prod.fst).Nodup) :
    (sortFields fields).Perm (fields.map fun field => (field.1, field.2.sortKeys)) := by
  induction fields with
  | nil => exact List.Perm.refl _
  | cons field rest ih =>
      obtain ⟨key, value⟩ := field
      rw [List.map_cons, List.nodup_cons] at hnodup
      have hnew : key ∉ (sortFields rest).map Prod.fst := by
        rw [mem_keys_sortFields]
        exact hnodup.1
      rw [sortFields, List.map_cons]
      exact (perm_insertField hnew).trans ((ih hnodup.2).cons _)

theorem sortItems_eq_map (items : List Json) : sortItems items = items.map sortKeys := by
  induction items with
  | nil => rfl
  | cons item rest ih => rw [sortItems, ih, List.map_cons]

theorem get_sortKeys {value : Json} (hnodup : value.keys.Nodup) (key : String) :
    value.sortKeys.get key = (value.get key).sortKeys := by
  cases value with
  | object fields =>
      rw [sortKeys, get, get?, get, get?, lookup_sortFields hnodup]
      cases fields.lookup key <;> rfl
  | _ => rfl

theorem mem_keys_sortKeys {value : Json} {key : String} :
    key ∈ value.sortKeys.keys ↔ key ∈ value.keys := by
  cases value with
  | object fields => exact mem_keys_sortFields
  | _ => exact Iff.rfl

theorem text?_sortKeys (value : Json) : value.sortKeys.text? = value.text? := by
  cases value <;> rfl

theorem isObject_sortKeys (value : Json) : value.sortKeys.isObject = value.isObject := by
  cases value <;> rfl

mutual

theorem isFinite_sortKeys {value : Json} (hfinite : value.isFinite = true) :
    value.sortKeys.isFinite = true := by
  match value with
  | null => exact hfinite
  | bool _ => exact hfinite
  | int _ => exact hfinite
  | float _ => exact hfinite
  | text _ => exact hfinite
  | array items =>
      rw [sortKeys, isFinite, finiteItems_iff]
      exact isFinite_sortItems (finiteItems_iff.mp hfinite)
  | object fields =>
      rw [sortKeys, isFinite, finiteFields_iff, List.forall_mem_map]
      exact isFinite_sortFields (finiteFields_iff.mp hfinite)

theorem isFinite_sortItems {items : List Json}
    (hfinite : ∀ item ∈ items, item.isFinite = true) :
    ∀ item ∈ sortItems items, item.isFinite = true := by
  match items with
  | [] => exact nofun
  | item :: rest =>
      rw [List.forall_mem_cons] at hfinite
      rw [sortItems, List.forall_mem_cons]
      exact ⟨isFinite_sortKeys hfinite.1, isFinite_sortItems hfinite.2⟩

theorem isFinite_sortFields {fields : List (String × Json)}
    (hfinite : ∀ value ∈ fields.map Prod.snd, value.isFinite = true) :
    ∀ field ∈ sortFields fields, field.2.isFinite = true := by
  match fields with
  | [] => exact nofun
  | (key, value) :: rest =>
      rw [List.map_cons, List.forall_mem_cons] at hfinite
      intro field hfield
      rcases mem_insertField hfield with rfl | hold
      · exact isFinite_sortKeys hfinite.1
      · exact isFinite_sortFields hfinite.2 field hold

end

mutual

theorem exact_sortKeys {value : Json} (hexact : value.Exact) : value.sortKeys.Exact := by
  match value with
  | null => exact hexact
  | bool _ => exact hexact
  | int _ => exact hexact
  | text _ => exact hexact
  | array items =>
      rw [sortKeys, Exact, exactItems_iff]
      exact exact_sortItems (exactItems_iff.mp hexact)
  | object fields =>
      rw [sortKeys, Exact, exactFields_iff, List.forall_mem_map]
      exact exact_sortFields (exactFields_iff.mp hexact)

theorem exact_sortItems {items : List Json} (hexact : ∀ item ∈ items, item.Exact) :
    ∀ item ∈ sortItems items, item.Exact := by
  match items with
  | [] => exact nofun
  | item :: rest =>
      rw [List.forall_mem_cons] at hexact
      rw [sortItems, List.forall_mem_cons]
      exact ⟨exact_sortKeys hexact.1, exact_sortItems hexact.2⟩

theorem exact_sortFields {fields : List (String × Json)}
    (hexact : ∀ value ∈ fields.map Prod.snd, value.Exact) :
    ∀ field ∈ sortFields fields, field.2.Exact := by
  match fields with
  | [] => exact nofun
  | (key, value) :: rest =>
      rw [List.map_cons, List.forall_mem_cons] at hexact
      intro field hfield
      rcases mem_insertField hfield with rfl | hold
      · exact exact_sortKeys hexact.1
      · exact exact_sortFields hexact.2 field hold

end

/-! ## What sorts to a given value -/

theorem sortKeys_eq_text_iff {value : Json} {content : String} :
    value.sortKeys = text content ↔ value = text content := by
  cases value <;> simp [sortKeys]

theorem sortKeys_eq_int_iff {value : Json} {number : ℤ} :
    value.sortKeys = int number ↔ value = int number := by
  cases value <;> simp [sortKeys]

theorem map_sortKeys_eq_texts_iff {items : List Json} {texts : List String} :
    items.map sortKeys = texts.map text ↔ items = texts.map text := by
  induction items generalizing texts with
  | nil => rw [List.map_nil]
  | cons item rest ih =>
      cases texts with
      | nil => simp
      | cons content others =>
          rw [List.map_cons, List.map_cons, List.cons.injEq, List.cons.injEq,
            sortKeys_eq_text_iff, ih]

theorem sortKeys_eq_texts_iff {value : Json} {texts : List String} :
    value.sortKeys = array (texts.map text) ↔ value = array (texts.map text) := by
  cases value with
  | array items =>
      rw [sortKeys, array.injEq, array.injEq, sortItems_eq_map, map_sortKeys_eq_texts_iff]
  | _ => simp [sortKeys]

/-- A value sorts as a dictionary does when it has the same keys, with values that sort
as those of the dictionary. -/
theorem sortKeys_eq_object_iff {value : Json} (hvalue : value.keys.Nodup)
    {fields : List (String × Json)} (hfields : (object fields).keys.Nodup) :
    value.sortKeys = (object fields).sortKeys ↔ value.isObject = true ∧
      (∀ key, key ∈ value.keys ↔ key ∈ fields.map Prod.fst) ∧
        ∀ field ∈ fields, (value.get field.1).sortKeys = field.2.sortKeys := by
  have hget : ∀ field ∈ fields, (object fields).get field.1 = field.2 := by
    intro field hfield
    rw [get, get?, lookup_of_mem hfields hfield]
    rfl
  constructor
  · intro hsame
    refine ⟨?_, ?_, ?_⟩
    · rw [← isObject_sortKeys, hsame, isObject_sortKeys]
      rfl
    · intro key
      rw [← mem_keys_sortKeys, hsame, mem_keys_sortKeys]
      rfl
    · intro field hfield
      rw [← get_sortKeys hvalue, hsame, get_sortKeys hfields, hget field hfield]
  · rintro ⟨hobject, hkeys, hvalues⟩
    refine eq_of_get (isCanonical_sortKeys value) (isCanonical_sortKeys _) ?_ rfl ?_ ?_
    · rw [isObject_sortKeys, hobject]
    · intro key
      rw [mem_keys_sortKeys, mem_keys_sortKeys]
      exact hkeys key
    · intro key hkey
      rw [mem_keys_sortKeys] at hkey
      obtain ⟨field, hfield, rfl⟩ := List.mem_map.mp hkey
      rw [get_sortKeys hvalue, get_sortKeys hfields, hvalues field hfield, hget field hfield]

end Json

end AegisForge.Core
