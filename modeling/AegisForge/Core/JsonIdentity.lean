import AegisForge.Core.JsonEquality

/-!
# Equal values that are identical

`left == right` lets `False`, `0` and `0.0` pass for each other.  Where the right
side has neither numbers nor truth values, equal values are the same value; a
dictionary is identical to an equal one as soon as their values are.
-/

namespace AegisForge.Core.Json

/-! ## Values without numbers -/

mutual

/-- Neither a number nor a truth value, at any position. -/
def Rigid : Json → Prop
  | null => True
  | text _ => True
  | array items => RigidItems items
  | object fields => RigidFields fields
  | _ => False

def RigidItems : List Json → Prop
  | [] => True
  | item :: rest => Rigid item ∧ RigidItems rest

def RigidFields : List (String × Json) → Prop
  | [] => True
  | (_, value) :: rest => Rigid value ∧ RigidFields rest

end

theorem rigidItems_iff {items : List Json} : RigidItems items ↔ ∀ item ∈ items, item.Rigid := by
  induction items with
  | nil => simp [RigidItems]
  | cons item rest ih => rw [RigidItems, ih, List.forall_mem_cons]

mutual

/-- What is equal to a value without numbers is that value. -/
theorem eq_of_equal {left right : Json} (hrigid : right.Rigid)
    (hequal : equal left right = true) : left = right := by
  match right with
  | null => exact equal_null_right_iff.mp hequal
  | text value => exact equal_text_right_iff.mp hequal
  | array items =>
      cases left with
      | array others =>
          rw [equal] at hequal
          rw [eq_of_equalItems hrigid hequal]
      | _ => simp [equal, magnitude?] at hequal
  | object fields =>
      cases left with
      | object others =>
          rw [equal] at hequal
          rw [eq_of_equalFields hrigid hequal]
      | _ => simp [equal, magnitude?] at hequal

theorem eq_of_equalItems {left right : List Json} (hrigid : RigidItems right)
    (hequal : equalItems left right = true) : left = right := by
  match left, right with
  | [], [] => rfl
  | item :: rest, other :: others =>
      rw [equalItems, Bool.and_eq_true] at hequal
      rw [eq_of_equal hrigid.1 hequal.1, eq_of_equalItems hrigid.2 hequal.2]

theorem eq_of_equalFields {left right : List (String × Json)} (hrigid : RigidFields right)
    (hequal : equalFields left right = true) : left = right := by
  match left, right with
  | [], [] => rfl
  | (key, value) :: rest, (otherKey, other) :: others =>
      simp only [equalFields, Bool.and_eq_true, decide_eq_true_eq] at hequal
      rw [hequal.1.1, eq_of_equal hrigid.1 hequal.1.2, eq_of_equalFields hrigid.2 hequal.2]

end

mutual

theorem exact_of_rigid {value : Json} (hrigid : value.Rigid) : value.Exact := by
  match value with
  | null => trivial
  | text _ => trivial
  | array items => exact exactItems_of_rigid hrigid
  | object fields => exact exactFields_of_rigid hrigid

theorem exactItems_of_rigid {items : List Json} (hrigid : RigidItems items) :
    ExactItems items := by
  match items with
  | [] => trivial
  | item :: rest => exact ⟨exact_of_rigid hrigid.1, exactItems_of_rigid hrigid.2⟩

theorem exactFields_of_rigid {fields : List (String × Json)} (hrigid : RigidFields fields) :
    ExactFields fields := by
  match fields with
  | [] => trivial
  | (key, value) :: rest => exact ⟨exact_of_rigid hrigid.1, exactFields_of_rigid hrigid.2⟩

end

theorem equal_bool_iff {left right : Bool} :
    equal (bool left) (bool right) = true ↔ left = right := by
  cases left <;> cases right <;> simp [equal, magnitude?]

/-! ## Dictionaries -/

/-- Two dictionaries are one if they have the same keys and the same values. -/
theorem eq_of_get {left right : Json} (hleft : left.IsCanonical) (hright : right.IsCanonical)
    (hleftObject : left.isObject = true) (hrightObject : right.isObject = true)
    (hkeys : ∀ key, key ∈ left.keys ↔ key ∈ right.keys)
    (hget : ∀ key ∈ right.keys, left.get key = right.get key) : left = right := by
  obtain ⟨leftFields, rfl⟩ := isObject_eq_true_iff.mp hleftObject
  obtain ⟨rightFields, rfl⟩ := isObject_eq_true_iff.mp hrightObject
  have hleftSorted := List.isChain_iff_pairwise.mp (isCanonical_object_iff.mp hleft).1
  have hrightSorted := List.isChain_iff_pairwise.mp (isCanonical_object_iff.mp hright).1
  have hsame : (object leftFields).keys = (object rightFields).keys :=
    List.Subset.antisymm_of_pairwise hleftSorted hrightSorted
      (fun key hkey => (hkeys key).mp hkey) (fun key hkey => (hkeys key).mpr hkey)
  rw [eq_object_of_keys hleftObject hleftSorted.nodup,
    eq_object_of_keys hrightObject hrightSorted.nodup, hsame]
  congr 1
  refine List.map_congr_left ?_
  intro key hkey
  rw [hget key hkey]

/-- What is equal to a dictionary is identical to it as soon as its values are. -/
theorem eq_iff_of_equal_object {value : Json} {fields : List (String × Json)}
    (hvalue : value.IsCanonical) (hfields : (object fields).IsCanonical)
    (hequal : equal value (object fields) = true) :
    value = object fields ↔
      ∀ key ∈ (object fields).keys, value.get key = (object fields).get key := by
  constructor
  · rintro rfl key -
    rfl
  · intro hget
    cases value with
    | object others =>
        have hkeys := (keys_of_equal_object hequal).2
        refine eq_of_get hvalue hfields rfl rfl ?_ hget
        intro key
        rw [hkeys]
        rfl
    | _ => simp [equal, magnitude?] at hequal

theorem equal_get {value : Json} {fields : List (String × Json)}
    (hequal : equal value (object fields) = true) {key : String}
    (hkey : key ∈ (object fields).keys) :
    equal (value.get key) ((object fields).get key) = true := by
  cases value with
  | object others =>
      have hheld : key ∈ (object others).keys := by
        rw [(keys_of_equal_object hequal).2] at hkey
        exact hkey
      exact equal_get_of_equal_object hequal (get?_eq_some_get hheld)
  | _ => simp [equal, magnitude?] at hequal

/-- A dictionary without floats has values without floats. -/
theorem exact_of_get {value : Json} (hobject : value.isObject = true) (hnodup : value.keys.Nodup)
    (hget : ∀ key ∈ value.keys, (value.get key).Exact) : value.Exact := by
  rw [eq_object_of_keys hobject hnodup, Exact, exactFields_iff]
  intro held hheld
  rw [List.map_map] at hheld
  obtain ⟨key, hkey, rfl⟩ := List.mem_map.mp hheld
  exact hget key hkey

/-! ## Dictionaries with sorted keys -/

theorem lookup_insertField {key other : String} {value : Json} {fields : List (String × Json)}
    (hkey : key ∉ fields.map Prod.fst) :
    (insertField key value fields).lookup other =
      if other = key then some value else fields.lookup other := by
  induction fields with
  | nil =>
      rw [insertField, List.lookup_cons]
      by_cases hother : other = key
      · simp [hother]
      · simp [hother, beq_false_of_ne hother]
  | cons field rest ih =>
      obtain ⟨first, held⟩ := field
      rw [List.map_cons, List.mem_cons, not_or] at hkey
      rw [insertField]
      split
      case isTrue =>
        rw [List.lookup_cons]
        by_cases hother : other = key
        · simp [hother]
        · simp [hother, beq_false_of_ne hother]
      case isFalse =>
        rw [if_neg hkey.1, List.lookup_cons, List.lookup_cons, ih hkey.2]
        by_cases hother : other = key
        · subst hother
          simp [beq_false_of_ne hkey.1]
        · simp [hother]

theorem mem_keys_insertField {key other : String} {value : Json}
    {fields : List (String × Json)} :
    other ∈ (insertField key value fields).map Prod.fst ↔
      other = key ∨ other ∈ fields.map Prod.fst := by
  induction fields with
  | nil => simp [insertField]
  | cons field rest ih =>
      obtain ⟨first, held⟩ := field
      rw [insertField]
      split
      case isTrue => simp
      case isFalse =>
        split
        case isTrue hsame => simp [hsame]
        case isFalse =>
          rw [List.map_cons, List.mem_cons, ih, List.map_cons, List.mem_cons]
          exact or_left_comm

theorem mem_keys_sortFields {fields : List (String × Json)} {key : String} :
    key ∈ (sortFields fields).map Prod.fst ↔ key ∈ fields.map Prod.fst := by
  induction fields with
  | nil => simp [sortFields]
  | cons field rest ih =>
      obtain ⟨first, held⟩ := field
      rw [sortFields, mem_keys_insertField, ih, List.map_cons, List.mem_cons]

theorem lookup_sortFields {fields : List (String × Json)} (hnodup : (fields.map Prod.fst).Nodup)
    (key : String) : (sortFields fields).lookup key = (fields.lookup key).map sortKeys := by
  induction fields with
  | nil => rfl
  | cons field rest ih =>
      obtain ⟨first, held⟩ := field
      rw [List.map_cons, List.nodup_cons] at hnodup
      have hnew : first ∉ (sortFields rest).map Prod.fst := by
        rw [mem_keys_sortFields]
        exact hnodup.1
      rw [sortFields, lookup_insertField hnew, ih hnodup.2, List.lookup_cons]
      by_cases hkey : key = first
      · simp [hkey]
      · simp [hkey, beq_false_of_ne hkey]

/-- A dictionary is one with sorted keys as soon as it has the same keys and values. -/
theorem eq_sortKeys_iff {value : Json} {fields : List (String × Json)}
    (hvalue : value.IsCanonical) (hobject : value.isObject = true)
    (hkeys : ∀ key, key ∈ value.keys ↔ key ∈ fields.map Prod.fst)
    (hnodup : (fields.map Prod.fst).Nodup)
    (hcanonical : ∀ field ∈ fields, field.2.IsCanonical) :
    value = (object fields).sortKeys ↔ ∀ field ∈ fields, value.get field.1 = field.2 := by
  have hget : ∀ field ∈ fields, (object fields).sortKeys.get field.1 = field.2 := by
    intro field hfield
    rw [sortKeys, get, get?, lookup_sortFields hnodup, lookup_of_mem hnodup hfield]
    exact sortKeys_of_isCanonical (hcanonical field hfield)
  constructor
  · rintro rfl field hfield
    exact hget field hfield
  · intro hheld
    refine eq_of_get hvalue (isCanonical_sortKeys _) hobject rfl ?_ ?_
    · intro key
      rw [hkeys, sortKeys, keys, mem_keys_sortFields]
    · intro key hkey
      rw [sortKeys, keys, mem_keys_sortFields] at hkey
      obtain ⟨field, hfield, rfl⟩ := List.mem_map.mp hkey
      rw [hheld field hfield, hget field hfield]

end AegisForge.Core.Json
