import AegisForge.Core.CanonicalJson

/-!
# Updates of dictionaries

Assignments to the keys of a dictionary, whose keys are kept in order, and
dictionaries that keep the order in which their keys were assigned.
-/

namespace AegisForge.Core

namespace Json

/-! ## Documents -/

/-- The fields with a value under the key. -/
def setField (key : String) (value : Json) : List (String × Json) → List (String × Json)
  | [] => [(key, value)]
  | (other, held) :: rest =>
      if key < other then (key, value) :: (other, held) :: rest
      else if key = other then (key, value) :: rest
      else (other, held) :: setField key value rest

theorem lookup_setField (key other : String) (value : Json) (fields : List (String × Json)) :
    (setField key value fields).lookup other =
      if other = key then some value else fields.lookup other := by
  induction fields with
  | nil =>
      by_cases hother : other = key
      · simp [setField, hother]
      · simp [setField, hother]
  | cons field rest ih =>
      obtain ⟨name, held⟩ := field
      rw [setField]
      split
      · by_cases hother : other = key
        · simp [hother]
        · rw [if_neg hother, List.lookup_cons, beq_false_of_ne hother]
      · split
        case isTrue hname =>
          by_cases hother : other = key
          · simp [hother]
          · rw [if_neg hother, List.lookup_cons, List.lookup_cons, beq_false_of_ne hother,
              beq_false_of_ne (hname ▸ hother)]
        case isFalse hname =>
          rw [List.lookup_cons, List.lookup_cons, ih]
          by_cases hheld : other = name
          · simp [hheld, Ne.symm hname]
          · rw [beq_false_of_ne hheld]

/-- `record[key] = value`. -/
def set (record : Json) (key : String) (value : Json) : Json :=
  match record with
  | object fields => object (setField key value fields)
  | record => record

/-- `record.update(fields)`. -/
def update (record : Json) (fields : List (String × Json)) : Json :=
  fields.foldl (fun updated field => updated.set field.1 field.2) record

/-- `record.setdefault(key, value)`. -/
def setDefault (record : Json) (key : String) (value : Json) : Json :=
  if (record.get? key).isSome then record else record.set key value

@[simp]
theorem isObject_set (record : Json) (key : String) (value : Json) :
    (record.set key value).isObject = record.isObject := by
  cases record <;> rfl

theorem get_set {record : Json} (hobject : record.isObject = true) (key other : String)
    (value : Json) :
    (record.set key value).get other = if other = key then value else record.get other := by
  obtain ⟨fields, rfl⟩ := isObject_eq_true_iff.mp hobject
  rw [set, get, get?, lookup_setField]
  split
  case isTrue => rfl
  case isFalse => rfl

theorem get_set_of_ne {key other : String} (hother : other ≠ key) (record value : Json) :
    (record.set key value).get other = record.get other := by
  cases record with
  | object fields => rw [set, get, get?, lookup_setField, if_neg hother]; rfl
  | _ => rfl

@[simp]
theorem isObject_update (record : Json) (fields : List (String × Json)) :
    (record.update fields).isObject = record.isObject := by
  induction fields generalizing record with
  | nil => rfl
  | cons field rest ih => exact (ih _).trans (isObject_set record field.1 field.2)

/-- A key that is not updated keeps its value. -/
theorem get_update_of_notMem {fields : List (String × Json)} {key : String}
    (hkey : key ∉ fields.map Prod.fst) (record : Json) :
    (record.update fields).get key = record.get key := by
  induction fields generalizing record with
  | nil => rfl
  | cons field rest ih =>
      rw [List.map_cons, List.mem_cons, not_or] at hkey
      exact (ih hkey.2 _).trans (get_set_of_ne hkey.1 record field.2)

/-- A key that is updated once has the value of the update. -/
theorem get_update {record : Json} (hobject : record.isObject = true)
    {fields : List (String × Json)} (hkeys : (fields.map Prod.fst).Nodup) {key : String}
    {value : Json} (hfield : (key, value) ∈ fields) : (record.update fields).get key = value := by
  induction fields generalizing record with
  | nil => cases hfield
  | cons field rest ih =>
      rw [List.map_cons, List.nodup_cons] at hkeys
      rcases List.mem_cons.mp hfield with rfl | hrest
      · have hset : (record.set key value).get key = value := by
          rw [get_set hobject, if_pos rfl]
        exact (get_update_of_notMem hkeys.1 _).trans hset
      · exact ih ((isObject_set record field.1 field.2).trans hobject) hkeys.2 hrest

theorem isObject_setDefault (record : Json) (key : String) (value : Json) :
    (record.setDefault key value).isObject = record.isObject := by
  rw [setDefault]
  split
  · rfl
  · exact isObject_set record key value

theorem get_setDefault_of_ne {key other : String} (hother : other ≠ key) (record value : Json) :
    (record.setDefault key value).get other = record.get other := by
  rw [setDefault]
  split
  · rfl
  · exact get_set_of_ne hother record value

end Json

/-! ## Dictionaries in the order of assignment -/

/-- Keys with their values, in the order in which the keys were first assigned. -/
abbrev Entries := List (Json × Json)

namespace Entries

def setItem (entries : Entries) (key value : Json) : Entries :=
  if (entries.any fun entry => entry.1 = key) = true then
    entries.map fun entry => if entry.1 = key then (key, value) else entry
  else entries ++ [(key, value)]

def setDefault (entries : Entries) (key value : Json) : Entries :=
  if (entries.any fun entry => entry.1 = key) = true then entries else entries ++ [(key, value)]

def values (entries : Entries) : List Json := entries.map Prod.snd

end Entries

end AegisForge.Core
