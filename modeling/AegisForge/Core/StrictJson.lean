import AegisForge.Core.JsonEquality

/-!
# Strict reading

A reader for untrusted bytes: the text has to be valid UTF-8, no dictionary may
name a key twice, and the constants that no JSON has are rejected.  Bytes that were
written in canonical form are read back.
-/

namespace AegisForge.Core

/-- `raw.decode("utf-8")`. -/
def decodeUtf8? (raw : Octets) : Option (List Char) := raw.toByteArray.utf8Decode?.map Array.toList

@[simp]
theorem decodeUtf8?_utf8 (text : List Char) : decodeUtf8? (utf8 text) = some text := by
  have hbytes : (utf8 text).toByteArray = text.utf8Encode := rfl
  rw [decodeUtf8?, hbytes, List.utf8Decode?_utf8Encode, Option.map_some]

namespace Json

/-! ## Irregular values -/

/-- The first key that was there before. -/
def repeatedKey? (seen : List String) : List String → Option String
  | [] => none
  | key :: rest => if key ∈ seen then some key else repeatedKey? (key :: seen) rest

theorem repeatedKey?_eq_none {seen keys : List String} (hnodup : keys.Nodup)
    (hseen : ∀ key ∈ keys, key ∉ seen) : repeatedKey? seen keys = none := by
  induction keys generalizing seen with
  | nil => rfl
  | cons key rest ih =>
      rw [List.nodup_cons] at hnodup
      rw [List.forall_mem_cons] at hseen
      have hrest : ∀ other ∈ rest, other ∉ key :: seen := by
        intro other hother hmem
        rcases List.mem_cons.mp hmem with rfl | hold
        · exact hnodup.1 hother
        · exact hseen.2 other hother hold
      rw [repeatedKey?, if_neg hseen.1]
      exact ih hnodup.2 hrest

mutual

/-- The first thing that the strict reader rejects in a value, innermost
dictionaries first. -/
def irregularity? : Json → Option String
  | float literal =>
      if literal ∈ ["NaN", "Infinity", "-Infinity"] then
        some s!"nonstandard_json_constant:{literal}"
      else none
  | array items => irregularItem? items
  | object fields =>
      (irregularField? fields).or
        ((repeatedKey? [] (fields.map Prod.fst)).map fun key => s!"duplicate_json_key:{key}")
  | _ => none

def irregularItem? : List Json → Option String
  | [] => none
  | item :: rest => (irregularity? item).or (irregularItem? rest)

def irregularField? : List (String × Json) → Option String
  | [] => none
  | (_, value) :: rest => (irregularity? value).or (irregularField? rest)

end

mutual

/-- A value with sorted keys and finite floats is regular. -/
theorem irregularity?_eq_none {value : Json} (hcanonical : value.IsCanonical)
    (hfinite : value.isFinite = true) : value.irregularity? = none := by
  match value with
  | null => rfl
  | bool _ => rfl
  | int _ => rfl
  | text _ => rfl
  | float literal =>
      rw [isFinite, decide_eq_true_eq] at hfinite
      rw [irregularity?, if_neg hfinite]
  | array items =>
      rw [isCanonical_array_iff] at hcanonical
      rw [isFinite, finiteItems_iff] at hfinite
      rw [irregularity?]
      exact irregularItem?_eq_none hcanonical hfinite
  | object fields =>
      rw [isCanonical_object_iff, List.isChain_iff_pairwise] at hcanonical
      rw [isFinite, finiteFields_iff, List.forall_mem_map] at hfinite
      rw [irregularity?, irregularField?_eq_none hcanonical.2 hfinite,
        repeatedKey?_eq_none hcanonical.1.nodup (fun _ _ => List.not_mem_nil)]
      rfl

theorem irregularItem?_eq_none {items : List Json} (hcanonical : ∀ item ∈ items, item.IsCanonical)
    (hfinite : ∀ item ∈ items, item.isFinite = true) : irregularItem? items = none := by
  match items with
  | [] => rfl
  | item :: rest =>
      rw [List.forall_mem_cons] at hcanonical hfinite
      rw [irregularItem?, irregularity?_eq_none hcanonical.1 hfinite.1,
        irregularItem?_eq_none hcanonical.2 hfinite.2]
      rfl

theorem irregularField?_eq_none {fields : List (String × Json)}
    (hcanonical : ∀ field ∈ fields, field.2.IsCanonical)
    (hfinite : ∀ field ∈ fields, field.2.isFinite = true) : irregularField? fields = none := by
  match fields with
  | [] => rfl
  | (key, value) :: rest =>
      rw [List.forall_mem_cons] at hcanonical hfinite
      rw [irregularField?, irregularity?_eq_none hcanonical.1 hfinite.1,
        irregularField?_eq_none hcanonical.2 hfinite.2]
      rfl

end

end Json

end AegisForge.Core
