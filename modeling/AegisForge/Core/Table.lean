import Mathlib.Data.List.Nodup
import Mathlib.Data.List.Perm.Basic

/-!
# Tables with a primary key and a unique column

A table is the list of its rows in insertion order together with the facts that
no two rows share the primary key or the unique column.  Every operation keeps
these facts, so a lookup by key determines a row and the lemmas below describe
each operation by its lookups.  A table whose only constraint is its primary
key takes the key for the unique column too.
-/

namespace AegisForge.Core

universe u v w

/-- Rows in insertion order, at most one for each key and each unique value. -/
structure Table {Key : Type v} {Unique : Type w} {Row : Type u} (key : Row → Key)
    (unique : Row → Unique) where
  rows : List Row
  primaryKey : (rows.map key).Nodup
  uniqueColumn : (rows.map unique).Nodup

namespace Table

variable {Key : Type v} {Unique : Type w} {Row : Type u}
variable {key : Row → Key} {unique : Row → Unique}

@[ext]
theorem ext {left right : Table key unique} (hrows : left.rows = right.rows) :
    left = right := by
  cases left
  cases right
  cases hrows
  rfl

def empty : Table key unique where
  rows := []
  primaryKey := List.nodup_nil
  uniqueColumn := List.nodup_nil

theorem nodup_map_concat {Value : Type*} {column : Row → Value} {rows : List Row}
    {row : Row} (hnodup : (rows.map column).Nodup)
    (hfresh : column row ∉ rows.map column) :
    ((rows ++ [row]).map column).Nodup := by
  rw [List.map_append, List.map_singleton, List.nodup_append]
  refine ⟨hnodup, List.nodup_singleton _, ?_⟩
  intro left hleft right hright heq
  rw [List.mem_singleton] at hright
  subst heq hright
  exact hfresh hleft

variable [DecidableEq Key]

private theorem map_modify {Value : Type*} {column : Row → Value} (rows : List Row)
    (wanted : Key) {change : Row → Row} (hcolumn : ∀ row, column (change row) = column row) :
    (rows.map fun row => if key row = wanted then change row else row).map column =
      rows.map column := by
  rw [List.map_map]
  apply List.map_congr_left
  intro row _
  by_cases hrow : key row = wanted
  · simp [hrow, hcolumn]
  · simp [hrow]

/-- `SELECT ... WHERE key = ?`. -/
def lookup (table : Table key unique) (wanted : Key) : Option Row :=
  table.rows.find? fun row => decide (key row = wanted)

/-- `INSERT`, refused when the key or the unique value is taken. -/
def insert? [DecidableEq Unique] (table : Table key unique) (row : Row) :
    Option (Table key unique) :=
  if hkey : key row ∈ table.rows.map key then none
  else if hunique : unique row ∈ table.rows.map unique then none
  else some {
    rows := table.rows ++ [row]
    primaryKey := nodup_map_concat table.primaryKey hkey
    uniqueColumn := nodup_map_concat table.uniqueColumn hunique }

/-- `UPDATE ... WHERE key = ?` by a change that leaves both columns alone. -/
def modify (table : Table key unique) (wanted : Key) (change : Row → Row)
    (hkey : ∀ row, key (change row) = key row)
    (hunique : ∀ row, unique (change row) = unique row) : Table key unique where
  rows := table.rows.map fun row => if key row = wanted then change row else row
  primaryKey := by
    rw [map_modify table.rows wanted hkey]
    exact table.primaryKey
  uniqueColumn := by
    rw [map_modify table.rows wanted hunique]
    exact table.uniqueColumn

/-! ## Lookups -/

@[simp]
theorem lookup_empty (wanted : Key) :
    (empty : Table key unique).lookup wanted = none := rfl

theorem key_of_lookup {table : Table key unique} {wanted : Key} {row : Row}
    (hlookup : table.lookup wanted = some row) : key row = wanted := by
  simpa using List.find?_some hlookup

theorem mem_of_lookup {table : Table key unique} {wanted : Key} {row : Row}
    (hlookup : table.lookup wanted = some row) : row ∈ table.rows :=
  List.mem_of_find?_eq_some hlookup

theorem lookup_eq_none_iff {table : Table key unique} {wanted : Key} :
    table.lookup wanted = none ↔ wanted ∉ table.rows.map key := by
  simp only [lookup, List.find?_eq_none, decide_eq_true_eq, List.mem_map,
    not_exists, not_and]

theorem find?_of_nodup {rows : List Row} (hnodup : (rows.map key).Nodup)
    {row : Row} (hmem : row ∈ rows) :
    rows.find? (fun other => decide (key other = key row)) = some row := by
  induction rows with
  | nil => simp at hmem
  | cons head tail ih =>
      rw [List.map_cons, List.nodup_cons] at hnodup
      rcases List.mem_cons.mp hmem with rfl | htail
      · simp
      · have hne : key head ≠ key row := fun heq =>
          hnodup.1 (heq ▸ List.mem_map_of_mem htail)
        rw [List.find?_cons_of_neg (by simpa using hne)]
        exact ih hnodup.2 htail

/-- Because keys are unique, a row of the table is the row its key finds. -/
theorem lookup_of_mem {table : Table key unique} {row : Row}
    (hmem : row ∈ table.rows) : table.lookup (key row) = some row :=
  find?_of_nodup table.primaryKey hmem

theorem mem_rows_iff {table : Table key unique} {row : Row} :
    row ∈ table.rows ↔ table.lookup (key row) = some row :=
  ⟨lookup_of_mem, mem_of_lookup⟩

omit [DecidableEq Key] in
theorem eq_of_unique_eq {table : Table key unique} {left right : Row}
    (hleft : left ∈ table.rows) (hright : right ∈ table.rows)
    (hunique : unique left = unique right) : left = right :=
  List.inj_on_of_nodup_map table.uniqueColumn hleft hright hunique

/-! ## Inserting -/

section Insert

variable [DecidableEq Unique]

theorem insert?_eq_some_iff {table after : Table key unique} {row : Row} :
    table.insert? row = some after ↔
      table.lookup (key row) = none ∧ unique row ∉ table.rows.map unique ∧
        after.rows = table.rows ++ [row] := by
  rw [lookup_eq_none_iff, insert?]
  by_cases hkey : key row ∈ table.rows.map key
  · simp [hkey]
  · by_cases hunique : unique row ∈ table.rows.map unique
    · simp [hunique]
    · simp only [hkey, hunique, dite_false, Option.some.injEq, not_false_eq_true,
        true_and]
      constructor
      · rintro rfl
        rfl
      · intro hrows
        exact ext hrows.symm

theorem exists_insert? (table : Table key unique) (row : Row)
    (hkey : table.lookup (key row) = none) (hunique : unique row ∉ table.rows.map unique) :
    ∃ after, table.insert? row = some after := by
  rw [lookup_eq_none_iff] at hkey
  exact ⟨_, by rw [insert?, dif_neg hkey, dif_neg hunique]⟩

/-- Where the key is the only constraint, a refused row's key is taken. -/
theorem lookup_isSome_of_insert?_eq_none {table : Table key unique} {row : Row}
    (hinsert : table.insert? row = none)
    (hunique : ∀ other, unique other = unique row → key other = key row) :
    (table.lookup (key row)).isSome = true := by
  rw [Option.isSome_iff_ne_none, ne_eq, lookup_eq_none_iff, not_not]
  rw [insert?] at hinsert
  split at hinsert
  case isTrue htaken => exact htaken
  case isFalse =>
    split at hinsert
    case isTrue htaken =>
      obtain ⟨other, hother, heq⟩ := List.mem_map.mp htaken
      exact List.mem_map.mpr ⟨other, hother, hunique other heq⟩
    case isFalse => cases hinsert

theorem lookup_insert? {table after : Table key unique} {row : Row}
    (hinsert : table.insert? row = some after) (wanted : Key) :
    after.lookup wanted =
      if key row = wanted then some row else table.lookup wanted := by
  obtain ⟨hfresh, -, hrows⟩ := insert?_eq_some_iff.mp hinsert
  rw [lookup, hrows, List.find?_append]
  by_cases hwanted : key row = wanted
  · subst hwanted
    rw [← lookup, hfresh]
    simp
  · simp [hwanted, lookup]

theorem mem_insert? {table after : Table key unique} {row : Row}
    (hinsert : table.insert? row = some after) {other : Row} :
    other ∈ after.rows ↔ other ∈ table.rows ∨ other = row := by
  rw [(insert?_eq_some_iff.mp hinsert).2.2]
  simp

end Insert

/-! ## Updating -/

variable {change : Row → Row} {hkey : ∀ row, key (change row) = key row}
variable {hunique : ∀ row, unique (change row) = unique row}

theorem lookup_modify (table : Table key unique) (wanted other : Key) :
    (table.modify wanted change hkey hunique).lookup other =
      if other = wanted then (table.lookup wanted).map change
      else table.lookup other := by
  have hfind : ((table.rows.map fun row =>
      if key row = wanted then change row else row).find?
        fun row => decide (key row = other)) =
      (table.rows.find? fun row => decide (key row = other)).map
        fun row => if key row = wanted then change row else row := by
    rw [List.find?_map]
    congr 2
    funext row
    by_cases hrow : key row = wanted <;> simp [hrow, hkey]
  rw [lookup, modify, hfind, ← lookup]
  by_cases hother : other = wanted
  · subst hother
    rw [if_pos rfl]
    cases hlookup : table.lookup other with
    | none => rfl
    | some row => simp [key_of_lookup hlookup]
  · rw [if_neg hother]
    cases hlookup : table.lookup other with
    | none => rfl
    | some row => simp [key_of_lookup hlookup, hother]

@[simp]
theorem lookup_modify_self (table : Table key unique) (wanted : Key) :
    (table.modify wanted change hkey hunique).lookup wanted =
      (table.lookup wanted).map change := by
  rw [lookup_modify, if_pos rfl]

theorem lookup_modify_of_ne (table : Table key unique) {wanted other : Key}
    (hne : other ≠ wanted) :
    (table.modify wanted change hkey hunique).lookup other = table.lookup other := by
  rw [lookup_modify, if_neg hne]

theorem mem_modify {table : Table key unique} {wanted : Key} {row : Row} :
    row ∈ (table.modify wanted change hkey hunique).rows ↔
      (row ∈ table.rows ∧ key row ≠ wanted) ∨
        ∃ old, table.lookup wanted = some old ∧ row = change old := by
  rw [mem_rows_iff, lookup_modify]
  constructor
  · intro hlookup
    by_cases hwanted : key row = wanted
    · rw [if_pos hwanted, Option.map_eq_some_iff] at hlookup
      obtain ⟨old, hold, hchange⟩ := hlookup
      exact Or.inr ⟨old, hold, hchange.symm⟩
    · rw [if_neg hwanted] at hlookup
      exact Or.inl ⟨mem_of_lookup hlookup, hwanted⟩
  · rintro (⟨hmem, hne⟩ | ⟨old, hold, rfl⟩)
    · rw [if_neg hne]
      exact lookup_of_mem hmem
    · rw [hkey, key_of_lookup hold, if_pos rfl, hold]
      rfl

/-! ## Updates with a condition -/

/-- `UPDATE ... WHERE key = ? AND condition`, and whether a row was updated. -/
def updateWhere (table : Table key unique) (wanted : Key) (condition : Row → Bool)
    (change : Row → Row) (hkey : ∀ row, key (change row) = key row)
    (hunique : ∀ row, unique (change row) = unique row) : Bool × Table key unique :=
  if (table.lookup wanted).any condition = true then
    (true, table.modify wanted change hkey hunique)
  else (false, table)

variable {condition : Row → Bool}

theorem lookup_updateWhere (table : Table key unique) (wanted other : Key) :
    (table.updateWhere wanted condition change hkey hunique).2.lookup other =
      (table.lookup other).map fun row =>
        if other = wanted ∧ condition row = true then change row else row := by
  rw [updateWhere]
  by_cases hother : other = wanted
  · subst hother
    cases hlookup : table.lookup other with
    | none => simp [hlookup]
    | some row => by_cases hcondition : condition row = true <;> simp [hlookup, hcondition]
  · have hkept : (table.lookup other).map (fun row =>
        if other = wanted ∧ condition row = true then change row else row) =
          table.lookup other := by
      simp [hother]
    rw [hkept]
    split
    · rw [lookup_modify, if_neg hother]
    · rfl

theorem updateWhere_eq_true_iff {table : Table key unique} {wanted : Key} :
    (table.updateWhere wanted condition change hkey hunique).1 = true ↔
      ∃ row, table.lookup wanted = some row ∧ condition row = true := by
  rw [updateWhere, ← Option.any_eq_true]
  split <;> simp_all

/-! ## Inserting or updating -/

section Upsert

variable {keyed : Table key key} {row : Row} {change : Row → Row}
variable {hkey : ∀ row, key (change row) = key row}

/-- `INSERT` of a row, or an update where its key is taken. -/
def upsert (keyed : Table key key) (row : Row) (change : Row → Row)
    (hkey : ∀ row, key (change row) = key row) : Table key key :=
  if keyed.lookup (key row) = none then (keyed.insert? row).getD keyed
  else keyed.modify (key row) change hkey hkey

theorem lookup_upsert (keyed : Table key key) (row : Row) (wanted : Key) :
    (keyed.upsert row change hkey).lookup wanted =
      if key row = wanted then some ((keyed.lookup wanted).elim row change)
      else keyed.lookup wanted := by
  rw [upsert]
  split
  case isTrue hnone =>
    cases hinsert : keyed.insert? row with
    | none =>
        have htaken := lookup_isSome_of_insert?_eq_none hinsert fun _ heq => heq
        rw [hnone] at htaken
        cases htaken
    | some after =>
        rw [Option.getD_some, lookup_insert? hinsert]
        split
        case isTrue heq => rw [← heq, hnone, Option.elim_none]
        case isFalse => rfl
  case isFalse hsome =>
    rw [lookup_modify]
    by_cases heq : wanted = key row
    · rw [if_pos heq, if_pos heq.symm, heq]
      cases hlookup : keyed.lookup (key row) with
      | none => exact absurd hlookup hsome
      | some old => rfl
    · rw [if_neg heq, if_neg fun hsame => heq hsame.symm]

end Upsert

/-! ## Changing and deleting many rows -/

/-- `UPDATE` of every row by a change that leaves both columns alone. -/
def mapRows (table : Table key unique) (change : Row → Row)
    (hkey : ∀ row, key (change row) = key row)
    (hunique : ∀ row, unique (change row) = unique row) : Table key unique where
  rows := table.rows.map change
  primaryKey := by
    rw [List.map_map, show key ∘ change = key from funext hkey]
    exact table.primaryKey
  uniqueColumn := by
    rw [List.map_map, show unique ∘ change = unique from funext hunique]
    exact table.uniqueColumn

/-- `DELETE ... WHERE condition`. -/
def deleteWhere (table : Table key unique) (condition : Row → Bool) : Table key unique where
  rows := table.rows.filter fun row => !condition row
  primaryKey := table.primaryKey.sublist (List.filter_sublist.map key)
  uniqueColumn := table.uniqueColumn.sublist (List.filter_sublist.map unique)

theorem lookup_mapRows (table : Table key unique) (wanted : Key) :
    (table.mapRows change hkey hunique).lookup wanted = (table.lookup wanted).map change := by
  rw [lookup, mapRows, List.find?_map]
  congr 2
  funext row
  simp [hkey]

omit [DecidableEq Key] in
theorem mem_deleteWhere {table : Table key unique} {row : Row} :
    row ∈ (table.deleteWhere condition).rows ↔ row ∈ table.rows ∧ condition row = false := by
  simp [deleteWhere]

omit [DecidableEq Key] in
theorem mem_mapRows {table : Table key unique} {row : Row} :
    row ∈ (table.mapRows change hkey hunique).rows ↔ ∃ old ∈ table.rows, change old = row :=
  List.mem_map

end Table

end AegisForge.Core
