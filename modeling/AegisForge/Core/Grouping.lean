import Mathlib.Data.List.Induction
import Mathlib.Data.List.Nodup

/-!
# Dictionaries in insertion order

A dictionary is the list of its entries; an update keeps the place of a key and
puts a new one last.  Grouping a list of items gives one entry for each key, in the
order in which the keys come first, with the value that the items of the key make.
-/

namespace AegisForge.Core.Grouping

variable {Key Value Item : Type*} [DecidableEq Key]

/-- Gives the key the value that is made from its present one, if there is one. -/
def update (key : Key) (change : Option Value → Value) : List (Key × Value) → List (Key × Value)
  | [] => [(key, change none)]
  | (other, value) :: rest =>
      if other = key then (other, change (some value)) :: rest
      else (other, value) :: update key change rest

/-- An update for each item in turn. -/
def updateAll (keyOf : Item → Key) (change : Item → Option Value → Value)
    (entries : List (Key × Value)) (items : List Item) : List (Key × Value) :=
  items.foldl (fun entries item => update (keyOf item) (change item) entries) entries

/-- The entries that the items make. -/
def group (keyOf : Item → Key) (change : Item → Option Value → Value) (items : List Item) :
    List (Key × Value) := updateAll keyOf change [] items

variable {key other : Key} {value : Value} {change : Option Value → Value}
variable {entries : List (Key × Value)}

/-! ## Keys in the order in which they come first -/

theorem eraseDups_concat (keys : List Key) (key : Key) :
    (keys ++ [key]).eraseDups = if key ∈ keys then keys.eraseDups else keys.eraseDups ++ [key] := by
  rw [List.eraseDups_append]
  by_cases hmem : key ∈ keys
  · simp [List.removeAll, hmem]
  · simp [List.removeAll, hmem, List.eraseDups_cons]

theorem nodup_eraseDups (keys : List Key) : keys.eraseDups.Nodup := by
  induction keys using List.reverseRecOn with
  | nil => exact List.nodup_nil
  | append_singleton keys key ih =>
      rw [eraseDups_concat]
      split
      case isTrue => exact ih
      case isFalse hnew =>
        rw [← List.concat_eq_append]
        exact ih.concat fun hmem => hnew (List.mem_eraseDups.mp hmem)

theorem keys_update (entries : List (Key × Value)) :
    (update key change entries).map Prod.fst =
      if key ∈ entries.map Prod.fst then entries.map Prod.fst
      else entries.map Prod.fst ++ [key] := by
  induction entries with
  | nil => simp [update]
  | cons entry rest ih =>
      obtain ⟨other, value⟩ := entry
      rw [update]
      by_cases hkey : other = key
      · simp [hkey]
      · simp only [if_neg hkey, List.map_cons, ih, List.mem_cons, Ne.symm hkey, false_or]
        split <;> rfl

theorem keys_group (keyOf : Item → Key) (change : Item → Option Value → Value)
    (items : List Item) :
    (group keyOf change items).map Prod.fst = (items.map keyOf).eraseDups := by
  induction items using List.reverseRecOn with
  | nil => rfl
  | append_singleton items item ih =>
      rw [group, updateAll, List.foldl_append, List.foldl_cons, List.foldl_nil, keys_update,
        List.map_append, List.map_singleton, eraseDups_concat]
      rw [group, updateAll] at ih
      simp only [ih, List.mem_eraseDups]

theorem nodup_keys_group (keyOf : Item → Key) (change : Item → Option Value → Value)
    (items : List Item) : ((group keyOf change items).map Prod.fst).Nodup := by
  rw [keys_group]
  exact nodup_eraseDups _

/-! ## Values -/

theorem lookup_cons (entry : Key × Value) (entries : List (Key × Value)) (key : Key) :
    (entry :: entries).lookup key =
      if key = entry.1 then some entry.2 else entries.lookup key := by
  obtain ⟨found, value⟩ := entry
  rw [List.lookup_cons]
  by_cases hkey : key = found
  · simp [hkey]
  · simp [beq_false_of_ne hkey, hkey]

theorem lookup_update (entries : List (Key × Value)) :
    (update key change entries).lookup other =
      if other = key then some (change (entries.lookup key)) else entries.lookup other := by
  induction entries with
  | nil => simp [update, lookup_cons]
  | cons entry rest ih =>
      obtain ⟨found, value⟩ := entry
      rw [update]
      by_cases hfound : found = key
      · subst hfound
        by_cases hother : other = found
        · simp [lookup_cons, hother]
        · simp [lookup_cons, hother]
      · rw [if_neg hfound, lookup_cons, lookup_cons, lookup_cons, ih]
        by_cases hother : other = found
        · simp [hother, hfound]
        · simp [hother, Ne.symm hfound]

/-- The value that the items of a key make. -/
theorem lookup_group (keyOf : Item → Key) (change : Item → Option Value → Value)
    (items : List Item) (key : Key) :
    (group keyOf change items).lookup key =
      (items.filter fun item => keyOf item = key).foldl
        (fun value item => some (change item value)) none := by
  induction items using List.reverseRecOn with
  | nil => rfl
  | append_singleton items item ih =>
      rw [group, updateAll, List.foldl_append, List.foldl_cons, List.foldl_nil, lookup_update]
      rw [group, updateAll] at ih
      by_cases hkey : key = keyOf item
      · subst hkey
        simp [ih, List.filter_append]
      · simp [hkey, Ne.symm hkey, ih, List.filter_append]

/-- What a loop makes that starts with a first value at its first item. -/
theorem foldl_some {Index : Type*} (step : Value → Index → Value) (start : Value)
    (items : List Index) :
    items.foldl (fun value item => some (step (value.getD start) item)) none =
      if items = [] then none else some (items.foldl step start) := by
  induction items using List.reverseRecOn with
  | nil => rfl
  | append_singleton items item ih =>
      rw [List.foldl_append, List.foldl_cons, List.foldl_nil, ih]
      by_cases hempty : items = []
      · simp [hempty]
      · simp [hempty]

theorem mem_iff_lookup_eq_some (hnodup : (entries.map Prod.fst).Nodup) :
    (key, value) ∈ entries ↔ entries.lookup key = some value := by
  induction entries with
  | nil => simp
  | cons entry rest ih =>
      obtain ⟨found, held⟩ := entry
      obtain ⟨hnew, hrest⟩ := List.nodup_cons.mp hnodup
      rw [lookup_cons, List.mem_cons, ih hrest]
      by_cases hkey : key = found
      · subst hkey
        have habsent : rest.lookup key ≠ some value := fun hlookup =>
          hnew (List.mem_map.mpr ⟨(key, value), (ih hrest).mpr hlookup, rfl⟩)
        simp [habsent, eq_comm]
      · simp [hkey]

theorem mem_group_iff {keyOf : Item → Key} {change : Item → Option Value → Value}
    {items : List Item} :
    (key, value) ∈ group keyOf change items ↔
      (items.filter fun item => keyOf item = key).foldl
        (fun value item => some (change item value)) none = some value := by
  rw [mem_iff_lookup_eq_some (nodup_keys_group keyOf change items), lookup_group]

/-! ## Assignments -/

/-- An item for each key, the last one that has it. -/
def assign (keyOf : Item → Key) (items : List Item) : List (Key × Item) :=
  group keyOf (fun item _ => item) items

theorem foldl_last (items : List Item) (start : Option Item) :
    items.foldl (fun _ item => some item) start = items.getLast?.or start := by
  induction items using List.reverseRecOn with
  | nil => simp
  | append_singleton items item ih => simp

theorem mem_assign_iff {keyOf : Item → Key} {items : List Item} {item : Item} :
    (key, item) ∈ assign keyOf items ↔
      (items.filter fun item => keyOf item = key).getLast? = some item := by
  rw [assign, mem_group_iff, foldl_last, Option.or_none]

theorem keyOf_of_mem_assign {keyOf : Item → Key} {items : List Item} {item : Item}
    (hmem : (key, item) ∈ assign keyOf items) : item ∈ items ∧ keyOf item = key := by
  have hlast := List.mem_of_getLast? (mem_assign_iff.mp hmem)
  simpa using hlast

/-- The items that are held. -/
def assigned (keyOf : Item → Key) (items : List Item) : List Item :=
  (assign keyOf items).map Prod.snd

theorem mem_of_mem_assigned {keyOf : Item → Key} {items : List Item} {item : Item}
    (hmem : item ∈ assigned keyOf items) : item ∈ items := by
  obtain ⟨⟨key, held⟩, hentry, rfl⟩ := List.mem_map.mp hmem
  exact (keyOf_of_mem_assign hentry).1

/-- Every key keeps an item. -/
theorem exists_mem_assigned (keyOf : Item → Key) {items : List Item} {item : Item}
    (hmem : item ∈ items) : ∃ held ∈ assigned keyOf items, keyOf held = keyOf item := by
  have hkey : keyOf item ∈ (assign keyOf items).map Prod.fst := by
    rw [assign, keys_group, List.mem_eraseDups]
    exact List.mem_map_of_mem hmem
  obtain ⟨⟨key, held⟩, hentry, hsame⟩ := List.mem_map.mp hkey
  exact ⟨held, List.mem_map.mpr ⟨_, hentry, rfl⟩, (keyOf_of_mem_assign hentry).2.trans hsame⟩

/-- An item that shares its key with no other one is kept. -/
theorem mem_assigned_of_unique {keyOf : Item → Key} {items : List Item} {item : Item}
    (hmem : item ∈ items) (hunique : ∀ other ∈ items, keyOf other = keyOf item → other = item) :
    item ∈ assigned keyOf items := by
  obtain ⟨held, hheld, hsame⟩ := exists_mem_assigned keyOf hmem
  obtain rfl := hunique held (mem_of_mem_assigned hheld) hsame
  exact hheld

theorem nodup_map_assigned (keyOf : Item → Key) (items : List Item) :
    ((assigned keyOf items).map keyOf).Nodup := by
  have hkeys : (assigned keyOf items).map keyOf = (assign keyOf items).map Prod.fst := by
    rw [assigned, List.map_map]
    exact List.map_congr_left fun entry hentry => (keyOf_of_mem_assign hentry).2
  rw [hkeys]
  exact nodup_keys_group keyOf (fun item _ => item) items

/-! ## The first of each key -/

/-- The items whose key has not been seen before. -/
def firsts (keyOf : Item → Key) : List Key → List Item → List Item
  | _, [] => []
  | seen, item :: rest =>
      if keyOf item ∈ seen then firsts keyOf seen rest
      else item :: firsts keyOf (keyOf item :: seen) rest

theorem mem_firsts {keyOf : Item → Key} {items : List Item} {item : Item} (seen : List Key)
    (hmem : item ∈ firsts keyOf seen items) : item ∈ items ∧ keyOf item ∉ seen := by
  induction items generalizing seen with
  | nil => cases hmem
  | cons first rest ih =>
      rw [firsts] at hmem
      split at hmem
      case isTrue => exact (ih seen hmem).imp (List.mem_cons_of_mem _) id
      case isFalse hnew =>
        rcases List.mem_cons.mp hmem with rfl | hmem
        · exact ⟨List.mem_cons_self, hnew⟩
        · obtain ⟨hrest, hunseen⟩ := ih _ hmem
          exact ⟨List.mem_cons_of_mem _ hrest, fun h => hunseen (List.mem_cons_of_mem _ h)⟩

theorem nodup_map_firsts (keyOf : Item → Key) (seen : List Key) (items : List Item) :
    ((firsts keyOf seen items).map keyOf).Nodup := by
  induction items generalizing seen with
  | nil => exact List.nodup_nil
  | cons first rest ih =>
      rw [firsts]
      split
      case isTrue => exact ih seen
      case isFalse =>
        refine List.nodup_cons.mpr ⟨fun hmem => ?_, ih _⟩
        obtain ⟨item, hitem, hsame⟩ := List.mem_map.mp hmem
        exact (mem_firsts _ hitem).2 (hsame ▸ List.mem_cons_self)

theorem exists_mem_firsts {keyOf : Item → Key} {items : List Item} {item : Item}
    (seen : List Key) (hmem : item ∈ items) (hunseen : keyOf item ∉ seen) :
    ∃ kept ∈ firsts keyOf seen items, keyOf kept = keyOf item := by
  induction items generalizing seen with
  | nil => cases hmem
  | cons first rest ih =>
      rw [firsts]
      split
      case isTrue hseen =>
        rcases List.mem_cons.mp hmem with rfl | hrest
        · exact absurd hseen hunseen
        · exact ih seen hrest hunseen
      case isFalse =>
        by_cases hkey : keyOf item = keyOf first
        · exact ⟨first, List.mem_cons_self, hkey.symm⟩
        · have hrest : item ∈ rest :=
            (List.mem_cons.mp hmem).resolve_left fun heq => hkey (congrArg keyOf heq)
          obtain ⟨kept, hkept, hsame⟩ :=
            ih (keyOf first :: seen) hrest (by simp [hkey, hunseen])
          exact ⟨kept, List.mem_cons_of_mem _ hkept, hsame⟩

/-- Where the keys tell the items of a list apart, what is collected from it by keys is
each item once. -/
theorem firsts_perm {keyOf : Item → Key} {all collected : List Item}
    (hkeys : (all.map keyOf).Nodup) (hcollected : ∀ item, item ∈ collected → item ∈ all)
    {wanted : List Item} (hwanted : wanted.Nodup)
    (hmem : ∀ item, item ∈ wanted ↔ item ∈ collected) :
    (firsts keyOf [] collected).Perm wanted := by
  rw [List.perm_ext_iff_of_nodup (nodup_map_firsts keyOf [] collected).of_map hwanted]
  intro item
  rw [hmem]
  constructor
  · exact fun hfirst => (mem_firsts [] hfirst).1
  · intro hitem
    obtain ⟨kept, hkept, hsame⟩ : ∃ kept ∈ firsts keyOf [] collected, keyOf kept = keyOf item :=
      exists_mem_firsts [] hitem List.not_mem_nil
    have heq : kept = item := List.inj_on_of_nodup_map hkeys
      (hcollected kept (mem_firsts [] hkept).1) (hcollected item hitem) hsame
    exact heq ▸ hkept

end AegisForge.Core.Grouping
