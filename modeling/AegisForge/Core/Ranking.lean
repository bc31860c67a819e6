import Mathlib.Data.List.Nodup
import Mathlib.Data.List.Sort

/-!
# The first of a list

Which elements `ORDER BY ... LIMIT` and `LIMIT` alone return: those that fewer than
the limit stand before, in the order or in the list.
-/

namespace AegisForge.Core

variable {Item : Type*}

/-- An element is among the first of a list without repetitions if few stand before it. -/
theorem mem_take_append_cons {before after : List Item} {item : Item} {count : ℕ}
    (hnodup : (before ++ item :: after).Nodup) :
    item ∈ (before ++ item :: after).take count ↔ before.length < count := by
  have hbefore : item ∉ before := fun hmem =>
    (List.nodup_append.mp hnodup).2.2 item hmem item List.mem_cons_self rfl
  rw [List.take_append, List.mem_append]
  constructor
  · rintro (hmem | hmem)
    · exact absurd (List.mem_of_mem_take hmem) hbefore
    · by_contra hnot
      rw [Nat.sub_eq_zero_of_le (Nat.le_of_not_lt hnot)] at hmem
      cases hmem
  · intro hlt
    obtain ⟨rest, hrest⟩ := Nat.exists_eq_add_of_lt hlt
    refine Or.inr ?_
    rw [show count - before.length = rest + 1 by omega]
    exact List.mem_cons_self

section Sorted

variable [DecidableEq Item] (precedes : Item → Item → Prop) [DecidableRel precedes]

/-- How many other elements precede one. -/
def rank (items : List Item) (item : Item) : ℕ :=
  items.countP fun other => precedes other item && other ≠ item

variable [IsTrans Item precedes] [Std.Total precedes]

omit [DecidableEq Item] [IsTrans Item precedes] [Std.Total precedes] in
theorem head?_insertionSort_eq_none_iff {items : List Item} :
    (items.insertionSort precedes).head? = none ↔ items = [] := by
  rw [List.head?_eq_none_iff, ← List.length_eq_zero_iff, List.length_insertionSort,
    List.length_eq_zero_iff]

omit [DecidableEq Item] in
theorem forall_precedes_of_head? {items : List Item} {item : Item}
    (hhead : (items.insertionSort precedes).head? = some item) :
    item ∈ items ∧ ∀ other ∈ items, precedes item other := by
  have hperm : (items.insertionSort precedes).Perm items := List.perm_insertionSort precedes items
  have hsorted : (items.insertionSort precedes).Pairwise precedes :=
    List.pairwise_insertionSort precedes items
  obtain ⟨rest, hrest⟩ := List.head?_eq_some_iff.mp hhead
  rw [hrest] at hperm hsorted
  refine ⟨hperm.mem_iff.mp List.mem_cons_self, fun other hother => ?_⟩
  rcases List.mem_cons.mp (hperm.mem_iff.mpr hother) with rfl | hlater
  · exact (Std.Total.total other other).elim id id
  · exact (List.pairwise_cons.mp hsorted).1 other hlater

omit [DecidableEq Item] in
/-- The first of a sorted list is the element that precedes all others. -/
theorem head?_insertionSort_eq_some_iff {items : List Item}
    (hantisymm : ∀ left ∈ items, ∀ right ∈ items, precedes left right → precedes right left →
      left = right) {item : Item} :
    (items.insertionSort precedes).head? = some item ↔
      item ∈ items ∧ ∀ other ∈ items, precedes item other := by
  refine ⟨forall_precedes_of_head? precedes, ?_⟩
  rintro ⟨hitem, hleast⟩
  cases hhead : (items.insertionSort precedes).head? with
  | none =>
      rw [List.head?_eq_none_iff] at hhead
      have hmem := (List.mem_insertionSort precedes).mpr hitem
      rw [hhead] at hmem
      cases hmem
  | some first =>
      obtain ⟨hfirst, hprecedes⟩ := forall_precedes_of_head? precedes hhead
      rw [hantisymm first hfirst item hitem (hprecedes item hitem) (hleast first hfirst)]

theorem mem_take_insertionSort_iff {items : List Item} (hnodup : items.Nodup)
    (hantisymm : ∀ left ∈ items, ∀ right ∈ items, precedes left right → precedes right left →
      left = right) {item : Item} (hitem : item ∈ items) (count : ℕ) :
    item ∈ (items.insertionSort precedes).take count ↔ rank precedes items item < count := by
  have hperm : (items.insertionSort precedes).Perm items := List.perm_insertionSort precedes items
  have hsorted : (items.insertionSort precedes).Pairwise precedes :=
    List.pairwise_insertionSort precedes items
  have hdistinct : (items.insertionSort precedes).Nodup := hperm.nodup_iff.mpr hnodup
  have hrank : rank precedes items item = rank precedes (items.insertionSort precedes) item :=
    (hperm.countP_eq _).symm
  have hmem : ∀ other ∈ items.insertionSort precedes, other ∈ items := fun other =>
    hperm.mem_iff.mp
  obtain ⟨before, after, hsplit⟩ := List.append_of_mem (hperm.mem_iff.mpr hitem)
  rw [hrank, hsplit]
  rw [hsplit] at hsorted hdistinct hmem
  obtain ⟨-, hright, hacross⟩ := List.pairwise_append.mp hsorted
  have hearlier : before.countP (fun other => precedes other item && other ≠ item) =
      before.length := by
    refine List.countP_eq_length.mpr fun other hother => ?_
    have hne : other ≠ item :=
      (List.nodup_append.mp hdistinct).2.2 other hother item List.mem_cons_self
    simp [hacross other hother item List.mem_cons_self, hne]
  have hlater : (item :: after).countP (fun other => precedes other item && other ≠ item) = 0 := by
    refine List.countP_eq_zero.mpr fun other hother => ?_
    rcases List.mem_cons.mp hother with rfl | hother
    · simp
    · have hback := (List.pairwise_cons.mp hright).1 other hother
      have hsame : precedes other item → other = item := fun hforth =>
        hantisymm other (hmem other (by simp [hother])) item hitem hforth hback
      simpa using hsame
  have hcount : rank precedes (before ++ item :: after) item = before.length := by
    rw [rank, List.countP_append, hearlier, hlater, Nat.add_zero]
  rw [hcount, mem_take_append_cons hdistinct]

end Sorted

/-- A filtered element is among the first if few filtered ones stand before it. -/
theorem mem_take_filter_iff {items before after : List Item} {item : Item}
    {condition : Item → Bool} (hsplit : items = before ++ item :: after) (hnodup : items.Nodup)
    (hcondition : condition item = true) (count : ℕ) :
    item ∈ (items.filter condition).take count ↔ before.countP condition < count := by
  have hfilter : items.filter condition =
      before.filter condition ++ item :: after.filter condition := by
    rw [hsplit, List.filter_append, List.filter_cons_of_pos hcondition]
  have hdistinct := hnodup.filter condition
  rw [hfilter] at hdistinct ⊢
  rw [mem_take_append_cons hdistinct, List.countP_eq_length_filter]

section Stable

variable (precedes : Item → Item → Prop) [DecidableRel precedes] [IsTrans Item precedes]

theorem filter_orderedInsert (condition : Item → Bool) (item : Item) {items : List Item}
    (hsorted : items.Pairwise precedes) :
    (items.orderedInsert precedes item).filter condition =
      if condition item then (items.filter condition).orderedInsert precedes item
      else items.filter condition := by
  induction items with
  | nil =>
      rw [List.orderedInsert_nil]
      cases hitem : condition item <;> simp [hitem]
  | cons first rest ih =>
      obtain ⟨hfirst, hrest⟩ := List.pairwise_cons.mp hsorted
      rw [List.orderedInsert_cons]
      by_cases hbefore : precedes item first
      · rw [if_pos hbefore, List.filter_cons]
        cases hitem : condition item with
        | false => rfl
        | true =>
            have hall : ∀ other ∈ (first :: rest).filter condition, precedes item other := by
              intro other hother
              rcases List.mem_cons.mp (List.mem_filter.mp hother).1 with rfl | hother
              · exact hbefore
              · exact IsTrans.trans _ _ _ hbefore (hfirst other hother)
            cases hfilter : (first :: rest).filter condition with
            | nil => rfl
            | cons head tail =>
                rw [hfilter] at hall
                rw [if_pos rfl, List.orderedInsert_cons, if_pos (hall head List.mem_cons_self),
                  if_pos rfl]
      · rw [if_neg hbefore, List.filter_cons, List.filter_cons, ih hrest]
        cases hitem : condition item with
        | false => rfl
        | true =>
            cases hhead : condition first with
            | false => rfl
            | true => simp [List.orderedInsert_cons, hbefore]

/-- A stable sort of some elements has them as the sort of all elements has. -/
theorem filter_insertionSort [Std.Total precedes] (condition : Item → Bool) (items : List Item) :
    (items.insertionSort precedes).filter condition =
      (items.filter condition).insertionSort precedes := by
  induction items with
  | nil => rfl
  | cons item rest ih =>
      rw [List.insertionSort_cons, filter_orderedInsert precedes condition item
        (List.pairwise_insertionSort precedes rest), ih, List.filter_cons]
      cases condition item <;> rfl

end Stable

end AegisForge.Core
