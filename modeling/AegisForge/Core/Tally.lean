import Mathlib.Data.List.Dedup

/-!
# Counting changes

Items are observed in groups.  A counter that remembers only the last item of each
group counts how often that item changes.  It counts each observation once exactly if
no item comes back after another one of its group.
-/

namespace AegisForge.Core.Tally

variable {Group Item : Type*} [DecidableEq Group] [DecidableEq Item]

/-- The last item of a group.  The newest observation stands first. -/
def latest (seen : List (Group × Item)) (group : Group) : Option Item :=
  (seen.find? fun observation => observation.1 = group).map Prod.snd

/-- How often the last item of a group changed. -/
def changes : List (Group × Item) → ℕ
  | [] => 0
  | observation :: older =>
      if latest older observation.1 = some observation.2 then changes older else changes older + 1

/-- How many groups there are. -/
def groups (seen : List (Group × Item)) : ℕ := (seen.map Prod.fst).dedup.length

/-- How many items there are, counted for each group. -/
def items (seen : List (Group × Item)) : ℕ := seen.dedup.length

/-- An item that is observed again is still the last one of its group. -/
def NeverReturns (seen : List (Group × Item)) : Prop :=
  ∀ newer observation older, seen = newer ++ observation :: older → observation ∈ older →
    latest older observation.1 = some observation.2

variable {seen older : List (Group × Item)} {observation : Group × Item} {group : Group}

omit [DecidableEq Item] in
theorem latest_eq_none_iff : latest seen group = none ↔ group ∉ seen.map Prod.fst := by
  rw [latest, Option.map_eq_none_iff, List.find?_eq_none, List.mem_map]
  constructor
  · rintro hnone ⟨observation, hmem, rfl⟩
    exact hnone observation hmem (decide_eq_true rfl)
  · intro hnone observation hmem heq
    exact hnone ⟨observation, hmem, of_decide_eq_true heq⟩

omit [DecidableEq Item] in
theorem mem_of_latest {item : Item} (hlatest : latest seen group = some item) :
    (group, item) ∈ seen := by
  obtain ⟨observation, hfound, rfl⟩ := Option.map_eq_some_iff.mp hlatest
  have hgroup : observation.1 = group := by simpa using List.find?_some hfound
  exact hgroup ▸ List.mem_of_find?_eq_some hfound

omit [DecidableEq Item] in
theorem neverReturns_nil : NeverReturns ([] : List (Group × Item)) := by
  intro newer observation older hsplit
  simp at hsplit

omit [DecidableEq Item] in
theorem neverReturns_cons_iff : NeverReturns (observation :: older) ↔
    NeverReturns older ∧
      (observation ∈ older → latest older observation.1 = some observation.2) := by
  constructor
  · intro hnever
    refine ⟨?_, hnever [] observation older rfl⟩
    rintro newer other rest rfl
    exact hnever (observation :: newer) other rest rfl
  · rintro ⟨holder, hfirst⟩ newer other rest hsplit
    cases newer with
    | nil =>
        obtain ⟨rfl, rfl⟩ := List.cons_eq_cons.mp hsplit
        exact hfirst
    | cons first newer =>
        obtain ⟨-, hrest⟩ := List.cons_eq_cons.mp hsplit
        exact holder newer other rest hrest

theorem items_cons : items (observation :: older) =
    if observation ∈ older then items older else items older + 1 := by
  rw [items]
  split
  case isTrue hmem => rw [List.dedup_cons_of_mem hmem, items]
  case isFalse hmem => rw [List.dedup_cons_of_notMem hmem, List.length_cons, items]

omit [DecidableEq Item] in
theorem groups_cons : groups (observation :: older) =
    if latest older observation.1 = none then groups older + 1 else groups older := by
  rw [groups, List.map_cons]
  split
  case isTrue hnone =>
    rw [List.dedup_cons_of_notMem (latest_eq_none_iff.mp hnone), List.length_cons, groups]
  case isFalse hsome =>
    rw [List.dedup_cons_of_mem (not_not.mp fun hmem => hsome (latest_eq_none_iff.mpr hmem)), groups]

theorem items_le_changes (seen : List (Group × Item)) : items seen ≤ changes seen := by
  induction seen with
  | nil => exact Nat.le_refl 0
  | cons observation older ih =>
      rw [items_cons, changes]
      by_cases hlatest : latest older observation.1 = some observation.2
      · rw [if_pos (mem_of_latest hlatest), if_pos hlatest]
        exact ih
      · rw [if_neg hlatest]
        split <;> omega

/-- The changes are the items exactly if no item comes back. -/
theorem changes_eq_items_iff : changes seen = items seen ↔ NeverReturns seen := by
  induction seen with
  | nil => exact iff_of_true rfl neverReturns_nil
  | cons observation older ih =>
      have hle := items_le_changes older
      rw [neverReturns_cons_iff, ← ih, items_cons, changes]
      by_cases hlatest : latest older observation.1 = some observation.2
      · rw [if_pos hlatest, if_pos (mem_of_latest hlatest)]
        exact ⟨fun heq => ⟨heq, fun _ => hlatest⟩, And.left⟩
      · rw [if_neg hlatest]
        by_cases hmem : observation ∈ older
        · rw [if_pos hmem]
          constructor
          · intro heq
            omega
          · exact fun hboth => absurd (hboth.2 hmem) hlatest
        · rw [if_neg hmem]
          exact ⟨fun heq => ⟨Nat.succ.inj heq, fun hold => absurd hold hmem⟩,
            fun hboth => congrArg Nat.succ hboth.1⟩

omit [DecidableEq Item] in
theorem NeverReturns.of_append {newer : List (Group × Item)}
    (hnever : NeverReturns (newer ++ older)) : NeverReturns older := by
  rintro between observation rest rfl
  exact hnever (newer ++ between) observation rest (by simp)

/-- Observations that were made before change no number. -/
theorem items_append {newer : List (Group × Item)} (hold : ∀ observation ∈ newer, observation ∈ older) :
    items (newer ++ older) = items older := by
  induction newer with
  | nil => rfl
  | cons observation newer ih =>
      have hrest := ih fun other hother => hold other (List.mem_cons_of_mem _ hother)
      rw [List.cons_append, items_cons,
        if_pos (List.mem_append_right _ (hold observation List.mem_cons_self)), hrest]

omit [DecidableEq Item] in
theorem groups_append {newer : List (Group × Item)}
    (hold : ∀ observation ∈ newer, observation ∈ older) : groups (newer ++ older) = groups older := by
  induction newer with
  | nil => rfl
  | cons observation newer ih =>
      have hrest := ih fun other hother => hold other (List.mem_cons_of_mem _ hother)
      have hmem : observation.1 ∈ (newer ++ older).map Prod.fst :=
        List.mem_map_of_mem (List.mem_append_right _ (hold observation List.mem_cons_self))
      rw [List.cons_append, groups_cons,
        if_neg fun hnone => latest_eq_none_iff.mp hnone hmem, hrest]

end AegisForge.Core.Tally
