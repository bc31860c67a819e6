import Mathlib.Data.List.Range
import Mathlib.Data.List.Nodup
import Mathlib.Data.List.MinMax
import Mathlib.Data.List.Perm.Basic
import Mathlib.Order.Lattice.Nat

/-!
# Gap-free numbering

Rows carry a key and a number.  If every row above the first follows a closed
row of its key, and no two rows share key and number, then the rows of a key
are numbered from one without gaps and all but the last are closed.
-/

namespace AegisForge.Core

variable {Row Key : Type*} {key : Row → Key} {number : Row → ℕ} {closed : Row → Prop}

/-- Each row is the first of its key or follows a closed one. -/
def Numbered (key : Row → Key) (number : Row → ℕ) (closed : Row → Prop)
    (rows : List Row) : Prop :=
  ∀ row ∈ rows, number row = 1 ∨
    ∃ previous ∈ rows, key previous = key row ∧ number previous + 1 = number row ∧
      closed previous

namespace Numbered

variable {rows : List Row}

theorem one_le (hnumbered : Numbered key number closed rows) {row : Row}
    (hrow : row ∈ rows) : 1 ≤ number row := by
  rcases hnumbered row hrow with hfirst | ⟨previous, -, -, hnext, -⟩
  · omega
  · omega

/-- Below a row of a key, every number from one on is taken by a row of the
key, and every smaller one by a closed row. -/
theorem exists_below (hnumbered : Numbered key number closed rows) {row : Row}
    (hrow : row ∈ rows) {wanted : ℕ} (hpositive : 1 ≤ wanted) (hless : wanted < number row) :
    ∃ below ∈ rows, key below = key row ∧ number below = wanted ∧ closed below := by
  obtain ⟨distance, hdistance⟩ := Nat.exists_eq_add_of_lt hless
  induction distance generalizing row with
  | zero =>
      rcases hnumbered row hrow with hfirst | ⟨previous, hprevious, hkey, hnext, hclosed⟩
      · omega
      · exact ⟨previous, hprevious, hkey, by omega, hclosed⟩
  | succ distance ih =>
      rcases hnumbered row hrow with hfirst | ⟨previous, hprevious, hkey, hnext, -⟩
      · omega
      · obtain ⟨below, hbelow, hbelowKey, hnumber, hclosed⟩ :=
          ih hprevious (by omega) (by omega)
        exact ⟨below, hbelow, hbelowKey.trans hkey, hnumber, hclosed⟩

theorem closed_of_lt (hnumbered : Numbered key number closed rows)
    (hunique : (rows.map fun row => (key row, number row)).Nodup) {row other : Row}
    (hrow : row ∈ rows) (hother : other ∈ rows) (hkey : key other = key row)
    (hless : number row < number other) : closed row := by
  obtain ⟨below, hbelow, hbelowKey, hnumber, hclosed⟩ :=
    hnumbered.exists_below hother (hnumbered.one_le hrow) hless
  have hsame : below = row :=
    List.inj_on_of_nodup_map hunique hbelow hrow (by simp [hbelowKey, hkey, hnumber])
  rw [← hsame]
  exact hclosed

variable [DecidableEq Key]

/-- The rows of a key are numbered `1, ..., count`, and all but the last of
them are closed. -/
theorem perm_range (hnumbered : Numbered key number closed rows)
    (hunique : (rows.map fun row => (key row, number row)).Nodup) (wanted : Key) :
    ∃ count, (((rows.filter fun row => key row = wanted).map number).Perm
        (List.range' 1 count)) ∧
      ∀ row ∈ rows, key row = wanted → number row ≠ count → closed row := by
  have hnodup : ((rows.filter fun row => key row = wanted).map number).Nodup := by
    apply List.Nodup.map_on
    · intro left hleft right hright hnumber
      rw [List.mem_filter, decide_eq_true_eq] at hleft hright
      have hkey : key left = key right := hleft.2.trans hright.2.symm
      exact List.inj_on_of_nodup_map hunique hleft.1 hright.1 (by simp [hkey, hnumber])
    · exact (List.Nodup.of_map _ hunique).filter _
  rcases hlast : (rows.filter fun row => key row = wanted).argmax number with - | last
  · have hnone := List.argmax_eq_none.mp hlast
    refine ⟨0, by simp [hnone], ?_⟩
    intro row hrow hkey
    have hmem : row ∈ rows.filter fun row => key row = wanted := by
      simp [hrow, hkey]
    simp [hnone] at hmem
  · obtain ⟨hlastRows, hlastKey⟩ := List.mem_filter.mp (List.argmax_mem hlast)
    rw [decide_eq_true_eq] at hlastKey
    have hgreatest : ∀ row ∈ rows, key row = wanted → number row ≤ number last := by
      intro row hrow hkey
      exact List.le_of_mem_argmax (List.mem_filter.mpr ⟨hrow, by simpa using hkey⟩) hlast
    refine ⟨number last, ?_, ?_⟩
    · apply (List.perm_ext_iff_of_nodup hnodup List.nodup_range').mpr
      intro count
      rw [List.mem_map, List.mem_range'_1]
      constructor
      · rintro ⟨row, hmem, rfl⟩
        obtain ⟨hrow, hkey⟩ := List.mem_filter.mp hmem
        rw [decide_eq_true_eq] at hkey
        have hone := hnumbered.one_le hrow
        have hle := hgreatest row hrow hkey
        omega
      · rintro ⟨hone, hless⟩
        rcases Nat.lt_or_ge count (number last) with hbelow | habove
        · obtain ⟨row, hrow, hkey, hnumber, -⟩ :=
            hnumbered.exists_below hlastRows hone hbelow
          exact ⟨row, List.mem_filter.mpr ⟨hrow, by simp [hkey, hlastKey]⟩, hnumber⟩
        · have hsame : count = number last := by omega
          exact ⟨last, List.argmax_mem hlast, hsame.symm⟩
    · intro row hrow hkey hother
      have hle := hgreatest row hrow hkey
      exact hnumbered.closed_of_lt hunique hrow hlastRows (hlastKey.trans hkey.symm)
        (by omega)

end Numbered

end AegisForge.Core
