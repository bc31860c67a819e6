import AegisForge.Core.CanonicalJson

/-!
# Lines

A text is cut after each of its terminators.  Splitting it at the terminators and
putting them back gives the same lines, and an encoding that keeps terminators
apart encodes line by line.
-/

namespace AegisForge.Core

universe u v

variable {A : Type u} {B : Type v}

/-- The lines with their terminators; the last one may have none. -/
def linesBy (isEnd : A → Bool) : List A → List (List A)
  | [] => []
  | mark :: rest =>
      if isEnd mark = true then [mark] :: linesBy isEnd rest
      else
        match linesBy isEnd rest with
        | [] => [[mark]]
        | line :: others => (mark :: line) :: others

variable {isEnd : A → Bool}

@[simp]
theorem flatten_linesBy (content : List A) : (linesBy isEnd content).flatten = content := by
  induction content with
  | nil => rfl
  | cons mark rest ih =>
      rw [linesBy]
      split
      case isTrue => rw [List.flatten_cons, ih, List.singleton_append]
      case isFalse =>
        split
        case h_1 hrest =>
          rw [hrest] at ih
          rw [← ih]
          rfl
        case h_2 line others hrest =>
          rw [hrest] at ih
          rw [List.flatten_cons, List.cons_append, ← List.flatten_cons, ih]

theorem ne_nil_of_mem_linesBy {content line : List A} (hline : line ∈ linesBy isEnd content) :
    line ≠ [] := by
  induction content generalizing line with
  | nil => cases hline
  | cons mark rest ih =>
      rw [linesBy] at hline
      split at hline
      case isTrue =>
        rcases List.mem_cons.mp hline with rfl | hline
        · exact List.cons_ne_nil _ _
        · exact ih hline
      case isFalse =>
        split at hline
        case h_1 =>
          rw [List.mem_singleton.mp hline]
          exact List.cons_ne_nil _ _
        case h_2 first others hrest =>
          rcases List.mem_cons.mp hline with rfl | hline
          · exact List.cons_ne_nil _ _
          · exact ih (hrest ▸ List.mem_cons_of_mem _ hline)

theorem linesBy_ne_nil {content : List A} (hcontent : content ≠ []) :
    linesBy isEnd content ≠ [] := by
  intro hnone
  have hflat : (linesBy isEnd content).flatten = content := flatten_linesBy content
  rw [hnone] at hflat
  exact hcontent hflat.symm

/-! ## Splitting and putting the terminators back -/

/-- The parts with the separator put back after all but the last, which is left
out when it is empty. -/
def reattach (separator : A) (parts : List (List A)) : List (List A) :=
  parts.dropLast.map (· ++ [separator]) ++ parts.getLast?.toList.filter fun part => !part.isEmpty

theorem reattach_cons {separator : A} {part : List A} {parts : List (List A)}
    (hparts : parts ≠ []) :
    reattach separator (part :: parts) = (part ++ [separator]) :: reattach separator parts := by
  rw [reattach, List.dropLast_cons_of_ne_nil hparts, List.getLast?_cons_of_ne_nil hparts]
  rfl

theorem reattach_splitOn [BEq A] [LawfulBEq A] (separator : A) (content : List A) :
    reattach separator (content.splitOn separator) = linesBy (· == separator) content := by
  induction content with
  | nil => rfl
  | cons mark rest ih =>
      rw [List.splitOn_cons_eq_if_modifyHead, linesBy]
      split
      case isTrue hmark =>
        rw [reattach_cons (List.splitOn_ne_nil separator rest), ih, ← eq_of_beq hmark]
        rfl
      case isFalse hmark =>
        obtain ⟨part, parts, hparts⟩ :=
          List.exists_cons_of_ne_nil (List.splitOn_ne_nil separator rest)
        rw [hparts] at ih ⊢
        rw [List.modifyHead_cons, ← ih]
        cases parts with
        | nil => cases part <;> rfl
        | cons other others =>
            rw [reattach_cons (List.cons_ne_nil _ _), reattach_cons (List.cons_ne_nil _ _)]
            rfl

/-! ## Encodings -/

/-- Marks that are no terminators lengthen the line that follows. -/
theorem linesBy_append {marks : List A} (hmarks : ∀ mark ∈ marks, isEnd mark = false)
    (hsome : marks ≠ []) (rest : List A) :
    linesBy isEnd (marks ++ rest) =
      match linesBy isEnd rest with
      | [] => [marks]
      | line :: others => (marks ++ line) :: others := by
  induction marks with
  | nil => exact absurd rfl hsome
  | cons mark marks ih =>
      rw [List.forall_mem_cons] at hmarks
      rw [List.cons_append, linesBy, if_neg (Bool.eq_false_iff.mp hmarks.1)]
      cases marks with
      | nil =>
          rw [List.nil_append]
          cases linesBy isEnd rest <;> rfl
      | cons next others =>
          rw [ih hmarks.2 (List.cons_ne_nil _ _)]
          cases linesBy isEnd rest <;> rfl

/-- Terminators are encoded as terminators, and everything else without any. -/
structure KeepsEnds (isEnd : A → Bool) (isEncodedEnd : B → Bool) (encode : A → List B) : Prop where
  ends : ∀ mark, isEnd mark = true → ∃ encoded, encode mark = [encoded] ∧ isEncodedEnd encoded = true
  others : ∀ mark, isEnd mark = false →
    encode mark ≠ [] ∧ ∀ encoded ∈ encode mark, isEncodedEnd encoded = false

theorem linesBy_flatMap {isEncodedEnd : B → Bool} {encode : A → List B}
    (hkeeps : KeepsEnds isEnd isEncodedEnd encode) (content : List A) :
    linesBy isEncodedEnd (content.flatMap encode) =
      (linesBy isEnd content).map (List.flatMap encode) := by
  induction content with
  | nil => rfl
  | cons mark rest ih =>
      rw [List.flatMap_cons, linesBy]
      split
      case isTrue hmark =>
        obtain ⟨encoded, hencoded, hend⟩ := hkeeps.ends mark hmark
        rw [hencoded, List.singleton_append, linesBy, if_pos hend, ih, List.map_cons,
          List.flatMap_singleton, hencoded]
      case isFalse hmark =>
        obtain ⟨hsome, hothers⟩ := hkeeps.others mark (Bool.eq_false_iff.mpr hmark)
        rw [linesBy_append hothers hsome, ih]
        cases linesBy isEnd rest with
        | nil => rw [List.map_nil, List.map_singleton, List.flatMap_singleton]
        | cons line others => rw [List.map_cons, List.map_cons, List.flatMap_cons]

/-! ## Ranges of lines -/

/-- `items[first:last]`. -/
def slice (items : List A) (first last : ℕ) : List A := (items.take last).drop first

theorem slice_append (items : List A) {first middle last : ℕ} (hfirst : first ≤ middle)
    (hlast : middle ≤ last) :
    slice items first middle ++ slice items middle last = slice items first last := by
  have htake : items.take middle = (items.take last).take middle := by
    rw [List.take_take, Nat.min_eq_left hlast]
  rw [slice, slice, slice, htake]
  generalize items.take last = held
  by_cases hlength : middle ≤ held.length
  · have hsplit : first - (held.take middle).length = 0 := by
      rw [List.length_take_of_le hlength]
      exact Nat.sub_eq_zero_of_le hfirst
    conv_rhs => rw [← List.take_append_drop middle held]
    rw [List.drop_append, hsplit, List.drop_zero]
  · have hshort : held.length ≤ middle := (Nat.lt_of_not_le hlength).le
    rw [List.take_of_length_le hshort, List.drop_of_length_le hshort, List.append_nil]

theorem map_slice (encode : A → B) (items : List A) (first last : ℕ) :
    (slice items first last).map encode = slice (items.map encode) first last := by
  rw [slice, slice, List.map_drop, List.map_take]

/-! ## Bytes -/

def lineFeed : UInt8 := 10

/-- A byte that starts or continues the encoding of a character beyond ASCII. -/
theorem ofNat_ne_lineFeed {value : ℕ} (hlow : 128 ≤ value) (hhigh : value < 256) :
    (UInt8.ofNat value == lineFeed) = false := by
  rw [beq_eq_false_iff_ne, ne_eq, ← UInt8.toNat_inj, UInt8.toNat_ofNat_of_lt' hhigh]
  intro heq
  rw [heq] at hlow
  exact absurd hlow (by decide)

/-- Only the line feed has the byte of the line feed. -/
theorem keepsEnds_utf8 : KeepsEnds (· == '\n') (· == lineFeed) String.utf8EncodeChar where
  ends := by
    intro mark hmark
    rw [eq_of_beq hmark]
    exact ⟨lineFeed, by decide, by decide⟩
  others := by
    intro mark hmark
    refine ⟨String.utf8EncodeChar_ne_nil, fun encoded hencoded => ?_⟩
    rw [String.utf8EncodeChar] at hencoded
    split at hencoded
    case isTrue hascii =>
      have hbyte : mark.val.toNat < UInt8.size := lt_of_le_of_lt hascii (by decide)
      rw [List.mem_singleton.mp hencoded, beq_eq_false_iff_ne, ne_eq, ← UInt8.toNat_inj,
        UInt8.toNat_ofNat_of_lt' hbyte]
      intro hcode
      refine absurd hmark (by simpa using Char.ext (UInt32.toNat_inj.mp hcode))
    case isFalse =>
    split at hencoded
    case isTrue =>
      simp only [List.mem_cons, List.not_mem_nil, or_false] at hencoded
      rcases hencoded with rfl | rfl <;> exact ofNat_ne_lineFeed (by omega) (by omega)
    case isFalse =>
    split at hencoded
    case isTrue =>
      simp only [List.mem_cons, List.not_mem_nil, or_false] at hencoded
      rcases hencoded with rfl | rfl | rfl <;> exact ofNat_ne_lineFeed (by omega) (by omega)
    case isFalse =>
      simp only [List.mem_cons, List.not_mem_nil, or_false] at hencoded
      rcases hencoded with rfl | rfl | rfl | rfl <;> exact ofNat_ne_lineFeed (by omega) (by omega)

end AegisForge.Core
