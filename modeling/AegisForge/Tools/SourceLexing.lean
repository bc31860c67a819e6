import AegisForge.Core.CppLexing
import AegisForge.Tools.SourceMask

/-!
# The mask and the language

The masking loop reads a text as the language does, except that it knows no splices of
lines.  Where it reports no error it overwrites what stands in comments and literals of
the text read without splices.
-/

namespace AegisForge.Tools.SourceMask

open AegisForge.Core AegisForge.Core.CppLexing

variable {isalnum : Char → Bool} {ahead : ℕ} {state : State} {escaped : Bool}
variable {previous : Option Char} {char : Char} {rest source : List Char} {step : Step}

/-- What is left of the comment or literal that the loop is in. -/
def left : State → Bool → List Char → ℕ
  | .code, _, _ => 0
  | .lineComment, _, text => lineComment (unspliced text)
  | .blockComment, _, text => blockComment false (unspliced text)
  | .string, escaped, text => literal '"' escaped (unspliced text)
  | .char, escaped, text => literal (Char.ofNat 39) escaped (unspliced text)

/-- Outside of literals nothing is escaped. -/
def IsProper (state : State) (escaped : Bool) : Prop := state.quote? = none → escaped = false

/-! ## Where comments and literals start -/

theorem findSome?_startsWith (words : List (List Char)) (text : List Char) :
    (words.findSome? fun word => startsWith word (unspliced text)) =
      (words.find? fun word => word.isPrefixOf text).map List.length := by
  induction words with
  | nil => rfl
  | cons word words ih =>
      rw [List.findSome?_cons, List.find?_cons, startsWith_unspliced]
      cases hstarts : word.isPrefixOf text with
      | true => rfl
      | false => exact ih

theorem rawExtent_of_ok_none (hraw : rawStringEnd isalnum previous source = .ok none) :
    rawExtent (isWord isalnum) previous (unspliced source) = none := by
  rw [rawExtent, findSome?_startsWith]
  split
  case isTrue => rfl
  case isFalse hfree =>
    rw [rawStringEnd] at hraw
    cases hword : rawStringPrefixes.find? (fun word => word.isPrefixOf source) with
    | none =>
        rw [show rawPrefixes = rawStringPrefixes from rfl, hword]
        rfl
    | some word =>
        rw [hword] at hraw
        dsimp only at hraw
        rw [if_neg hfree] at hraw
        split at hraw
        case h_1 => cases hraw
        case h_2 =>
          split_ifs at hraw
          split at hraw <;> cases hraw

theorem rawExtent_of_ok_some {length : ℕ}
    (hraw : rawStringEnd isalnum previous source = .ok (some length)) :
    0 < length ∧ rawExtent (isWord isalnum) previous (unspliced source) = some length := by
  rw [rawStringEnd] at hraw
  rw [rawExtent, findSome?_startsWith, show rawPrefixes = rawStringPrefixes from rfl]
  cases hword : rawStringPrefixes.find? (fun word => word.isPrefixOf source) with
  | none =>
      rw [hword] at hraw
      cases hraw
  | some word =>
      rw [hword] at hraw
      dsimp only at hraw
      split at hraw
      case isTrue => cases hraw
      case isFalse hfree =>
        rw [if_neg hfree, Option.map_some, Option.map_some, drop_unspliced, map_char_unspliced]
        split at hraw
        case h_1 => cases hraw
        case h_2 opening hopening =>
          split_ifs at hraw
          split at hraw
          case h_1 => cases hraw
          case h_2 closing hclosing =>
            obtain rfl := Option.some.inj (Except.ok.inj hraw)
            have hbody := TextSearch.find?_singleton_take hopening
            have hbound := TextSearch.lt_length_of_find?_singleton hbody
            rw [List.cons_append] at hclosing
            rw [rawLiteral, hbody]
            dsimp only
            rw [List.cons_append, hclosing, List.length_take, min_eq_left hbound.le]
            dsimp only
            refine ⟨by omega, ?_⟩
            rw [Option.some.injEq]
            omega

theorem startsWith_pair (second : Char) :
    startsWith ['/', second] (unspliced (char :: rest)) =
      if char = '/' ∧ rest.head? = some second then some 2 else none := by
  have hstarts : ['/', second].isPrefixOf (char :: rest) = true ↔
      char = '/' ∧ rest.head? = some second := by
    rw [List.isPrefixOf, Bool.and_eq_true, beq_iff_eq, eq_comm]
    cases rest with
    | nil => simp [List.isPrefixOf]
    | cons next rest =>
        rw [List.isPrefixOf, List.isPrefixOf, Bool.and_true, beq_iff_eq, List.head?_cons,
          Option.some.injEq, @eq_comm _ next]
  rw [startsWith_unspliced]
  simp only [hstarts]
  rfl

theorem lineExtent_unspliced :
    lineExtent (unspliced (char :: rest)) =
      if char = '/' ∧ rest.head? = some '/' then
        some (2 + lineComment (unspliced (rest.drop 1)))
      else none := by
  rw [lineExtent, startsWith_pair]
  split
  case isTrue => rw [Option.map_some, drop_unspliced, List.drop_succ_cons]
  case isFalse => rfl

theorem blockExtent_unspliced :
    blockExtent (unspliced (char :: rest)) =
      if char = '/' ∧ rest.head? = some '*' then
        some (2 + blockComment false (unspliced (rest.drop 1)))
      else none := by
  rw [blockExtent, startsWith_pair]
  split
  case isTrue => rw [Option.map_some, drop_unspliced, List.drop_succ_cons]
  case isFalse => rfl

theorem extent_newline :
    extent (isWord isalnum) previous (unspliced ('\n' :: rest)) = none := by
  have hraw : rawStringEnd isalnum previous ('\n' :: rest) = .ok none := rfl
  have hslash : ∀ second, ¬('\n' = '/' ∧ rest.head? = some second) := fun _ h =>
    absurd h.1 (by decide)
  rw [extent, rawExtent_of_ok_none hraw, lineExtent_unspliced, blockExtent_unspliced,
    if_neg (hslash '/'), if_neg (hslash '*')]
  rfl

/-! ## One turn -/

/-- In code the loop overwrites a character exactly if a comment or literal starts there. -/
theorem extent_of_maskStep (hstep : maskStep isalnum .code false previous char rest = .ok step) :
    (extent (isWord isalnum) previous (unspliced (char :: rest)) = none ∧
        step = ⟨true, 0, .code, false⟩) ∨
      (step.kept = false ∧ IsProper step.state step.escaped ∧
        extent (isWord isalnum) previous (unspliced (char :: rest)) =
          some (step.ahead + left step.state step.escaped (rest.drop step.ahead) + 1)) := by
  rw [maskStep] at hstep
  split at hstep
  case h_1 => cases hstep
  case h_2 length hraw =>
    obtain rfl := Except.ok.inj hstep
    obtain ⟨hpositive, hextent⟩ := rawExtent_of_ok_some hraw
    refine Or.inr ⟨rfl, fun _ => rfl, ?_⟩
    rw [extent, hextent, Option.some_or, Option.some_or, Option.some.injEq]
    exact (Nat.sub_add_cancel hpositive).symm
  case h_3 hraw =>
    rw [extent, rawExtent_of_ok_none hraw, Option.none_or, lineExtent_unspliced,
      blockExtent_unspliced, unspliced_cons, quotedExtent]
    by_cases hline : char = '/' ∧ rest.head? = some '/'
    case pos =>
      rw [if_pos hline] at hstep ⊢
      obtain rfl := Except.ok.inj hstep
      refine Or.inr ⟨rfl, fun _ => rfl, ?_⟩
      rw [Option.some_or, left, Nat.add_right_comm]
    by_cases hblock : char = '/' ∧ rest.head? = some '*'
    case pos =>
      rw [if_neg hline, if_pos hblock] at hstep ⊢
      obtain rfl := Except.ok.inj hstep
      refine Or.inr ⟨rfl, fun _ => rfl, ?_⟩
      rw [Option.none_or, Option.some_or, left, Nat.add_right_comm]
    rw [if_neg hline, if_neg hblock] at hstep ⊢
    rw [Option.none_or, Option.none_or]
    by_cases hquote : char = '"'
    case pos =>
      subst hquote
      obtain rfl := Except.ok.inj hstep
      refine Or.inr ⟨rfl, fun hnone => absurd hnone (Option.some_ne_none _), ?_⟩
      rw [if_pos (Or.inl rfl), left, zero_add, List.drop_zero]
    rw [if_neg hquote] at hstep
    by_cases hmark : char = Char.ofNat 39
    case pos =>
      subst hmark
      rw [if_pos rfl] at hstep
      obtain rfl := Except.ok.inj hstep
      refine Or.inr ⟨rfl, fun hnone => absurd hnone (Option.some_ne_none _), ?_⟩
      rw [if_pos (Or.inr rfl), left, zero_add, List.drop_zero]
    rw [if_neg hmark] at hstep
    obtain rfl := Except.ok.inj hstep
    exact Or.inl ⟨if_neg (not_or.mpr ⟨hquote, hmark⟩), rfl⟩

theorem blockComment_true_of_head? (hnext : rest.head? ≠ some '/') :
    blockComment true (unspliced rest) = blockComment false (unspliced rest) := by
  cases rest with
  | nil => rfl
  | cons next rest =>
      have hslash : next ≠ '/' := fun hslash => hnext (congrArg some hslash)
      simp [blockComment, hslash]

/-- Within a literal the loop overwrites what the literal goes on with. -/
theorem left_of_literalStep {quote : Char} (hquote : state.quote? = some quote)
    (hleft : ∀ escaped text, left state escaped text = literal quote escaped (unspliced text))
    (hstep : maskStep isalnum state escaped previous char rest = .ok step) :
    step.kept = false ∧ IsProper step.state step.escaped ∧
      left state escaped (char :: rest) =
        step.ahead + left step.state step.escaped (rest.drop step.ahead) + 1 := by
  have hmaskStep : maskStep isalnum state escaped previous char rest =
      if char = '\n' ∧ escaped = false then .error ("newline_in_" ++ state.name)
      else if escaped = true then .ok ⟨false, 0, state, false⟩
      else if char = '\\' then .ok ⟨false, 0, state, true⟩
      else if state.quote? = some char then .ok ⟨false, 0, .code, false⟩
      else .ok ⟨false, 0, state, false⟩ := by
    cases state with
    | code | lineComment | blockComment => cases hquote
    | string | char => rw [maskStep]
  have hproper : ∀ escaped, IsProper state escaped := fun _ hnone => by
    rw [hquote] at hnone
    cases hnone
  rw [hmaskStep, hquote] at hstep
  rw [hleft, unspliced_cons, literal, if_neg Bool.false_ne_true]
  split_ifs at hstep with hnewline hescaped hslash hend
  · obtain rfl := Except.ok.inj hstep
    rw [if_pos hescaped, hleft, zero_add, List.drop_zero]
    exact ⟨rfl, hproper false, rfl⟩
  · obtain rfl := Except.ok.inj hstep
    have hother : char ≠ '\n' := fun h => hnewline ⟨h, Bool.eq_false_iff.mpr hescaped⟩
    rw [if_neg hescaped, if_neg hother, if_pos hslash, hleft, zero_add, List.drop_zero]
    exact ⟨rfl, hproper true, rfl⟩
  · obtain rfl := Except.ok.inj hstep
    have hother : char ≠ '\n' := fun h => hnewline ⟨h, Bool.eq_false_iff.mpr hescaped⟩
    rw [if_neg hescaped, if_neg hother, if_neg hslash, if_pos (Option.some.inj hend).symm]
    exact ⟨rfl, fun _ => rfl, rfl⟩
  · obtain rfl := Except.ok.inj hstep
    have hother : char ≠ '\n' := fun h => hnewline ⟨h, Bool.eq_false_iff.mpr hescaped⟩
    have hopen : char ≠ quote := fun h => hend (congrArg some h.symm)
    rw [if_neg hescaped, if_neg hother, if_neg hslash, if_neg hopen, hleft, zero_add,
      List.drop_zero]
    exact ⟨rfl, hproper false, rfl⟩

/-- One turn of the loop does what the reading of the language does at a character. -/
theorem blankMarks_of_maskStep (hproper : IsProper state escaped)
    (hstep : maskStep isalnum state escaped previous char rest = .ok step) :
    IsProper step.state step.escaped ∧
      blankMarks (isWord isalnum) (left state escaped (char :: rest)) previous
          (unspliced (char :: rest)) =
        (if step.kept = true then char else blank char) ::
          blankMarks (isWord isalnum)
            (step.ahead + left step.state step.escaped (rest.drop step.ahead)) (some char)
            (unspliced rest) := by
  have hblanked : ∀ {step : Step}, step.kept = false → left state escaped (char :: rest) =
      step.ahead + left step.state step.escaped (rest.drop step.ahead) + 1 →
      blankMarks (isWord isalnum) (left state escaped (char :: rest)) previous
          (unspliced (char :: rest)) =
        (if step.kept = true then char else blank char) ::
          blankMarks (isWord isalnum)
            (step.ahead + left step.state step.escaped (rest.drop step.ahead)) (some char)
            (unspliced rest) := by
    intro step hkept hleft
    rw [hleft, blankMarks_succ, hkept, if_neg Bool.false_ne_true]
  cases state with
  | code =>
      obtain rfl : escaped = false := hproper rfl
      rw [left, blankMarks_zero]
      rcases extent_of_maskStep hstep with ⟨hextent, rfl⟩ | ⟨hkept, hnext, hextent⟩
      · rw [hextent]
        exact ⟨fun _ => rfl, rfl⟩
      · rw [hextent, hkept, if_neg Bool.false_ne_true]
        exact ⟨hnext, rfl⟩
  | lineComment =>
      obtain rfl : escaped = false := hproper rfl
      rw [maskStep] at hstep
      split at hstep
      case isTrue hnewline =>
        subst hnewline
        obtain rfl := Except.ok.inj hstep
        refine ⟨fun _ => rfl, ?_⟩
        have hnone : left .lineComment false ('\n' :: rest) = 0 := rfl
        rw [hnone, blankMarks_zero, extent_newline]
        rfl
      case isFalse hother =>
        obtain rfl := Except.ok.inj hstep
        refine ⟨fun _ => rfl, hblanked rfl ?_⟩
        rw [left, unspliced_cons, lineComment, if_neg fun h => hother h.2, left, zero_add,
          List.drop_zero]
  | blockComment =>
      obtain rfl : escaped = false := hproper rfl
      rw [maskStep] at hstep
      split at hstep
      case isTrue hend =>
        obtain rfl := Except.ok.inj hstep
        refine ⟨fun _ => rfl, hblanked rfl ?_⟩
        obtain ⟨rfl, hslash⟩ := hend
        obtain ⟨rest, rfl⟩ := List.head?_eq_some_iff.mp hslash
        rfl
      case isFalse hopen =>
        obtain rfl := Except.ok.inj hstep
        refine ⟨fun _ => rfl, hblanked rfl ?_⟩
        rw [left, unspliced_cons, blockComment, if_neg Bool.false_ne_true, if_neg (by simp), left,
          zero_add, List.drop_zero]
        by_cases hstar : char = '*'
        · rw [decide_eq_true hstar, blockComment_true_of_head? fun h => hopen ⟨hstar, h⟩]
        · rw [decide_eq_false hstar]
  | string =>
      obtain ⟨hkept, hnext, hleft⟩ := left_of_literalStep rfl (fun _ _ => rfl) hstep
      exact ⟨hnext, hblanked hkept hleft⟩
  | char =>
      obtain ⟨hkept, hnext, hleft⟩ := left_of_literalStep rfl (fun _ _ => rfl) hstep
      exact ⟨hnext, hblanked hkept hleft⟩

/-! ## The whole text -/

theorem maskFrom_eq_blankMarks (hproper : IsProper state escaped)
    (herror : (maskFrom isalnum ahead state escaped previous source).2 = none) :
    (maskFrom isalnum ahead state escaped previous source).1 =
      blankMarks (isWord isalnum) (ahead + left state escaped (source.drop ahead)) previous
        (unspliced source) := by
  induction source generalizing ahead state escaped previous with
  | nil => rw [maskFrom, unspliced, List.map_nil, blankMarks]
  | cons char rest ih =>
      cases ahead with
      | succ ahead =>
          rw [maskFrom] at herror ⊢
          rw [List.drop_succ_cons, Nat.add_right_comm, blankMarks_succ]
          exact congrArg (blank char :: ·) (ih hproper herror)
      | zero =>
          rw [maskFrom] at herror ⊢
          rw [zero_add, List.drop_zero]
          cases hstep : maskStep isalnum state escaped previous char rest with
          | error error =>
              rw [hstep] at herror
              cases herror
          | ok step =>
              rw [hstep] at herror
              obtain ⟨hnext, hturn⟩ := blankMarks_of_maskStep hproper hstep
              rw [hturn]
              exact congrArg (_ :: ·) (ih hnext herror)

/-- A text that is masked without an error is masked as the language has it where it is
read without splices. -/
theorem maskCommentsAndLiterals_eq_overwrite {masked : List Char}
    (hmasked : maskCommentsAndLiterals isalnum source = (masked, none)) :
    masked = overwrite (isWord isalnum) false source := by
  have hproper : IsProper .code false := fun _ => rfl
  have hboth := maskFrom_eq_blankMarks hproper (congrArg Prod.snd hmasked)
  rw [overwrite_false]
  rwa [show maskFrom isalnum 0 .code false none source = (masked, none) from hmasked] at hboth

end AegisForge.Tools.SourceMask
