import Mathlib.Algebra.Order.Ring.Int
import Mathlib.Data.List.Forall2
import AegisForge.Core.CppLexing

/-!
# Masking of comments and literals

The checker of historical sources first overwrites what stands in comments and in
literals with spaces, and then looks for the body of a function in what is left.  Both
loops read the text character by character and know where they are by a state.  A
masked text has no quote and opens no comment, so that masking it again changes
nothing and the second loop only counts braces.
-/

namespace AegisForge.Tools.SourceMask

open AegisForge.Core
open AegisForge.Core.CppLexing (blank)

/-- Where a loop over the text is. -/
inductive State
  | code
  | lineComment
  | blockComment
  | string
  | char
  deriving DecidableEq

namespace State

def name : State → String
  | code => "code"
  | lineComment => "line_comment"
  | blockComment => "block_comment"
  | string => "string"
  | char => "char"

/-- The character that ends a literal. -/
def quote? : State → Option Char
  | string => some '"'
  | char => some (Char.ofNat 39)
  | _ => none

end State

/-! ## Raw literals -/

/-- The alternatives of `(?:u8|u|U|L)?R"` in their order. -/
def rawStringPrefixes : List (List Char) :=
  [['u', '8', 'R', '"'], ['u', 'R', '"'], ['U', 'R', '"'], ['L', 'R', '"'], ['R', '"']]

/-- What `char.isalnum() or char == "_"` says where `isalnum` is given. -/
def isWord (isalnum : Char → Bool) (char : Char) : Bool := isalnum char || char = '_'

/-- A search among the characters of a text, not among all characters. -/
local instance decidableSearch (text : List Char) (p : Char → Prop) [DecidablePred p] :
    Decidable (∃ char, char ∈ text ∧ p char) := List.decidableBEx p text

/-- The length of the raw literal that starts here, if one does. -/
def rawStringEnd (isalnum : Char → Bool) (previous : Option Char) (source : List Char) :
    Except String (Option ℕ) :=
  match rawStringPrefixes.find? fun word => word.isPrefixOf source with
  | none => .ok none
  | some word =>
      if previous.any (isWord isalnum) = true then .ok none
      else
        let body := source.drop word.length
        match TextSearch.find? ['('] (body.take 17) with
        | none => .error "invalid_raw_string_delimiter"
        | some opening =>
            let delimiter := body.take opening
            if ∃ char ∈ delimiter, char ∈ [' ', '(', ')', '\\', '\t', '\r', '\n'] then
              .error "invalid_raw_string_delimiter"
            else
              match TextSearch.find? (')' :: delimiter ++ ['"']) (body.drop (opening + 1)) with
              | none => .error "unterminated_raw_string"
              | some closing =>
                  .ok (some (word.length + (opening + 1) + closing + delimiter.length + 2))

/-! ## The mask -/

/-- What one turn of the masking loop does: whether it keeps the character, how many
characters behind it are overwritten too, and where the loop is then. -/
structure Step where
  kept : Bool
  ahead : ℕ
  state : State
  escaped : Bool

def maskStep (isalnum : Char → Bool) (state : State) (escaped : Bool) (previous : Option Char)
    (char : Char) (rest : List Char) : Except String Step :=
  match state with
  | .code =>
      match rawStringEnd isalnum previous (char :: rest) with
      | .error error => .error error
      | .ok (some length) => .ok ⟨false, length - 1, .code, escaped⟩
      | .ok none =>
          if char = '/' ∧ rest.head? = some '/' then .ok ⟨false, 1, .lineComment, escaped⟩
          else if char = '/' ∧ rest.head? = some '*' then .ok ⟨false, 1, .blockComment, escaped⟩
          else if char = '"' then .ok ⟨false, 0, .string, escaped⟩
          else if char = Char.ofNat 39 then .ok ⟨false, 0, .char, escaped⟩
          else .ok ⟨true, 0, .code, escaped⟩
  | .lineComment =>
      if char = '\n' then .ok ⟨true, 0, .code, escaped⟩
      else .ok ⟨false, 0, .lineComment, escaped⟩
  | .blockComment =>
      if char = '*' ∧ rest.head? = some '/' then .ok ⟨false, 1, .code, escaped⟩
      else .ok ⟨false, 0, .blockComment, escaped⟩
  | .string | .char =>
      if char = '\n' ∧ escaped = false then .error ("newline_in_" ++ state.name)
      else if escaped = true then .ok ⟨false, 0, state, false⟩
      else if char = '\\' then .ok ⟨false, 0, state, true⟩
      else if state.quote? = some char then .ok ⟨false, 0, .code, false⟩
      else .ok ⟨false, 0, state, false⟩

/-- The error of a text that ends in a state. -/
def unterminated? (state : State) : Option String :=
  if state ∈ [.blockComment, .string, .char] then some ("unterminated_" ++ state.name) else none

/-- The masking loop.  The first number says how many characters the last turn has
overwritten ahead of its own. -/
def maskFrom (isalnum : Char → Bool) :
    ℕ → State → Bool → Option Char → List Char → List Char × Option String
  | _, state, _, _, [] => ([], unterminated? state)
  | ahead + 1, state, escaped, _, char :: rest =>
      let (masked, error) := maskFrom isalnum ahead state escaped (some char) rest
      (blank char :: masked, error)
  | 0, state, escaped, previous, char :: rest =>
      match maskStep isalnum state escaped previous char rest with
      | .error error => (char :: rest, some error)
      | .ok step =>
          let (masked, error) :=
            maskFrom isalnum step.ahead step.state step.escaped (some char) rest
          ((if step.kept = true then char else blank char) :: masked, error)

def maskCommentsAndLiterals (isalnum : Char → Bool) (source : List Char) :
    List Char × Option String :=
  maskFrom isalnum 0 .code false none source

/-! ## The body of a function -/

/-- Looks for balanced braces.  The first number says how many characters the last turn
has read ahead of its own. -/
def findFrom : ℕ → State → Bool → Option ℕ → ℤ → ℕ → List Char → Option ℕ × Option ℕ
  | _, _, _, braceStart, _, _, [] => (braceStart, none)
  | ahead + 1, state, escaped, braceStart, depth, index, _ :: rest =>
      findFrom ahead state escaped braceStart depth (index + 1) rest
  | 0, .lineComment, escaped, braceStart, depth, index, char :: rest =>
      findFrom 0 (if char = '\n' then .code else .lineComment) escaped braceStart depth
        (index + 1) rest
  | 0, .blockComment, escaped, braceStart, depth, index, char :: rest =>
      if char = '*' ∧ rest.head? = some '/' then
        findFrom 1 .code escaped braceStart depth (index + 1) rest
      else findFrom 0 .blockComment escaped braceStart depth (index + 1) rest
  | 0, .code, escaped, braceStart, depth, index, char :: rest =>
      if char = '/' ∧ rest.head? = some '/' then
        findFrom 1 .lineComment escaped braceStart depth (index + 1) rest
      else if char = '/' ∧ rest.head? = some '*' then
        findFrom 1 .blockComment escaped braceStart depth (index + 1) rest
      else if char = '"' then findFrom 0 .string escaped braceStart depth (index + 1) rest
      else if char = Char.ofNat 39 then
        findFrom 0 .char escaped braceStart depth (index + 1) rest
      else if char = '{' then
        findFrom 0 .code escaped (braceStart.or (some index)) (depth + 1) (index + 1) rest
      else if char = '}' then
        if braceStart = none then (none, none)
        else if depth - 1 = 0 then (braceStart, some (index + 1))
        else if depth - 1 < 0 then (braceStart, none)
        else findFrom 0 .code escaped braceStart (depth - 1) (index + 1) rest
      else findFrom 0 .code escaped braceStart depth (index + 1) rest
  | 0, state, escaped, braceStart, depth, index, char :: rest =>
      if escaped = true then findFrom 0 state false braceStart depth (index + 1) rest
      else if char = '\\' then findFrom 0 state true braceStart depth (index + 1) rest
      else if state.quote? = some char then
        findFrom 0 .code false braceStart depth (index + 1) rest
      else findFrom 0 state false braceStart depth (index + 1) rest

def findFunctionBody (source : List Char) (start : ℕ) : Option ℕ × Option ℕ :=
  findFrom 0 .code false none 0 start (source.drop start)

/-! ## What the mask keeps -/

variable {isalnum : Char → Bool} {ahead : ℕ} {state : State} {escaped : Bool}
variable {previous : Option Char} {char : Char} {rest source masked : List Char}

/-- A character of a masked text is the original one or stands for an overwritten one. -/
def IsMasked (original written : Char) : Prop := written = original ∨ written = blank original

theorem forall₂_maskFrom (isalnum : Char → Bool) (ahead : ℕ) (state : State) (escaped : Bool)
    (previous : Option Char) (source : List Char) :
    List.Forall₂ IsMasked source (maskFrom isalnum ahead state escaped previous source).1 := by
  induction source generalizing ahead state escaped previous with
  | nil =>
      rw [maskFrom]
      exact .nil
  | cons char rest ih =>
      cases ahead with
      | succ ahead =>
          rw [maskFrom]
          exact .cons (Or.inr rfl) (ih ahead state escaped (some char))
      | zero =>
          rw [maskFrom]
          cases maskStep isalnum state escaped previous char rest with
          | error error => exact List.forall₂_same.mpr fun _ _ => Or.inl rfl
          | ok step =>
              refine .cons ?_ (ih step.ahead step.state step.escaped (some char))
              cases step.kept
              · exact Or.inr rfl
              · exact Or.inl rfl

theorem blank_eq (char : Char) : blank char = '\n' ∨ blank char = ' ' := by
  rw [blank]
  split
  case isTrue hnewline => exact Or.inl hnewline
  case isFalse => exact Or.inr rfl

theorem blank_eq_newline_iff : blank char = '\n' ↔ char = '\n' := by
  rw [blank]
  split
  case isTrue => rfl
  case isFalse hother => exact iff_of_false (by decide) hother

theorem IsMasked.eq_newline_iff {original written : Char} (hmasked : IsMasked original written) :
    written = '\n' ↔ original = '\n' := by
  rcases hmasked with rfl | rfl
  · rfl
  · exact blank_eq_newline_iff

theorem IsMasked.eq_or_eq_space {original written : Char} (hmasked : IsMasked original written) :
    written = original ∨ written = ' ' := by
  rcases hmasked with rfl | rfl
  · exact Or.inl rfl
  · rw [blank]
    split
    case isTrue => exact Or.inl rfl
    case isFalse => exact Or.inr rfl

/-! ## Masked texts are plain -/

/-- The character opens a comment together with what follows. -/
def Opens (char : Char) (rest : List Char) : Prop :=
  char = '/' ∧ (rest.head? = some '/' ∨ rest.head? = some '*')

/-- The text has no quote and opens no comment. -/
def IsPlain : List Char → Prop
  | [] => True
  | char :: rest => char ≠ '"' ∧ char ≠ Char.ofNat 39 ∧ ¬Opens char rest ∧ IsPlain rest

theorem isPlain_blank_cons (hmasked : IsPlain masked) : IsPlain (blank char :: masked) := by
  rcases blank_eq char with hblank | hblank
  all_goals
    rw [hblank]
    exact ⟨by decide, by decide, fun hopens => absurd hopens.1 (by decide), hmasked⟩

theorem IsPlain.drop (hplain : IsPlain source) (start : ℕ) : IsPlain (source.drop start) := by
  induction source generalizing start with
  | nil => rwa [List.drop_nil]
  | cons char rest ih =>
      cases start with
      | zero => exact hplain
      | succ start => exact ih hplain.2.2.2 start

theorem IsPlain.quote_not_mem (hplain : IsPlain source) : '"' ∉ source := by
  induction source with
  | nil => exact List.not_mem_nil
  | cons char rest ih =>
      rw [List.mem_cons, not_or]
      exact ⟨hplain.1.symm, ih hplain.2.2.2⟩

/-- The loop keeps only what may stand in a plain text. -/
theorem not_opens_of_kept {step : Step}
    (hstep : maskStep isalnum state escaped previous char rest = .ok step)
    (hkept : step.kept = true) :
    char ≠ '"' ∧ char ≠ Char.ofNat 39 ∧ ¬Opens char rest := by
  have hnewline : '\n' ≠ '"' ∧ '\n' ≠ Char.ofNat 39 ∧ ¬Opens '\n' rest :=
    ⟨by decide, by decide, fun hopens => absurd hopens.1 (by decide)⟩
  cases state with
  | code =>
      rw [maskStep] at hstep
      split at hstep
      case h_1 => cases hstep
      case h_2 =>
        obtain rfl := Except.ok.inj hstep
        cases hkept
      case h_3 =>
        split_ifs at hstep with hline hblock hquote hmark
        all_goals obtain rfl := Except.ok.inj hstep
        case neg =>
          refine ⟨hquote, hmark, fun hopens => ?_⟩
          rcases hopens.2 with hslash | hstar
          · exact hline ⟨hopens.1, hslash⟩
          · exact hblock ⟨hopens.1, hstar⟩
        all_goals cases hkept
  | lineComment =>
      rw [maskStep] at hstep
      split_ifs at hstep with hend
      all_goals obtain rfl := Except.ok.inj hstep
      · exact hend ▸ hnewline
      · cases hkept
  | blockComment =>
      rw [maskStep] at hstep
      split_ifs at hstep
      all_goals
        obtain rfl := Except.ok.inj hstep
        cases hkept
  | string | char =>
      rw [maskStep] at hstep
      split_ifs at hstep
      all_goals
        obtain rfl := Except.ok.inj hstep
        cases hkept

/-- What follows a kept character opens nothing with it after it is masked. -/
theorem not_opens_of_forall₂ (hmasked : List.Forall₂ IsMasked rest masked)
    (hopens : ¬Opens char rest) : ¬Opens char masked := by
  rintro ⟨hslash, hnext⟩
  refine hopens ⟨hslash, ?_⟩
  cases hmasked with
  | nil => exact hnext
  | cons hfirst _ =>
      rcases hfirst with rfl | rfl
      · exact hnext
      · rename_i original _ _ _
        simp only [List.head?_cons, Option.some.injEq] at hnext
        rcases blank_eq original with hblank | hblank
        all_goals
          rw [hblank] at hnext
          exact absurd hnext (by decide)

theorem isPlain_maskFrom
    (herror : (maskFrom isalnum ahead state escaped previous source).2 = none) :
    IsPlain (maskFrom isalnum ahead state escaped previous source).1 := by
  induction source generalizing ahead state escaped previous with
  | nil =>
      rw [maskFrom]
      trivial
  | cons char rest ih =>
      cases ahead with
      | succ ahead =>
          rw [maskFrom] at herror ⊢
          exact isPlain_blank_cons (ih herror)
      | zero =>
          rw [maskFrom] at herror ⊢
          cases hstep : maskStep isalnum state escaped previous char rest with
          | error error =>
              rw [hstep] at herror
              cases herror
          | ok step =>
              rw [hstep] at herror
              dsimp only at herror ⊢
              split
              case isFalse => exact isPlain_blank_cons (ih herror)
              case isTrue hkept =>
                obtain ⟨hquote, hmark, hopens⟩ := not_opens_of_kept hstep hkept
                exact ⟨hquote, hmark, not_opens_of_forall₂ (forall₂_maskFrom ..) hopens,
                  ih herror⟩

theorem isPlain_maskCommentsAndLiterals
    (hmasked : maskCommentsAndLiterals isalnum source = (masked, none)) : IsPlain masked := by
  have hplain := isPlain_maskFrom (congrArg Prod.snd hmasked)
  rwa [show maskFrom isalnum 0 .code false none source = (masked, none) from hmasked] at hplain

/-! ## Plain texts are kept -/

theorem rawStringEnd_of_quote_not_mem (hquote : '"' ∉ source) :
    rawStringEnd isalnum previous source = .ok none := by
  have hnone : rawStringPrefixes.find? (fun word => word.isPrefixOf source) = none := by
    refine List.find?_eq_none.mpr fun word hword hstarts => hquote ?_
    have hmem : ∀ word ∈ rawStringPrefixes, '"' ∈ word := by decide
    exact (List.isPrefixOf_iff_prefix.mp hstarts).subset (hmem word hword)
  rw [rawStringEnd, hnone]

theorem maskFrom_of_isPlain (hplain : IsPlain source) :
    maskFrom isalnum 0 .code false previous source = (source, none) := by
  induction source generalizing previous with
  | nil => rfl
  | cons char rest ih =>
      have hraw := @rawStringEnd_of_quote_not_mem isalnum previous _ hplain.quote_not_mem
      obtain ⟨hquote, hmark, hopens, hrest⟩ := hplain
      have hstep : maskStep isalnum .code false previous char rest =
          .ok ⟨true, 0, .code, false⟩ := by
        rw [maskStep, hraw]
        dsimp only
        rw [if_neg fun h => hopens ⟨h.1, Or.inl h.2⟩, if_neg fun h => hopens ⟨h.1, Or.inr h.2⟩,
          if_neg hquote, if_neg hmark]
      rw [maskFrom, hstep]
      dsimp only
      rw [ih hrest, if_pos rfl]

/-! ## The body in a plain text -/

/-- The braces that open less those that close in a text. -/
def openBraces (text : List Char) : ℤ := text.count '{' - text.count '}'

/-- The first place up to which all braces are closed, from a depth. -/
def ClosesAt (depth : ℤ) (text : List Char) (last : ℕ) : Prop :=
  last < text.length ∧ depth + openBraces (text.take (last + 1)) = 0 ∧
    ∀ earlier < last, depth + openBraces (text.take (earlier + 1)) ≠ 0

/-- What one brace adds to the depth. -/
def weight (char : Char) : ℤ := if char = '{' then 1 else if char = '}' then -1 else 0

theorem openBraces_cons (char : Char) (rest : List Char) :
    openBraces (char :: rest) = weight char + openBraces rest := by
  rw [openBraces, openBraces, weight, List.count_cons, List.count_cons]
  by_cases hopening : char = '{'
  · subst hopening
    simp
    omega
  · by_cases hclosing : char = '}'
    · subst hclosing
      simp
      omega
    · simp [hopening, hclosing]

theorem closesAt_cons_zero {depth : ℤ} :
    ClosesAt depth (char :: rest) 0 ↔ depth + weight char = 0 := by
  have hnil : openBraces [] = 0 := rfl
  simp [ClosesAt, openBraces_cons, hnil]

theorem closesAt_cons_succ {depth : ℤ} {last : ℕ} :
    ClosesAt depth (char :: rest) (last + 1) ↔
      depth + weight char ≠ 0 ∧ ClosesAt (depth + weight char) rest last := by
  have htake : ∀ count, depth + openBraces ((char :: rest).take (count + 1)) =
      depth + weight char + openBraces (rest.take count) := by
    intro count
    rw [List.take_succ_cons, openBraces_cons]
    omega
  simp only [ClosesAt, htake, List.length_cons, Nat.add_lt_add_iff_right]
  constructor
  · rintro ⟨hbound, hclosed, hearlier⟩
    refine ⟨?_, hbound, hclosed, fun earlier hlt => hearlier (earlier + 1) (by omega)⟩
    simpa [openBraces] using hearlier 0 (by omega)
  · rintro ⟨hfirst, hbound, hclosed, hearlier⟩
    refine ⟨hbound, hclosed, fun earlier hlt => ?_⟩
    cases earlier with
    | zero => simpa [openBraces] using hfirst
    | succ earlier => exact hearlier earlier (by omega)

variable {braceStart : Option ℕ} {depth : ℤ} {index start first last : ℕ}

/-- In a plain text the loop only looks at braces. -/
theorem findFrom_of_not_brace (hplain : IsPlain (char :: rest)) (hopening : char ≠ '{')
    (hclosing : char ≠ '}') :
    findFrom 0 .code escaped braceStart depth index (char :: rest) =
      findFrom 0 .code escaped braceStart depth (index + 1) rest := by
  obtain ⟨hquote, hmark, hopens, -⟩ := hplain
  rw [findFrom, if_neg fun h => hopens ⟨h.1, Or.inl h.2⟩,
    if_neg fun h => hopens ⟨h.1, Or.inr h.2⟩, if_neg hquote, if_neg hmark, if_neg hopening,
    if_neg hclosing]

theorem findFrom_opening (rest : List Char) :
    findFrom 0 .code escaped braceStart depth index ('{' :: rest) =
      findFrom 0 .code escaped (braceStart.or (some index)) (depth + 1) (index + 1) rest := by
  rw [findFrom]
  simp

theorem findFrom_closing (rest : List Char) :
    findFrom 0 .code escaped (some first) depth index ('}' :: rest) =
      if depth - 1 = 0 then (some first, some (index + 1))
      else if depth - 1 < 0 then (some first, none)
      else findFrom 0 .code escaped (some first) (depth - 1) (index + 1) rest := by
  rw [findFrom]
  simp

theorem exists_closesAt_cons (hopen : depth + weight char ≠ 0) :
    (∃ place, last = index + place + 1 ∧ ClosesAt depth (char :: rest) place) ↔
      ∃ place, last = index + 1 + place + 1 ∧ ClosesAt (depth + weight char) rest place := by
  constructor
  · rintro ⟨place, hlast, hcloses⟩
    cases place with
    | zero => exact absurd (closesAt_cons_zero.mp hcloses) hopen
    | succ place => exact ⟨place, by omega, (closesAt_cons_succ.mp hcloses).2⟩
  · rintro ⟨place, hlast, hcloses⟩
    exact ⟨place + 1, by omega, closesAt_cons_succ.mpr ⟨hopen, hcloses⟩⟩

theorem exists_closesAt_cons_of_eq_zero (hclosed : depth + weight char = 0) :
    (∃ place, last = index + place + 1 ∧ ClosesAt depth (char :: rest) place) ↔
      last = index + 1 := by
  constructor
  · rintro ⟨place, hlast, hcloses⟩
    cases place with
    | zero => exact hlast
    | succ place => exact absurd hclosed (closesAt_cons_succ.mp hcloses).1
  · exact fun hlast => ⟨0, hlast, closesAt_cons_zero.mpr hclosed⟩

/-- Behind an opening brace the loop ends at the first place where all braces are closed. -/
theorem findFrom_eq_iff (hplain : IsPlain source) (hdepth : 0 < depth) {found : ℕ} :
    findFrom 0 .code escaped (some first) depth index source = (some found, some last) ↔
      first = found ∧ ∃ place, last = index + place + 1 ∧ ClosesAt depth source place := by
  induction source generalizing depth index with
  | nil =>
      rw [findFrom]
      refine iff_of_false (by simp) ?_
      rintro ⟨-, place, -, hbound, -⟩
      exact absurd hbound (Nat.not_lt_zero place)
  | cons char rest ih =>
      have hrest := hplain.2.2.2
      by_cases hopening : char = '{'
      case pos =>
        subst hopening
        have hweight : weight '{' = 1 := rfl
        rw [findFrom_opening, exists_closesAt_cons (by omega), hweight]
        exact ih hrest (by omega)
      by_cases hclosing : char = '}'
      case pos =>
        subst hclosing
        have hweight : weight '}' = -1 := rfl
        rw [findFrom_closing]
        by_cases hclosed : depth - 1 = 0
        · rw [if_pos hclosed, exists_closesAt_cons_of_eq_zero (by omega)]
          simp [eq_comm]
        · rw [if_neg hclosed, if_neg (by omega), exists_closesAt_cons (by omega), hweight]
          exact ih hrest (by omega)
      case neg =>
        have hweight : weight char = 0 := by rw [weight, if_neg hopening, if_neg hclosing]
        rw [findFrom_of_not_brace hplain hopening hclosing, exists_closesAt_cons (by omega),
          hweight, add_zero]
        exact ih hrest hdepth

/-- The first opening brace of a text, with no closing one before it. -/
def OpensFirst (text : List Char) (place : ℕ) : Prop :=
  text[place]? = some '{' ∧ ∀ earlier < place, text[earlier]? ≠ some '{' ∧ text[earlier]? ≠ some '}'

theorem opensFirst_cons_succ {place : ℕ} :
    OpensFirst (char :: rest) (place + 1) ↔
      (char ≠ '{' ∧ char ≠ '}') ∧ OpensFirst rest place := by
  constructor
  · rintro ⟨hopens, hearlier⟩
    refine ⟨by simpa using hearlier 0 (by omega), hopens, fun earlier hlt => ?_⟩
    exact hearlier (earlier + 1) (by omega)
  · rintro ⟨hfirst, hopens, hearlier⟩
    refine ⟨hopens, fun earlier hlt => ?_⟩
    cases earlier with
    | zero => simpa using hfirst
    | succ earlier => exact hearlier earlier (by omega)

/-- Before an opening brace the loop looks for the first one, and then for its end. -/
theorem findFrom_none_eq_iff (hplain : IsPlain source) :
    findFrom 0 .code escaped none 0 index source = (some first, some last) ↔
      ∃ place, first = index + place ∧ OpensFirst source place ∧
        ∃ closing, last = first + closing + 1 ∧ ClosesAt 0 (source.drop place) closing := by
  induction source generalizing index with
  | nil =>
      rw [findFrom]
      refine iff_of_false (by simp) ?_
      rintro ⟨place, -, hopens, -⟩
      cases hopens.1
  | cons char rest ih =>
      have hrest := hplain.2.2.2
      by_cases hopening : char = '{'
      case pos =>
        subst hopening
        have hweight : weight '{' = 1 := rfl
        rw [findFrom_opening, zero_add, Option.none_or, findFrom_eq_iff hrest one_pos]
        constructor
        · rintro ⟨rfl, hcloses⟩
          refine ⟨0, rfl, ⟨rfl, fun _ h => absurd h (Nat.not_lt_zero _)⟩, ?_⟩
          rw [List.drop_zero, exists_closesAt_cons (by omega), hweight, zero_add]
          exact hcloses
        · rintro ⟨place, hfirst, hopens, hcloses⟩
          cases place with
          | succ place => exact absurd rfl (opensFirst_cons_succ.mp hopens).1.1
          | zero =>
              obtain rfl : first = index := hfirst
              rw [List.drop_zero, exists_closesAt_cons (by omega), hweight, zero_add] at hcloses
              exact ⟨rfl, hcloses⟩
      by_cases hclosing : char = '}'
      case pos =>
        subst hclosing
        have hnone : findFrom 0 .code escaped none 0 index ('}' :: rest) = (none, none) := by
          rw [findFrom]
          simp
        rw [hnone]
        refine iff_of_false (by simp) ?_
        rintro ⟨place, -, hopens, -⟩
        cases place with
        | zero => exact absurd (Option.some.inj hopens.1) (by decide)
        | succ place => exact absurd rfl (opensFirst_cons_succ.mp hopens).1.2
      case neg =>
        rw [findFrom_of_not_brace hplain hopening hclosing, ih hrest]
        constructor
        · rintro ⟨place, hfirst, hopens, hcloses⟩
          exact ⟨place + 1, by omega, opensFirst_cons_succ.mpr ⟨⟨hopening, hclosing⟩, hopens⟩,
            hcloses⟩
        · rintro ⟨place, hfirst, hopens, hcloses⟩
          cases place with
          | zero => exact absurd (Option.some.inj hopens.1) hopening
          | succ place =>
              exact ⟨place, by omega, (opensFirst_cons_succ.mp hopens).2, hcloses⟩

/-- The span of the body that is looked for from a start: it begins at the first opening
brace, which no closing one comes before, and ends behind the first place up to which it
has as many closing braces as opening ones. -/
def IsBody (text : List Char) (start first last : ℕ) : Prop :=
  (start ≤ first ∧ text[first]? = some '{' ∧
    ∀ place, start ≤ place → place < first → text[place]? ≠ some '{' ∧ text[place]? ≠ some '}') ∧
  ∃ closing, last = closing + 1 ∧ (first ≤ closing ∧ closing < text.length) ∧
    ((text.drop first).take (closing + 1 - first)).count '{' =
      ((text.drop first).take (closing + 1 - first)).count '}' ∧
    ∀ place, first ≤ place → place < closing →
      ((text.drop first).take (place + 1 - first)).count '{' ≠
        ((text.drop first).take (place + 1 - first)).count '}'

theorem openBraces_eq_zero_iff {text : List Char} :
    0 + openBraces text = 0 ↔ text.count '{' = text.count '}' := by
  rw [openBraces]
  omega

theorem opensFirst_drop_iff {place : ℕ} :
    OpensFirst (source.drop start) place ↔
      source[start + place]? = some '{' ∧ ∀ other, start ≤ other → other < start + place →
        source[other]? ≠ some '{' ∧ source[other]? ≠ some '}' := by
  rw [OpensFirst, List.getElem?_drop]
  refine and_congr_right fun _ =>
    ⟨fun hearlier other hstart hlt => ?_, fun hothers earlier hlt => ?_⟩
  · have hother := hearlier (other - start) (by omega)
    rwa [List.getElem?_drop, Nat.add_sub_cancel' hstart] at hother
  · rw [List.getElem?_drop]
    exact hothers (start + earlier) (by omega) (by omega)

theorem closesAt_drop_iff {closing : ℕ} :
    ClosesAt 0 (source.drop first) closing ↔
      first + closing < source.length ∧
        ((source.drop first).take (closing + 1)).count '{' =
          ((source.drop first).take (closing + 1)).count '}' ∧
        ∀ earlier < closing, ((source.drop first).take (earlier + 1)).count '{' ≠
          ((source.drop first).take (earlier + 1)).count '}' := by
  simp only [ClosesAt, openBraces_eq_zero_iff, List.length_drop, Nat.lt_sub_iff_add_lt', ne_eq]

/-- In a plain text the loop finds the body exactly. -/
theorem findFunctionBody_eq_iff (hplain : IsPlain source) :
    findFunctionBody source start = (some first, some last) ↔ IsBody source start first last := by
  rw [findFunctionBody, findFrom_none_eq_iff (hplain.drop start)]
  constructor
  · rintro ⟨place, rfl, hopens, closing, rfl, hcloses⟩
    rw [List.drop_drop] at hcloses
    obtain ⟨hbound, hcount, hearlier⟩ := closesAt_drop_iff.mp hcloses
    obtain ⟨hopening, hothers⟩ := opensFirst_drop_iff.mp hopens
    refine ⟨⟨by omega, hopening, hothers⟩, start + place + closing, rfl, ⟨by omega, hbound⟩, ?_,
      fun other hfirst hlt => ?_⟩
    · rwa [show start + place + closing + 1 - (start + place) = closing + 1 by omega]
    · obtain ⟨earlier, rfl⟩ := Nat.exists_eq_add_of_le hfirst
      rw [show start + place + earlier + 1 - (start + place) = earlier + 1 by omega]
      exact hearlier earlier (by omega)
  · rintro ⟨⟨hstart, hopening, hothers⟩, closing, rfl, ⟨hfirst, hbound⟩, hcount, hearlier⟩
    obtain ⟨place, rfl⟩ := Nat.exists_eq_add_of_le hstart
    obtain ⟨length, rfl⟩ := Nat.exists_eq_add_of_le hfirst
    refine ⟨place, rfl, opensFirst_drop_iff.mpr ⟨hopening, hothers⟩, length, by omega, ?_⟩
    rw [List.drop_drop]
    refine closesAt_drop_iff.mpr ⟨hbound, ?_, fun earlier hlt => ?_⟩
    · rwa [show start + place + length + 1 - (start + place) = length + 1 by omega] at hcount
    · have hother := hearlier (start + place + earlier) (by omega) (by omega)
      rwa [show start + place + earlier + 1 - (start + place) = earlier + 1 by omega] at hother

/-- A text that is masked without an error keeps its length and its newlines, is masked to
itself, and has its function bodies found exactly. -/
theorem maskCommentsAndLiterals_exact (isalnum : Char → Bool) (source masked : List Char)
    (hmasked : maskCommentsAndLiterals isalnum source = (masked, none)) :
    masked.length = source.length ∧
      (∀ index : ℕ, masked[index]? = some '\n' ↔ source[index]? = some '\n') ∧
      (∀ (index : ℕ) (char : Char), masked[index]? = some char →
        source[index]? = some char ∨ char = ' ') ∧
      maskCommentsAndLiterals isalnum masked = (masked, none) ∧
      ∀ start first last, findFunctionBody masked start = (some first, some last) ↔
        IsBody masked start first last := by
  have hrelated : List.Forall₂ IsMasked source masked := by
    have hboth := forall₂_maskFrom isalnum 0 .code false none source
    rwa [show maskFrom isalnum 0 .code false none source = (masked, none) from hmasked] at hboth
  have hplain := isPlain_maskCommentsAndLiterals hmasked
  have hlength := hrelated.length_eq
  refine ⟨hlength.symm, fun index => ?_, fun index char hchar => ?_,
    maskFrom_of_isPlain hplain, fun start first last => findFunctionBody_eq_iff hplain⟩
  · by_cases hbound : index < source.length
    · have hat := hrelated.get hbound (hlength ▸ hbound)
      rw [List.getElem?_eq_getElem hbound, List.getElem?_eq_getElem (hlength ▸ hbound),
        Option.some.injEq, Option.some.injEq]
      exact hat.eq_newline_iff
    · rw [List.getElem?_eq_none (by omega), List.getElem?_eq_none (by omega)]
  · obtain ⟨hbound, rfl⟩ := List.getElem?_eq_some_iff.mp hchar
    have hat := hrelated.get (hlength ▸ hbound) hbound
    rw [List.getElem?_eq_getElem (hlength ▸ hbound), Option.some.injEq]
    exact hat.eq_or_eq_space.imp Eq.symm id

namespace Sample

/-- A body with a closing brace in a comment. -/
def commented : List Char := ['{', '/', '*', '}', '\n', '*', '/', '}']

def bare : List Char := ['{', ' ', ' ', ' ', '\n', ' ', ' ', '}']

theorem isBody_bare : IsBody bare 0 0 8 := by
  have hexact := maskCommentsAndLiterals_exact Char.isAlphanum commented bare (by decide)
  exact (hexact.2.2.2.2 0 0 8).mp (by decide)

end Sample

end AegisForge.Tools.SourceMask
