import AegisForge.Core.TextSearch

/-!
# Comments and literals of C++

Which characters of a text stand in comments and in literals.  A backslash before a
newline splices two lines: the two characters are passed over wherever the language
reads the text, except within a raw literal.  The same reading without splices is kept
beside it for comparison.
-/

namespace AegisForge.Core.CppLexing

/-- A character, and whether it belongs to a splice. -/
structure Mark where
  char : Char
  spliced : Bool

/-- Marks the splices.  The flag says that the character before was the backslash of one. -/
def markSplices (splices : Bool) : Bool → List Char → List Mark
  | _, [] => []
  | joined, char :: rest =>
      let opens := splices && char = '\\' && rest.head? = some '\n'
      ⟨char, opens || joined⟩ :: markSplices splices opens rest

/-- How many characters stand for a word at the start of a text. -/
def startsWith : List Char → List Mark → Option ℕ
  | [], _ => some 0
  | _ :: _, [] => none
  | first :: word, mark :: rest =>
      if mark.spliced = true then (startsWith (first :: word) rest).map (· + 1)
      else if mark.char = first then (startsWith word rest).map (· + 1)
      else none

/-! ## Where comments and literals end -/

/-- The length of a line comment behind its opening. -/
def lineComment : List Mark → ℕ
  | [] => 0
  | mark :: rest =>
      if mark.spliced = false ∧ mark.char = '\n' then 0 else lineComment rest + 1

/-- The length of a block comment behind its opening.  The flag says that the character
before was a star. -/
def blockComment : Bool → List Mark → ℕ
  | _, [] => 0
  | star, mark :: rest =>
      if mark.spliced = true then blockComment star rest + 1
      else if star = true ∧ mark.char = '/' then 1
      else blockComment (mark.char = '*') rest + 1

/-- The length of a string or character literal behind its opening quote.  The flag says
that the character before was an escaping backslash. -/
def literal (quote : Char) : Bool → List Mark → ℕ
  | _, [] => 0
  | escaped, mark :: rest =>
      if mark.spliced = true then literal quote escaped rest + 1
      else if escaped = true then literal quote false rest + 1
      else if mark.char = '\n' then 0
      else if mark.char = '\\' then literal quote true rest + 1
      else if mark.char = quote then 1
      else literal quote false rest + 1

/-- The length of a raw literal behind its opening quote; one that is not closed goes to
the end of the text. -/
def rawLiteral (text : List Char) : ℕ :=
  match TextSearch.find? ['('] text with
  | none => text.length
  | some opening =>
      match TextSearch.find? (')' :: text.take opening ++ ['"']) (text.drop (opening + 1)) with
      | none => text.length
      | some closing => (opening + 1) + closing + opening + 2

def rawPrefixes : List (List Char) :=
  [['u', '8', 'R', '"'], ['u', 'R', '"'], ['U', 'R', '"'], ['L', 'R', '"'], ['R', '"']]

/-- The length of a raw literal that starts here.  Its prefix is not the end of a name. -/
def rawExtent (isWord : Char → Bool) (previous : Option Char) (marks : List Mark) : Option ℕ :=
  if previous.any isWord = true then none
  else (rawPrefixes.findSome? fun word => startsWith word marks).map fun length =>
    length + rawLiteral ((marks.drop length).map Mark.char)

def lineExtent (marks : List Mark) : Option ℕ :=
  (startsWith ['/', '/'] marks).map fun length => length + lineComment (marks.drop length)

def blockExtent (marks : List Mark) : Option ℕ :=
  (startsWith ['/', '*'] marks).map fun length => length + blockComment false (marks.drop length)

def quotedExtent : List Mark → Option ℕ
  | [] => none
  | mark :: rest =>
      if mark.char = '"' ∨ mark.char = Char.ofNat 39 then
        some (literal mark.char false rest + 1)
      else none

/-- The length of the comment or literal that starts here, if one does. -/
def extent (isWord : Char → Bool) (previous : Option Char) (marks : List Mark) : Option ℕ :=
  ((rawExtent isWord previous marks).or (lineExtent marks)).or
    ((blockExtent marks).or (quotedExtent marks))

/-! ## Overwriting -/

/-- A character that is overwritten; newlines stay. -/
def blank (char : Char) : Char := if char = '\n' then char else ' '

/-- Overwrites comments and literals.  The number says how much of one is left. -/
def blankMarks (isWord : Char → Bool) : ℕ → Option Char → List Mark → List Char
  | _, _, [] => []
  | left + 1, previous, mark :: rest =>
      blank mark.char ::
        blankMarks isWord left (if mark.spliced then previous else some mark.char) rest
  | 0, previous, mark :: rest =>
      if mark.spliced = true then mark.char :: blankMarks isWord 0 previous rest
      else
        match extent isWord previous (mark :: rest) with
        | none => mark.char :: blankMarks isWord 0 (some mark.char) rest
        | some length =>
            blank mark.char :: blankMarks isWord (length - 1) (some mark.char) rest

/-- The text with its comments and literals overwritten. -/
def overwrite (isWord : Char → Bool) (splices : Bool) (text : List Char) : List Char :=
  blankMarks isWord 0 none (markSplices splices false text)

/-! ## Texts read without splices -/

variable {isWord : Char → Bool} {previous : Option Char} {char : Char} {text rest : List Char}

/-- The marks of a text without splices. -/
def unspliced (text : List Char) : List Mark := text.map fun char => ⟨char, false⟩

theorem markSplices_false (text : List Char) : markSplices false false text = unspliced text := by
  induction text with
  | nil => rfl
  | cons char rest ih =>
      rw [markSplices, Bool.false_and, Bool.false_and, Bool.or_false, ih]
      rfl

@[simp]
theorem unspliced_cons (char : Char) (rest : List Char) :
    unspliced (char :: rest) = ⟨char, false⟩ :: unspliced rest := rfl

theorem drop_unspliced (text : List Char) (length : ℕ) :
    (unspliced text).drop length = unspliced (text.drop length) := List.map_drop.symm

theorem map_char_unspliced (text : List Char) : (unspliced text).map Mark.char = text := by
  rw [unspliced, List.map_map]
  exact List.map_id text

theorem startsWith_unspliced (word text : List Char) :
    startsWith word (unspliced text) =
      if word.isPrefixOf text = true then some word.length else none := by
  induction word generalizing text with
  | nil =>
      rw [startsWith]
      simp
  | cons first word ih =>
      cases text with
      | nil => rfl
      | cons char rest =>
          rw [unspliced_cons, startsWith, if_neg Bool.false_ne_true, ih]
          by_cases hfirst : char = first
          · subst hfirst
            simp only [if_true, List.isPrefixOf, beq_self_eq_true, Bool.true_and]
            split
            case isTrue => rfl
            case isFalse => rfl
          · rw [if_neg hfirst, if_neg]
            simp [List.isPrefixOf, Ne.symm hfirst]

theorem overwrite_false (text : List Char) :
    overwrite isWord false text = blankMarks isWord 0 none (unspliced text) := by
  rw [overwrite, markSplices_false]

theorem blankMarks_succ (left : ℕ) :
    blankMarks isWord (left + 1) previous (unspliced (char :: rest)) =
      blank char :: blankMarks isWord left (some char) (unspliced rest) := by
  rw [unspliced_cons, blankMarks]
  rfl

theorem blankMarks_zero :
    blankMarks isWord 0 previous (unspliced (char :: rest)) =
      (match extent isWord previous (unspliced (char :: rest)) with
      | none => char :: blankMarks isWord 0 (some char) (unspliced rest)
      | some length =>
          blank char :: blankMarks isWord (length - 1) (some char) (unspliced rest)) := by
  rw [unspliced_cons, blankMarks, if_neg Bool.false_ne_true]

end AegisForge.Core.CppLexing
