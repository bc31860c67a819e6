import Mathlib.Data.List.Basic
import AegisForge.Core.Text

/-!
# Searching texts

Where a text first has a word, and where it has a pattern of characters, spaces and
word boundaries, from left to right and without overlaps.
-/

namespace AegisForge.Core.TextSearch

/-- Where a word first stands in a text. -/
def find? (word : List Char) : List Char → Option ℕ
  | [] => if word = [] then some 0 else none
  | first :: rest =>
      if word.isPrefixOf (first :: rest) = true then some 0 else (find? word rest).map (· + 1)

theorem find?_singleton_take {char : Char} {text : List Char} {count place : ℕ}
    (hfind : find? [char] (text.take count) = some place) : find? [char] text = some place := by
  induction text generalizing count place with
  | nil =>
      rw [List.take_nil] at hfind
      exact hfind
  | cons first rest ih =>
      cases count with
      | zero =>
          rw [List.take_zero, find?] at hfind
          cases hfind
      | succ count =>
          rw [List.take_succ_cons, find?] at hfind
          rw [find?]
          simp only [List.isPrefixOf, Bool.and_true, beq_iff_eq] at hfind ⊢
          by_cases hfirst : char = first
          · rwa [if_pos hfirst] at hfind ⊢
          · rw [if_neg hfirst] at hfind ⊢
            obtain ⟨later, hlater, hplace⟩ := Option.map_eq_some_iff.mp hfind
            rw [ih hlater, Option.map_some, hplace]

theorem lt_length_of_find?_singleton {char : Char} {text : List Char} {place : ℕ}
    (hfind : find? [char] text = some place) : place < text.length := by
  induction text generalizing place with
  | nil => cases hfind
  | cons first rest ih =>
      rw [find?] at hfind
      split at hfind
      case isTrue =>
        obtain rfl := Option.some.inj hfind
        exact Nat.succ_pos rest.length
      case isFalse =>
        obtain ⟨later, hlater, rfl⟩ := Option.map_eq_some_iff.mp hfind
        exact Nat.succ_lt_succ (ih hlater)

/-! ## Patterns -/

/-- A part of a pattern.  No pattern has a character after spaces that is itself a space,
so that spaces once taken are never given back. -/
inductive Piece
  | exactly (char : Char)
  | spaces
  | someSpaces
  | boundary
  deriving DecidableEq

def word (text : String) : List Piece := text.toList.map Piece.exactly

/-- Words with any spaces between them. -/
def spaced (words : List String) : List Piece :=
  List.intercalate [Piece.spaces] (words.map word)

variable (isWord : Char → Bool)

/-- The length of the text that a pattern takes here, if it does. -/
def matchAt : List Piece → Option Char → List Char → Option ℕ
  | [], _, _ => some 0
  | .exactly _ :: _, _, [] => none
  | .exactly char :: pieces, _, first :: rest =>
      if first = char then (matchAt pieces (some first) rest).map (· + 1) else none
  | .boundary :: pieces, previous, text =>
      if previous.any isWord ≠ text.head?.any isWord then matchAt pieces previous text else none
  | .spaces :: pieces, previous, text =>
      let taken := text.takeWhile isSpace
      (matchAt pieces (taken.getLast?.or previous) (text.dropWhile isSpace)).map (· + taken.length)
  | .someSpaces :: pieces, previous, text =>
      let taken := text.takeWhile isSpace
      if taken = [] then none
      else (matchAt pieces taken.getLast? (text.dropWhile isSpace)).map (· + taken.length)

/-- Where a pattern is found, without overlaps.  The first number says how much of the
last place is left. -/
def matchesFrom (pieces : List Piece) : ℕ → Option Char → ℕ → List Char → List (ℕ × ℕ)
  | _, _, _, [] => []
  | left + 1, _, index, first :: rest => matchesFrom pieces left (some first) (index + 1) rest
  | 0, previous, index, first :: rest =>
      match matchAt isWord pieces previous (first :: rest) with
      | none => matchesFrom pieces 0 (some first) (index + 1) rest
      | some length =>
          (index, index + length) :: matchesFrom pieces (length - 1) (some first) (index + 1) rest

/-- `pattern.finditer(text)` as the spans of its matches. -/
def findAll (pieces : List Piece) (text : List Char) : List (ℕ × ℕ) :=
  matchesFrom isWord pieces 0 none 0 text

end AegisForge.Core.TextSearch
