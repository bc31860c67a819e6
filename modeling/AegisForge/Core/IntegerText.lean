import AegisForge.Core.JsonText
import AegisForge.Core.Text

/-!
# Integers in texts

When a text is read as a number in base sixteen: blanks around it, a sign, a prefix,
single underscores and decimal digits of any script are allowed.
-/

namespace AegisForge.Core

/-- The zeros of the decimal digits beyond ASCII; the other nine follow them. -/
def decimalZeros : List ℕ :=
  [0x660, 0x6f0, 0x7c0, 0x966, 0x9e6, 0xa66, 0xae6, 0xb66, 0xbe6, 0xc66, 0xce6, 0xd66, 0xde6,
    0xe50, 0xed0, 0xf20, 0x1040, 0x1090, 0x17e0, 0x1810, 0x1946, 0x19d0, 0x1a80, 0x1a90,
    0x1b50, 0x1bb0, 0x1c40, 0x1c50, 0xa620, 0xa8d0, 0xa900, 0xa9d0, 0xa9f0, 0xaa50, 0xabf0,
    0xff10, 0x104a0, 0x10d30, 0x11066, 0x110f0, 0x11136, 0x111d0, 0x112f0, 0x11450, 0x114d0,
    0x11650, 0x116c0, 0x11730, 0x118e0, 0x11950, 0x11c50, 0x11d50, 0x11da0, 0x16a60, 0x16ac0,
    0x16b50, 0x1d7ce, 0x1d7d8, 0x1d7e2, 0x1d7ec, 0x1d7f6, 0x1e140, 0x1e2f0, 0x1e950, 0x1fbf0]

/-- The character that a reader of numbers sees. -/
def numberChar (character : Char) : Char :=
  let code := character.toNat
  if code < 127 then character
  else if isSpace character = true then ' '
  else
    match decimalZeros.find? fun least => least ≤ code && code < least + 10 with
    | some least => Nat.digitChar (code - least)
    | none => '?'

/-- The blanks that a reader of numbers skips. -/
def isNumberBlank (character : Char) : Bool :=
  character = ' ' || (9 ≤ character.toNat && character.toNat ≤ 13)

def dropSign : List Char → List Char
  | [] => []
  | sign :: rest => if sign = '+' ∨ sign = '-' then rest else sign :: rest

/-- The prefix of base sixteen, after which one underscore is allowed. -/
def dropBase : List Char → List Char
  | first :: mark :: rest =>
      if first = '0' ∧ (mark = 'x' ∨ mark = 'X') then
        if rest.head? = some '_' then rest.tail else rest
      else first :: mark :: rest
  | text => text

def isHexMark (character : Char) : Bool :=
  (Json.hexValue? character).isSome || character = '_'

/-- Digits with single underscores between them. -/
def isDigitRun (marks : List Char) : Bool :=
  marks ≠ [] && marks.head? ≠ some '_' && marks.getLast? ≠ some '_' &&
    (marks.zip marks.tail).all fun pair => !(pair.1 = '_' && pair.2 = '_')

def isDecimalMark (character : Char) : Bool := character.isDigit || character = '_'

/-- `int(text)`, which raises `ValueError` on `none`. -/
def decimal? (text : String) : Option ℤ :=
  let marks := (text.toList.map numberChar).dropWhile isNumberBlank
  let body := dropSign marks
  let run := body.takeWhile isDecimalMark
  let digits := run.filter Char.isDigit
  if (isDigitRun run && digits.length ≤ 4300 &&
      ((body.dropWhile isDecimalMark).dropWhile isNumberBlank).isEmpty) = true then
    some (if marks.head? = some '-' then -Nat.ofDigitChars 10 digits 0
      else Nat.ofDigitChars 10 digits 0)
  else none

/-- `int(text, 16)`, which raises `ValueError` on `none`. -/
def hexadecimal? (text : String) : Option ℤ :=
  let marks := (text.toList.map numberChar).dropWhile isNumberBlank
  let body := dropBase (dropSign marks)
  let run := body.takeWhile isHexMark
  let magnitude : ℕ :=
    (run.filterMap Json.hexValue?).foldl (fun value digit => 16 * value + digit) 0
  if (isDigitRun run && ((body.dropWhile isHexMark).dropWhile isNumberBlank).isEmpty) = true then
    some (if marks.head? = some '-' then -(magnitude : ℤ) else magnitude)
  else none

/-- `int(text, 16)` does not raise. -/
def isBase16 (text : String) : Bool :=
  let body := dropBase (dropSign ((text.toList.map numberChar).dropWhile isNumberBlank))
  isDigitRun (body.takeWhile isHexMark) &&
    ((body.dropWhile isHexMark).dropWhile isNumberBlank).isEmpty

end AegisForge.Core
