import Mathlib.Data.List.Sort

/-!
# Text

The string operations of the source language that the modelled code uses.
-/

namespace AegisForge.Core

/-- `str.isspace` on one character. -/
def isSpace (character : Char) : Bool :=
  let code := character.toNat
  (9 ≤ code && code ≤ 13) || (28 ≤ code && code ≤ 32) || code = 0x85 || code = 0xa0 ||
    code = 0x1680 || (0x2000 ≤ code && code ≤ 0x200a) || code = 0x2028 ||
    code = 0x2029 || code = 0x202f || code = 0x205f || code = 0x3000

/-- `not text.strip()`. -/
def isBlank (text : String) : Bool := text.toList.all isSpace

/-- `text.strip()`. -/
def strip (text : String) : String :=
  String.ofList (((text.toList.dropWhile isSpace).reverse.dropWhile isSpace).reverse)

/-- `sorted` on strings, which are ordered by code points. -/
def sorted (texts : List String) : List String :=
  texts.insertionSort fun left right => ¬right < left

@[simp]
theorem mem_sorted {text : String} {texts : List String} :
    text ∈ sorted texts ↔ text ∈ texts :=
  List.mem_insertionSort _

end AegisForge.Core
