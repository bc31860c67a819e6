import Mathlib.Data.List.TakeWhile
import AegisForge.Core.Json

/-!
# JSON text

The text that a value is written as, without blanks, and the reader that gets
the value back from it.  A text belongs to one value only, up to the order of
its keys.
-/

namespace AegisForge.Core.Json

/-! ## Writing -/

/-- Four hexadecimal digits after a backslash. -/
def escapeCode (code : ℕ) : List Char :=
  ['\\', 'u', Nat.digitChar (code / 4096), Nat.digitChar (code / 256 % 16),
    Nat.digitChar (code / 16 % 16), Nat.digitChar (code % 16)]

/-- The code points beyond the first plane take a surrogate pair. -/
def escapePoint (code : ℕ) : List Char :=
  if code < 0x10000 then escapeCode code
  else escapeCode (0xd800 + (code - 0x10000) / 0x400) ++
    escapeCode (0xdc00 + (code - 0x10000) % 0x400)

/-- The characters with an escape of their own. -/
def shortEscapes : List (Char × Char) :=
  [('"', '"'), ('\\', '\\'), ('\n', 'n'), ('\r', 'r'), ('\t', 't'), ('\x08', 'b'), ('\x0c', 'f')]

def escapeChar (ensureAscii : Bool) (character : Char) : List Char :=
  match shortEscapes.lookup character with
  | some letter => ['\\', letter]
  | none =>
      if character.toNat < 32 ∨ ensureAscii = true ∧ 127 ≤ character.toNat then
        escapePoint character.toNat
      else [character]

def encodeText (ensureAscii : Bool) (text : String) : List Char :=
  '"' :: text.toList.flatMap (escapeChar ensureAscii) ++ ['"']

def encodeInt : ℤ → List Char
  | .ofNat value => Nat.toDigits 10 value
  | .negSucc value => '-' :: Nat.toDigits 10 (value + 1)

mutual

/-- `json.dumps` with the separators `","` and `":"`, in the order of the keys. -/
def encode (ensureAscii : Bool) : Json → List Char
  | null => ['n', 'u', 'l', 'l']
  | bool true => ['t', 'r', 'u', 'e']
  | bool false => ['f', 'a', 'l', 's', 'e']
  | int value => encodeInt value
  | float literal => literal.toList
  | text value => encodeText ensureAscii value
  | array [] => ['[', ']']
  | array (item :: rest) => '[' :: encode ensureAscii item ++ encodeItems ensureAscii rest
  | object [] => ['{', '}']
  | object ((key, value) :: rest) =>
      '{' :: encodeText ensureAscii key ++ ':' :: encode ensureAscii value ++
        encodeFields ensureAscii rest

/-- The items after the first one. -/
def encodeItems (ensureAscii : Bool) : List Json → List Char
  | [] => [']']
  | item :: rest => ',' :: encode ensureAscii item ++ encodeItems ensureAscii rest

/-- The fields after the first one. -/
def encodeFields (ensureAscii : Bool) : List (String × Json) → List Char
  | [] => ['}']
  | (key, value) :: rest =>
      ',' :: encodeText ensureAscii key ++ ':' :: encode ensureAscii value ++
        encodeFields ensureAscii rest

end

/-! ## Keys -/

/-- A field for a dictionary with sorted keys; a field that is there stays. -/
def insertField (key : String) (value : Json) : List (String × Json) → List (String × Json)
  | [] => [(key, value)]
  | (other, held) :: rest =>
      if key < other then (key, value) :: (other, held) :: rest
      else if key = other then (other, held) :: rest
      else (other, held) :: insertField key value rest

mutual

/-- The value with the keys of its dictionaries sorted; of a key that occurs
twice the last value counts. -/
def sortKeys : Json → Json
  | array items => array (sortItems items)
  | object fields => object (sortFields fields)
  | value => value

def sortItems : List Json → List Json
  | [] => []
  | item :: rest => sortKeys item :: sortItems rest

def sortFields : List (String × Json) → List (String × Json)
  | [] => []
  | (key, value) :: rest => insertField key (sortKeys value) (sortFields rest)

end

/-! ## Reading -/

def isBlankChar (character : Char) : Bool :=
  character = ' ' || character = '\t' || character = '\n' || character = '\r'

def skipBlanks (input : List Char) : List Char := input.dropWhile isBlankChar

def hexValue? (digit : Char) : Option ℕ :=
  if '0' ≤ digit ∧ digit ≤ '9' then some (digit.toNat - 48)
  else if 'a' ≤ digit ∧ digit ≤ 'f' then some (digit.toNat - 87)
  else if 'A' ≤ digit ∧ digit ≤ 'F' then some (digit.toNat - 55)
  else none

def readCode : List Char → Option (ℕ × List Char)
  | a :: b :: c :: d :: rest => do
      let a ← hexValue? a
      let b ← hexValue? b
      let c ← hexValue? c
      let d ← hexValue? d
      some (4096 * a + 256 * b + 16 * c + d, rest)
  | _ => none

/-- The code point after `\u`; a surrogate without its partner is no character. -/
def readPoint (input : List Char) : Option (Char × List Char) := do
  let (code, rest) ← readCode input
  if 0xd800 ≤ code ∧ code < 0xdc00 then
    match rest with
    | '\\' :: 'u' :: more => do
        let (low, rest) ← readCode more
        if 0xdc00 ≤ low ∧ low < 0xe000 then
          some (Char.ofNat (0x10000 + 0x400 * (code - 0xd800) + (low - 0xdc00)), rest)
        else none
    | _ => none
  else if 0xdc00 ≤ code ∧ code < 0xe000 then none
  else some (Char.ofNat code, rest)

/-- The character after a backslash. -/
def readEscape : List Char → Option (Char × List Char)
  | [] => none
  | letter :: rest =>
      if letter = 'u' then readPoint rest
      else if letter = '/' then some ('/', rest)
      else (shortEscapes.find? fun escape => escape.2 = letter).map fun escape =>
        (escape.1, rest)

/-- The characters up to the closing quotation mark. -/
def readChars : ℕ → List Char → Option (List Char × List Char)
  | 0, _ => none
  | _, [] => none
  | fuel + 1, character :: rest =>
      if character = '"' then some ([], rest)
      else if character = '\\' then do
        let (character, rest) ← readEscape rest
        let (characters, rest) ← readChars fuel rest
        some (character :: characters, rest)
      else if character.toNat < 32 then none
      else do
        let (characters, rest) ← readChars fuel rest
        some (character :: characters, rest)

def readText (fuel : ℕ) : List Char → Option (String × List Char)
  | [] => none
  | mark :: rest =>
      if mark = '"' then do
        let (characters, rest) ← readChars fuel rest
        some (String.ofList characters, rest)
      else none

def scanSign : List Char → List Char × List Char
  | [] => ([], [])
  | sign :: rest => if sign = '-' then (['-'], rest) else ([], sign :: rest)

def scanDigits (input : List Char) : List Char × List Char :=
  (input.takeWhile Char.isDigit, input.dropWhile Char.isDigit)

/-- No digits, or a zero, or digits that begin with another one. -/
def scanWhole : List Char → List Char × List Char
  | [] => ([], [])
  | digit :: rest => if digit = '0' then (['0'], rest) else scanDigits (digit :: rest)

def scanFraction : List Char → List Char × List Char
  | [] => ([], [])
  | point :: rest =>
      if point = '.' ∧ (scanDigits rest).1 ≠ [] then
        (point :: (scanDigits rest).1, (scanDigits rest).2)
      else ([], point :: rest)

def scanExponentSign : List Char → List Char × List Char
  | [] => ([], [])
  | sign :: rest => if sign = '-' ∨ sign = '+' then ([sign], rest) else ([], sign :: rest)

def scanExponent : List Char → List Char × List Char
  | [] => ([], [])
  | letter :: rest =>
      let (sign, input) := scanExponentSign rest
      if (letter = 'e' ∨ letter = 'E') ∧ (scanDigits input).1 ≠ [] then
        (letter :: sign ++ (scanDigits input).1, (scanDigits input).2)
      else ([], letter :: rest)

/-- The parts of a number. -/
structure NumberText where
  sign : List Char
  whole : List Char
  fraction : List Char
  exponent : List Char
  deriving DecidableEq

def scanNumber (input : List Char) : NumberText × List Char :=
  let (sign, input) := scanSign input
  let (whole, input) := scanWhole input
  let (fraction, input) := scanFraction input
  let (exponent, input) := scanExponent input
  (⟨sign, whole, fraction, exponent⟩, input)

namespace NumberText

def text (number : NumberText) : List Char :=
  number.sign ++ number.whole ++ number.fraction ++ number.exponent

def isInt (number : NumberText) : Bool :=
  number.fraction = [] && number.exponent = []

/-- A number with a fraction or an exponent is a float, which keeps its text. -/
def value (number : NumberText) : Json :=
  if number.isInt then
    if number.sign = [] then int (Nat.ofDigitChars 10 number.whole 0)
    else int (-Nat.ofDigitChars 10 number.whole 0)
  else float (String.ofList number.text)

end NumberText

def words : List (List Char × Json) :=
  [(['n', 'u', 'l', 'l'], null), (['t', 'r', 'u', 'e'], bool true),
    (['f', 'a', 'l', 's', 'e'], bool false), (['N', 'a', 'N'], float "NaN"),
    (['I', 'n', 'f', 'i', 'n', 'i', 't', 'y'], float "Infinity"),
    (['-', 'I', 'n', 'f', 'i', 'n', 'i', 't', 'y'], float "-Infinity")]

def readWord (input : List Char) : Option (Json × List Char) :=
  (words.find? fun word => word.1.isPrefixOf input).map fun word =>
    (word.2, input.drop word.1.length)

def readScalar (input : List Char) : Option (Json × List Char) :=
  let (number, rest) := scanNumber input
  if number.whole = [] then readWord input
  else some (number.value, rest)

def readMark (mark : Char) : List Char → Option (List Char)
  | [] => none
  | other :: rest => if other = mark then some rest else none

mutual

def readValue : ℕ → List Char → Option (Json × List Char)
  | 0, _ => none
  | _, [] => none
  | fuel + 1, mark :: rest =>
      if mark = '"' then do
        let (value, rest) ← readText fuel (mark :: rest)
        some (text value, rest)
      else if mark = '[' then readArray fuel (skipBlanks rest)
      else if mark = '{' then readObject fuel (skipBlanks rest)
      else readScalar (mark :: rest)

/-- What follows an opening bracket. -/
def readArray : ℕ → List Char → Option (Json × List Char)
  | 0, _ => none
  | _, [] => none
  | fuel + 1, mark :: rest =>
      if mark = ']' then some (array [], rest)
      else do
        let (item, rest) ← readValue fuel (mark :: rest)
        let (items, rest) ← readItems fuel (skipBlanks rest)
        some (array (item :: items), rest)

/-- What follows an item. -/
def readItems : ℕ → List Char → Option (List Json × List Char)
  | 0, _ => none
  | _, [] => none
  | fuel + 1, mark :: rest =>
      if mark = ']' then some ([], rest)
      else if mark = ',' then do
        let (item, rest) ← readValue fuel (skipBlanks rest)
        let (items, rest) ← readItems fuel (skipBlanks rest)
        some (item :: items, rest)
      else none

/-- What follows an opening brace. -/
def readObject : ℕ → List Char → Option (Json × List Char)
  | 0, _ => none
  | _, [] => none
  | fuel + 1, mark :: rest =>
      if mark = '}' then some (object [], rest)
      else do
        let (fields, rest) ← readField fuel (mark :: rest)
        some (object fields, rest)

/-- A field and those that follow it. -/
def readField : ℕ → List Char → Option (List (String × Json) × List Char)
  | 0, _ => none
  | fuel + 1, input => do
      let (key, rest) ← readText fuel input
      let rest ← readMark ':' (skipBlanks rest)
      let (value, rest) ← readValue fuel (skipBlanks rest)
      let (fields, rest) ← readFields fuel (skipBlanks rest)
      some ((key, value) :: fields, rest)

/-- What follows a field. -/
def readFields : ℕ → List Char → Option (List (String × Json) × List Char)
  | 0, _ => none
  | _, [] => none
  | fuel + 1, mark :: rest =>
      if mark = '}' then some ([], rest)
      else if mark = ',' then readField fuel (skipBlanks rest)
      else none

end

/-- The value of a text, with the fields as they are written. -/
def readAll (input : List Char) : Option Json :=
  match readValue (input.length + 1) (skipBlanks input) with
  | some (value, rest) => if skipBlanks rest = [] then some value else none
  | none => none

/-- `json.loads`. -/
def loads (input : List Char) : Option Json := (readAll input).map sortKeys

end AegisForge.Core.Json
