import AegisForge.Core.JsonText

/-!
# Layouts of JSON text

A writer may put blanks after its marks and begin a new line for every item.  The
text without blanks is one of these layouts.
-/

namespace AegisForge.Core.Json

/-- Nothing but blanks. -/
def AreBlanks (characters : List Char) : Prop :=
  ∀ character ∈ characters, isBlankChar character = true

/-- The blanks that a writer adds. -/
structure Layout where
  /-- After a comma. -/
  comma : List Char
  /-- After a colon. -/
  colon : List Char
  /-- Before an item or a closing mark of a depth. -/
  line : ℕ → List Char
  areBlanks_comma : AreBlanks comma
  areBlanks_colon : AreBlanks colon
  areBlanks_line : ∀ depth, AreBlanks (line depth)

namespace Layout

/-- `separators=(",", ":")`. -/
def compact : Layout where
  comma := []
  colon := []
  line _ := []
  areBlanks_comma := nofun
  areBlanks_colon := nofun
  areBlanks_line _ := nofun

/-- What `json.dumps` writes by itself. -/
def spaced : Layout where
  comma := [' ']
  colon := [' ']
  line _ := []
  areBlanks_comma := by simp [AreBlanks, isBlankChar]
  areBlanks_colon := by simp [AreBlanks, isBlankChar]
  areBlanks_line _ := nofun

/-- `indent=width`. -/
def indented (width : ℕ) : Layout where
  comma := []
  colon := [' ']
  line depth := '\n' :: List.replicate (width * depth) ' '
  areBlanks_comma := nofun
  areBlanks_colon := by simp [AreBlanks, isBlankChar]
  areBlanks_line depth := by
    intro character hcharacter
    rcases List.mem_cons.mp hcharacter with rfl | hspace
    · rfl
    · rw [List.eq_of_mem_replicate hspace]
      rfl

end Layout

section Writing

variable (layout : Layout) (ensureAscii : Bool)

mutual

/-- `json.dumps` of a value at a depth, in the order of the keys. -/
def write : ℕ → Json → List Char
  | _, null => ['n', 'u', 'l', 'l']
  | _, bool true => ['t', 'r', 'u', 'e']
  | _, bool false => ['f', 'a', 'l', 's', 'e']
  | _, int value => encodeInt value
  | _, float literal => literal.toList
  | _, text value => encodeText ensureAscii value
  | _, array [] => ['[', ']']
  | depth, array (item :: rest) =>
      '[' :: (layout.line (depth + 1) ++ (write (depth + 1) item ++ writeItems depth rest))
  | _, object [] => ['{', '}']
  | depth, object ((key, value) :: rest) =>
      '{' :: (layout.line (depth + 1) ++ (encodeText ensureAscii key ++
        ':' :: (layout.colon ++ (write (depth + 1) value ++ writeFields depth rest))))

/-- The items after the first one. -/
def writeItems : ℕ → List Json → List Char
  | depth, [] => layout.line depth ++ [']']
  | depth, item :: rest =>
      ',' :: (layout.comma ++ (layout.line (depth + 1) ++
        (write (depth + 1) item ++ writeItems depth rest)))

/-- The fields after the first one. -/
def writeFields : ℕ → List (String × Json) → List Char
  | depth, [] => layout.line depth ++ ['}']
  | depth, (key, value) :: rest =>
      ',' :: (layout.comma ++ (layout.line (depth + 1) ++ (encodeText ensureAscii key ++
        ':' :: (layout.colon ++ (write (depth + 1) value ++ writeFields depth rest)))))

end

end Writing

mutual

/-- The text without blanks. -/
theorem write_compact (ensureAscii : Bool) (depth : ℕ) (value : Json) :
    write .compact ensureAscii depth value = encode ensureAscii value := by
  match value with
  | null => rfl
  | bool true => rfl
  | bool false => rfl
  | int _ => rfl
  | float _ => rfl
  | text _ => rfl
  | array [] => rfl
  | array (item :: rest) =>
      rw [write, encode, write_compact ensureAscii (depth + 1) item,
        writeItems_compact ensureAscii depth rest]
      rfl
  | object [] => rfl
  | object ((key, value) :: rest) =>
      rw [write, encode, write_compact ensureAscii (depth + 1) value,
        writeFields_compact ensureAscii depth rest]
      simp [Layout.compact]

theorem writeItems_compact (ensureAscii : Bool) (depth : ℕ) (items : List Json) :
    writeItems .compact ensureAscii depth items = encodeItems ensureAscii items := by
  match items with
  | [] => rfl
  | item :: rest =>
      rw [writeItems, encodeItems, write_compact ensureAscii (depth + 1) item,
        writeItems_compact ensureAscii depth rest]
      rfl

theorem writeFields_compact (ensureAscii : Bool) (depth : ℕ) (fields : List (String × Json)) :
    writeFields .compact ensureAscii depth fields = encodeFields ensureAscii fields := by
  match fields with
  | [] => rfl
  | (key, value) :: rest =>
      rw [writeFields, encodeFields, write_compact ensureAscii (depth + 1) value,
        writeFields_compact ensureAscii depth rest]
      simp [Layout.compact]

end

end AegisForge.Core.Json
