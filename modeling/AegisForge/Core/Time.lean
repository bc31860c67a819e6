import Mathlib.Data.Nat.Notation

/-!
# Points in time

Times are microseconds on one UTC axis.  A column that stores a time as text
may also hold text that `datetime.fromisoformat` refuses.
-/

namespace AegisForge.Core

abbrev Time := ℕ

def seconds (count : ℕ) : Time := count * 1000000

def minutes (count : ℕ) : Time := seconds (60 * count)

inductive Stamp
  | at (time : Time)
  | unreadable (text : String)
  deriving DecidableEq, Repr

namespace Stamp

/-- `datetime.fromisoformat`, which raises `ValueError` on `none`. -/
def time? : Stamp → Option Time
  | .at time => some time
  | .unreadable _ => none

/-- Whether the text is empty, hence false as a condition. -/
def isEmpty : Stamp → Bool
  | .at _ => false
  | .unreadable text => text.isEmpty

end Stamp

end AegisForge.Core
