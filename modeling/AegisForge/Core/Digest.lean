import Mathlib.Algebra.Group.Nat.Defs
import Mathlib.Data.List.Nodup
import Mathlib.Data.Nat.Notation
import Mathlib.Data.Set.Function

/-!
# Digests in hexadecimal

A digest is the text of sixty-four lower-case hexadecimal digits, so that a text
which is none cannot be one.
-/

namespace AegisForge.Core

abbrev Octets : Type := List UInt8

def hexDigits : List Char :=
  ['0', '1', '2', '3', '4', '5', '6', '7', '8', '9', 'a', 'b', 'c', 'd', 'e', 'f']

/-- `re.compile(r"^[0-9a-f]{64}$").fullmatch`. -/
def isDigestText (text : String) : Bool :=
  text.toList.length = 64 && text.toList.all fun digit => digit ∈ hexDigits

structure Digest where
  text : String
  valid : isDigestText text = true
  deriving DecidableEq

namespace Digest

def ofText? (text : String) : Option Digest :=
  if hvalid : isDigestText text = true then some ⟨text, hvalid⟩ else none

theorem ofText?_eq_some_iff {text : String} {digest : Digest} :
    ofText? text = some digest ↔ digest.text = text := by
  rw [ofText?]
  constructor
  · intro hdigest
    split at hdigest
    case isTrue => exact (congrArg Digest.text (Option.some.inj hdigest)).symm
    case isFalse => cases hdigest
  · rintro rfl
    rw [dif_pos digest.valid]

@[simp]
theorem ofText?_text (digest : Digest) : ofText? digest.text = some digest :=
  ofText?_eq_some_iff.mpr rfl

theorem text_injective : Function.Injective Digest.text := by
  rintro ⟨left, _⟩ ⟨right, _⟩ rfl
  rfl

theorem length_text (digest : Digest) : digest.text.toList.length = 64 := by
  have hvalid := digest.valid
  simp only [isDigestText, Bool.and_eq_true, decide_eq_true_eq] at hvalid
  exact hvalid.1

theorem mem_hexDigits (digest : Digest) : ∀ digit ∈ digest.text.toList, digit ∈ hexDigits := by
  have hvalid := digest.valid
  simp only [isDigestText, Bool.and_eq_true, List.all_eq_true, decide_eq_true_eq] at hvalid
  exact hvalid.2

end Digest

/-! ## Bytes -/

def hexDigitValue (digit : Char) : ℕ :=
  if digit ≤ '9' then digit.toNat - 48 else digit.toNat - 87

/-- `bytes.fromhex`. -/
def fromHex : List Char → Octets
  | high :: low :: rest =>
      UInt8.ofNat (16 * hexDigitValue high + hexDigitValue low) :: fromHex rest
  | _ => []

theorem hexDigitValue_lt : ∀ digit ∈ hexDigits, hexDigitValue digit < 16 := by
  have hall : (hexDigits.all fun digit => hexDigitValue digit < 16) = true := by decide
  simpa only [List.all_eq_true, decide_eq_true_eq] using hall

theorem digitChar_hexDigitValue :
    ∀ digit ∈ hexDigits, Nat.digitChar (hexDigitValue digit) = digit := by
  have hall : (hexDigits.all fun digit => Nat.digitChar (hexDigitValue digit) = digit) = true := by
    decide
  simpa only [List.all_eq_true, decide_eq_true_eq] using hall

theorem length_fromHex (digits : List Char) : (fromHex digits).length = digits.length / 2 := by
  match digits with
  | [] => rfl
  | [_] => simp [fromHex]
  | high :: low :: rest =>
      rw [fromHex, List.length_cons, length_fromHex rest]
      simp only [List.length_cons]
      omega

/-- A byte fixes its two digits. -/
theorem digits_eq_of_byte_eq {high low otherHigh otherLow : Char} (hhigh : high ∈ hexDigits)
    (hlow : low ∈ hexDigits) (hotherHigh : otherHigh ∈ hexDigits)
    (hotherLow : otherLow ∈ hexDigits)
    (hbyte : UInt8.ofNat (16 * hexDigitValue high + hexDigitValue low) =
      UInt8.ofNat (16 * hexDigitValue otherHigh + hexDigitValue otherLow)) :
    high = otherHigh ∧ low = otherLow := by
  have hhighValue := hexDigitValue_lt high hhigh
  have hlowValue := hexDigitValue_lt low hlow
  have hotherHighValue := hexDigitValue_lt otherHigh hotherHigh
  have hotherLowValue := hexDigitValue_lt otherLow hotherLow
  have hvalue := congrArg UInt8.toNat hbyte
  rw [UInt8.toNat_ofNat_of_lt' (show _ < 256 by omega),
    UInt8.toNat_ofNat_of_lt' (show _ < 256 by omega)] at hvalue
  rw [← digitChar_hexDigitValue high hhigh, ← digitChar_hexDigitValue low hlow,
    ← digitChar_hexDigitValue otherHigh hotherHigh,
    ← digitChar_hexDigitValue otherLow hotherLow]
  constructor <;> congr 1 <;> omega

theorem fromHex_inj {left right : List Char} (hleft : ∀ digit ∈ left, digit ∈ hexDigits)
    (hright : ∀ digit ∈ right, digit ∈ hexDigits) (hlength : left.length = right.length)
    (heven : left.length % 2 = 0) (hbytes : fromHex left = fromHex right) : left = right := by
  match left, right with
  | [], [] => rfl
  | high :: low :: rest, otherHigh :: otherLow :: otherRest =>
      simp only [List.forall_mem_cons] at hleft hright
      obtain ⟨hbyte, hrest⟩ := List.cons.inj hbytes
      obtain ⟨rfl, rfl⟩ :=
        digits_eq_of_byte_eq hleft.1 hleft.2.1 hright.1 hright.2.1 hbyte
      simp only [List.length_cons] at hlength heven
      rw [fromHex_inj hleft.2.2 hright.2.2 (by omega) (by omega) hrest]

namespace Digest

def bytes (digest : Digest) : Octets := fromHex digest.text.toList

@[simp]
theorem length_bytes (digest : Digest) : digest.bytes.length = 32 := by
  rw [bytes, length_fromHex, length_text]

theorem bytes_injective : Function.Injective bytes := by
  intro left right hbytes
  have hdigits := fromHex_inj left.mem_hexDigits right.mem_hexDigits
    (by rw [length_text, length_text]) (by rw [length_text]) hbytes
  exact text_injective (String.toList_injective hdigits)

/-- The digits of a number, the highest first. -/
def digitsOf : ℕ → ℕ → List Char
  | 0, _ => []
  | count + 1, value => Nat.digitChar (value / 16 ^ count % 16) :: digitsOf count value

theorem length_digitsOf (count value : ℕ) : (digitsOf count value).length = count := by
  induction count with
  | zero => rfl
  | succ count ih => rw [digitsOf, List.length_cons, ih]

theorem digitChar_mem_hexDigits : ∀ value < 16, Nat.digitChar value ∈ hexDigits := by decide

theorem digitsOf_mem (count value : ℕ) : ∀ digit ∈ digitsOf count value, digit ∈ hexDigits := by
  induction count with
  | zero => simp [digitsOf]
  | succ count ih =>
      rw [digitsOf, List.forall_mem_cons]
      exact ⟨digitChar_mem_hexDigits _ (Nat.mod_lt _ (by decide)), ih⟩

/-- The digest with the digits of a number. -/
def ofNat (value : ℕ) : Digest where
  text := String.ofList (digitsOf 64 value)
  valid := by
    rw [isDigestText, String.toList_ofList, length_digitsOf]
    simpa using digitsOf_mem 64 value

end Digest

/-! ## Hash functions -/

/-- A hash function without collisions on given inputs. -/
def CollisionFree (hash : Octets → Digest) (inputs : List Octets) : Prop :=
  ∀ left ∈ inputs, ∀ right ∈ inputs, hash left = hash right → left = right

instance (hash : Octets → Digest) (inputs : List Octets) :
    Decidable (CollisionFree hash inputs) :=
  inferInstanceAs
    (Decidable (∀ left ∈ inputs, ∀ right ∈ inputs, hash left = hash right → left = right))

theorem CollisionFree.mono {hash : Octets → Digest} {inputs others : List Octets}
    (hfree : CollisionFree hash inputs) (hothers : ∀ input ∈ others, input ∈ inputs) :
    CollisionFree hash others :=
  fun left hleft right hright => hfree left (hothers left hleft) right (hothers right hright)

/-- Different hashes are no collision. -/
theorem CollisionFree.of_nodup {hash : Octets → Digest} {inputs : List Octets}
    (hnodup : (inputs.map hash).Nodup) : CollisionFree hash inputs :=
  fun _ hleft _ hright hsame => List.inj_on_of_nodup_map hnodup hleft hright hsame

end AegisForge.Core
