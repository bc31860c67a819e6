import Mathlib.Data.List.TakeWhile
import AegisForge.Core.Digest

/-!
# Base64

The standard alphabet with padding.  Decoding undoes encoding.
-/

namespace AegisForge.Core.Base64

def alphabet : List Char :=
  ['A', 'B', 'C', 'D', 'E', 'F', 'G', 'H', 'I', 'J', 'K', 'L', 'M', 'N', 'O', 'P', 'Q', 'R',
    'S', 'T', 'U', 'V', 'W', 'X', 'Y', 'Z', 'a', 'b', 'c', 'd', 'e', 'f', 'g', 'h', 'i', 'j',
    'k', 'l', 'm', 'n', 'o', 'p', 'q', 'r', 's', 't', 'u', 'v', 'w', 'x', 'y', 'z', '0', '1',
    '2', '3', '4', '5', '6', '7', '8', '9', '+', '/']

def letter (sextet : ℕ) : Char := alphabet.getD sextet 'A'

def sextet (letter : Char) : ℕ := alphabet.idxOf letter

/-- The six bit numbers of bytes; the last one is filled up with zeros. -/
def sextets : Octets → List ℕ
  | a :: b :: c :: rest =>
      a.toNat / 4 :: (a.toNat % 4 * 16 + b.toNat / 16) :: (b.toNat % 16 * 4 + c.toNat / 64) ::
        c.toNat % 64 :: sextets rest
  | [a, b] => [a.toNat / 4, a.toNat % 4 * 16 + b.toNat / 16, b.toNat % 16 * 4]
  | [a] => [a.toNat / 4, a.toNat % 4 * 16]
  | [] => []

def bytesOf : List ℕ → Octets
  | a :: b :: c :: d :: rest =>
      UInt8.ofNat (a * 4 + b / 16) :: UInt8.ofNat (b % 16 * 16 + c / 4) ::
        UInt8.ofNat (c % 4 * 64 + d) :: bytesOf rest
  | [a, b, c] => [UInt8.ofNat (a * 4 + b / 16), UInt8.ofNat (b % 16 * 16 + c / 4)]
  | [a, b] => [UInt8.ofNat (a * 4 + b / 16)]
  | _ => []

/-- The number of padding marks for a number of bytes. -/
def paddingOf (length : ℕ) : ℕ := (3 - length % 3) % 3

/-- `base64.b64encode(raw).decode("ascii")`. -/
def encode (raw : Octets) : String :=
  String.ofList ((sextets raw).map letter ++ List.replicate (paddingOf raw.length) '=')

/-- Whether letters, with padding marks, are whole bytes. -/
def isPadded (letters marks : ℕ) : Bool :=
  letters % 4 = 0 || (letters % 4 = 2 && marks = 2) || (letters % 4 = 3 && 1 ≤ marks)

/-- `base64.b64decode(text, validate=True)`. -/
def decode? (text : String) : Option Octets :=
  let letters := text.toList.takeWhile fun character => character ∈ alphabet
  let marks := text.toList.dropWhile fun character => character ∈ alphabet
  if (marks.all (· = '=') && marks.length ≤ 2 && isPadded letters.length marks.length) = true then
    some (bytesOf (letters.map sextet))
  else none

theorem sextet_letter : ∀ value < 64, sextet (letter value) = value := by decide

theorem letter_mem : ∀ value < 64, letter value ∈ alphabet := by decide

theorem sextets_lt (raw : Octets) : ∀ value ∈ sextets raw, value < 64 := by
  match raw with
  | [] => exact nofun
  | [a] =>
      have ha := a.toNat_lt
      simp only [sextets, List.forall_mem_cons]
      exact ⟨by omega, by omega, nofun⟩
  | [a, b] =>
      have ha := a.toNat_lt
      have hb := b.toNat_lt
      simp only [sextets, List.forall_mem_cons]
      exact ⟨by omega, by omega, by omega, nofun⟩
  | a :: b :: c :: rest =>
      have ha := a.toNat_lt
      have hb := b.toNat_lt
      have hc := c.toNat_lt
      simp only [sextets, List.forall_mem_cons]
      exact ⟨by omega, by omega, by omega, by omega, sextets_lt rest⟩

theorem length_sextets (raw : Octets) : (sextets raw).length = (4 * raw.length + 2) / 3 := by
  match raw with
  | [] => rfl
  | [a] => simp [sextets]
  | [a, b] => simp [sextets]
  | a :: b :: c :: rest =>
      simp only [sextets, List.length_cons, length_sextets rest]
      omega

theorem ofNat_eq_of_toNat_eq {value : ℕ} {byte : UInt8} (hvalue : value = byte.toNat) :
    UInt8.ofNat value = byte := by
  rw [hvalue, UInt8.ofNat_toNat]

theorem bytesOf_sextets (raw : Octets) : bytesOf (sextets raw) = raw := by
  match raw with
  | [] => rfl
  | [a] =>
      have ha := a.toNat_lt
      rw [sextets, bytesOf]
      congr 1
      apply ofNat_eq_of_toNat_eq
      omega
  | [a, b] =>
      have ha := a.toNat_lt
      have hb := b.toNat_lt
      rw [sextets, bytesOf]
      congr 2 <;> apply ofNat_eq_of_toNat_eq <;> omega
  | a :: b :: c :: rest =>
      have ha := a.toNat_lt
      have hb := b.toNat_lt
      have hc := c.toNat_lt
      rw [sextets, bytesOf, bytesOf_sextets rest]
      congr 3 <;> apply ofNat_eq_of_toNat_eq <;> omega

theorem isPadded_paddingOf (length : ℕ) :
    isPadded ((4 * length + 2) / 3) (paddingOf length) = true := by
  simp only [isPadded, Bool.or_eq_true, Bool.and_eq_true, decide_eq_true_eq]
  rw [paddingOf]
  have hparts : length % 3 = 0 ∨ length % 3 = 1 ∨ length % 3 = 2 := by omega
  rcases hparts with hpart | hpart | hpart
  · have hletters : (4 * length + 2) / 3 = 4 * (length / 3) := by omega
    rw [hletters, hpart]
    omega
  · have hletters : (4 * length + 2) / 3 = 4 * (length / 3) + 2 := by omega
    rw [hletters, hpart]
    omega
  · have hletters : (4 * length + 2) / 3 = 4 * (length / 3) + 3 := by omega
    rw [hletters, hpart]
    omega

theorem pad_notMem : '=' ∉ alphabet := by decide

/-- Letters and padding marks are told apart. -/
theorem span_letters {letters marks : List Char} (hletters : ∀ mark ∈ letters, mark ∈ alphabet)
    (hmarks : ∀ mark ∈ marks, mark ∉ alphabet) :
    ((letters ++ marks).takeWhile fun mark => mark ∈ alphabet) = letters ∧
      ((letters ++ marks).dropWhile fun mark => mark ∈ alphabet) = marks := by
  rw [List.takeWhile_append_of_pos (by simpa using hletters),
    List.dropWhile_append_of_pos (by simpa using hletters)]
  cases marks with
  | nil => simp
  | cons mark rest =>
      have hmark : mark ∉ alphabet := hmarks mark List.mem_cons_self
      simp [hmark]

/-- What was encoded is decoded. -/
theorem decode?_encode (raw : Octets) : decode? (encode raw) = some raw := by
  have hletters : ∀ mark ∈ (sextets raw).map letter, mark ∈ alphabet := by
    intro mark hmark
    obtain ⟨value, hvalue, rfl⟩ := List.mem_map.mp hmark
    exact letter_mem value (sextets_lt raw value hvalue)
  have hmarks : ∀ mark ∈ List.replicate (paddingOf raw.length) '=', mark ∉ alphabet := by
    intro mark hmark
    rw [List.eq_of_mem_replicate hmark]
    exact pad_notMem
  have hvalues : ((sextets raw).map letter).map sextet = sextets raw := by
    rw [List.map_map]
    refine (List.map_congr_left ?_).trans (List.map_id _)
    intro value hvalue
    exact sextet_letter value (sextets_lt raw value hvalue)
  have hcount : paddingOf raw.length ≤ 2 := by
    rw [paddingOf]
    omega
  obtain ⟨htake, hdrop⟩ := span_letters hletters hmarks
  rw [decode?, encode, String.toList_ofList, htake, hdrop, List.length_map, length_sextets,
    List.length_replicate, isPadded_paddingOf, hvalues, bytesOf_sextets, if_pos]
  simp [hcount]

end AegisForge.Core.Base64
