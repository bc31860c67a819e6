import AegisForge.Core.Sha256

/-!
# SHA-1

The hash function that names the blobs of a repository, on words that are natural
numbers below `2 ^ 32`.
-/

namespace AegisForge.Core.Sha1

open Sha256 (word rotateRight xor3 choose majority computed wordsOf pad)

def rotateLeft (value count : ℕ) : ℕ := rotateRight value (32 - count)

/-- The four times twenty rounds. -/
inductive Phase
  | choose
  | parity
  | majority
  | parityAgain

def Phase.mix : Phase → ℕ → ℕ → ℕ → ℕ
  | choose => Sha256.choose
  | parity => xor3
  | majority => Sha256.majority
  | parityAgain => xor3

def Phase.constant : Phase → ℕ
  | choose => 0x5a827999
  | parity => 0x6ed9eba1
  | majority => 0x8f1bbcdc
  | parityAgain => 0xca62c1d6

def phases : List Phase :=
  List.replicate 20 .choose ++ List.replicate 20 .parity ++ List.replicate 20 .majority ++
    List.replicate 20 .parityAgain

structure State where
  a : ℕ
  b : ℕ
  c : ℕ
  d : ℕ
  e : ℕ

def initial : State := ⟨0x67452301, 0xefcdab89, 0x98badcfe, 0x10325476, 0xc3d2e1f0⟩

/-- The rounds over the schedule, of which the next sixteen words are known. -/
def rounds : List Phase → List ℕ → State → State
  | phase :: phases,
      [w0, w1, w2, w3, w4, w5, w6, w7, w8, w9, w10, w11, w12, w13, w14, w15], state =>
      computed (rotateLeft (Nat.xor (xor3 w13 w8 w2) w0) 1) fun w16 =>
      computed (word (rotateLeft state.a 5 + phase.mix state.b state.c state.d + state.e +
        phase.constant + w0)) fun a =>
      computed (rotateLeft state.b 30) fun c =>
      rounds phases [w1, w2, w3, w4, w5, w6, w7, w8, w9, w10, w11, w12, w13, w14, w15, w16]
        ⟨a, state.a, c, state.c, state.d⟩
  | _, _, state => state

def addWords (left right : State) : State :=
  computed (word (left.a + right.a)) fun a =>
  computed (word (left.b + right.b)) fun b =>
  computed (word (left.c + right.c)) fun c =>
  computed (word (left.d + right.d)) fun d =>
  computed (word (left.e + right.e)) fun e =>
  ⟨a, b, c, d, e⟩

/-- The blocks of sixty-four bytes, one after the other. -/
def blocks : ℕ → List ℕ → State → State
  | 0, _, state => state
  | count + 1, message, state =>
      match addWords state (rounds phases (wordsOf (message.take 64)) state) with
      | ⟨a, b, c, d, e⟩ => blocks count (message.drop 64) ⟨a, b, c, d, e⟩

def State.value (state : State) : ℕ :=
  [state.a, state.b, state.c, state.d, state.e].foldl
    (fun value part => value * 4294967296 + part) 0

/-- `hashlib.sha1(message).hexdigest()`. -/
def sha1 (message : Octets) : String :=
  let padded := pad (message.map UInt8.toNat)
  String.ofList (Digest.digitsOf 40 (blocks (padded.length / 64) padded initial).value)

/-- `re.compile(r"^[0-9a-f]{40}$").fullmatch(text)`. -/
def isSha1Text (text : String) : Bool :=
  text.toList.length = 40 && text.toList.all (· ∈ hexDigits)

theorem isSha1Text_sha1 (message : Octets) : isSha1Text (sha1 message) = true := by
  rw [isSha1Text, sha1, String.toList_ofList, Digest.length_digitsOf]
  simpa using Digest.digitsOf_mem 40 _

example : sha1 [97, 98, 99] = "a9993e364706816aba3e25717850c26c9cd0d89d" := by decide +kernel

end AegisForge.Core.Sha1
