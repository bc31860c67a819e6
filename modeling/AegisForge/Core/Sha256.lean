import AegisForge.Core.Digest

/-!
# SHA-256

The hash function of the standard, on words that are natural numbers below
`2 ^ 32`.
-/

namespace AegisForge.Core.Sha256

def word (value : ℕ) : ℕ := value % 4294967296

def rotateRight (value count : ℕ) : ℕ :=
  Nat.lor (Nat.shiftRight value count) (word (Nat.shiftLeft value (32 - count)))

def xor3 (first second third : ℕ) : ℕ := Nat.xor (Nat.xor first second) third

def bigSigma0 (value : ℕ) : ℕ :=
  xor3 (rotateRight value 2) (rotateRight value 13) (rotateRight value 22)

def bigSigma1 (value : ℕ) : ℕ :=
  xor3 (rotateRight value 6) (rotateRight value 11) (rotateRight value 25)

def smallSigma0 (value : ℕ) : ℕ :=
  xor3 (rotateRight value 7) (rotateRight value 18) (Nat.shiftRight value 3)

def smallSigma1 (value : ℕ) : ℕ :=
  xor3 (rotateRight value 17) (rotateRight value 19) (Nat.shiftRight value 10)

def choose (x y z : ℕ) : ℕ := Nat.xor (Nat.land x y) (Nat.land (4294967295 - x) z)

def majority (x y z : ℕ) : ℕ := xor3 (Nat.land x y) (Nat.land x z) (Nat.land y z)

structure State where
  a : ℕ
  b : ℕ
  c : ℕ
  d : ℕ
  e : ℕ
  f : ℕ
  g : ℕ
  h : ℕ

def initial : State :=
  ⟨0x6a09e667, 0xbb67ae85, 0x3c6ef372, 0xa54ff53a, 0x510e527f, 0x9b05688c, 0x1f83d9ab,
    0x5be0cd19⟩

def constants : List ℕ :=
  [0x428a2f98, 0x71374491, 0xb5c0fbcf, 0xe9b5dba5, 0x3956c25b, 0x59f111f1, 0x923f82a4,
    0xab1c5ed5, 0xd807aa98, 0x12835b01, 0x243185be, 0x550c7dc3, 0x72be5d74, 0x80deb1fe,
    0x9bdc06a7, 0xc19bf174, 0xe49b69c1, 0xefbe4786, 0x0fc19dc6, 0x240ca1cc, 0x2de92c6f,
    0x4a7484aa, 0x5cb0a9dc, 0x76f988da, 0x983e5152, 0xa831c66d, 0xb00327c8, 0xbf597fc7,
    0xc6e00bf3, 0xd5a79147, 0x06ca6351, 0x14292967, 0x27b70a85, 0x2e1b2138, 0x4d2c6dfc,
    0x53380d13, 0x650a7354, 0x766a0abb, 0x81c2c92e, 0x92722c85, 0xa2bfe8a1, 0xa81a664b,
    0xc24b8b70, 0xc76c51a3, 0xd192e819, 0xd6990624, 0xf40e3585, 0x106aa070, 0x19a4c116,
    0x1e376c08, 0x2748774c, 0x34b0bcb5, 0x391c0cb3, 0x4ed8aa4a, 0x5b9cca4f, 0x682e6ff3,
    0x748f82ee, 0x78a5636f, 0x84c87814, 0x8cc70208, 0x90befffa, 0xa4506ceb, 0xbef9a3f7,
    0xc67178f2]

/-- The number is computed before it is passed on. -/
def computed {A : Type} (value : ℕ) (rest : ℕ → A) : A :=
  match value with
  | 0 => rest 0
  | value + 1 => rest (value + 1)

/-- The rounds over the schedule, of which the next sixteen words are known. -/
def rounds : List ℕ → List ℕ → State → State
  | constant :: constants,
      [w0, w1, w2, w3, w4, w5, w6, w7, w8, w9, w10, w11, w12, w13, w14, w15], state =>
      computed (word (smallSigma1 w14 + w9 + smallSigma0 w1 + w0)) fun w16 =>
      computed (state.h + bigSigma1 state.e + choose state.e state.f state.g + constant + w0)
        fun mixed =>
      computed (word (state.d + mixed)) fun e =>
      computed (word (mixed + bigSigma0 state.a + majority state.a state.b state.c)) fun a =>
      rounds constants [w1, w2, w3, w4, w5, w6, w7, w8, w9, w10, w11, w12, w13, w14, w15, w16]
        ⟨a, state.a, state.b, state.c, e, state.e, state.f, state.g⟩
  | _, _, state => state

def wordsOf : List ℕ → List ℕ
  | a :: b :: c :: d :: rest => (((a * 256 + b) * 256 + c) * 256 + d) :: wordsOf rest
  | _ => []

def addWords (left right : State) : State :=
  computed (word (left.a + right.a)) fun a =>
  computed (word (left.b + right.b)) fun b =>
  computed (word (left.c + right.c)) fun c =>
  computed (word (left.d + right.d)) fun d =>
  computed (word (left.e + right.e)) fun e =>
  computed (word (left.f + right.f)) fun f =>
  computed (word (left.g + right.g)) fun g =>
  computed (word (left.h + right.h)) fun h =>
  ⟨a, b, c, d, e, f, g, h⟩

/-- The blocks of sixty-four bytes, one after the other. -/
def blocks : ℕ → List ℕ → State → State
  | 0, _, state => state
  | count + 1, message, state =>
      match addWords state (rounds constants (wordsOf (message.take 64)) state) with
      | ⟨a, b, c, d, e, f, g, h⟩ => blocks count (message.drop 64) ⟨a, b, c, d, e, f, g, h⟩

/-- The number as bytes, the highest first. -/
def bigEndian : ℕ → ℕ → List ℕ
  | 0, _ => []
  | count + 1, value => value / 256 ^ count % 256 :: bigEndian count value

def pad (message : List ℕ) : List ℕ :=
  message ++ 128 :: List.replicate ((119 - message.length % 64) % 64) 0 ++
    bigEndian 8 (8 * message.length)

def State.value (state : State) : ℕ :=
  [state.a, state.b, state.c, state.d, state.e, state.f, state.g, state.h].foldl
    (fun value part => value * 4294967296 + part) 0

/-- `hashlib.sha256`. -/
def sha256 (message : Octets) : Digest :=
  let padded := pad (message.map UInt8.toNat)
  Digest.ofNat (blocks (padded.length / 64) padded initial).value

example : (sha256 [97, 98, 99]).text =
    "ba7816bf8f01cfea414140de5dae2223b00361a396177a9cb410ff61f20015ad" := by
  decide +kernel

end AegisForge.Core.Sha256
