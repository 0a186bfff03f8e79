import Senex.Foundation.Utf8

/-! # SHA-256

The compression function over lists of 32-bit words held as natural numbers.
Everything is structurally recursive, so that digests evaluate in the kernel.
-/

namespace Senex.Sha256

def modulus : Nat := 4294967296

def rotr (k x : Nat) : Nat := (x >>> k) ||| ((x <<< (32 - k)) % modulus)

def ch (x y z : Nat) : Nat := (x &&& y) ^^^ ((x ^^^ 4294967295) &&& z)

def maj (x y z : Nat) : Nat := (x &&& y) ^^^ (x &&& z) ^^^ (y &&& z)

def bigSigma0 (x : Nat) : Nat := rotr 2 x ^^^ rotr 13 x ^^^ rotr 22 x

def bigSigma1 (x : Nat) : Nat := rotr 6 x ^^^ rotr 11 x ^^^ rotr 25 x

def smallSigma0 (x : Nat) : Nat := rotr 7 x ^^^ rotr 18 x ^^^ (x >>> 3)

def smallSigma1 (x : Nat) : Nat := rotr 17 x ^^^ rotr 19 x ^^^ (x >>> 10)

def roundConstants : List Nat :=
  [0x428a2f98, 0x71374491, 0xb5c0fbcf, 0xe9b5dba5, 0x3956c25b, 0x59f111f1, 0x923f82a4, 0xab1c5ed5,
   0xd807aa98, 0x12835b01, 0x243185be, 0x550c7dc3, 0x72be5d74, 0x80deb1fe, 0x9bdc06a7, 0xc19bf174,
   0xe49b69c1, 0xefbe4786, 0x0fc19dc6, 0x240ca1cc, 0x2de92c6f, 0x4a7484aa, 0x5cb0a9dc, 0x76f988da,
   0x983e5152, 0xa831c66d, 0xb00327c8, 0xbf597fc7, 0xc6e00bf3, 0xd5a79147, 0x06ca6351, 0x14292967,
   0x27b70a85, 0x2e1b2138, 0x4d2c6dfc, 0x53380d13, 0x650a7354, 0x766a0abb, 0x81c2c92e, 0x92722c85,
   0xa2bfe8a1, 0xa81a664b, 0xc24b8b70, 0xc76c51a3, 0xd192e819, 0xd6990624, 0xf40e3585, 0x106aa070,
   0x19a4c116, 0x1e376c08, 0x2748774c, 0x34b0bcb5, 0x391c0cb3, 0x4ed8aa4a, 0x5b9cca4f, 0x682e6ff3,
   0x748f82ee, 0x78a5636f, 0x84c87814, 0x8cc70208, 0x90befffa, 0xa4506ceb, 0xbef9a3f7, 0xc67178f2]

/-- The eight chaining words. -/
structure Chain where
  (a b c d e f g h : Nat)
  deriving DecidableEq

def Chain.initial : Chain :=
  ⟨0x6a09e667, 0xbb67ae85, 0x3c6ef372, 0xa54ff53a, 0x510e527f, 0x9b05688c, 0x1f83d9ab, 0x5be0cd19⟩

def Chain.words (s : Chain) : List Nat := [s.a, s.b, s.c, s.d, s.e, s.f, s.g, s.h]

def Chain.round (s : Chain) (keyed : Nat) : Chain :=
  let t₁ := (s.h + bigSigma1 s.e + ch s.e s.f s.g + keyed) % modulus
  let t₂ := (bigSigma0 s.a + maj s.a s.b s.c) % modulus
  ⟨(t₁ + t₂) % modulus, s.a, s.b, s.c, (s.d + t₁) % modulus, s.e, s.f, s.g⟩

/-- The rounds of one block; `window` holds the next sixteen schedule words. -/
def rounds : List Nat → List Nat → Chain → Chain
  | [], _, s => s
  | _ :: _, [], s => s
  | k :: ks, w :: window, s =>
      let next := (smallSigma1 (window.getD 13 0) + window.getD 8 0 +
        smallSigma0 (window.getD 0 0) + w) % modulus
      rounds ks (window ++ [next]) (s.round ((k + w) % modulus))

def compress (s : Chain) (block : List Nat) : Chain :=
  let r := rounds roundConstants block s
  ⟨(s.a + r.a) % modulus, (s.b + r.b) % modulus, (s.c + r.c) % modulus, (s.d + r.d) % modulus,
   (s.e + r.e) % modulus, (s.f + r.f) % modulus, (s.g + r.g) % modulus, (s.h + r.h) % modulus⟩

def bigEndianWords : Bytes → List Nat
  | a :: b :: c :: d :: rest => (a * 16777216 + b * 65536 + c * 256 + d) :: bigEndianWords rest
  | _ => []

def pad (message : Bytes) : Bytes :=
  message ++ 128 :: List.replicate ((119 - message.length % 64) % 64) 0 ++
    (List.range 8).map fun i => 8 * message.length / 256 ^ (7 - i) % 256

def blocks : Nat → List Nat → Chain → Chain
  | 0, _, s => s
  | count + 1, words, s => blocks count (words.drop 16) (compress s (words.take 16))

theorem blocks_add (first count : Nat) (words : List Nat) (s : Chain) :
    blocks (first + count) words s = blocks count (words.drop (16 * first)) (blocks first words s) := by
  induction first generalizing words s with
  | zero => simp [blocks]
  | succ first ih =>
      have next : first + 1 + count = (first + count) + 1 := by omega
      have words_ : 16 + 16 * first = 16 * (first + 1) := by omega
      rw [next, blocks, ih, List.drop_drop, blocks, words_]

def hexDigit (n : Nat) : Nat := if n < 10 then 48 + n else 87 + n

def hexWord (w : Nat) : Text := (List.range 8).map fun i => hexDigit (w / 16 ^ (7 - i) % 16)

/-- `sha256(message).hexdigest()`. -/
def hexdigest (message : Bytes) : Text :=
  let words := bigEndianWords (pad message)
  (blocks (words.length / 16) words Chain.initial).words.flatMap hexWord

def isLowerHex (c : Nat) : Bool :=
  Text.isDigit c || (decide (97 ≤ c) && decide (c ≤ 102))

/-- Sixty-four lower-case hexadecimal characters. -/
def isHex64 (t : Text) : Bool := t.length == 64 && t.all isLowerHex

private theorem isLowerHex_hexDigit {n : Nat} (nibble : n < 16) : isLowerHex (hexDigit n) = true := by
  unfold hexDigit
  split <;> simp [isLowerHex, Text.isDigit] <;> omega

theorem isHex64_hexdigest (message : Bytes) : isHex64 (hexdigest message) = true := by
  simp only [isHex64, Bool.and_eq_true, beq_iff_eq, List.all_eq_true]
  constructor
  · simp [hexdigest, Chain.words, hexWord]
  · intro c member
    simp only [hexdigest, List.mem_flatMap, hexWord, List.mem_map] at member
    obtain ⟨w, -, i, -, rfl⟩ := member
    exact isLowerHex_hexDigit (Nat.mod_lt _ (by omega))

example : hexdigest (txt "abc") =
    txt "ba7816bf8f01cfea414140de5dae2223b00361a396177a9cb410ff61f20015ad" := by
  decide

end Senex.Sha256
