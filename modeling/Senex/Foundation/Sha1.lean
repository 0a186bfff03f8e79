import Senex.Foundation.Sha256

/-! # SHA-1

The compression function over words as `Sha256` holds them; the padding is that of SHA-256.
-/

namespace Senex.Sha1

open Sha256

def rotl (k x : Nat) : Nat := ((x <<< k) % modulus) ||| (x >>> (32 - k))

/-- The five chaining words. -/
structure Chain where
  (a b c d e : Nat)
  deriving DecidableEq

def Chain.initial : Chain := ⟨0x67452301, 0xefcdab89, 0x98badcfe, 0x10325476, 0xc3d2e1f0⟩

def Chain.words (s : Chain) : List Nat := [s.a, s.b, s.c, s.d, s.e]

/-- The function and the constant of a round. -/
def Chain.mix (s : Chain) (t : Nat) : Nat :=
  if t < 20 then ch s.b s.c s.d + 0x5a827999
  else if t < 40 then (s.b ^^^ s.c ^^^ s.d) + 0x6ed9eba1
  else if t < 60 then maj s.b s.c s.d + 0x8f1bbcdc
  else (s.b ^^^ s.c ^^^ s.d) + 0xca62c1d6

def Chain.round (s : Chain) (t w : Nat) : Chain :=
  ⟨(rotl 5 s.a + s.mix t + s.e + w) % modulus, s.a, rotl 30 s.b, s.c, s.d⟩

/-- The rounds of one block; `window` holds the next sixteen schedule words. -/
def rounds : List Nat → List Nat → Chain → Chain
  | [], _, s => s
  | _ :: _, [], s => s
  | t :: ts, w :: window, s =>
      let next := rotl 1 (window.getD 12 0 ^^^ window.getD 7 0 ^^^ window.getD 1 0 ^^^ w)
      rounds ts (window ++ [next]) (s.round t w)

def compress (s : Chain) (block : List Nat) : Chain :=
  let r := rounds (List.range 80) block s
  ⟨(s.a + r.a) % modulus, (s.b + r.b) % modulus, (s.c + r.c) % modulus, (s.d + r.d) % modulus,
   (s.e + r.e) % modulus⟩

def blocks : Nat → List Nat → Chain → Chain
  | 0, _, s => s
  | count + 1, words, s => blocks count (words.drop 16) (compress s (words.take 16))

def bytesOfWord (w : Nat) : Bytes := (List.range 4).map fun i => w / 256 ^ (3 - i) % 256

/-- `sha1(message).digest()` -/
def digest (message : Bytes) : Bytes :=
  let words := bigEndianWords (pad message)
  (blocks (words.length / 16) words Chain.initial).words.flatMap bytesOfWord

/-- Bytes in hexadecimal. -/
def hex (bytes : Bytes) : Text := bytes.flatMap fun b => [hexDigit (b / 16), hexDigit (b % 16)]

theorem length_digest (message : Bytes) : (digest message).length = 20 := by
  simp [digest, Chain.words, bytesOfWord]

theorem digest_lt (message : Bytes) : ∀ b ∈ digest message, b < 256 := by
  intro b member
  simp only [digest, List.mem_flatMap, bytesOfWord, List.mem_map] at member
  obtain ⟨w, -, i, -, rfl⟩ := member
  exact Nat.mod_lt _ (by decide)

example : hex (digest (txt "abc")) = txt "a9993e364706816aba3e25717850c26c9cd0d89d" := by decide +kernel

end Senex.Sha1
