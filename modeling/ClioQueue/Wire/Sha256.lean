/-
# SHA-256

`hashlib.sha256(data).hexdigest()` as a list of characters, computed on words that are natural
numbers below `2 ^ 32`.  The eight words of the state are the fields of a structure, so that a
digest has its 64 digits (`length_hexdigest`, `isHexDigit_of_mem_hexdigest`) whatever the rounds do.
-/

import Mathlib.Algebra.Group.Nat.Defs
import Mathlib.Data.List.Basic
import Mathlib.Tactic.Common

namespace Wire.Sha256

/-- A word turned to the right. -/
def rotateRight (x n : Nat) : Nat := (x >>> n ||| x <<< (32 - n)) % 2 ^ 32

/-- The eight words that the rounds work on. -/
structure Words where
  a : Nat
  b : Nat
  c : Nat
  d : Nat
  e : Nat
  f : Nat
  g : Nat
  h : Nat

/-- The first 32 bits of the fractional parts of the square roots of the first 8 primes. -/
def initial : Words where
  a := 0x6a09e667
  b := 0xbb67ae85
  c := 0x3c6ef372
  d := 0xa54ff53a
  e := 0x510e527f
  f := 0x9b05688c
  g := 0x1f83d9ab
  h := 0x5be0cd19

/-- The first 32 bits of the fractional parts of the cube roots of the first 64 primes. -/
def roundConstants : List Nat :=
  [0x428a2f98, 0x71374491, 0xb5c0fbcf, 0xe9b5dba5, 0x3956c25b, 0x59f111f1, 0x923f82a4, 0xab1c5ed5,
   0xd807aa98, 0x12835b01, 0x243185be, 0x550c7dc3, 0x72be5d74, 0x80deb1fe, 0x9bdc06a7, 0xc19bf174,
   0xe49b69c1, 0xefbe4786, 0x0fc19dc6, 0x240ca1cc, 0x2de92c6f, 0x4a7484aa, 0x5cb0a9dc, 0x76f988da,
   0x983e5152, 0xa831c66d, 0xb00327c8, 0xbf597fc7, 0xc6e00bf3, 0xd5a79147, 0x06ca6351, 0x14292967,
   0x27b70a85, 0x2e1b2138, 0x4d2c6dfc, 0x53380d13, 0x650a7354, 0x766a0abb, 0x81c2c92e, 0x92722c85,
   0xa2bfe8a1, 0xa81a664b, 0xc24b8b70, 0xc76c51a3, 0xd192e819, 0xd6990624, 0xf40e3585, 0x106aa070,
   0x19a4c116, 0x1e376c08, 0x2748774c, 0x34b0bcb5, 0x391c0cb3, 0x4ed8aa4a, 0x5b9cca4f, 0x682e6ff3,
   0x748f82ee, 0x78a5636f, 0x84c87814, 0x8cc70208, 0x90befffa, 0xa4506ceb, 0xbef9a3f7, 0xc67178f2]

/-- One round, on a window of the next 16 words of the message schedule. -/
def round (s : Words × List Nat) (k : Nat) : Words × List Nat :=
  let ⟨⟨a, b, c, d, e, f, g, h⟩, window⟩ := s
  let w := window.headD 0
  let t := h + (rotateRight e 6 ^^^ rotateRight e 11 ^^^ rotateRight e 25) +
    (e &&& f ^^^ (2 ^ 32 - 1 - e) &&& g) + k + w
  let u := (rotateRight a 2 ^^^ rotateRight a 13 ^^^ rotateRight a 22) +
    (a &&& b ^^^ a &&& c ^^^ b &&& c)
  let x := window.getD 14 0
  let y := window.getD 1 0
  (⟨(t + u) % 2 ^ 32, a, b, c, (d + t) % 2 ^ 32, e, f, g⟩,
    window.tail ++ [((rotateRight x 17 ^^^ rotateRight x 19 ^^^ x >>> 10) + window.getD 9 0 +
      (rotateRight y 7 ^^^ rotateRight y 18 ^^^ y >>> 3) + w) % 2 ^ 32])

/-- The 64 rounds of a block, and the sum with the words before them. -/
def compress (s : Words) (block : List Nat) : Words :=
  let t := (roundConstants.foldl round (s, block)).1
  ⟨(s.a + t.a) % 2 ^ 32, (s.b + t.b) % 2 ^ 32, (s.c + t.c) % 2 ^ 32, (s.d + t.d) % 2 ^ 32,
    (s.e + t.e) % 2 ^ 32, (s.f + t.f) % 2 ^ 32, (s.g + t.g) % 2 ^ 32, (s.h + t.h) % 2 ^ 32⟩

/-- The first `n` words of four bytes. -/
def wordsOf : Nat → List Nat → List Nat
  | 0, _ => []
  | n + 1, bytes => (bytes.take 4).foldl (fun word byte => word * 256 + byte) 0 ::
      wordsOf n (bytes.drop 4)

/-- The message, a one bit, zeros and the length in bits. -/
def padded (bytes : List Nat) : List Nat :=
  bytes ++ 128 :: List.replicate ((119 - bytes.length % 64) % 64) 0 ++
    (List.range 8).map fun i => 8 * bytes.length / 256 ^ (7 - i) % 256

/-- The first `n` blocks of 64 bytes, one after the other. -/
def compressAll : Nat → Words → List Nat → Words
  | 0, s, _ => s
  | n + 1, s, bytes => compressAll n (compress s (wordsOf 16 bytes)) (bytes.drop 64)

/-- A hexadecimal digit. -/
def hexDigit (n : Nat) : Char := Char.ofNat (if n < 10 then 48 + n else 87 + n)

/-- The eight digits of a word. -/
def hexOf (word : Nat) : List Char :=
  (List.range 8).map fun i => hexDigit (word / 16 ^ (7 - i) % 16)

/-- `hashlib.sha256(data).hexdigest()`. -/
def hexdigest (data : List UInt8) : List Char :=
  let bytes := padded (data.map UInt8.toNat)
  let s := compressAll (bytes.length / 64) initial bytes
  [s.a, s.b, s.c, s.d, s.e, s.f, s.g, s.h].flatMap hexOf

/-- `c in "0123456789abcdef"`. -/
def isHexDigit (c : Char) : Bool := ('0' ≤ c && c ≤ '9') || ('a' ≤ c && c ≤ 'f')

theorem isHexDigit_hexDigit {n : Nat} (h : n < 16) : isHexDigit (hexDigit n) = true := by
  have hall : ∀ n < 16, isHexDigit (hexDigit n) = true := by decide
  exact hall n h

/-- A digest has 64 digits. -/
theorem length_hexdigest (data : List UInt8) : (hexdigest data).length = 64 := by
  simp [hexdigest, hexOf, List.flatMap_cons]

/-- The digits of a digest are `0` to `9` and `a` to `f`. -/
theorem isHexDigit_of_mem_hexdigest {data : List UInt8} {c : Char} (h : c ∈ hexdigest data) :
    isHexDigit c = true := by
  obtain ⟨word, -, hc⟩ := List.mem_flatMap.1 h
  obtain ⟨i, -, rfl⟩ := List.mem_map.1 hc
  exact isHexDigit_hexDigit (Nat.mod_lt _ (by decide))

example : hexdigest [97, 98, 99] =
    "ba7816bf8f01cfea414140de5dae2223b00361a396177a9cb410ff61f20015ad".toList := by
  decide +kernel

end Wire.Sha256
