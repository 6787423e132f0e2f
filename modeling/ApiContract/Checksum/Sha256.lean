/-!
# SHA-256

The digest of a sequence of bytes: the padded message is taken in blocks of sixteen words, and each
block changes a state of eight words in sixty-four rounds.

Words are `UInt32`, whose sums wrap as the standard has it. The schedule of a block is computed from
a window of the last sixteen words (`nextWord`), so no array is indexed. The length of a message
enters the padding in bits as a number of sixty-four bits, and every step that goes over a list of
unknown length is bounded by that length, so all functions here are structural and can be evaluated.
-/

namespace ApiContract.Sha256

/-- The state between two blocks, and the working variables within one. -/
structure State where
  a : UInt32
  b : UInt32
  c : UInt32
  d : UInt32
  e : UInt32
  f : UInt32
  g : UInt32
  h : UInt32
  deriving DecidableEq

/-- The state before the first block. -/
def State.initial : State :=
  { a := 0x6a09e667, b := 0xbb67ae85, c := 0x3c6ef372, d := 0xa54ff53a
    e := 0x510e527f, f := 0x9b05688c, g := 0x1f83d9ab, h := 0x5be0cd19 }

/-- The words of a state, sums by components. -/
def State.add (s t : State) : State :=
  { a := s.a + t.a, b := s.b + t.b, c := s.c + t.c, d := s.d + t.d
    e := s.e + t.e, f := s.f + t.f, g := s.g + t.g, h := s.h + t.h }

/-- The words of a state in order. -/
def State.words (s : State) : List UInt32 := [s.a, s.b, s.c, s.d, s.e, s.f, s.g, s.h]

/-- The constants of the rounds. -/
def roundConstants : List UInt32 := [
  0x428a2f98, 0x71374491, 0xb5c0fbcf, 0xe9b5dba5, 0x3956c25b, 0x59f111f1, 0x923f82a4, 0xab1c5ed5,
  0xd807aa98, 0x12835b01, 0x243185be, 0x550c7dc3, 0x72be5d74, 0x80deb1fe, 0x9bdc06a7, 0xc19bf174,
  0xe49b69c1, 0xefbe4786, 0x0fc19dc6, 0x240ca1cc, 0x2de92c6f, 0x4a7484aa, 0x5cb0a9dc, 0x76f988da,
  0x983e5152, 0xa831c66d, 0xb00327c8, 0xbf597fc7, 0xc6e00bf3, 0xd5a79147, 0x06ca6351, 0x14292967,
  0x27b70a85, 0x2e1b2138, 0x4d2c6dfc, 0x53380d13, 0x650a7354, 0x766a0abb, 0x81c2c92e, 0x92722c85,
  0xa2bfe8a1, 0xa81a664b, 0xc24b8b70, 0xc76c51a3, 0xd192e819, 0xd6990624, 0xf40e3585, 0x106aa070,
  0x19a4c116, 0x1e376c08, 0x2748774c, 0x34b0bcb5, 0x391c0cb3, 0x4ed8aa4a, 0x5b9cca4f, 0x682e6ff3,
  0x748f82ee, 0x78a5636f, 0x84c87814, 0x8cc70208, 0x90befffa, 0xa4506ceb, 0xbef9a3f7, 0xc67178f2]

/-- A word rotated to the right. -/
def rotate (w : UInt32) (n : UInt32) : UInt32 := (w >>> n) ||| (w <<< (32 - n))

/-- One round. -/
def round (s : State) (constantAndWord : UInt32 × UInt32) : State :=
  let sum₁ := rotate s.e 6 ^^^ rotate s.e 11 ^^^ rotate s.e 25
  let choice := (s.e &&& s.f) ^^^ (~~~s.e &&& s.g)
  let first := s.h + sum₁ + choice + constantAndWord.1 + constantAndWord.2
  let sum₀ := rotate s.a 2 ^^^ rotate s.a 13 ^^^ rotate s.a 22
  let majority := (s.a &&& s.b) ^^^ (s.a &&& s.c) ^^^ (s.b &&& s.c)
  { a := first + (sum₀ + majority), b := s.a, c := s.b, d := s.c
    e := s.d + first, f := s.e, g := s.f, h := s.g }

/-- The word that follows sixteen words of a schedule, the oldest of them first. -/
def nextWord (window : List UInt32) : UInt32 :=
  let at' (i : Nat) : UInt32 := window.getD i 0
  let sigma₀ := rotate (at' 1) 7 ^^^ rotate (at' 1) 18 ^^^ (at' 1 >>> 3)
  let sigma₁ := rotate (at' 14) 17 ^^^ rotate (at' 14) 19 ^^^ (at' 14 >>> 10)
  at' 0 + sigma₀ + at' 9 + sigma₁

/-- A number of words of the schedule that begins with sixteen given ones. -/
def schedule : Nat → List UInt32 → List UInt32
  | 0, _ => []
  | n + 1, window =>
    window.headD 0 :: schedule n (window.drop 1 ++ [nextWord window])

/-- The state after a block of sixteen words. -/
def block (s : State) (words : List UInt32) : State :=
  s.add ((roundConstants.zip (schedule 64 words)).foldl round s)

/-- The big-endian word of four bytes. -/
def wordOf (bytes : List UInt8) : UInt32 :=
  bytes.foldl (fun word byte ↦ (word <<< 8) ||| byte.toUInt32) 0

/-- The parts of a given size of a list; the first argument bounds their number. -/
def parts {α : Type} (size : Nat) : Nat → List α → List (List α)
  | 0, _ => []
  | _ + 1, [] => []
  | n + 1, items => items.take size :: parts size n (items.drop size)

/-- The big-endian bytes of a number, as many as asked for. -/
def bytesOf (count n : Nat) : List UInt8 :=
  (List.range count).reverse.map fun i ↦ UInt8.ofNat (n / Nat.pow 256 i)

/-- A message with what fills it up to whole blocks: a bit, zeros, and its length in bits. -/
def padded (message : List UInt8) : List UInt8 :=
  let zeros := (119 - message.length % 64) % 64
  message ++ 0x80 :: List.replicate zeros 0 ++ bytesOf 8 (8 * message.length)

/-- The digest of a message. -/
def digest (message : List UInt8) : State :=
  let bytes := padded message
  ((parts 64 (bytes.length / 64) bytes).map fun part ↦ (parts 4 16 part).map wordOf).foldl block
    State.initial

end ApiContract.Sha256
