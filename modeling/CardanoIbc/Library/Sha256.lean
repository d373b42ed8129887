-- SHA-256 over lists of bytes, so that a digest can be computed where one is needed.
import Mathlib.Tactic.Ring

namespace sha256

def roundConstants : List Nat :=
  [0x428a2f98, 0x71374491, 0xb5c0fbcf, 0xe9b5dba5, 0x3956c25b, 0x59f111f1, 0x923f82a4, 0xab1c5ed5,
   0xd807aa98, 0x12835b01, 0x243185be, 0x550c7dc3, 0x72be5d74, 0x80deb1fe, 0x9bdc06a7, 0xc19bf174,
   0xe49b69c1, 0xefbe4786, 0x0fc19dc6, 0x240ca1cc, 0x2de92c6f, 0x4a7484aa, 0x5cb0a9dc, 0x76f988da,
   0x983e5152, 0xa831c66d, 0xb00327c8, 0xbf597fc7, 0xc6e00bf3, 0xd5a79147, 0x06ca6351, 0x14292967,
   0x27b70a85, 0x2e1b2138, 0x4d2c6dfc, 0x53380d13, 0x650a7354, 0x766a0abb, 0x81c2c92e, 0x92722c85,
   0xa2bfe8a1, 0xa81a664b, 0xc24b8b70, 0xc76c51a3, 0xd192e819, 0xd6990624, 0xf40e3585, 0x106aa070,
   0x19a4c116, 0x1e376c08, 0x2748774c, 0x34b0bcb5, 0x391c0cb3, 0x4ed8aa4a, 0x5b9cca4f, 0x682e6ff3,
   0x748f82ee, 0x78a5636f, 0x84c87814, 0x8cc70208, 0x90befffa, 0xa4506ceb, 0xbef9a3f7, 0xc67178f2]

/-- The eight words of the running hash. -/
structure Words where
  a : Nat
  b : Nat
  c : Nat
  d : Nat
  e : Nat
  f : Nat
  g : Nat
  h : Nat

def initial : Words :=
  ⟨0x6a09e667, 0xbb67ae85, 0x3c6ef372, 0xa54ff53a, 0x510e527f, 0x9b05688c, 0x1f83d9ab, 0x5be0cd19⟩

/-! The operations on words are named in full: the digests of the examples are computed by the
kernel, which takes a step for each layer around them. -/

def word32 (x : Nat) : Nat := Nat.mod x 4294967296

def add (x y : Nat) : Nat := word32 (Nat.add x y)

/-- A word written twice, so that a shift to the right is a rotation of it. -/
def twice (x : Nat) : Nat := Nat.mul x 4294967297

def bigSigma (i j k x : Nat) : Nat :=
  word32 (Nat.xor (Nat.shiftRight (twice x) i)
    (Nat.xor (Nat.shiftRight (twice x) j) (Nat.shiftRight (twice x) k)))

def smallSigma (i j k x : Nat) : Nat :=
  Nat.xor (word32 (Nat.xor (Nat.shiftRight (twice x) i) (Nat.shiftRight (twice x) j)))
    (Nat.shiftRight x k)

def choose (e f g : Nat) : Nat := Nat.xor g (Nat.land e (Nat.xor f g))

def majority (a b c : Nat) : Nat := Nat.lor (Nat.land a b) (Nat.land c (Nat.lor a b))

def temp1 (s : Words) (k w : Nat) : Nat :=
  Nat.add s.h (Nat.add (bigSigma 6 11 25 s.e) (Nat.add (choose s.e s.f s.g) (Nat.add k w)))

def temp2 (s : Words) : Nat := Nat.add (bigSigma 2 13 22 s.a) (majority s.a s.b s.c)

/-- The next sixteen words of the schedule are one number, the first of them its highest. -/
def pick (i schedule : Nat) : Nat := word32 (Nat.shiftRight schedule (Nat.sub 480 (Nat.mul 32 i)))

def slide (schedule : Nat) : Nat :=
  Nat.add (Nat.mod (Nat.shiftLeft schedule 32) (2 ^ 512))
    (word32 (Nat.add (Nat.add (pick 0 schedule) (smallSigma 7 18 3 (pick 1 schedule)))
      (Nat.add (pick 9 schedule) (smallSigma 17 19 10 (pick 14 schedule)))))

def turn (t1 t2 : Nat) : Words → Words
  | ⟨a, b, c, d, e, f, g, _⟩ => ⟨add t1 t2, a, b, c, add d t1, e, f, g⟩

/-- The rounds of one block. -/
def rounds : List Nat → Nat → Words → Words
  | [], _, s => s
  | k :: ks, schedule, s =>
    rounds ks (slide schedule) (turn (temp1 s k (pick 0 schedule)) (temp2 s) s)

def load (block : List UInt8) : Nat :=
  block.foldl (fun acc b => Nat.add (Nat.mul acc 256) b.toNat) 0

def compress (s : Words) (block : List UInt8) : Words :=
  let t := rounds roundConstants (load block) s
  ⟨add s.a t.a, add s.b t.b, add s.c t.c, add s.d t.d, add s.e t.e, add s.f t.f, add s.g t.g,
    add s.h t.h⟩

def blocks : Nat → List UInt8 → Words → Words
  | 0, _, s => s
  | n + 1, bs, s => blocks n (bs.drop 64) (compress s (bs.take 64))

def word (n : Nat) : List UInt8 :=
  [(n / 16777216 % 256).toUInt8, (n / 65536 % 256).toUInt8, (n / 256 % 256).toUInt8,
    (n % 256).toUInt8]

/-- The message, the end mark, zeros up to a whole block and the length in bits. -/
def pad (m : List UInt8) : List UInt8 :=
  m ++ 0x80 :: List.replicate ((119 - m.length % 64) % 64) 0 ++
    word (8 * m.length / 4294967296) ++ word (8 * m.length)

def digest (m : List UInt8) : List UInt8 :=
  let s := blocks ((m.length + 72) / 64) (pad m) initial
  word s.a ++ word s.b ++ word s.c ++ word s.d ++ word s.e ++ word s.f ++ word s.g ++ word s.h

theorem length_digest (m : List UInt8) : (digest m).length = 32 := by
  simp [digest, word]

theorem digest_nil : digest [] =
    [0xe3, 0xb0, 0xc4, 0x42, 0x98, 0xfc, 0x1c, 0x14, 0x9a, 0xfb, 0xf4, 0xc8, 0x99, 0x6f, 0xb9, 0x24,
     0x27, 0xae, 0x41, 0xe4, 0x64, 0x9b, 0x93, 0x4c, 0xa4, 0x95, 0x99, 0x1b, 0x78, 0x52, 0xb8, 0x55] := by
  decide +kernel

end sha256
