import BoostGateway.Bytes

/-!
# SHA-256

The digest over natural numbers below `2 ^ 32`, written so that it can be evaluated on short
inputs. `length_digest` is all that proofs use.
-/

namespace BoostGateway.Sha256

def word (n : Nat) : Nat := n % 4294967296

def twice (x : Nat) : Nat := x * 4294967297

def rotations (x i j k : Nat) : Nat :=
  word ((twice x >>> i) ^^^ (twice x >>> j) ^^^ (twice x >>> k))

def schedule (x i j k : Nat) : Nat := word ((twice x >>> i) ^^^ (twice x >>> j)) ^^^ (x >>> k)

/-- Fractional parts of the cube roots of the first 64 primes. -/
def constants : List Nat := [
  0x428a2f98, 0x71374491, 0xb5c0fbcf, 0xe9b5dba5, 0x3956c25b, 0x59f111f1, 0x923f82a4, 0xab1c5ed5,
  0xd807aa98, 0x12835b01, 0x243185be, 0x550c7dc3, 0x72be5d74, 0x80deb1fe, 0x9bdc06a7, 0xc19bf174,
  0xe49b69c1, 0xefbe4786, 0x0fc19dc6, 0x240ca1cc, 0x2de92c6f, 0x4a7484aa, 0x5cb0a9dc, 0x76f988da,
  0x983e5152, 0xa831c66d, 0xb00327c8, 0xbf597fc7, 0xc6e00bf3, 0xd5a79147, 0x06ca6351, 0x14292967,
  0x27b70a85, 0x2e1b2138, 0x4d2c6dfc, 0x53380d13, 0x650a7354, 0x766a0abb, 0x81c2c92e, 0x92722c85,
  0xa2bfe8a1, 0xa81a664b, 0xc24b8b70, 0xc76c51a3, 0xd192e819, 0xd6990624, 0xf40e3585, 0x106aa070,
  0x19a4c116, 0x1e376c08, 0x2748774c, 0x34b0bcb5, 0x391c0cb3, 0x4ed8aa4a, 0x5b9cca4f, 0x682e6ff3,
  0x748f82ee, 0x78a5636f, 0x84c87814, 0x8cc70208, 0x90befffa, 0xa4506ceb, 0xbef9a3f7, 0xc67178f2]

structure Registers where
  a : Nat
  b : Nat
  c : Nat
  d : Nat
  e : Nat
  f : Nat
  g : Nat
  h : Nat

/-- Fractional parts of the square roots of the first eight primes. -/
def initial : Registers where
  a := 0x6a09e667
  b := 0xbb67ae85
  c := 0x3c6ef372
  d := 0xa54ff53a
  e := 0x510e527f
  f := 0x9b05688c
  g := 0x1f83d9ab
  h := 0x5be0cd19

/-- One round, with its constant and word. -/
def round (r : Registers) (input : Nat) : Registers :=
  let choice := r.g ^^^ (r.e &&& (r.f ^^^ r.g))
  let majority := (r.a &&& r.b) ||| (r.c &&& (r.a ||| r.b))
  let t₁ := r.h + rotations r.e 6 11 25 + choice + input
  { a := word (t₁ + rotations r.a 2 13 22 + majority), b := r.a, c := r.b, d := r.c
    e := word (r.d + t₁), f := r.e, g := r.f, h := r.g }

def nextWord (w0 w1 w9 w14 : Nat) : Nat :=
  word (schedule w14 17 19 10 + w9 + schedule w1 7 18 3 + w0)

/-- The rounds of a block, with the next sixteen words. -/
def rounds : List Nat → List Nat → Registers → Registers
  | k :: ks, w0 :: w1 :: w2 :: w3 :: w4 :: w5 :: w6 :: w7 :: w8 :: w9 :: w10 :: w11 :: w12 :: w13 ::
      w14 :: w15 :: _, r =>
      rounds ks [w1, w2, w3, w4, w5, w6, w7, w8, w9, w10, w11, w12, w13, w14, w15,
        nextWord w0 w1 w9 w14] (round r (k + w0))
  | _, _, r => r

def compress (r : Registers) (block : List Nat) : Registers :=
  let s := rounds constants block r
  { a := word (r.a + s.a), b := word (r.b + s.b), c := word (r.c + s.c), d := word (r.d + s.d)
    e := word (r.e + s.e), f := word (r.f + s.f), g := word (r.g + s.g), h := word (r.h + s.h) }

def words : Bytes → List Nat
  | a :: b :: c :: d :: rest =>
    (((a.toNat * 256 + b.toNat) * 256 + c.toNat) * 256 + d.toNat) :: words rest
  | _ => []

def bigEndian : Nat → Nat → Bytes
  | 0, _ => []
  | width + 1, n => (n >>> (8 * width)).toUInt8 :: bigEndian width n

def padded (message : Bytes) : Bytes :=
  message ++ [0x80] ++ List.replicate ((119 - message.length % 64) % 64) 0 ++
    bigEndian 8 (8 * message.length)

def absorb : Nat → List Nat → Registers → Registers
  | 0, _, r => r
  | n + 1, message, r => absorb n (message.drop 16) (compress r (message.take 16))

def digest (message : Bytes) : Bytes :=
  let message := words (padded message)
  let r := absorb (message.length / 16) message initial
  [r.a, r.b, r.c, r.d, r.e, r.f, r.g, r.h].flatMap (bigEndian 4)

theorem length_bigEndian (width n : Nat) : (bigEndian width n).length = width := by
  induction width with
  | zero => rfl
  | succ width ih => rw [bigEndian, List.length_cons, ih]

theorem length_digest (msg : Bytes) : (digest msg).length = 32 := by simp [digest, length_bigEndian]

example : (digest (ascii "abc")).flatMap hexByte =
    ascii "ba7816bf8f01cfea414140de5dae2223b00361a396177a9cb410ff61f20015ad" := by decide +kernel

end BoostGateway.Sha256
