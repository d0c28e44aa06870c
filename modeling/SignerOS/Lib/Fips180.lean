import SignerOS.Lib.Der

/-!
# SHA-256

The hash of FIPS 180-4 with words of 32 bits, and what is made of it with a key.

* `length_hash`, a hash of 32 bytes;
* `padded_blocks`, the message is padded to whole blocks.
-/

namespace Fips180

/-- The constants of the 64 rounds. -/
def constants : List UInt32 := [
  0x428a2f98, 0x71374491, 0xb5c0fbcf, 0xe9b5dba5, 0x3956c25b, 0x59f111f1, 0x923f82a4, 0xab1c5ed5,
  0xd807aa98, 0x12835b01, 0x243185be, 0x550c7dc3, 0x72be5d74, 0x80deb1fe, 0x9bdc06a7, 0xc19bf174,
  0xe49b69c1, 0xefbe4786, 0x0fc19dc6, 0x240ca1cc, 0x2de92c6f, 0x4a7484aa, 0x5cb0a9dc, 0x76f988da,
  0x983e5152, 0xa831c66d, 0xb00327c8, 0xbf597fc7, 0xc6e00bf3, 0xd5a79147, 0x06ca6351, 0x14292967,
  0x27b70a85, 0x2e1b2138, 0x4d2c6dfc, 0x53380d13, 0x650a7354, 0x766a0abb, 0x81c2c92e, 0x92722c85,
  0xa2bfe8a1, 0xa81a664b, 0xc24b8b70, 0xc76c51a3, 0xd192e819, 0xd6990624, 0xf40e3585, 0x106aa070,
  0x19a4c116, 0x1e376c08, 0x2748774c, 0x34b0bcb5, 0x391c0cb3, 0x4ed8aa4a, 0x5b9cca4f, 0x682e6ff3,
  0x748f82ee, 0x78a5636f, 0x84c87814, 0x8cc70208, 0x90befffa, 0xa4506ceb, 0xbef9a3f7, 0xc67178f2]

def rotr (x : UInt32) (n : ℕ) : UInt32 := x >>> UInt32.ofNat n ||| x <<< UInt32.ofNat (32 - n)

/-- Eight words: the hash, or what is worked on in a block. -/
structure Words where
  a : UInt32
  b : UInt32
  c : UInt32
  d : UInt32
  e : UInt32
  f : UInt32
  g : UInt32
  h : UInt32
deriving DecidableEq, Repr

def initial : Words := ⟨
  0x6a09e667, 0xbb67ae85, 0x3c6ef372, 0xa54ff53a,
  0x510e527f, 0x9b05688c, 0x1f83d9ab, 0x5be0cd19⟩

/-- The schedule goes on for so many words; the last one stands first. -/
def schedule : ℕ → List UInt32 → List UInt32
  | 0, w => w
  | turns + 1, w =>
    let s0 := rotr (w.getD 14 0) 7 ^^^ rotr (w.getD 14 0) 18 ^^^ w.getD 14 0 >>> 3
    let s1 := rotr (w.getD 1 0) 17 ^^^ rotr (w.getD 1 0) 19 ^^^ w.getD 1 0 >>> 10
    schedule turns ((w.getD 15 0 + s0 + w.getD 6 0 + s1) :: w)

/-- One round. -/
def round (s : Words) (kw : UInt32 × UInt32) : Words :=
  let s1 := rotr s.e 6 ^^^ rotr s.e 11 ^^^ rotr s.e 25
  let ch := (s.e &&& s.f) ^^^ (~~~s.e &&& s.g)
  let t1 := s.h + s1 + ch + kw.1 + kw.2
  let s0 := rotr s.a 2 ^^^ rotr s.a 13 ^^^ rotr s.a 22
  let maj := (s.a &&& s.b) ^^^ (s.a &&& s.c) ^^^ (s.b &&& s.c)
  ⟨t1 + (s0 + maj), s.a, s.b, s.c, s.d + t1, s.e, s.f, s.g⟩

/-- What is left of a block. -/
def block (s : Words) (x : List UInt32) : Words :=
  let t := (constants.zip (schedule 48 x.reverse).reverse).foldl round s
  ⟨s.a + t.a, s.b + t.b, s.c + t.c, s.d + t.d, s.e + t.e, s.f + t.f, s.g + t.g, s.h + t.h⟩

/-- The sixteen words of a block. -/
def words (chunk : List UInt8) : List UInt32 :=
  (List.range 16).map fun i => UInt32.ofNat (Der.natOf ((chunk.drop (4 * i)).take 4))

def padded (data : List UInt8) : List UInt8 :=
  data ++ 0x80 :: (List.replicate ((119 - data.length % 64) % 64) 0x00 ++
    Der.bytesOf 8 (data.length * 8))

theorem padded_blocks (data : List UInt8) : (padded data).length % 64 = 0 := by
  rw [padded, List.length_append, List.length_cons, List.length_append, List.length_replicate,
    Der.length_bytesOf]
  omega

def hash (data : List UInt8) : List UInt8 :=
  let msg := padded data
  let s := (List.range (msg.length / 64)).foldl
    (fun s i => block s (words ((msg.drop (64 * i)).take 64))) initial
  [s.a, s.b, s.c, s.d, s.e, s.f, s.g, s.h].flatMap fun w => Der.bytesOf 4 w.toNat

theorem length_hash (data : List UInt8) : (hash data).length = 32 := by
  simp [hash, Der.length_bytesOf]

/-- The published value for "abc". -/
example : hash [0x61, 0x62, 0x63] = [
    0xba, 0x78, 0x16, 0xbf, 0x8f, 0x01, 0xcf, 0xea, 0x41, 0x41, 0x40, 0xde, 0x5d, 0xae, 0x22, 0x23,
    0xb0, 0x03, 0x61, 0xa3, 0x96, 0x17, 0x7a, 0x9c, 0xb4, 0x10, 0xff, 0x61, 0xf2, 0x00, 0x15, 0xad
    ] := by
  decide +kernel

/-- A hash with a key. -/
def hmac (key msg : List UInt8) : List UInt8 :=
  let key := if key.length > 64 then hash key else key
  let key := key ++ List.replicate (64 - key.length) 0x00
  hash (key.map (· ^^^ 0x5c) ++ hash (key.map (· ^^^ 0x36) ++ msg))

end Fips180
