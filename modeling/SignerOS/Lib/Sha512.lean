import SignerOS.Lib.Der

/-!
# SHA-512

The hash of FIPS 180-4 with words of 64 bits, which are numbers here, and what is made of it with a
key.

* `length_hash` and `length_hmac`, hashes of 64 bytes.
-/

namespace Sha512

/-- The constants of the 80 rounds. -/
def constants : List ℕ := [
  0x428a2f98d728ae22, 0x7137449123ef65cd, 0xb5c0fbcfec4d3b2f, 0xe9b5dba58189dbbc,
  0x3956c25bf348b538, 0x59f111f1b605d019, 0x923f82a4af194f9b, 0xab1c5ed5da6d8118,
  0xd807aa98a3030242, 0x12835b0145706fbe, 0x243185be4ee4b28c, 0x550c7dc3d5ffb4e2,
  0x72be5d74f27b896f, 0x80deb1fe3b1696b1, 0x9bdc06a725c71235, 0xc19bf174cf692694,
  0xe49b69c19ef14ad2, 0xefbe4786384f25e3, 0x0fc19dc68b8cd5b5, 0x240ca1cc77ac9c65,
  0x2de92c6f592b0275, 0x4a7484aa6ea6e483, 0x5cb0a9dcbd41fbd4, 0x76f988da831153b5,
  0x983e5152ee66dfab, 0xa831c66d2db43210, 0xb00327c898fb213f, 0xbf597fc7beef0ee4,
  0xc6e00bf33da88fc2, 0xd5a79147930aa725, 0x06ca6351e003826f, 0x142929670a0e6e70,
  0x27b70a8546d22ffc, 0x2e1b21385c26c926, 0x4d2c6dfc5ac42aed, 0x53380d139d95b3df,
  0x650a73548baf63de, 0x766a0abb3c77b2a8, 0x81c2c92e47edaee6, 0x92722c851482353b,
  0xa2bfe8a14cf10364, 0xa81a664bbc423001, 0xc24b8b70d0f89791, 0xc76c51a30654be30,
  0xd192e819d6ef5218, 0xd69906245565a910, 0xf40e35855771202a, 0x106aa07032bbd1b8,
  0x19a4c116b8d2d0c8, 0x1e376c085141ab53, 0x2748774cdf8eeb99, 0x34b0bcb5e19b48a8,
  0x391c0cb3c5c95a63, 0x4ed8aa4ae3418acb, 0x5b9cca4f7763e373, 0x682e6ff3d6b2b8a3,
  0x748f82ee5defb2fc, 0x78a5636f43172f60, 0x84c87814a1f0ab72, 0x8cc702081a6439ec,
  0x90befffa23631e28, 0xa4506cebde82bde9, 0xbef9a3f7b2c67915, 0xc67178f2e372532b,
  0xca273eceea26619c, 0xd186b8c721c0c207, 0xeada7dd6cde0eb1e, 0xf57d4f7fee6ed178,
  0x06f067aa72176fba, 0x0a637dc5a2c898a6, 0x113f9804bef90dae, 0x1b710b35131c471b,
  0x28db77f523047d84, 0x32caab7b40c72493, 0x3c9ebe0a15c9bebc, 0x431d67c49c100d4c,
  0x4cc5d4becb3e42b6, 0x597f299cfc657e2a, 0x5fcb6fab3ad6faec, 0x6c44198c4a475817]

/-- A word twice, of which the rotations of the word are parts. -/
def twice (x : ℕ) : ℕ := x * (2 ^ 64 + 1)

def add (x y : ℕ) : ℕ := (x + y) % 2 ^ 64

/-- Eight words: the hash, or what is worked on in a block. -/
structure Words where
  a : ℕ
  b : ℕ
  c : ℕ
  d : ℕ
  e : ℕ
  f : ℕ
  g : ℕ
  h : ℕ
deriving DecidableEq, Repr

def initial : Words := ⟨
  0x6a09e667f3bcc908, 0xbb67ae8584caa73b, 0x3c6ef372fe94f82b, 0xa54ff53a5f1d36f1,
  0x510e527fade682d1, 0x9b05688c2b3e6c1f, 0x1f83d9abfb41bd6b, 0x5be0cd19137e2179⟩

def ch (x y z : ℕ) : ℕ := (x &&& y) ^^^ ((2 ^ 64 - 1 - x) &&& z)

def maj (x y z : ℕ) : ℕ := (x &&& y) ^^^ (x &&& z) ^^^ (y &&& z)

def smallSigma0 (x : ℕ) : ℕ :=
  (twice x >>> 1 ^^^ twice x >>> 8) % 2 ^ 64 ^^^ x >>> 7

def smallSigma1 (x : ℕ) : ℕ :=
  (twice x >>> 19 ^^^ twice x >>> 61) % 2 ^ 64 ^^^ x >>> 6

def sigma0 (x : ℕ) : ℕ := (twice x >>> 28 ^^^ twice x >>> 34 ^^^ twice x >>> 39) % 2 ^ 64

def sigma1 (x : ℕ) : ℕ := (twice x >>> 14 ^^^ twice x >>> 18 ^^^ twice x >>> 41) % 2 ^ 64

/-- The schedule goes on for so many words; the last one stands first. -/
def schedule : ℕ → List ℕ → List ℕ
  | 0, w => w
  | turns + 1, w =>
    schedule turns (add (w.getD 15 0 + smallSigma0 (w.getD 14 0))
      (w.getD 6 0 + smallSigma1 (w.getD 1 0)) :: w)

/-- The rounds, one for each constant and word of the schedule. -/
def rounds : List ℕ → List ℕ → Words → Words
  | k :: ks, w :: ws, ⟨a, b, c, d, e, f, g, h⟩ =>
    let t1 := h + sigma1 e + ch e f g + k + w
    rounds ks ws ⟨add t1 (sigma0 a + maj a b c), a, b, c, add d t1, e, f, g⟩
  | _, _, s => s

/-- What is left of a block. -/
def block (s : Words) (x : List ℕ) : Words :=
  let t := rounds constants (schedule 64 x.reverse).reverse s
  ⟨add s.a t.a, add s.b t.b, add s.c t.c, add s.d t.d, add s.e t.e, add s.f t.f, add s.g t.g,
    add s.h t.h⟩

/-- The words of so many bytes, eight for each. -/
def words : List UInt8 → List ℕ
  | a :: b :: c :: d :: e :: f :: g :: h :: bs => Der.natOf [a, b, c, d, e, f, g, h] :: words bs
  | _ => []

/-- So many blocks one after another, each of sixteen words. -/
def blocks : ℕ → Words → List ℕ → Words
  | 0, s, _ => s
  | turns + 1, s, ws => blocks turns (block s (ws.take 16)) (ws.drop 16)

def padded (data : List UInt8) : List UInt8 :=
  data ++ 0x80 :: (List.replicate ((239 - data.length % 128) % 128) 0x00 ++
    Der.bytesOf 16 (data.length * 8))

def hash (data : List UInt8) : List UInt8 :=
  let ws := words (padded data)
  let s := blocks (ws.length / 16) initial ws
  [s.a, s.b, s.c, s.d, s.e, s.f, s.g, s.h].flatMap fun w => Der.bytesOf 8 w

/-- The published value for "abc". -/
example : Der.natOf (hash [0x61, 0x62, 0x63]) =
      0xddaf35a193617abacc417349ae20413112e6fa4e89a97ea20a9eeee64b55d39a * 2 ^ 256 +
        0x2192992a274fc1a836ba3c23a3feebbd454d4423643ce80e2a9ac94fa54ca49f := by
  decide +kernel

theorem length_hash (data : List UInt8) : (hash data).length = 64 := by
  simp [hash, Der.length_bytesOf]

/-- A hash with a key. -/
def hmac (key msg : List UInt8) : List UInt8 :=
  let key := if key.length > 128 then hash key else key
  let key := key ++ List.replicate (128 - key.length) 0x00
  hash (key.map (· ^^^ 0x5c) ++ hash (key.map (· ^^^ 0x36) ++ msg))

theorem length_hmac (key msg : List UInt8) : (hmac key msg).length = 64 := length_hash _

end Sha512
