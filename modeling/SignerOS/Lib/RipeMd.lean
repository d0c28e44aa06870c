import Mathlib.Data.Nat.Sqrt
import SignerOS.Lib.Der

/-!
# RIPEMD-160

The hash as its authors define it: two lines of five rounds, the words of a block taken in an order
that one permutation gives from round to round, and rotations that go with the words.

* `length_hash`, a hash of 20 bytes.
-/

namespace RipeMd

/-- The permutation that takes the order of the words in a round to that in the next one. -/
def rho : List ℕ := [7, 4, 13, 1, 10, 6, 15, 3, 12, 0, 9, 5, 2, 14, 11, 8]

/-- One of the two lines of a block. -/
inductive Line
  | left
  | right
deriving DecidableEq, Repr

/-- The word that is used in a step of a round. -/
def word (line : Line) : ℕ → ℕ → ℕ
  | 0, i =>
    match line with
    | .left => i
    | .right => (9 * i + 5) % 16
  | round + 1, i => rho.getD (word line round i) 0

/-- How far is rotated, for each round and each word. -/
def shifts : List (List ℕ) := [
  [11, 14, 15, 12, 5, 8, 7, 9, 11, 13, 14, 15, 6, 7, 9, 8],
  [12, 13, 11, 15, 6, 9, 9, 7, 12, 15, 11, 13, 7, 8, 7, 7],
  [13, 15, 14, 11, 7, 7, 6, 8, 13, 14, 13, 12, 5, 5, 6, 9],
  [14, 11, 12, 14, 8, 6, 5, 5, 15, 12, 15, 14, 9, 9, 8, 6],
  [15, 12, 13, 13, 9, 5, 8, 6, 14, 11, 12, 11, 8, 6, 5, 5]]

/-- The constants that are added: the square roots of the first primes, and the cube roots, each
times 2^30. -/
def constants : Line → List ℕ
  | .left => [0x00000000, 0x5A827999, 0x6ED9EBA1, 0x8F1BBCDC, 0xA953FD4E]
  | .right => [0x50A28BE6, 0x5C4DD124, 0x6D703EF3, 0x7A6D76E9, 0x00000000]

example : ∀ r ∈ [(2, 1), (3, 2), (5, 3), (7, 4)],
    Nat.sqrt (r.1 * 2 ^ 60) = (constants .left).getD r.2 0 := by decide +kernel

example : ∀ r ∈ [(2, 0), (3, 1), (5, 2), (7, 3)],
    (constants .right).getD r.2 0 ^ 3 ≤ r.1 * 2 ^ 90 ∧
      r.1 * 2 ^ 90 < ((constants .right).getD r.2 0 + 1) ^ 3 := by decide

/-- The function of a round. The right line takes them the other way round. -/
def f (round : ℕ) (x y z : UInt32) : UInt32 :=
  match round with
  | 0 => x ^^^ y ^^^ z
  | 1 => (x &&& y) ||| (~~~x &&& z)
  | 2 => (x ||| ~~~y) ^^^ z
  | 3 => (x &&& z) ||| (y &&& ~~~z)
  | _ => x ^^^ (y ||| ~~~z)

def rol (x : UInt32) (n : ℕ) : UInt32 := x <<< UInt32.ofNat n ||| x >>> UInt32.ofNat (32 - n)

/-- What a step of a line depends on. -/
structure Step where
  round : ℕ
  word : ℕ
  constant : UInt32
  shift : ℕ
deriving DecidableEq, Repr

/-- The eighty steps of a line. -/
def steps (line : Line) : List Step :=
  (List.range 5).flatMap fun round => (List.range 16).map fun i =>
    { round := match line with
        | .left => round
        | .right => 4 - round
      word := word line round i
      constant := UInt32.ofNat ((constants line).getD round 0)
      shift := (shifts.getD round []).getD (word line round i) 0 }

/-- Five words: the hash, or a line of a block. -/
structure Words where
  a : UInt32
  b : UInt32
  c : UInt32
  d : UInt32
  e : UInt32
deriving DecidableEq, Repr

/-- One step of a line. -/
def Words.step (x : List UInt32) (w : Words) (s : Step) : Words :=
  ⟨w.e, rol (w.a + f s.round w.b w.c w.d + x.getD s.word 0 + s.constant) s.shift + w.e, w.b,
    rol w.c 10, w.d⟩

/-- What is left of a block. -/
def block (h : Words) (x : List UInt32) : Words :=
  let l := (steps .left).foldl (Words.step x) h
  let r := (steps .right).foldl (Words.step x) h
  ⟨h.b + l.c + r.d, h.c + l.d + r.e, h.d + l.e + r.a, h.e + l.a + r.b, h.a + l.b + r.c⟩

def padded (data : List UInt8) : List UInt8 :=
  data ++ 0x80 :: (List.replicate ((119 - data.length % 64) % 64) 0x00 ++
    (Der.bytesOf 8 (data.length * 8)).reverse)

/-- The sixteen words of a block. -/
def words (chunk : List UInt8) : List UInt32 :=
  (List.range 16).map fun i => UInt32.ofNat (Der.natOf ((chunk.drop (4 * i)).take 4).reverse)

def initial : Words := ⟨0x67452301, 0xEFCDAB89, 0x98BADCFE, 0x10325476, 0xC3D2E1F0⟩

def hash (data : List UInt8) : List UInt8 :=
  let msg := padded data
  let h := (List.range (msg.length / 64)).foldl
    (fun h i => block h (words ((msg.drop (64 * i)).take 64))) initial
  [h.a, h.b, h.c, h.d, h.e].flatMap fun w => (Der.bytesOf 4 w.toNat).reverse

/-- The published value for "abc". -/
example : Der.natOf (hash [0x61, 0x62, 0x63]) = 0x8eb208f7e05d987a9b044a8e98c6b087f15a0bfc := by
  decide +kernel

theorem length_hash (data : List UInt8) : (hash data).length = 20 := by
  simp [hash, Der.length_bytesOf]

end RipeMd
