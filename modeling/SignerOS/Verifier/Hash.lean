import SignerOS.Entropy
import SignerOS.Lib.Script

/-!
# The hashes of the verifier

`ripemd160` of `make_test_data.py`, which is written out there, and what is made of it with
SHA-256, which is a parameter.

* `length_ripemd160`, a hash of 20 bytes, whatever is hashed;
* `padded_blocks`, the message is padded to whole blocks.
-/

namespace SignerOS

namespace Verifier

/-! ## RIPEMD-160 -/

namespace Ripemd160

/-- `_RMD_R`. -/
def tableR : List ℕ := [
  0, 1, 2, 3, 4, 5, 6, 7, 8, 9, 10, 11, 12, 13, 14, 15,
  7, 4, 13, 1, 10, 6, 15, 3, 12, 0, 9, 5, 2, 14, 11, 8,
  3, 10, 14, 4, 9, 15, 8, 1, 2, 7, 0, 6, 13, 11, 5, 12,
  1, 9, 11, 10, 0, 8, 12, 4, 13, 3, 7, 15, 14, 5, 6, 2,
  4, 0, 5, 9, 7, 12, 2, 10, 14, 1, 3, 8, 11, 6, 15, 13]

/-- `_RMD_RP`. -/
def tableRP : List ℕ := [
  5, 14, 7, 0, 9, 2, 11, 4, 13, 6, 15, 8, 1, 10, 3, 12,
  6, 11, 3, 7, 0, 13, 5, 10, 14, 15, 8, 12, 4, 9, 1, 2,
  15, 5, 1, 3, 7, 14, 6, 9, 11, 8, 12, 2, 10, 0, 4, 13,
  8, 6, 4, 1, 3, 11, 15, 0, 5, 12, 2, 13, 9, 7, 10, 14,
  12, 15, 10, 4, 1, 5, 8, 7, 6, 2, 13, 14, 0, 3, 9, 11]

/-- `_RMD_S`. -/
def tableS : List ℕ := [
  11, 14, 15, 12, 5, 8, 7, 9, 11, 13, 14, 15, 6, 7, 9, 8,
  7, 6, 8, 13, 11, 9, 7, 15, 7, 12, 15, 9, 11, 7, 13, 12,
  11, 13, 6, 7, 14, 9, 13, 15, 14, 8, 13, 6, 5, 12, 7, 5,
  11, 12, 14, 15, 14, 15, 9, 8, 9, 14, 5, 6, 8, 6, 5, 12,
  9, 15, 5, 11, 6, 8, 13, 12, 5, 12, 13, 14, 11, 8, 5, 6]

/-- `_RMD_SP`. -/
def tableSP : List ℕ := [
  8, 9, 9, 11, 13, 15, 15, 5, 7, 7, 8, 11, 14, 14, 12, 6,
  9, 13, 15, 7, 12, 8, 9, 11, 7, 7, 12, 7, 6, 15, 13, 11,
  9, 7, 15, 11, 8, 6, 6, 14, 12, 13, 5, 14, 13, 13, 7, 5,
  15, 5, 8, 11, 14, 14, 6, 14, 6, 9, 12, 9, 12, 5, 15, 8,
  8, 5, 12, 9, 12, 5, 14, 6, 8, 13, 6, 5, 15, 13, 11, 11]

/-- `_RMD_K`. -/
def tableK : List UInt32 := [0x00000000, 0x5A827999, 0x6ED9EBA1, 0x8F1BBCDC, 0xA953FD4E]

/-- `_RMD_KP`. -/
def tableKP : List UInt32 := [0x50A28BE6, 0x5C4DD124, 0x6D703EF3, 0x7A6D76E9, 0x00000000]

def rol (x : UInt32) (n : ℕ) : UInt32 := x <<< UInt32.ofNat n ||| x >>> UInt32.ofNat (32 - n)

def f (j : ℕ) (x y z : UInt32) : UInt32 :=
  if j < 16 then x ^^^ y ^^^ z
  else if j < 32 then (x &&& y) ||| (~~~x &&& z)
  else if j < 48 then (x ||| ~~~y) ^^^ z
  else if j < 64 then (x &&& z) ||| (y &&& ~~~z)
  else x ^^^ (y ||| ~~~z)

/-- Five words: the hash, or one of the two lines of a block. -/
structure Words where
  a : UInt32
  b : UInt32
  c : UInt32
  d : UInt32
  e : UInt32
deriving DecidableEq, Repr

/-- One step of a line: `r`, `k` and `s` are the entries of its tables. -/
def Words.step (x : List UInt32) (j r : ℕ) (k : UInt32) (s : ℕ) (w : Words) : Words :=
  let t := rol (w.a + f j w.b w.c w.d + x.getD r 0 + k) s
  let t := t + w.e
  ⟨w.e, t, w.b, rol w.c 10, w.d⟩

/-- The two lines of a block. -/
def lines (x : List UInt32) (h : Words) : Words × Words :=
  (List.range 80).foldl (fun (w, wp) j =>
    let rnd := j / 16
    (w.step x j (tableR.getD j 0) (tableK.getD rnd 0) (tableS.getD j 0),
      wp.step x (79 - j) (tableRP.getD j 0) (tableKP.getD rnd 0) (tableSP.getD j 0))) (h, h)

/-- What is left of a block. -/
def block (h : Words) (x : List UInt32) : Words :=
  let (w, wp) := lines x h
  ⟨h.b + w.c + wp.d, h.c + w.d + wp.e, h.d + w.e + wp.a, h.e + w.a + wp.b, h.a + w.b + wp.c⟩

/-- The loop that appends zeros; 64 turns are enough. -/
def zeros : ℕ → Bytes → Bytes
  | 0, msg => msg
  | turns + 1, msg => if msg.length % 64 ≠ 56 then zeros turns (msg ++ [0x00]) else msg

def padded (data : Bytes) : Bytes :=
  zeros 64 (data ++ [0x80]) ++ leBytes 8 (data.length * 8 % 2 ^ 64)

/-- `struct.unpack("<16I", ..)`. -/
def words (chunk : Bytes) : List UInt32 :=
  (List.range 16).map fun i => UInt32.ofNat (Script.leNat ((chunk.drop (4 * i)).take 4))

theorem zeros_length {turns : ℕ} {msg : Bytes} (h : (120 - msg.length % 64) % 64 ≤ turns) :
    (zeros turns msg).length % 64 = 56 := by
  induction turns generalizing msg with
  | zero =>
    rw [zeros]
    omega
  | succ turns ih =>
    rw [zeros]
    split
    · refine ih ?_
      rw [List.length_append, List.length_singleton]
      omega
    · next hdone => exact not_not.mp hdone

/-- The loop has ended, and the message is whole blocks. -/
theorem padded_blocks (data : Bytes) : (padded data).length % 64 = 0 := by
  have hzeros : (zeros 64 (data ++ [0x80])).length % 64 = 56 := zeros_length (by omega)
  have hlength : (leBytes 8 (data.length * 8 % 2 ^ 64)).length = 8 := by simp [leBytes]
  rw [padded, List.length_append, hlength]
  omega

end Ripemd160

def ripemd160 (data : Bytes) : Bytes :=
  let msg := Ripemd160.padded data
  let h := (List.range (msg.length / 64)).foldl
    (fun h i => Ripemd160.block h (Ripemd160.words ((msg.drop (64 * i)).take 64)))
    ⟨0x67452301, 0xEFCDAB89, 0x98BADCFE, 0x10325476, 0xC3D2E1F0⟩
  le32 h.a ++ le32 h.b ++ le32 h.c ++ le32 h.d ++ le32 h.e

theorem length_ripemd160 (data : Bytes) : (ripemd160 data).length = 20 := by
  simp [ripemd160]

/-- The published value for an empty message. -/
example : ripemd160 [] = [0x9c, 0x11, 0x85, 0xa5, 0xc5, 0xe9, 0xfc, 0x54, 0x61, 0x28, 0x08, 0x97,
    0x7e, 0xe8, 0xf5, 0x48, 0xb2, 0x25, 0x8d, 0x31] := by
  decide +kernel

/-! ## With SHA-256 -/

/-- `hashlib.sha256(b).digest()`. -/
abbrev Sha256 := Bytes → Vector UInt8 32

section
variable (sha256 : Sha256)

def dsha256 (b : Bytes) : Bytes := (sha256 (sha256 b).toList).toList

def hash160 (b : Bytes) : Bytes := ripemd160 (sha256 b).toList

@[simp] theorem length_dsha256 (b : Bytes) : (dsha256 sha256 b).length = 32 := Vector.length_toList

@[simp] theorem length_hash160 (b : Bytes) : (hash160 sha256 b).length = 20 := length_ripemd160 _

end

end Verifier

end SignerOS
