import SignerOS.Lib.LinearChecksum
import SignerOS.Lib.Radix
import SignerOS.Verifier.Curve

/-!
# Bech32

`bech32_encode` of `make_test_data.py`, in which the verifier writes segwit addresses: bytes as
symbols of five bits, with six more for a checksum.

* `polymod_detects`, what the checksum tells apart.
-/

namespace SignerOS

namespace Verifier

/-- `_BECH32_CHARSET`. -/
def bech32Charset : List Char := "qpzry9x8gf2tvdw0s3jn54khce6mua7l".toList

/-- `gen`. -/
def bech32Gen : List ℕ := [0x3B6A57B2, 0x26508E6D, 0x1EA119FA, 0x3D4233DD, 0x2A1462B3]

/-- One turn of the loop of `_bech32_polymod`. -/
def polymodStep (chk v : ℕ) : ℕ :=
  let top := chk >>> 25
  let chk := ((chk &&& 0x1FFFFFF) <<< 5) ^^^ v
  (List.range 5).foldl
    (fun chk i => chk ^^^ (if top >>> i &&& 1 ≠ 0 then bech32Gen.getD i 0 else 0)) chk

/-- `_bech32_polymod`. -/
def polymod (values : List ℕ) : ℕ := values.foldl polymodStep 1

/-- `_bech32_hrp_expand`. -/
def hrpExpand (hrp : String) : List ℕ :=
  hrp.toList.map (fun c => c.toNat >>> 5) ++ [0] ++ hrp.toList.map (fun c => c.toNat &&& 31)

/-- The inner loop of `_convertbits`, with room for so many turns. -/
def emitBits (tobits acc : ℕ) : ℕ → ℕ → List ℕ → ℕ × List ℕ
  | 0, bits, ret => (bits, ret)
  | turns + 1, bits, ret =>
    if tobits ≤ bits then
      emitBits tobits acc turns (bits - tobits)
        (ret ++ [acc >>> (bits - tobits) &&& (1 <<< tobits - 1)])
    else (bits, ret)

/-- One turn of the outer loop of `_convertbits`: `acc`, `bits` and `ret`. -/
def convertStep (frombits tobits : ℕ) (s : ℕ × ℕ × List ℕ) (value : ℕ) : ℕ × ℕ × List ℕ :=
  let acc := s.1 <<< frombits ||| value
  let bits := s.2.1 + frombits
  (acc, emitBits tobits acc bits bits s.2.2)

/-- `_convertbits`. -/
def convertBits (data : List ℕ) (frombits tobits : ℕ) (pad : Bool := true) : List ℕ :=
  let (acc, bits, ret) := data.foldl (convertStep frombits tobits) (0, 0, [])
  if pad && bits ≠ 0 then ret ++ [acc <<< (tobits - bits) &&& (1 <<< tobits - 1)] else ret

/-- `const`. -/
def bech32Const (witver : ℕ) : ℕ := if witver > 0 then 0x2BC830A3 else 1

/-- `checksum`. -/
def bech32Checksum (hrp : String) (witver : ℕ) (data : List ℕ) : List ℕ :=
  let polymod := polymod (hrpExpand hrp ++ data ++ [0, 0, 0, 0, 0, 0]) ^^^ bech32Const witver
  (List.range 6).map fun i => polymod >>> (5 * (5 - i)) &&& 31

/-- `_BECH32_CHARSET[d]`. -/
def bech32Char (d : ℕ) : Except Thrown Char :=
  match bech32Charset[d]? with
  | some c => .ok c
  | none => .error .indexError

def bech32Encode (hrp : String) (witver : ℕ) (witprog : Bytes) : Except Thrown String := do
  let data := witver :: convertBits (witprog.map UInt8.toNat) 8 5
  let cs ← (data ++ bech32Checksum hrp witver data).mapM bech32Char
  return hrp ++ "1" ++ String.ofList cs

/-! ## The checksum -/

/-- What is fed back. -/
def feedback (chk : ℕ) : ℕ := polymodStep chk 0

/-- The generators of the bits that are set. -/
def gens (top : ℕ) : ℕ :=
  (List.range 5).foldl
    (fun chk i => chk ^^^ (if top >>> i &&& 1 ≠ 0 then bech32Gen.getD i 0 else 0)) 0

theorem foldl_xor (f : ℕ → ℕ) (c : ℕ) (is : List ℕ) :
    is.foldl (fun c i => c ^^^ f i) c = c ^^^ is.foldl (fun c i => c ^^^ f i) 0 := by
  induction is generalizing c with
  | nil => exact (Nat.xor_zero c).symm
  | cons i is ih =>
    rw [List.foldl_cons, List.foldl_cons, ih, ih (0 ^^^ f i), Nat.zero_xor, Nat.xor_assoc]

theorem polymodStep_eq (chk v : ℕ) :
    polymodStep chk v = ((chk &&& 0x1FFFFFF) <<< 5) ^^^ v ^^^ gens (chk >>> 25) := by
  rw [polymodStep, gens]
  exact foldl_xor _ _ _

theorem feedback_eq (chk : ℕ) : feedback chk = ((chk &&& 0x1FFFFFF) <<< 5) ^^^ gens (chk >>> 25) := by
  rw [feedback, polymodStep_eq, Nat.xor_zero]

theorem polymodStep_eq_feedback (chk v : ℕ) : polymodStep chk v = feedback chk ^^^ v := by
  rw [feedback_eq, polymodStep_eq, Nat.xor_right_comm]

theorem foldl_polymodStep (c : ℕ) (vs : List ℕ) :
    vs.foldl polymodStep c = LinearChecksum.run feedback c vs := by
  rw [LinearChecksum.run]
  congr 1
  funext c v
  exact polymodStep_eq_feedback c v

theorem shiftRight_and_one_ne_zero (n i : ℕ) : n >>> i &&& 1 ≠ 0 ↔ n.testBit i = true := by
  rw [Nat.testBit, bne_iff_ne, Nat.and_comm]

/-- The generator of one bit, if it is set. -/
def genOf (top i : ℕ) : ℕ := if top >>> i &&& 1 ≠ 0 then bech32Gen.getD i 0 else 0

theorem genOf_xor (a b i : ℕ) : genOf (a ^^^ b) i = genOf a i ^^^ genOf b i := by
  simp only [genOf, shiftRight_and_one_ne_zero, Nat.testBit_xor]
  cases a.testBit i <;> cases b.testBit i <;> simp

theorem genOf_lt (top : ℕ) {i : ℕ} (hi : i < 5) : genOf top i < 2 ^ 30 := by
  have hgen : ∀ i < 5, bech32Gen.getD i 0 < 2 ^ 30 := by decide
  rw [genOf]
  split
  · exact hgen i hi
  · exact Nat.two_pow_pos 30

theorem foldl_genOf_xor (a b : ℕ) (is : List ℕ) :
    is.foldl (fun chk i => chk ^^^ genOf (a ^^^ b) i) 0 =
      is.foldl (fun chk i => chk ^^^ genOf a i) 0 ^^^
        is.foldl (fun chk i => chk ^^^ genOf b i) 0 := by
  induction is with
  | nil => exact (Nat.xor_self 0).symm
  | cons i is ih =>
    rw [List.foldl_cons, List.foldl_cons, List.foldl_cons, foldl_xor _ (0 ^^^ genOf (a ^^^ b) i),
      foldl_xor _ (0 ^^^ genOf a i), foldl_xor _ (0 ^^^ genOf b i), ih, genOf_xor, Nat.zero_xor,
      Nat.zero_xor, Nat.zero_xor]
    ac_rfl

theorem foldl_genOf_lt (top : ℕ) {is : List ℕ} (h : ∀ i ∈ is, i < 5) :
    is.foldl (fun chk i => chk ^^^ genOf top i) 0 < 2 ^ 30 := by
  induction is with
  | nil => exact Nat.two_pow_pos 30
  | cons i is ih =>
    rw [List.forall_mem_cons] at h
    rw [List.foldl_cons, foldl_xor, Nat.zero_xor]
    exact Nat.xor_lt_two_pow (genOf_lt top h.1) (ih h.2)

theorem gens_xor (a b : ℕ) : gens (a ^^^ b) = gens a ^^^ gens b := foldl_genOf_xor a b _

theorem gens_lt (top : ℕ) : gens top < 2 ^ 30 :=
  foldl_genOf_lt top fun _ hi => List.mem_range.mp hi

/-- The generators tell the upper bits apart by the lower ones. -/
theorem eq_zero_of_gens : ∀ top < 32, gens top % 32 = 0 → top = 0 := by decide

theorem linear_feedback : LinearChecksum.Linear feedback := by
  intro a b
  rw [feedback_eq, feedback_eq, feedback_eq, Nat.and_xor_distrib_right, Nat.shiftLeft_xor_distrib,
    Nat.shiftRight_xor_distrib, gens_xor]
  ac_rfl

theorem feedback_lt (chk : ℕ) : feedback chk < 2 ^ 30 := by
  have hlow : chk &&& 0x1FFFFFF < 2 ^ 25 := Nat.and_lt_two_pow _ (by decide)
  rw [feedback_eq, Nat.shiftLeft_eq]
  refine Nat.xor_lt_two_pow ?_ (gens_lt _)
  omega

theorem eq_zero_of_feedback {chk : ℕ} (hlt : chk < 2 ^ 30) (h : feedback chk = 0) : chk = 0 := by
  have htop : chk >>> 25 < 32 := by
    rw [Nat.shiftRight_eq_div_pow]
    omega
  rw [feedback_eq, Nat.xor_eq_zero_iff] at h
  have hzero : chk >>> 25 = 0 := by
    refine eq_zero_of_gens _ htop ?_
    rw [← h, Nat.shiftLeft_eq]
    exact Nat.mul_mod_left _ _
  have hlow : chk &&& 0x1FFFFFF = 0 := by
    have hgens : gens 0 = 0 := rfl
    rw [hzero, hgens, Nat.shiftLeft_eq] at h
    omega
  have hmod : chk &&& 0x1FFFFFF = chk % 2 ^ 25 := Nat.and_two_pow_sub_one_eq_mod chk 25
  rw [Nat.shiftRight_eq_div_pow] at hzero
  omega

/-- The feedback keeps three symbols apart among the last 89, as the standard asks. -/
theorem polymod_detects : LinearChecksum.Detects feedback 30 5 89 := by
  refine LinearChecksum.detects_of_distinct (m := 353736) linear_feedback feedback_lt
    (fun _ => eq_zero_of_feedback) (by decide) ?_
  decide +kernel

end Verifier

end SignerOS
