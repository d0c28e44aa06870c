import Mathlib.Algebra.Group.TypeTags.Basic
import Mathlib.Algebra.Module.NatInt
import Mathlib.Data.Int.ModEq
import Mathlib.Data.ZMod.Basic

/-!
# Multiples by doubling

The loop that takes the bits of a number from the last one on, and doubles what is added in each
turn. Its values stand for the elements of a monoid, as a residue stands for a number.

* `loop` and `represents_loop`, the loop over any operation, and what its result stands for;
* `powMod`, the same loop over a multiplication with a modulus, and `powMod_eq`, that it is a power.
-/

namespace Powering

variable {α : Type*}

/-- `while k: if k & 1: result = op(result, addend); addend = op(addend, addend); k >>= 1`, with
room for so many turns. -/
def loop (op : α → α → α) : ℕ → ℕ → α → α → α
  | 0, _, result, _ => result
  | turns + 1, k, result, addend =>
    if k = 0 then result
    else
      loop op turns (k / 2) (if k % 2 = 1 then op result addend else result) (op addend addend)

/-- `k` times `addend` is added to `result`, if the operation adds what its arguments stand for. -/
theorem represents_loop {M : Type*} [AddCommMonoid M] {op : α → α → α} (Rep : α → M → Prop)
    (hop : ∀ a b x y, Rep a x → Rep b y → Rep (op a b) (x + y)) {turns k : ℕ} {a b : α} {x y : M}
    (hk : k < 2 ^ turns) (ha : Rep a x) (hb : Rep b y) : Rep (loop op turns k a b) (x + k • y) := by
  induction turns generalizing k a b x y with
  | zero =>
    have hzero : k = 0 := by omega
    rw [hzero, zero_nsmul, add_zero]
    exact ha
  | succ turns ih =>
    rw [loop]
    split
    · next hzero =>
      rw [hzero, zero_nsmul, add_zero]
      exact ha
    · have hhalf : k / 2 < 2 ^ turns := by
        rw [pow_succ] at hk
        omega
      have hdouble : Rep (op b b) (y + y) := hop b b y y hb hb
      have hsum : (k / 2) • (y + y) = (2 * (k / 2)) • y := by
        rw [← two_nsmul, ← mul_nsmul', Nat.mul_comm]
      have hdiv := Nat.div_add_mod k 2
      split
      · next hodd =>
        -- the last bit is set, and `y` is added now
        have h := ih hhalf (hop a b x y ha hb) hdouble
        rw [hsum, add_assoc, ← succ_nsmul'] at h
        rwa [show 2 * (k / 2) + 1 = k by omega] at h
      · next heven =>
        have h := ih hhalf ha hdouble
        rw [hsum] at h
        rwa [show 2 * (k / 2) = k by omega] at h

theorem lt_two_pow_log2_succ (k : ℕ) : k < 2 ^ (k.log2 + 1) := Nat.lt_log2_self

/-! ## Powers -/

/-- `b ^ e % m`. -/
def powMod (b : ℤ) (e : ℕ) (m : ℤ) : ℤ :=
  loop (fun x y => x * y % m) (e.log2 + 1) e (1 % m) (b % m)

theorem powMod_eq (b : ℤ) (e : ℕ) (m : ℤ) : powMod b e m = b ^ e % m := by
  have hop (a b : ℤ) (x y : Additive ℤ) (ha : a = x.toMul % m) (hb : b = y.toMul % m) :
      a * b % m = (x + y).toMul % m := by
    rw [ha, hb, toMul_add, ← Int.mul_emod]
  have h := represents_loop (fun a (x : Additive ℤ) => a = x.toMul % m) hop
    (x := Additive.ofMul 1) (y := Additive.ofMul b) (lt_two_pow_log2_succ e) rfl rfl
  rwa [toMul_add, toMul_nsmul, toMul_ofMul, toMul_ofMul, one_mul] at h

/-- In the residues, it is the power. -/
theorem cast_powMod (b : ℤ) (e m : ℕ) : (powMod b e m : ZMod m) = (b : ZMod m) ^ e := by
  rw [powMod_eq, ZMod.intCast_mod, Int.cast_pow]

end Powering
