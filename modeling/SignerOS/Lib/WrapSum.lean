import Mathlib.Algebra.BigOperators.Group.List.Basic
import Mathlib.Algebra.Order.BigOperators.Group.List
import Mathlib.Algebra.Ring.Nat

/-!
# Sums of 64-bit unsigned integers

A loop that adds 64-bit values into a 64-bit accumulator computes the sum modulo `2 ^ 64`.
This file states when that is the sum itself:

* `toNat_wrapSum`, the accumulated value is the exact sum modulo `2 ^ 64`;
* `toNat_wrapSum_of_lt`, below `2 ^ 64` it is the exact sum;
* `exactSum_filter_add`, the exact sum splits along a predicate.
-/

namespace WrapSum

/-- The 64-bit accumulation of a list, in the order a loop performs it. -/
def wrapSum (l : List UInt64) : UInt64 := l.foldl (· + ·) 0

/-- The sum the accumulation stands for, in unbounded integers. -/
def exactSum (l : List UInt64) : ℕ := (l.map UInt64.toNat).sum

@[simp] theorem exactSum_nil : exactSum [] = 0 := rfl

@[simp] theorem exactSum_cons (a : UInt64) (l : List UInt64) :
    exactSum (a :: l) = a.toNat + exactSum l := by
  simp [exactSum]

theorem exactSum_replicate (n : ℕ) (a : UInt64) :
    exactSum (List.replicate n a) = n * a.toNat := by
  rw [exactSum, List.map_replicate, List.sum_replicate, Nat.nsmul_eq_mul]

/-- Accumulating from `acc` adds the exact sum to it, modulo `2 ^ 64`. -/
theorem toNat_foldl_add (l : List UInt64) (acc : UInt64) :
    (l.foldl (· + ·) acc).toNat = (acc.toNat + exactSum l) % 2 ^ 64 := by
  induction l generalizing acc with
  | nil => simp [Nat.mod_eq_of_lt acc.toNat_lt]
  | cons a l ih =>
    rw [List.foldl_cons, ih, UInt64.toNat_add, exactSum_cons, Nat.mod_add_mod, Nat.add_assoc]

/-- The accumulated value is the exact sum modulo `2 ^ 64`. -/
theorem toNat_wrapSum (l : List UInt64) : (wrapSum l).toNat = exactSum l % 2 ^ 64 := by
  rw [wrapSum, toNat_foldl_add, UInt64.toNat_zero, Nat.zero_add]

/-- Below `2 ^ 64` nothing wraps. -/
theorem toNat_wrapSum_of_lt {l : List UInt64} (h : exactSum l < 2 ^ 64) :
    (wrapSum l).toNat = exactSum l := by
  rw [toNat_wrapSum, Nat.mod_eq_of_lt h]

/-- A selection of the summands and the rest of them sum to the whole. -/
theorem exactSum_filter_add {α : Type*} (p : α → Bool) (f : α → UInt64) (l : List α) :
    exactSum ((l.filter p).map f) + exactSum ((l.filter fun a => !p a).map f)
      = exactSum (l.map f) := by
  induction l with
  | nil => rfl
  | cons a l ih => cases h : p a <;> simp [h] <;> omega

/-- Adding zero for the summands left out is the accumulation of the ones taken. -/
theorem wrapSum_map_ite {α : Type*} (p : α → Bool) (f : α → UInt64) (l : List α) :
    wrapSum (l.map fun a => if p a then f a else 0) = wrapSum ((l.filter p).map f) := by
  have key (acc : UInt64) : (l.map fun a => if p a then f a else 0).foldl (· + ·) acc
      = ((l.filter p).map f).foldl (· + ·) acc := by
    induction l generalizing acc with
    | nil => rfl
    | cons a l ih => cases h : p a <;> simp [h, ih]
  exact key 0

end WrapSum
