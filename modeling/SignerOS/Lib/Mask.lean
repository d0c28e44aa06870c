import Mathlib.Data.Nat.Notation

/-!
# Masks of 32 bits

A word as the set of its bits, and the loops that put bits in and take bits out.

* `has_foldl_set`, a loop that sets bits;
* `has_foldl_clear`, a loop that clears bits.
-/

namespace Mask

/-- The bit is set. -/
def Has (mask : UInt32) (i : ℕ) : Prop := mask.toBitVec.getLsbD i = true

instance (mask : UInt32) (i : ℕ) : Decidable (Has mask i) :=
  inferInstanceAs (Decidable (mask.toBitVec.getLsbD i = true))

theorem toBitVec_one_shiftLeft {i : ℕ} (hi : i < 32) :
    ((1 : UInt32) <<< UInt32.ofNat i).toBitVec = BitVec.twoPow 32 i := by
  have hall : ∀ i < 32, ((1 : UInt32) <<< UInt32.ofNat i).toBitVec = BitVec.twoPow 32 i := by decide
  exact hall i hi

variable {mask : UInt32} {i j n : ℕ}

theorem not_has_zero : ¬ Has 0 i := by simp [Has]

theorem eq_zero_iff : mask = 0 ↔ ∀ i, ¬ Has mask i := by
  constructor
  · rintro rfl i
    exact not_has_zero
  · intro h
    apply UInt32.toBitVec_inj.mp
    apply BitVec.eq_of_getLsbD_eq
    intro i _
    rw [Bool.eq_false_iff.mpr (h i)]
    simp

theorem ext_has {mask' : UInt32} (h : ∀ i < 32, Has mask i ↔ Has mask' i) : mask = mask' := by
  apply UInt32.toBitVec_inj.mp
  apply BitVec.eq_of_getLsbD_eq
  intro i hi
  exact Bool.eq_iff_iff.mpr (h i hi)

/-- One bit more. -/
theorem has_or (hi : i < 32) : Has (mask ||| 1 <<< UInt32.ofNat i) j ↔ Has mask j ∨ j = i := by
  unfold Has
  rw [UInt32.toBitVec_or, toBitVec_one_shiftLeft hi, BitVec.getLsbD_or, BitVec.getLsbD_twoPow]
  simp only [Bool.or_eq_true, Bool.and_eq_true, decide_eq_true_eq, hi, true_and]
  rw [@eq_comm ℕ i j]

/-- One bit less. -/
theorem has_and_not (hi : i < 32) :
    Has (mask &&& ~~~ (1 <<< UInt32.ofNat i)) j ↔ Has mask j ∧ j ≠ i := by
  unfold Has
  rw [UInt32.toBitVec_and, UInt32.toBitVec_not, toBitVec_one_shiftLeft hi, BitVec.getLsbD_and,
    BitVec.getLsbD_not, BitVec.getLsbD_twoPow]
  simp only [Bool.and_eq_true, decide_eq_true_eq, Bool.not_eq_true', Bool.and_eq_false_iff,
    decide_eq_false_iff_not]
  constructor
  · rintro ⟨hmask, hlt, hne⟩
    exact ⟨hmask, by omega⟩
  · rintro ⟨hmask, hne⟩
    have hlt := BitVec.lt_of_getLsbD hmask
    exact ⟨hmask, hlt, by omega⟩

/-- The test for a bit. -/
theorem and_eq_zero_iff (hi : i < 32) : mask &&& 1 <<< UInt32.ofNat i = 0 ↔ ¬ Has mask i := by
  have hbit (j : ℕ) : Has (mask &&& 1 <<< UInt32.ofNat i) j ↔ Has mask j ∧ j = i := by
    unfold Has
    rw [UInt32.toBitVec_and, toBitVec_one_shiftLeft hi, BitVec.getLsbD_and, BitVec.getLsbD_twoPow]
    simp only [Bool.and_eq_true, decide_eq_true_eq, hi, true_and]
    rw [@eq_comm ℕ i j]
  rw [eq_zero_iff]
  constructor
  · intro h hmask
    exact h i ((hbit i).mpr ⟨hmask, rfl⟩)
  · intro h j hj
    obtain ⟨hmask, rfl⟩ := (hbit j).mp hj
    exact h hmask

section
variable {f : UInt32 → ℕ → UInt32} {p : ℕ → Prop}

/-- A loop over the numbers below a bound, each of which sets its own bit or none. -/
theorem has_foldl_set (hn : n ≤ 32)
    (hf : ∀ mask i j, i < 32 → (Has (f mask i) j ↔ Has mask j ∨ j = i ∧ p i)) :
    Has ((List.range n).foldl f mask) j ↔ Has mask j ∨ j < n ∧ p j := by
  induction n with
  | zero => simp
  | succ n ih =>
    rw [List.range_succ, List.foldl_append, List.foldl_cons, List.foldl_nil, hf _ _ _ (by omega),
      ih (by omega), or_assoc]
    refine or_congr_right ?_
    rw [Nat.lt_succ_iff_lt_or_eq, or_and_right]
    refine or_congr_right (and_congr_right ?_)
    rintro rfl
    rfl

/-- A loop that sets the bits of the numbers below a bound that it does not skip. -/
theorem has_foldl_unless {skip : ℕ → Prop} [DecidablePred skip] (hn : n ≤ 32) :
    Has ((List.range n).foldl
      (fun mask i => if skip i then mask else mask ||| 1 <<< UInt32.ofNat i) mask) j ↔
        Has mask j ∨ j < n ∧ ¬ skip j := by
  refine has_foldl_set (p := fun i => ¬ skip i) hn fun mask i j hi => ?_
  by_cases hskip : skip i
  · rw [if_pos hskip]
    simp [hskip]
  · rw [if_neg hskip, has_or hi]
    simp [hskip]

/-- A loop over the numbers below a bound, each of which clears its own bit or none. -/
theorem has_foldl_clear (hn : n ≤ 32)
    (hf : ∀ mask i j, i < 32 → (Has (f mask i) j ↔ Has mask j ∧ ¬ (j = i ∧ p i))) :
    Has ((List.range n).foldl f mask) j ↔ Has mask j ∧ ¬ (j < n ∧ p j) := by
  induction n with
  | zero => simp
  | succ n ih =>
    rw [List.range_succ, List.foldl_append, List.foldl_cons, List.foldl_nil, hf _ _ _ (by omega),
      ih (by omega), and_assoc, ← not_or]
    refine and_congr_right fun _ => not_congr ?_
    rw [Nat.lt_succ_iff_lt_or_eq, or_and_right]
    refine or_congr_right (and_congr_right ?_)
    rintro rfl
    rfl

end

end Mask
