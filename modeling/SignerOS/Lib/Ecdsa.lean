import Mathlib.Algebra.Module.Basic
import Mathlib.Algebra.Field.Basic
import Mathlib.Tactic.FieldSimp

/-!
# ECDSA over any group

Signatures in a group with a field of scalars, where `x` takes a point to a scalar.

* `accepts_signature`, what is signed is accepted;
* `accepts_iff_exists_nonce`, what is accepted is what signing gives;
* `accepts_neg_iff`, the mirrored signature is as good.
-/

namespace Ecdsa

variable {K G : Type*} [Field K] [AddCommGroup G] [Module K G] (g : G) (x : G → K)

/-- The point that is compared with `r`. -/
def recovered (q : G) (z r s : K) : G := (s⁻¹ * z) • g + (s⁻¹ * r) • q

/-- The signature `r`, `s` of `z` is accepted for the public key `q`. -/
structure Accepts (q : G) (z r s : K) : Prop where
  r_ne_zero : r ≠ 0
  s_ne_zero : s ≠ 0
  ne_zero : recovered g q z r s ≠ 0
  eq : x (recovered g q z r s) = r

/-- The second half of the signature of `z` with the key `d` and the nonce `k`. -/
def signature (d z k : K) : K := k⁻¹ * (z + x (k • g) * d)

variable {g x} {d z k r s : K} {q : G}

/-- For the key `d`, the point is a multiple of `g`. -/
theorem recovered_smul (d z r s : K) : recovered g (d • g) z r s = (s⁻¹ * (z + r * d)) • g := by
  rw [recovered, smul_smul, ← add_smul, mul_assoc, ← mul_add]

theorem accepts_signature (hk : k • g ≠ 0) (hr : x (k • g) ≠ 0) (hs : signature g x d z k ≠ 0) :
    Accepts g x (d • g) z (x (k • g)) (signature g x d z k) := by
  have hk0 : k ≠ 0 := by
    rintro rfl
    exact hk (zero_smul K g)
  have hsum : z + x (k • g) * d ≠ 0 := right_ne_zero_of_mul hs
  have hpoint : recovered g (d • g) z (x (k • g)) (signature g x d z k) = k • g := by
    rw [recovered_smul, signature]
    congr 1
    field_simp
  refine ⟨hr, hs, ?_, ?_⟩
  · rw [hpoint]
    exact hk
  · rw [hpoint]

/-- What is accepted for the key `d` is what signing with some nonce gives. -/
theorem accepts_iff_exists_nonce : Accepts g x (d • g) z r s ↔
    r ≠ 0 ∧ s ≠ 0 ∧ ∃ k, k • g ≠ 0 ∧ x (k • g) = r ∧ signature g x d z k = s := by
  constructor
  · intro h
    refine ⟨h.r_ne_zero, h.s_ne_zero, s⁻¹ * (z + r * d), ?_, ?_, ?_⟩
    · rw [← recovered_smul]
      exact h.ne_zero
    · rw [← recovered_smul]
      exact h.eq
    · have hsum : z + r * d ≠ 0 := by
        intro hzero
        refine h.ne_zero ?_
        rw [recovered_smul, hzero, mul_zero, zero_smul]
      rw [signature, ← recovered_smul, h.eq, mul_inv, inv_inv, mul_assoc, inv_mul_cancel₀ hsum,
        mul_one]
  · rintro ⟨hr, hs, k, hk, rfl, rfl⟩
    exact accepts_signature hk hr hs

/-- A signature and its mirror image recover a point and its mirror image. -/
theorem recovered_neg (q : G) (z r s : K) : recovered g q z r (-s) = -recovered g q z r s := by
  rw [recovered, recovered, inv_neg, neg_mul, neg_mul, neg_smul, neg_smul, ← neg_add]

theorem accepts_neg_iff (hx : ∀ p, x (-p) = x p) :
    Accepts g x q z r (-s) ↔ Accepts g x q z r s := by
  have hforward : ∀ s, Accepts g x q z r s → Accepts g x q z r (-s) := by
    intro s h
    refine ⟨h.r_ne_zero, neg_ne_zero.mpr h.s_ne_zero, ?_, ?_⟩
    · rw [recovered_neg]
      exact neg_ne_zero.mpr h.ne_zero
    · rw [recovered_neg, hx]
      exact h.eq
  exact ⟨fun h => neg_neg s ▸ hforward (-s) h, hforward s⟩

end Ecdsa
