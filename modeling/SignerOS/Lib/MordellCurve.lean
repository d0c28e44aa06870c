import Mathlib.Algebra.Field.ZMod
import Mathlib.AlgebraicGeometry.EllipticCurve.Affine.Point
import Mathlib.GroupTheory.Perm.Cycle.Type
import Mathlib.Tactic.FieldSimp
import Mathlib.Tactic.LinearCombination
import SignerOS.Lib.Powering

/-!
# The curves `y ^ 2 = x ^ 3 + b`

The group of such a curve, its addition in the formulas a program uses, and how many points there
are.

* `some_add_some_of_ne` and `some_add_self`, the chord and the tangent;
* `represents_multiple`, multiples of a point without a division;
* `natCard_le` and `two_smul_ne_zero`, bounds for the number of points.
-/

namespace MordellCurve

open WeierstrassCurve.Affine (Point)

variable {F : Type*} [Field F]

/-- The curve `y ^ 2 = x ^ 3 + b`. -/
def curve (b : F) : WeierstrassCurve.Affine F := { a₁ := 0, a₂ := 0, a₃ := 0, a₄ := 0, a₆ := b }

/-- A field and a curve over it that has no singular point. -/
structure Smooth (b : F) : Prop where
  two_ne_zero : (2 : F) ≠ 0
  three_ne_zero : (3 : F) ≠ 0
  ne_zero : b ≠ 0

theorem Smooth.nonsingular_iff {b : F} (hb : Smooth b) {x y : F} :
    (curve b).Nonsingular x y ↔ y ^ 2 = x ^ 3 + b := by
  have hdisc : (curve b).Δ ≠ 0 := by
    have heq : (curve b).Δ = -(2 ^ 4 * 3 ^ 3 * b ^ 2) := by
      simp only [curve, WeierstrassCurve.Δ, WeierstrassCurve.b₂, WeierstrassCurve.b₄,
        WeierstrassCurve.b₆, WeierstrassCurve.b₈]
      ring
    rw [heq, neg_ne_zero]
    exact mul_ne_zero (mul_ne_zero (pow_ne_zero 4 hb.two_ne_zero) (pow_ne_zero 3 hb.three_ne_zero))
      (pow_ne_zero 2 hb.ne_zero)
  rw [← (curve b).equation_iff_nonsingular_of_Δ_ne_zero hdisc,
    WeierstrassCurve.Affine.equation_iff]
  simp [curve]

theorem negY_eq (b x y : F) : (curve b).negY x y = -y := by
  simp [curve, WeierstrassCurve.Affine.negY]

theorem some_eq_some {b x y x' y' : F} {h : (curve b).Nonsingular x y}
    {h' : (curve b).Nonsingular x' y'} (hx : x = x') (hy : y = y') :
    Point.some x y h = Point.some x' y' h' := by
  subst hx
  subst hy
  rfl

/-! ## Addition -/

section
variable [DecidableEq F] {b x₁ y₁ x₂ y₂ x₃ y₃ l : F} (h₁ : (curve b).Nonsingular x₁ y₁)
  (h₂ : (curve b).Nonsingular x₂ y₂)

/-- A point and its mirror image. -/
theorem some_add_some_of_neg (hx : x₁ = x₂) (hy : y₁ + y₂ = 0) :
    Point.some x₁ y₁ h₁ + Point.some x₂ y₂ h₂ = 0 :=
  Point.add_of_Y_eq hx (by rw [negY_eq]; exact eq_neg_of_add_eq_zero_left hy)

/-- The chord. -/
theorem some_add_some_of_ne (hx : x₁ ≠ x₂) (hl : l = (y₂ - y₁) / (x₂ - x₁))
    (hx₃ : x₃ = l * l - x₁ - x₂) (hy₃ : y₃ = l * (x₁ - x₃) - y₁) :
    ∃ h₃, Point.some x₁ y₁ h₁ + Point.some x₂ y₂ h₂ = Point.some x₃ y₃ h₃ := by
  have hslope : (curve b).slope x₁ x₂ y₁ y₂ = l := by
    rw [WeierstrassCurve.Affine.slope_of_X_ne hx, hl, ← neg_sub y₂, ← neg_sub x₂, neg_div_neg_eq]
  have hX : (curve b).addX x₁ x₂ ((curve b).slope x₁ x₂ y₁ y₂) = x₃ := by
    rw [hslope, hx₃]
    simp only [WeierstrassCurve.Affine.addX, curve]
    ring
  have hY : (curve b).addY x₁ x₂ y₁ ((curve b).slope x₁ x₂ y₁ y₂) = y₃ := by
    rw [WeierstrassCurve.Affine.addY, WeierstrassCurve.Affine.negAddY, hX, hslope, negY_eq, hy₃]
    ring
  rw [Point.add_of_X_ne hx]
  exact ⟨hX ▸ hY ▸ WeierstrassCurve.Affine.nonsingular_add h₁ h₂ fun h => hx h.1,
    some_eq_some hX hY⟩

/-- The tangent. -/
theorem some_add_self (hy : y₁ + y₁ ≠ 0) (hl : l = 3 * x₁ * x₁ / (2 * y₁))
    (hx₃ : x₃ = l * l - x₁ - x₁) (hy₃ : y₃ = l * (x₁ - x₃) - y₁) :
    ∃ h₃, Point.some x₁ y₁ h₁ + Point.some x₁ y₁ h₁ = Point.some x₃ y₃ h₃ := by
  have hne : y₁ ≠ (curve b).negY x₁ y₁ := by
    rw [negY_eq]
    exact fun h => hy (eq_neg_iff_add_eq_zero.mp h)
  have hslope : (curve b).slope x₁ x₁ y₁ y₁ = l := by
    rw [WeierstrassCurve.Affine.slope_of_Y_ne rfl hne, negY_eq, hl]
    simp only [curve]
    ring
  have hX : (curve b).addX x₁ x₁ ((curve b).slope x₁ x₁ y₁ y₁) = x₃ := by
    rw [hslope, hx₃]
    simp only [WeierstrassCurve.Affine.addX, curve]
    ring
  have hY : (curve b).addY x₁ x₁ y₁ ((curve b).slope x₁ x₁ y₁ y₁) = y₃ := by
    rw [WeierstrassCurve.Affine.addY, WeierstrassCurve.Affine.negAddY, hX, hslope, negY_eq, hy₃]
    ring
  rw [Point.add_self_of_Y_ne hne]
  exact ⟨hX ▸ hY ▸ WeierstrassCurve.Affine.nonsingular_add h₁ h₁ fun h => hne h.2,
    some_eq_some hX hY⟩

end

/-! ## Multiples without a division -/

/-- Coordinates `x / z ^ 2` and `y / z ^ 3`. -/
structure Triple where
  x : ℤ
  y : ℤ
  z : ℤ

namespace Triple

variable (m : ℤ)

/-- A triple is kept if it stands for a point. -/
def checked (t : Triple) : Option Triple := if t.z % m = 0 then none else some t

def double (t : Triple) : Triple :=
  let yy := t.y * t.y % m
  let s := 4 * t.x * yy % m
  let n := 3 * t.x * t.x % m
  let x := (n * n - 2 * s) % m
  ⟨x, (n * (s - x) - 8 * yy * yy) % m, 2 * t.y * t.z % m⟩

/-- A point with coordinates `gx` and `gy` is added. -/
def add (gx gy : ℤ) (t : Triple) : Triple :=
  let zz := t.z * t.z % m
  let h := (gx * zz - t.x) % m
  let r := (gy * zz * t.z - t.y) % m
  let hh := h * h % m
  let w := t.x * hh % m
  let x := (r * r - h * hh - 2 * w) % m
  ⟨x, (r * (w - x) - t.y * h * hh) % m, t.z * h % m⟩

/-- `k` times the point, the bits of `k` taken from the first one on. -/
def multiple (gx gy : ℤ) : ℕ → ℕ → Option Triple
  | 0, _ => none
  | turns + 1, k =>
    if k = 1 then some ⟨gx, gy, 1⟩
    else do
      let t ← multiple gx gy turns (k / 2)
      let t ← (t.double m).checked m
      if k % 2 = 1 then (t.add m gx gy).checked m else return t

end Triple

section
variable {m : ℕ} [Fact m.Prime] {b : ZMod m}

/-- The point a triple stands for. -/
def Represents (t : Triple) (p : (curve b).Point) : Prop :=
  (t.z : ZMod m) ≠ 0 ∧ ∃ h,
    p = Point.some ((t.x : ZMod m) / (t.z : ZMod m) ^ 2) ((t.y : ZMod m) / (t.z : ZMod m) ^ 3) h

theorem of_checked {t t' : Triple} (h : t.checked m = some t') : t = t' ∧ (t.z : ZMod m) ≠ 0 := by
  rw [Triple.checked] at h
  split_ifs at h with hz
  refine ⟨Option.some.inj h, fun hzero => hz ?_⟩
  exact Int.emod_eq_zero_of_dvd ((ZMod.intCast_zmod_eq_zero_iff_dvd _ _).mp hzero)

theorem Represents.double {t : Triple} {p : (curve b).Point} (htwo : (2 : ZMod m) ≠ 0)
    (h : Represents t p) (hz : ((t.double m).z : ZMod m) ≠ 0) :
    Represents (t.double m) (p + p) := by
  obtain ⟨htz, hp, rfl⟩ := h
  have hzeq : ((t.double m).z : ZMod m) = 2 * t.y * t.z := by
    simp [Triple.double]
  have hy : (t.y : ZMod m) ≠ 0 := by
    intro hy
    rw [hzeq, hy, mul_zero, zero_mul] at hz
    exact hz rfl
  refine ⟨hz, some_add_self _ ?_ rfl ?_ ?_⟩
  · rw [← two_mul]
    exact mul_ne_zero htwo (div_ne_zero hy (pow_ne_zero 3 htz))
  · rw [hzeq]
    simp only [Triple.double, ZMod.intCast_mod, Int.cast_sub, Int.cast_mul, Int.cast_ofNat]
    field_simp
    ring
  · rw [hzeq]
    simp only [Triple.double, ZMod.intCast_mod, Int.cast_sub, Int.cast_mul, Int.cast_ofNat]
    field_simp
    ring

theorem Represents.add {t : Triple} {p : (curve b).Point} {gx gy : ℤ}
    (hg : (curve b).Nonsingular (gx : ZMod m) gy) (h : Represents t p)
    (hz : ((t.add m gx gy).z : ZMod m) ≠ 0) :
    Represents (t.add m gx gy) (p + Point.some (gx : ZMod m) gy hg) := by
  obtain ⟨htz, hp, rfl⟩ := h
  -- everything in terms of the difference of the two abscissas, on a common denominator
  obtain ⟨d, hd⟩ : ∃ d : ZMod m, d = gx * t.z ^ 2 - t.x := ⟨_, rfl⟩
  have hgx : (gx : ZMod m) = (d + t.x) / t.z ^ 2 := by
    rw [hd, sub_add_cancel, mul_div_cancel_right₀ _ (pow_ne_zero 2 htz)]
  have hzeq : ((t.add m gx gy).z : ZMod m) = t.z * d := by
    rw [hd]
    simp only [Triple.add, ZMod.intCast_mod, Int.cast_sub, Int.cast_mul]
    ring
  have hdne : d ≠ 0 := by
    intro hzero
    rw [hzeq, hzero, mul_zero] at hz
    exact hz rfl
  have hne : (t.x : ZMod m) / t.z ^ 2 ≠ gx := by
    rw [hgx, ne_eq, div_left_inj' (pow_ne_zero 2 htz)]
    exact fun h => hdne (left_eq_add.mp (h.trans (add_comm d _)))
  have hslope : ((gy : ZMod m) * t.z ^ 3 - t.y) / (t.z * d) =
      (gy - t.y / t.z ^ 3) / (gx - t.x / t.z ^ 2) := by
    have hsub : (gx : ZMod m) - t.x / t.z ^ 2 = d / t.z ^ 2 := by
      rw [hgx, ← sub_div, add_sub_cancel_right]
    rw [hsub]
    field_simp
  refine ⟨hz, some_add_some_of_ne _ _ hne hslope ?_ ?_⟩
  · rw [hzeq]
    simp only [Triple.add, ZMod.intCast_mod, Int.cast_sub, Int.cast_mul, Int.cast_ofNat, hgx]
    field_simp
    ring
  · rw [hzeq]
    simp only [Triple.add, ZMod.intCast_mod, Int.cast_sub, Int.cast_mul, Int.cast_ofNat, hgx]
    field_simp
    ring

/-- What is computed stands for the multiple of the point. -/
theorem represents_multiple {gx gy : ℤ} (hg : (curve b).Nonsingular (gx : ZMod m) gy)
    (htwo : (2 : ZMod m) ≠ 0) {turns k : ℕ} {t : Triple}
    (h : Triple.multiple m gx gy turns k = some t) :
    Represents t (k • Point.some (gx : ZMod m) gy hg) := by
  induction turns generalizing k t with
  | zero => cases h
  | succ turns ih =>
    rw [Triple.multiple] at h
    split at h
    · next hone =>
      cases h
      rw [hone, one_nsmul]
      refine ⟨by simp, ?_⟩
      simp [hg]
    · simp only [Option.bind_eq_bind, Option.bind_eq_some_iff] at h
      obtain ⟨t₁, h₁, t₂, h₂, h⟩ := h
      obtain ⟨rfl, hz₂⟩ := of_checked h₂
      have hdouble := (ih h₁).double htwo hz₂
      have hdiv := Nat.div_add_mod k 2
      rw [← two_nsmul, ← mul_nsmul'] at hdouble
      split at h
      · next hodd =>
        obtain ⟨rfl, hz⟩ := of_checked h
        have hadd := hdouble.add hg hz
        rw [← succ_nsmul] at hadd
        rwa [show 2 * (k / 2) + 1 = k by omega] at hadd
      · next heven =>
        cases h
        rwa [show 2 * (k / 2) = k by omega] at hdouble

/-! ## How many points there are -/

/-- The abscissa of a point and the parity of its ordinate. -/
def code : (curve b).Point → Option (ZMod m × Bool)
  | .zero => none
  | .some x y _ => some (x, y.val % 2 == 1)

theorem code_injective (hodd : m % 2 = 1) : Function.Injective (code (b := b)) := by
  intro p q h
  cases p with
  | zero =>
    cases q with
    | zero => rfl
    | some => cases h
  | some x y hp =>
    cases q with
    | zero => cases h
    | some x' y' hq =>
      simp only [code, Option.some.injEq, Prod.mk.injEq] at h
      obtain ⟨hx, hparity⟩ := h
      obtain heq | hneg := WeierstrassCurve.Affine.Point.X_eq_iff.mp hx
      · exact heq
      · -- the two ordinates add up to `m`, which is odd, unless both are zero
        rw [Point.neg_some, Point.some.injEq, negY_eq] at hneg
        obtain ⟨-, hy⟩ := hneg
        have hlt := y'.val_lt
        by_cases hzero : y' = 0
        · exact some_eq_some hx (by rw [hy, hzero, neg_zero])
        · have hval : y.val = m - y'.val := by
            rw [hy, ZMod.neg_val, if_neg hzero]
          have hpos : 0 < y'.val := Nat.pos_of_ne_zero fun h => hzero ((ZMod.val_eq_zero y').mp h)
          have hmod : y.val % 2 = 1 ↔ y'.val % 2 = 1 := by
            rw [← beq_iff_eq, ← beq_iff_eq (a := y'.val % 2), hparity]
          omega

theorem finite_point (hodd : m % 2 = 1) : Finite (curve b).Point :=
  Finite.of_injective code (code_injective hodd)

theorem natCard_le (hodd : m % 2 = 1) : Nat.card (curve b).Point ≤ 2 * m + 1 := by
  have h := Nat.card_le_card_of_injective code (code_injective (b := b) hodd)
  have hbool : Nat.card Bool = 2 := Nat.card_eq_fintype_card
  rwa [Finite.card_option, Nat.card_prod, Nat.card_zmod, hbool, Nat.mul_comm] at h

/-- Without a zero of the cube there is no point that is its own mirror image. -/
theorem eq_zero_of_add_self {p : (curve b).Point} (hb : Smooth b) (hroot : ∀ x : ZMod m, x ^ 3 + b ≠ 0)
    (h : p + p = 0) : p = 0 := by
  cases p with
  | zero => rfl
  | some x y hp =>
    by_cases hy : y + y = 0
    · have hy0 : y = 0 := by
        rw [← two_mul] at hy
        exact (mul_eq_zero.mp hy).resolve_left hb.two_ne_zero
      have heq := hb.nonsingular_iff.mp hp
      rw [hy0, zero_pow two_ne_zero] at heq
      exact absurd heq.symm (hroot x)
    · obtain ⟨h₃, hsum⟩ := some_add_self hp hy rfl rfl rfl
      rw [hsum] at h
      exact absurd h (Point.some_ne_zero h₃)

/-- A point of prime order that is large enough has every other point for a multiple. -/
theorem natCard_eq {n : ℕ} {g : (curve b).Point} (hodd : m % 2 = 1) (hb : Smooth b)
    (hroot : ∀ x : ZMod m, x ^ 3 + b ≠ 0) (hn : n.Prime) (hg : n • g = 0) (hne : g ≠ 0)
    (hlarge : 2 * m + 1 < 3 * n) : Nat.card (curve b).Point = n := by
  have hfinite : Finite (curve b).Point := finite_point hodd
  have hfact : Fact n.Prime := ⟨hn⟩
  have horder : addOrderOf g = n := addOrderOf_eq_prime hg hne
  obtain ⟨c, hc⟩ : n ∣ Nat.card (curve b).Point := horder ▸ addOrderOf_dvd_natCard g
  have hle := natCard_le (b := b) hodd
  have hpos : 0 < Nat.card (curve b).Point := Nat.card_pos
  have htwo : c ≠ 2 := by
    rintro rfl
    have hdvd : 2 ∣ Nat.card (curve b).Point := ⟨n, by rw [hc, Nat.mul_comm]⟩
    obtain ⟨p, hp⟩ := exists_prime_addOrderOf_dvd_card' 2 hdvd
    have hself : p + p = 0 := by
      rw [← two_nsmul, ← hp]
      exact addOrderOf_nsmul_eq_zero p
    rw [eq_zero_of_add_self hb hroot hself, addOrderOf_zero] at hp
    exact absurd hp (by decide)
  have hc3 : c < 3 := by
    by_contra hge
    have hmul : n * 3 ≤ n * c := Nat.mul_le_mul_left n (by omega)
    omega
  have hc0 : c ≠ 0 := by
    rintro rfl
    omega
  obtain rfl : c = 1 := by omega
  rw [hc, Nat.mul_one]

end

end MordellCurve
