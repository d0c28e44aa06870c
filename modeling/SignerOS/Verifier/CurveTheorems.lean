import Mathlib.Algebra.Module.ZMod
import Mathlib.FieldTheory.Finite.Basic
import SignerOS.Lib.Lucas
import SignerOS.Lib.MordellCurve
import SignerOS.Verifier.Curve

/-!
# The arithmetic of the verifier is that of the group

* `prime_P` and `prime_N`, and `natCard_secp`, that the curve has `N` points;
* `ptAdd_ofPoint` and `ptMul_ofPoint`, the two operations in the group;
* `exists_ofPoint_iff`, which pairs of coordinates are points.
-/

namespace SignerOS

namespace Verifier

open WeierstrassCurve.Affine (Point)
open MordellCurve

/-! ## The two primes -/

/-- The primes the two certificates below rest on. -/
def smallTests : List Lucas.Test := [
  ⟨1206781, 10, [2, 2, 3, 5, 20113]⟩,
  ⟨1627771, 3, [2, 3, 5, 29, 1871]⟩,
  ⟨4681609, 23, [2, 2, 2, 3, 97, 2011]⟩,
  ⟨7240687, 3, [2, 3, 1206781]⟩,
  ⟨13331831, 13, [2, 5, 971, 1373]⟩,
  ⟨44706919, 6, [2, 3, 797, 9349]⟩,
  ⟨107590001, 3, [2, 2, 2, 2, 5, 5, 5, 5, 7, 29, 53]⟩,
  ⟨545358713, 5, [2, 2, 2, 41, 59, 28181]⟩,
  ⟨297159362677, 2, [2, 2, 3, 3, 11, 461, 1627771]⟩,
  ⟨107361793816595537, 3, [2, 2, 2, 2, 16699, 85831, 4681609]⟩,
  ⟨173378833005251801, 6, [2, 2, 2, 5, 5, 2621, 24809, 13331831]⟩,
  ⟨174723607534414371449, 3, [2, 2, 2, 17, 59, 4051, 120233, 44706919]⟩,
  ⟨22149492674086928081353, 5, [2, 2, 2, 3, 5323, 173378833005251801]⟩,
  ⟨132896956044521568488119, 6, [2, 3, 22149492674086928081353]⟩,
  ⟨29047611873442575647497758179, 2, [2, 293, 305873, 545358713, 297159362677]⟩,
  ⟨341948486974166000522343609283189, 2, [2, 2, 3, 3, 3, 109, 29047611873442575647497758179]⟩,
  ⟨255515944373312847190720520512484175977, 3,
    [2, 2, 2, 7, 7, 11, 1627, 2657, 4423, 41201, 96557, 7240687, 107590001]⟩,
  ⟨205115282021455665897114700593932402728804164701536103180137503955397371, 10,
    [2, 3, 5, 29, 29, 31, 7723, 132896956044521568488119,
      255515944373312847190720520512484175977]⟩]

def testN : Lucas.Test :=
  ⟨N, 7, [2, 2, 2, 2, 2, 2, 3, 149, 631, 107361793816595537, 174723607534414371449,
    341948486974166000522343609283189]⟩

def testP : Lucas.Test :=
  ⟨P, 3, [2, 3, 7, 13441,
    205115282021455665897114700593932402728804164701536103180137503955397371]⟩

theorem allPass_tests : Lucas.allPass [] (smallTests ++ [testN, testP]) = true := by
  decide +kernel

theorem prime_of_mem {t : Lucas.Test} (ht : t ∈ [testN, testP]) : t.number.Prime :=
  Lucas.prime_of_allPass (fun _ h => absurd h List.not_mem_nil) allPass_tests t
    (List.mem_append_right _ ht)

theorem prime_N : N.Prime := prime_of_mem (t := testN) List.mem_cons_self

theorem prime_P : P.Prime := prime_of_mem (t := testP) (List.mem_cons_of_mem _ List.mem_cons_self)

instance : Fact N.Prime := ⟨prime_N⟩

instance : Fact P.Prime := ⟨prime_P⟩

/-- The inverse, by the little theorem of Fermat. -/
theorem pow_sub_two {p : ℕ} [Fact p.Prime] {a : ZMod p} (ha : a ≠ 0) : a ^ (p - 2) = a⁻¹ := by
  have htwo : 2 ≤ p := (Fact.out : p.Prime).two_le
  have hpow : a ^ (p - 2) * a = 1 := by
    rw [← pow_succ, show p - 2 + 1 = p - 1 by omega]
    exact ZMod.pow_card_sub_one_eq_one ha
  exact eq_inv_of_mul_eq_one_left hpow

theorem natCast_ne_zero {p n : ℕ} (hpos : 0 < n) (hlt : n < p) : (n : ZMod p) ≠ 0 := by
  rw [ne_eq, ZMod.natCast_eq_zero_iff]
  exact Nat.not_dvd_of_pos_of_lt hpos hlt

/-! ## The curve -/

theorem smooth : Smooth (7 : ZMod P) where
  two_ne_zero := natCast_ne_zero (n := 2) (by decide) (by decide)
  three_ne_zero := natCast_ne_zero (n := 3) (by decide) (by decide)
  ne_zero := natCast_ne_zero (n := 7) (by decide) (by decide)

/-- The points of the curve, the one at infinity among them. -/
abbrev Secp := WeierstrassCurve.Affine.Point (curve (7 : ZMod P))

/-- The coordinates of a point, as the code has them. -/
def ofPoint : Secp → Point
  | .zero => none
  | .some x y _ => some ((x.val : ℤ), (y.val : ℤ))

theorem ofPoint_zero : ofPoint 0 = none := rfl

theorem ofPoint_injective : Function.Injective ofPoint := by
  intro s t h
  cases s with
  | zero =>
    cases t with
    | zero => rfl
    | some => cases h
  | some x y hs =>
    cases t with
    | zero => cases h
    | some x' y' ht =>
      simp only [ofPoint, Option.some.injEq, Prod.mk.injEq, Nat.cast_inj] at h
      exact some_eq_some (ZMod.val_injective P h.1) (ZMod.val_injective P h.2)

section
variable {m : ℕ} [NeZero m]

/-- A residue is the number that stands for it. -/
theorem emod_eq_val {e : ℤ} {x : ZMod m} (h : (e : ZMod m) = x) : e % m = x.val := by
  rw [← h, ZMod.val_intCast]

theorem cast_val (x : ZMod m) : ((x.val : ℤ) : ZMod m) = x := by
  rw [Int.cast_natCast, ZMod.natCast_zmod_val]

omit [NeZero m] in
theorem emod_eq_zero_iff (e : ℤ) : e % m = 0 ↔ (e : ZMod m) = 0 := by
  rw [ZMod.intCast_zmod_eq_zero_iff_dvd, Int.dvd_iff_emod_eq_zero]

theorem val_eq_val_iff {x y : ZMod m} : (x.val : ℤ) = y.val ↔ x = y := by
  rw [Nat.cast_inj]
  exact ⟨fun h => ZMod.val_injective m h, fun h => h ▸ rfl⟩

/-- Two numbers that stand for one residue are the same. -/
theorem eq_of_cast_eq {a b : ℤ} (ha : 0 ≤ a ∧ a < m) (hb : 0 ≤ b ∧ b < m)
    (h : (a : ZMod m) = b) : a = b := by
  rw [← Int.emod_eq_of_lt ha.1 ha.2, emod_eq_val h, ← emod_eq_val (rfl : (b : ZMod m) = b),
    Int.emod_eq_of_lt hb.1 hb.2]

end

/-- The slope of the tangent, in the residues. -/
theorem cast_tangent {x y : ZMod P} (hy : y + y ≠ 0) :
    ((3 * (x.val : ℤ) * x.val * Powering.powMod (2 * y.val) (P - 2) P % P : ℤ) : ZMod P)
      = 3 * x * x / (2 * y) := by
  have htwice : (2 : ZMod P) * y ≠ 0 := by rwa [two_mul]
  rw [ZMod.intCast_mod, Int.cast_mul, Powering.cast_powMod]
  simp only [Int.cast_mul, Int.cast_ofNat, cast_val]
  rw [pow_sub_two htwice, div_eq_mul_inv]

/-- The slope of the chord, in the residues. -/
theorem cast_chord {x₁ y₁ x₂ y₂ : ZMod P} (hx : x₁ ≠ x₂) :
    ((((y₂.val : ℤ) - y₁.val) * Powering.powMod (x₂.val - x₁.val) (P - 2) P % P : ℤ) : ZMod P)
      = (y₂ - y₁) / (x₂ - x₁) := by
  rw [ZMod.intCast_mod, Int.cast_mul, Powering.cast_powMod]
  simp only [Int.cast_sub, cast_val]
  rw [pow_sub_two (sub_ne_zero_of_ne hx.symm), div_eq_mul_inv]

/-- The third point of a line, from its slope. -/
theorem ofPoint_of_slope {l : ℤ} {k x₁ y₁ x₂ : ZMod P} (hl : (l : ZMod P) = k)
    {h : (curve (7 : ZMod P)).Nonsingular (k * k - x₁ - x₂)
      (k * (x₁ - (k * k - x₁ - x₂)) - y₁)} :
    some ((l * l - x₁.val - x₂.val) % (P : ℤ),
      (l * (x₁.val - (l * l - x₁.val - x₂.val) % P) - y₁.val) % (P : ℤ)) =
    ofPoint (.some (k * k - x₁ - x₂) (k * (x₁ - (k * k - x₁ - x₂)) - y₁) h) := by
  have hx : (l * l - x₁.val - x₂.val) % P = ((k * k - x₁ - x₂).val : ℤ) := by
    refine emod_eq_val ?_
    simp only [Int.cast_sub, Int.cast_mul, cast_val, hl]
  have hy : (l * (x₁.val - ((k * k - x₁ - x₂).val : ℤ)) - y₁.val) % P
      = ((k * (x₁ - (k * k - x₁ - x₂)) - y₁).val : ℤ) := by
    refine emod_eq_val ?_
    simp only [Int.cast_sub, Int.cast_mul, cast_val, hl]
  rw [hx, hy, ofPoint]

theorem ptAdd_ofPoint (s t : Secp) : ptAdd (ofPoint s) (ofPoint t) = ofPoint (s + t) := by
  cases s with
  | zero => rw [← WeierstrassCurve.Affine.Point.zero_def, zero_add, ofPoint_zero, ptAdd]
  | some x₁ y₁ h₁ =>
    cases t with
    | zero => rfl
    | some x₂ y₂ h₂ =>
      have hinfinity : ((x₁.val : ℤ) = x₂.val ∧ ((y₁.val : ℤ) + y₂.val) % P = 0)
          ↔ x₁ = x₂ ∧ y₁ + y₂ = 0 := by
        rw [val_eq_val_iff, emod_eq_zero_iff, Int.cast_add, cast_val, cast_val]
      have hsame : ((x₁.val : ℤ), (y₁.val : ℤ)) = ((x₂.val : ℤ), (y₂.val : ℤ))
          ↔ x₁ = x₂ ∧ y₁ = y₂ := by
        rw [Prod.mk.injEq, val_eq_val_iff, val_eq_val_iff]
      rw [ofPoint, ofPoint, ptAdd]
      split_ifs with hneg heq
      · rw [hinfinity] at hneg
        rw [some_add_some_of_neg _ _ hneg.1 hneg.2, ofPoint_zero]
      · rw [hsame] at heq
        rw [hinfinity] at hneg
        obtain ⟨hx, hy⟩ := heq
        subst hx hy
        have hy : y₁ + y₁ ≠ 0 := fun h => hneg ⟨rfl, h⟩
        obtain ⟨h₃, hsum⟩ := some_add_self h₁ hy rfl rfl rfl
        rw [hsum]
        exact ofPoint_of_slope (cast_tangent hy)
      · rw [hsame] at heq
        rw [hinfinity] at hneg
        have hx : x₁ ≠ x₂ := by
          -- two points with one abscissa are the same, or mirror images
          intro hx
          obtain h | h := (@Point.X_eq_iff _ _ _ _ _ _ _ h₁ h₂).mp hx
          · rw [Point.some.injEq] at h
            exact heq h
          · rw [Point.neg_some, Point.some.injEq, negY_eq] at h
            exact hneg ⟨hx, by rw [h.2, neg_add_cancel]⟩
        obtain ⟨h₃, hsum⟩ := some_add_some_of_ne h₁ h₂ hx rfl rfl rfl
        rw [hsum]
        exact ofPoint_of_slope (cast_chord hx)

/-! ## Its order -/

theorem generator_nonsingular :
    (curve (7 : ZMod P)).Nonsingular (GX : ZMod P) (GY : ZMod P) := by
  have hmod : (GY ^ 2 - (GX ^ 3 + 7)) % P = 0 := by decide
  rw [emod_eq_zero_iff, Int.cast_sub, Int.cast_add, Int.cast_pow, Int.cast_pow, sub_eq_zero] at hmod
  exact smooth.nonsingular_iff.mpr hmod

/-- The point `G`. -/
def generator : Secp := .some (GX : ZMod P) (GY : ZMod P) generator_nonsingular

theorem ofPoint_generator : ofPoint generator = some (GX, GY) := by
  rw [generator, ofPoint, ← emod_eq_val rfl, ← emod_eq_val rfl,
    Int.emod_eq_of_lt (by decide) (by decide), Int.emod_eq_of_lt (by decide) (by decide)]

/-- The last multiple of `G` before infinity is its mirror image. -/
theorem multiple_generator : (Triple.multiple P GX GY 256 (N - 1)).any (fun t =>
    (t.x - GX * t.z ^ 2) % P = 0 ∧ (t.y + GY * t.z ^ 3) % P = 0) = true := by
  decide +kernel

theorem nsmul_generator : N • generator = 0 := by
  obtain ⟨t, ht, hmod⟩ := (Option.any_eq_true _ _).mp multiple_generator
  rw [decide_eq_true_iff, emod_eq_zero_iff, emod_eq_zero_iff] at hmod
  push_cast at hmod
  obtain ⟨hz, h, hmultiple⟩ :=
    represents_multiple generator_nonsingular smooth.two_ne_zero ht
  have hx : (t.x : ZMod P) / t.z ^ 2 = GX := by
    rw [div_eq_iff (pow_ne_zero 2 hz)]
    exact sub_eq_zero.mp hmod.1
  have hy : (t.y : ZMod P) / t.z ^ 3 = -GY := by
    rw [div_eq_iff (pow_ne_zero 3 hz), neg_mul]
    exact eq_neg_of_add_eq_zero_left hmod.2
  have hneg : (N - 1) • generator = -generator := by
    rw [generator, hmultiple, Point.neg_some]
    exact some_eq_some hx (hy.trans (negY_eq _ _ _).symm)
  rw [show N = N - 1 + 1 by decide, succ_nsmul, hneg, neg_add_cancel]

/-- There is no point with the ordinate 0. -/
theorem cube_add_seven_ne_zero (x : ZMod P) : x ^ 3 + 7 ≠ 0 := by
  intro hzero
  have hne : x ≠ 0 := by
    rintro rfl
    rw [zero_pow three_ne_zero, zero_add] at hzero
    exact smooth.ne_zero hzero
  have hcube : x ^ 3 = ((-7 : ℤ) : ZMod P) := by
    rw [eq_neg_of_add_eq_zero_left hzero, Int.cast_neg, Int.cast_ofNat]
  have hone : ((Powering.powMod (-7) ((P - 1) / 3) P : ℤ) : ZMod P) = 1 := by
    rw [Powering.cast_powMod, ← hcube, ← pow_mul, show 3 * ((P - 1) / 3) = P - 1 by decide]
    exact ZMod.pow_card_sub_one_eq_one hne
  have hmod : (Powering.powMod (-7) ((P - 1) / 3) P - 1) % P ≠ 0 := by decide +kernel
  rw [ne_eq, emod_eq_zero_iff, Int.cast_sub, Int.cast_one, sub_eq_zero] at hmod
  exact hmod hone

theorem natCard_secp : Nat.card Secp = N :=
  natCard_eq (by decide) smooth cube_add_seven_ne_zero prime_N nsmul_generator
    (Point.some_ne_zero _) (by decide)

/-- Multiples are taken with the residues of `N`. -/
instance : Module (ZMod N) Secp :=
  AddCommGroup.zmodModule fun s => by rw [← natCard_secp, card_nsmul_eq_zero']

theorem exists_smul_generator (s : Secp) : ∃ k : ZMod N, s = k • generator := by
  obtain ⟨k, hk⟩ :=
    @mem_multiples_of_prime_card _ _ N _ natCard_secp generator s (Point.some_ne_zero _)
  exact ⟨k, by rw [Nat.cast_smul_eq_nsmul]; exact hk.symm⟩

theorem ptMul_ofPoint (k : ℤ) (s : Secp) : ptMul k (ofPoint s) = ofPoint ((k : ZMod N) • s) := by
  have hop (p q : Point) (s t : Secp) (hp : p = ofPoint s) (hq : q = ofPoint t) :
      ptAdd p q = ofPoint (s + t) := by
    rw [hp, hq, ptAdd_ofPoint]
  have hloop := Powering.represents_loop (fun p t => p = ofPoint t) hop
    (Powering.lt_two_pow_log2_succ (k % N).toNat) ofPoint_zero.symm (rfl : ofPoint s = ofPoint s)
  have hcast : ((k % N).toNat : ZMod N) = k := by
    rw [← Int.cast_natCast, Int.toNat_of_nonneg (Int.emod_nonneg k (by decide)), ZMod.intCast_mod]
  rw [zero_add, ← Nat.cast_smul_eq_nsmul (ZMod N), hcast] at hloop
  exact hloop

theorem ptMul_generator (k : ℤ) : ptMul k = ofPoint ((k : ZMod N) • generator) := by
  rw [← ptMul_ofPoint, ofPoint_generator]

/-! ## Which coordinates are points -/

/-- Infinity, and the coordinates for which the equation of the curve holds. -/
def OnCurve : Point → Prop
  | none => True
  | some (x, y) => (0 ≤ x ∧ x < P) ∧ (0 ≤ y ∧ y < P) ∧ (y ^ 2 - (x ^ 3 + 7)) % P = 0

instance : DecidablePred OnCurve
  | none => inferInstanceAs (Decidable True)
  | some (x, y) => inferInstanceAs
    (Decidable ((0 ≤ x ∧ x < P) ∧ (0 ≤ y ∧ y < P) ∧ (y ^ 2 - (x ^ 3 + 7)) % P = 0))

theorem emod_equation_iff (x y : ℤ) : (y ^ 2 - (x ^ 3 + 7)) % P = 0
    ↔ (curve (7 : ZMod P)).Nonsingular (x : ZMod P) y := by
  rw [smooth.nonsingular_iff, emod_eq_zero_iff]
  push_cast
  exact sub_eq_zero

theorem onCurve_ofPoint (s : Secp) : OnCurve (ofPoint s) := by
  cases s with
  | zero => trivial
  | some x y h =>
    refine ⟨⟨Int.natCast_nonneg _, ?_⟩, ⟨Int.natCast_nonneg _, ?_⟩, ?_⟩
    · exact_mod_cast x.val_lt
    · exact_mod_cast y.val_lt
    · rw [emod_equation_iff, cast_val, cast_val]
      exact h

theorem exists_ofPoint_iff (p : Point) : (∃ s, ofPoint s = p) ↔ OnCurve p := by
  constructor
  · rintro ⟨s, rfl⟩
    exact onCurve_ofPoint s
  · intro h
    match p, h with
    | none, _ => exact ⟨0, rfl⟩
    | some (x, y), ⟨⟨hx0, hx⟩, ⟨hy0, hy⟩, heq⟩ =>
      refine ⟨.some (x : ZMod P) y ((emod_equation_iff x y).mp heq), ?_⟩
      rw [ofPoint, ← emod_eq_val rfl, ← emod_eq_val rfl, Int.emod_eq_of_lt hx0 hx,
        Int.emod_eq_of_lt hy0 hy]

/-! ## Keys as bytes -/

theorem toBytes_natCast {width n : ℕ} (h : n < 256 ^ width) :
    toBytes width n = .ok (Der.bytesOf width n) := by
  rw [toBytes, if_pos ⟨Int.natCast_nonneg n, by exact_mod_cast h⟩, Int.toNat_natCast]

/-- The square root that is tried is one, if there is one. -/
theorem pow_root {y ySq : ZMod P} (h : y ^ 2 = ySq) : (ySq ^ ((P + 1) / 4)) ^ 2 = ySq := by
  obtain rfl | hy := eq_or_ne y 0
  · rw [← h, zero_pow two_ne_zero, zero_pow (by decide), zero_pow two_ne_zero]
  · have hfermat : y ^ (P - 1) = 1 := ZMod.pow_card_sub_one_eq_one hy
    calc (ySq ^ ((P + 1) / 4)) ^ 2 = y ^ (2 * ((P + 1) / 4 * 2)) := by
          rw [← h, ← pow_mul, ← pow_mul]
      _ = y ^ (P - 1) * y ^ 2 := by
          rw [← pow_add, show 2 * ((P + 1) / 4 * 2) = P - 1 + 2 by decide]
      _ = ySq := by rw [hfermat, one_mul, h]

/-- Of two square roots, the one with the parity that is asked for. -/
theorem root_of_parity {y y' parity : ℤ} (hy : 0 < y ∧ y < P) (hy' : 0 ≤ y' ∧ y' < P)
    (hsq : (y : ZMod P) ^ 2 = (y' : ZMod P) ^ 2) (hparity : y % 2 = parity) :
    (if y' % 2 ≠ parity then P - y' else y') = y := by
  have hmod : (P : ℤ) % 2 = 1 := by decide
  obtain h | h := sq_eq_sq_iff_eq_or_eq_neg.mp hsq
  · have heq : y = y' := eq_of_cast_eq ⟨hy.1.le, hy.2⟩ hy' h
    rw [heq] at hparity
    rw [if_neg (not_not_intro hparity), heq]
  · obtain rfl | hpos := hy'.1.eq_or_lt
    · rw [Int.cast_zero, neg_zero, ← Int.cast_zero] at h
      exact absurd (eq_of_cast_eq ⟨hy.1.le, hy.2⟩ hy' h) hy.1.ne'
    · have heq : y = P - y' := by
        refine eq_of_cast_eq ⟨hy.1.le, hy.2⟩ ⟨by omega, by omega⟩ ?_
        rw [h, Int.cast_sub, Int.cast_natCast, ZMod.natCast_self, zero_sub]
      rw [if_pos (by omega), heq]

theorem pos_of_onCurve {x y : ℤ} (h : OnCurve (some (x, y))) : 0 < y := by
  obtain ⟨hx, ⟨hy0, hy⟩, heq⟩ := h
  obtain rfl | hpos := hy0.eq_or_lt
  · rw [emod_equation_iff, smooth.nonsingular_iff, Int.cast_zero, zero_pow two_ne_zero] at heq
    exact absurd heq.symm (cube_add_seven_ne_zero _)
  · exact hpos

/-- The right-hand side of the equation. -/
theorem cast_ySq (x : ℤ) :
    (((Powering.powMod x 3 P + 7) % P : ℤ) : ZMod P) = (x : ZMod P) ^ 3 + 7 := by
  rw [ZMod.intCast_mod, Int.cast_add, Powering.cast_powMod, Int.cast_ofNat]

/-- The root that is tried. -/
def rootOf (x : ℤ) : ℤ := Powering.powMod ((Powering.powMod x 3 P + 7) % P) ((P + 1) / 4) P

theorem rootOf_range (x : ℤ) : 0 ≤ rootOf x ∧ rootOf x < P := by
  rw [rootOf, Powering.powMod_eq]
  exact ⟨Int.emod_nonneg _ (by decide), Int.emod_lt_of_pos _ (by decide)⟩

/-- The test of the root, in the residues. -/
theorem rootOf_passes_iff (x : ℤ) :
    Powering.powMod (rootOf x) 2 P = (Powering.powMod x 3 P + 7) % P
      ↔ (rootOf x : ZMod P) ^ 2 = (x : ZMod P) ^ 3 + 7 := by
  rw [← cast_ySq, ZMod.intCast_mod, ← Int.cast_pow, ZMod.intCast_eq_intCast_iff',
    Powering.powMod_eq (rootOf x)]

theorem decompress_cons {tag : UInt8} (htag : tag = 2 ∨ tag = 3) {bs : Bytes}
    (hbs : bs.length = 32) :
    decompress (tag :: bs) =
      if (rootOf (Der.natOf bs) : ZMod P) ^ 2 ≠ ((Der.natOf bs : ℤ) : ZMod P) ^ 3 + 7 then
        .error (.valueError "point not on curve")
      else .ok (Der.natOf bs, if rootOf (Der.natOf bs) % 2 ≠ tag.toNat % 2
        then P - rootOf (Der.natOf bs) else rootOf (Der.natOf bs)) := by
  have hlen : ¬ ((tag :: bs).length ≠ 33 ∨ ¬ ((tag :: bs).headD 0 = 2 ∨ (tag :: bs).headD 0 = 3)) := by
    rw [List.length_cons, hbs]
    exact not_or.mpr ⟨not_not_intro rfl, not_not_intro htag⟩
  rw [decompress, if_neg hlen]
  have hroot (x : ℤ) :
      Powering.powMod ((Powering.powMod x 3 P + 7) % P) ((P + 1) / 4) P = rootOf x := rfl
  simp only [List.tail_cons, List.headD_cons, hroot, ne_eq, rootOf_passes_iff, apply_ite Except.ok,
    apply_ite (Prod.mk _)]

/-- What is read of a key: its second coordinate is on the curve over the residue of the first. -/
theorem decompress_cons_eq_ok {tag : UInt8} (htag : tag = 2 ∨ tag = 3) {bs : Bytes}
    (hbs : bs.length = 32) {x y : ℤ} :
    decompress (tag :: bs) = .ok (x, y) ↔
      OnCurve (some (x % P, y)) ∧ x = Der.natOf bs ∧ y % 2 = tag.toNat % 2 := by
  have hodd : (P : ℤ) % 2 = 1 := by decide
  have hx : 0 ≤ x % P ∧ x % P < P :=
    ⟨Int.emod_nonneg _ (by decide), Int.emod_lt_of_pos _ (by decide)⟩
  have hrange := rootOf_range (Der.natOf bs)
  rw [decompress_cons htag hbs]
  constructor
  · intro h
    split_ifs at h with hroot hparity
    all_goals
      rw [not_not] at hroot
      simp only [Except.ok.injEq, Prod.mk.injEq] at h
      obtain ⟨rfl, rfl⟩ := h
    · have hpos : 0 < rootOf (Der.natOf bs) := by
        obtain hzero | hpos := hrange.1.eq_or_lt
        · rw [← hzero, Int.cast_zero, zero_pow two_ne_zero] at hroot
          exact absurd hroot.symm (cube_add_seven_ne_zero _)
        · exact hpos
      refine ⟨⟨hx, ⟨by omega, by omega⟩, ?_⟩, rfl, by omega⟩
      rw [emod_equation_iff, smooth.nonsingular_iff, ZMod.intCast_mod, ← hroot, Int.cast_sub,
        Int.cast_natCast, ZMod.natCast_self, zero_sub, neg_sq]
    · rw [not_not] at hparity
      refine ⟨⟨hx, hrange, ?_⟩, rfl, hparity⟩
      rw [emod_equation_iff, smooth.nonsingular_iff, ZMod.intCast_mod, ← hroot]
  · rintro ⟨hcurve, rfl, hparity⟩
    have hy := pos_of_onCurve hcurve
    have heq := hcurve.2.2
    rw [emod_equation_iff, smooth.nonsingular_iff, ZMod.intCast_mod] at heq
    have hroot : (rootOf (Der.natOf bs) : ZMod P) ^ 2 = ((Der.natOf bs : ℤ) : ZMod P) ^ 3 + 7 := by
      rw [rootOf, Powering.cast_powMod, cast_ySq]
      exact pow_root heq
    rw [if_neg (not_not_intro hroot),
      root_of_parity ⟨hy, hcurve.2.1.2⟩ hrange (heq.trans hroot.symm) hparity]

theorem compress_eq_ok_iff {x y : ℤ} {b : Bytes} : compress (some (x, y)) = .ok b ↔
    (0 ≤ x ∧ x < 256 ^ 32) ∧ UInt8.ofNat (2 + (y % 2).toNat) :: Der.bytesOf 32 x.toNat = b := by
  rw [compress, toBytes]
  split
  · next h =>
    rw [and_iff_right h]
    exact ⟨fun h => Except.ok.inj h, fun h => congrArg Except.ok h⟩
  · next h => exact iff_of_false (fun h => by cases h) fun h' => h h'.1

theorem exists_of_decompress {b : Bytes} {p : ℤ × ℤ} (h : decompress b = .ok p) :
    ∃ tag bs, b = tag :: bs ∧ (tag = 2 ∨ tag = 3) ∧ bs.length = 32 := by
  rw [decompress] at h
  split_ifs at h with hlen
  rw [not_or, not_not, not_not] at hlen
  clear h
  cases b with
  | nil => exact absurd hlen.1 (by decide)
  | cons tag bs => exact ⟨tag, bs, rfl, hlen.2, Nat.succ.inj hlen.1⟩

/-- The tag of a parity, and back. -/
theorem tag_cases (y : ℤ) : y % 2 = 0 ∧ UInt8.ofNat (2 + (y % 2).toNat) = 2 ∨
    y % 2 = 1 ∧ UInt8.ofNat (2 + (y % 2).toNat) = 3 := by
  obtain h | h := Int.emod_two_eq_zero_or_one y
  · exact Or.inl ⟨h, by rw [h]; rfl⟩
  · exact Or.inr ⟨h, by rw [h]; rfl⟩

theorem decompress_eq_ok_iff {b : Bytes} {x y : ℤ} : decompress b = .ok (x, y) ↔
    OnCurve (some (x % P, y)) ∧ compress (some (x, y)) = .ok b := by
  rw [compress_eq_ok_iff]
  constructor
  · intro h
    obtain ⟨tag, bs, rfl, htag, hbs⟩ := exists_of_decompress h
    obtain ⟨hcurve, rfl, hparity⟩ := (decompress_cons_eq_ok htag hbs).mp h
    have hlt := Der.natOf_lt bs
    rw [hbs] at hlt
    refine ⟨hcurve, ⟨Int.natCast_nonneg _, by exact_mod_cast hlt⟩, ?_⟩
    rw [hparity, Int.toNat_natCast, ← hbs, Der.bytesOf_natOf]
    obtain rfl | rfl := htag <;> rfl
  · rintro ⟨hcurve, ⟨hx0, hx⟩, rfl⟩
    have hlt : x.toNat < 256 ^ 32 := by omega
    have hnat : x = Der.natOf (Der.bytesOf 32 x.toNat) := by
      rw [Der.natOf_bytesOf, Nat.mod_eq_of_lt hlt, Int.toNat_of_nonneg hx0]
    obtain ⟨hparity, htag⟩ | ⟨hparity, htag⟩ := tag_cases y <;> rw [htag]
    · rw [decompress_cons_eq_ok (Or.inl rfl) (Der.length_bytesOf _ _)]
      exact ⟨hcurve, hnat, hparity⟩
    · rw [decompress_cons_eq_ok (Or.inr rfl) (Der.length_bytesOf _ _)]
      exact ⟨hcurve, hnat, hparity⟩

/-- The key of a point is read back. -/
theorem decompress_of_onCurve {x y : ℤ} (h : OnCurve (some (x, y))) :
    ∃ b, compress (some (x, y)) = .ok b ∧ b.length = 33 ∧ decompress b = .ok (x, y) := by
  have hP : (P : ℤ) < 256 ^ 32 := by decide
  have hmod : x % P = x := Int.emod_eq_of_lt h.1.1 h.1.2
  have hok := compress_eq_ok_iff (y := y).mpr ⟨⟨h.1.1, h.1.2.trans hP⟩, rfl⟩
  refine ⟨_, hok, ?_, decompress_eq_ok_iff.mpr ⟨hmod.symm ▸ h, hok⟩⟩
  rw [List.length_cons, Der.length_bytesOf]

/-! ## The group, in the terms of the code -/

/-- `pt_add` makes the points of the curve a commutative group. -/
theorem ptAdd_group {p q r : Point} (hp : OnCurve p) (hq : OnCurve q) (hr : OnCurve r) :
    OnCurve (ptAdd p q) ∧ ptAdd p q = ptAdd q p ∧ ptAdd (ptAdd p q) r = ptAdd p (ptAdd q r) ∧
    ptAdd p none = p ∧ ∃ p', OnCurve p' ∧ ptAdd p p' = none := by
  obtain ⟨s, rfl⟩ := (exists_ofPoint_iff p).mpr hp
  obtain ⟨t, rfl⟩ := (exists_ofPoint_iff q).mpr hq
  obtain ⟨u, rfl⟩ := (exists_ofPoint_iff r).mpr hr
  refine ⟨?_, ?_, ?_, ?_, ofPoint (-s), onCurve_ofPoint (-s), ?_⟩
  · rw [ptAdd_ofPoint]
    exact onCurve_ofPoint _
  · rw [ptAdd_ofPoint, ptAdd_ofPoint, add_comm]
  · rw [ptAdd_ofPoint, ptAdd_ofPoint, ptAdd_ofPoint, ptAdd_ofPoint, add_assoc]
  · rw [← ofPoint_zero, ptAdd_ofPoint, add_zero]
  · rw [ptAdd_ofPoint, add_neg_cancel, ofPoint_zero]

theorem ptAdd_group_generator :
    (OnCurve (some (GX, GY)) ∧ OnCurve none) ∧ OnCurve (ptAdd (some (GX, GY)) none) ∧
    ∃ p', OnCurve p' ∧ ptAdd (some (GX, GY)) p' = none :=
  have hg : OnCurve (some (GX, GY)) := by decide
  have h := ptAdd_group hg (show OnCurve none from trivial) hg
  ⟨⟨hg, trivial⟩, h.1, h.2.2.2.2⟩

theorem cast_eq_cast_iff (k l : ℤ) : (k : ZMod N) = l ↔ k % N = l % N :=
  ZMod.intCast_eq_intCast_iff' k l N

/-- The scalars of `pt_mul` are the residues of `N`, of which each finite point has as many multiples
as there are points. -/
theorem ptMul_scalars (k l : ℤ) {p q : Point} (hp : OnCurve p) (hq : OnCurve q) :
    OnCurve (ptMul k p) ∧ ptMul (k + l) p = ptAdd (ptMul k p) (ptMul l p) ∧
    ptMul (k * l) p = ptMul k (ptMul l p) ∧ ptMul 1 p = p ∧
    ptMul k (ptAdd p q) = ptAdd (ptMul k p) (ptMul k q) ∧
    (p ≠ none → (ptMul k p = ptMul l p ↔ k % N = l % N) ∧ ∃ j, ptMul j p = q) := by
  obtain ⟨s, rfl⟩ := (exists_ofPoint_iff p).mpr hp
  obtain ⟨t, rfl⟩ := (exists_ofPoint_iff q).mpr hq
  simp only [ptMul_ofPoint, ptAdd_ofPoint, Int.cast_add, Int.cast_mul, Int.cast_one, one_smul,
    smul_add, add_smul, mul_smul, onCurve_ofPoint, true_and]
  intro hne
  have hs : s ≠ 0 := fun hzero => hne (by rw [hzero, ofPoint_zero])
  constructor
  · rw [ofPoint_injective.eq_iff, ← cast_eq_cast_iff]
    exact (smul_left_injective (ZMod N) hs).eq_iff
  · obtain ⟨j, hj⟩ := @mem_multiples_of_prime_card _ _ N _ natCard_secp s t hs
    refine ⟨j, ?_⟩
    rw [Int.cast_natCast, Nat.cast_smul_eq_nsmul]
    exact congrArg ofPoint hj

theorem ptMul_scalars_generator :
    ptMul (2 * 3) (some (GX, GY)) = ptMul 2 (ptMul 3) ∧
    (ptMul 1 (some (GX, GY)) = ptMul (N + 1) (some (GX, GY)) ↔ 1 % (N : ℤ) = (N + 1) % N) :=
  have hg : OnCurve (some (GX, GY)) := by decide
  ⟨(ptMul_scalars 2 3 hg hg).2.2.1,
    ((ptMul_scalars 1 (N + 1) hg hg).2.2.2.2.2 (Option.some_ne_none _)).1⟩

/-- The bytes that `decompress` reads are those `compress` writes, except that it takes a coordinate
from `P` on for its residue; and each finite point is read back. -/
theorem keys_round_trip (b : Bytes) (x y : ℤ) :
    (decompress b = .ok (x, y) ↔
      OnCurve (some (x % P, y)) ∧ compress (some (x, y)) = .ok b) ∧
    (OnCurve (some (x, y)) →
      ∃ b, compress (some (x, y)) = .ok b ∧ b.length = 33 ∧ decompress b = .ok (x, y)) :=
  ⟨decompress_eq_ok_iff, decompress_of_onCurve⟩

end Verifier

end SignerOS
