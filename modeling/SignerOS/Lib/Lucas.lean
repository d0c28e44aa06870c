import SignerOS.Lib.Powering
import Mathlib.NumberTheory.LucasPrimality
import Mathlib.Data.List.Prime

/-!
# Large primes

Lucas's test shows that a number is prime from the prime factors of its predecessor. A certificate
is a list of such tests, in which each number is a factor the later ones may rely on; small factors
are tried by division.

* `Test.prime_of_passes`, one test;
* `prime_of_allPass`, all numbers of a certificate.
-/

namespace Lucas

/-! ## Small factors -/

/-- No number from `d` on divides `n`, as far as the square root. -/
def noDivisor : ℕ → ℕ → ℕ → Bool
  | 0, _, _ => false
  | turns + 1, d, n => n < d * d || (n % d != 0 && noDivisor turns (d + 1) n)

theorem not_dvd_of_noDivisor {turns d n : ℕ} (h : noDivisor turns d n = true) :
    ∀ m, d ≤ m → m * m ≤ n → ¬ m ∣ n := by
  induction turns generalizing d with
  | zero => cases h
  | succ turns ih =>
    intro m hdm hmn hdvd
    rw [noDivisor, Bool.or_eq_true, Bool.and_eq_true, decide_eq_true_iff, bne_iff_ne] at h
    obtain hlt | ⟨hmod, hrest⟩ := h
    · have hsq : d * d ≤ m * m := Nat.mul_le_mul hdm hdm
      omega
    · obtain rfl | hne := eq_or_ne d m
      · exact hmod (Nat.mod_eq_zero_of_dvd hdvd)
      · exact ih hrest m (by omega) hmn hdvd

def isSmallPrime (n : ℕ) : Bool := 2 ≤ n && noDivisor 1000 2 n

theorem prime_of_isSmallPrime {n : ℕ} (h : isSmallPrime n = true) : n.Prime := by
  rw [isSmallPrime, Bool.and_eq_true, decide_eq_true_iff] at h
  refine Nat.prime_def_le_sqrt.mpr ⟨h.1, fun m hm hsqrt => ?_⟩
  exact not_dvd_of_noDivisor h.2 m hm (Nat.le_sqrt.mp hsqrt)

/-! ## Certificates -/

/-- A number, a base, and the prime factors of the number's predecessor. -/
structure Test where
  number : ℕ
  base : ℕ
  factors : List ℕ

namespace Test

/-- The number's predecessor is the product of the factors, which are small or known, and the base
has exactly this order. -/
def passes (known : List ℕ) (t : Test) : Bool :=
  2 ≤ t.number && t.factors.prod == t.number - 1 &&
    t.factors.all (fun q => known.contains q || isSmallPrime q) &&
    Powering.powMod t.base (t.number - 1) t.number == 1 &&
    t.factors.all fun q => Powering.powMod t.base ((t.number - 1) / q) t.number != 1

theorem prime_of_passes {known : List ℕ} {t : Test} (hknown : ∀ q ∈ known, q.Prime)
    (h : t.passes known = true) : t.number.Prime := by
  rw [passes] at h
  simp only [Bool.and_eq_true, Bool.or_eq_true, decide_eq_true_iff, beq_iff_eq, bne_iff_ne,
    List.all_eq_true, List.contains_iff_mem] at h
  obtain ⟨⟨⟨⟨htwo, hprod⟩, hfactors⟩, hone⟩, hne⟩ := h
  have hprime : ∀ q ∈ t.factors, q.Prime :=
    fun q hq => (hfactors q hq).elim (hknown q) prime_of_isSmallPrime
  -- a power of the base is 1 among the residues exactly if it is evaluated to 1
  have hpow (e : ℕ) : ((t.base : ℕ) : ZMod t.number) ^ e = 1
      ↔ Powering.powMod t.base e t.number = 1 := by
    rw [Powering.powMod_eq, ← Nat.cast_pow, ← Nat.cast_one, ZMod.natCast_eq_natCast_iff',
      Nat.mod_eq_of_lt htwo]
    exact_mod_cast Iff.rfl
  refine lucas_primality t.number (t.base : ℕ) ((hpow _).mpr hone) fun q hq hdvd => ?_
  rw [← hprod] at hdvd
  obtain ⟨q', hmem, hdvd'⟩ := (Prime.dvd_prod_iff hq.prime).mp hdvd
  obtain rfl := (Nat.prime_dvd_prime_iff_eq hq (hprime q' hmem)).mp hdvd'
  rw [ne_eq, hpow]
  exact hne q hmem

end Test

/-- Each test passes, with the numbers of those before it. -/
def allPass (known : List ℕ) : List Test → Bool
  | [] => true
  | t :: ts => t.passes known && allPass (t.number :: known) ts

theorem prime_of_allPass {known : List ℕ} {ts : List Test} (hknown : ∀ q ∈ known, q.Prime)
    (h : allPass known ts = true) : ∀ t ∈ ts, t.number.Prime := by
  induction ts generalizing known with
  | nil => exact fun t ht => absurd ht List.not_mem_nil
  | cons t ts ih =>
    rw [allPass, Bool.and_eq_true] at h
    have hprime := Test.prime_of_passes hknown h.1
    refine List.forall_mem_cons.mpr ⟨hprime, ih ?_ h.2⟩
    exact List.forall_mem_cons.mpr ⟨hprime, hknown⟩

end Lucas
