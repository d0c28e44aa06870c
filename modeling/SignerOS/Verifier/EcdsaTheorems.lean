import SignerOS.Lib.Ecdsa
import SignerOS.Verifier.CurveTheorems

/-!
# The signatures of the verifier

* `ecdsaVerify_eq_ok_true_iff`, what is accepted, in the group;
* `signWith_eq`, what is signed with a nonce;
* `ecdsaVerify_iff_signWith`, that the two agree;
* `ecdsaSign_eq_ok_iff`, which nonce is taken.
-/

namespace SignerOS

namespace Verifier

open WeierstrassCurve.Affine (Point)

/-! ## The group -/

/-- The first coordinate, as a residue of `N`. -/
def abscissa : Secp → ZMod N
  | .zero => 0
  | .some x _ _ => (x.val : ZMod N)

theorem abscissa_neg (s : Secp) : abscissa (-s) = abscissa s := by
  cases s <;> rfl

/-- The two numbers of a signature, 32 bytes each. -/
def sigR (sig64 : Bytes) : ℕ := Der.natOf (sig64.take 32)

def sigS (sig64 : Bytes) : ℕ := Der.natOf (sig64.drop 32)

def sigOf (r s : ℕ) : Bytes := Der.bytesOf 32 r ++ Der.bytesOf 32 s

theorem length_sigOf (r s : ℕ) : (sigOf r s).length = 64 := by
  rw [sigOf, List.length_append, Der.length_bytesOf, Der.length_bytesOf]

theorem sigR_sigOf {r s : ℕ} (h : r < 256 ^ 32) : sigR (sigOf r s) = r := by
  rw [sigR, sigOf, List.take_left' (Der.length_bytesOf 32 r), Der.natOf_bytesOf, Nat.mod_eq_of_lt h]

theorem sigS_sigOf {r s : ℕ} (h : s < 256 ^ 32) : sigS (sigOf r s) = s := by
  rw [sigS, sigOf, List.drop_left' (Der.length_bytesOf 32 r), Der.natOf_bytesOf, Nat.mod_eq_of_lt h]

theorem sigOf_sigR_sigS {sig64 : Bytes} (h : sig64.length = 64) :
    sigOf (sigR sig64) (sigS sig64) = sig64 := by
  have htake : (sig64.take 32).length = 32 := by rw [List.length_take, h]; rfl
  have hdrop : (sig64.drop 32).length = 32 := by rw [List.length_drop, h]
  have hr : Der.bytesOf 32 (sigR sig64) = sig64.take 32 := by
    have h := Der.bytesOf_natOf (sig64.take 32)
    rwa [htake] at h
  have hs : Der.bytesOf 32 (sigS sig64) = sig64.drop 32 := by
    have h := Der.bytesOf_natOf (sig64.drop 32)
    rwa [hdrop] at h
  rw [sigOf, hr, hs, List.take_append_drop]

/-! ## What is accepted -/

theorem ofPoint_eq_none_iff (s : Secp) : ofPoint s = none ↔ s = 0 := by
  rw [← ofPoint_zero, ofPoint_injective.eq_iff]

/-- The comparison at the end of `ecdsa_verify`. -/
def compared (r : ℤ) : Point → Bool
  | none => false
  | some (x, _) => x % N == r

theorem compared_ofPoint (s : Secp) {r : ℤ} (hr : 0 ≤ r ∧ r < N) :
    compared r (ofPoint s) = true ↔ s ≠ 0 ∧ abscissa s = (r : ZMod N) := by
  cases s with
  | zero => exact iff_of_false Bool.false_ne_true fun h => h.1 rfl
  | some x y h =>
    have hx : ((x.val : ℤ) : ZMod N) = (x.val : ZMod N) := Int.cast_natCast _
    rw [and_iff_right (Point.some_ne_zero h), ofPoint, abscissa, ← hx,
      ZMod.intCast_eq_intCast_iff', Int.emod_eq_of_lt hr.1 hr.2]
    exact beq_iff_eq

/-- A number below `N` is zero exactly if its residue is. -/
theorem natCast_ne_zero_iff {n : ℕ} (h : n < N) : (n : ZMod N) ≠ 0 ↔ 1 ≤ n := by
  constructor
  · intro hne
    obtain rfl | hpos := Nat.eq_zero_or_pos n
    · exact absurd Nat.cast_zero hne
    · exact hpos
  · exact fun hpos => natCast_ne_zero hpos h

/-- The two scalars of `ecdsa_verify`. -/
theorem cast_scalar (a : ℤ) {s : ℕ} (hs : (s : ZMod N) ≠ 0) :
    ((a * Powering.powMod s (N - 2) N % N : ℤ) : ZMod N) = (s : ZMod N)⁻¹ * a := by
  rw [ZMod.intCast_mod, Int.cast_mul, Powering.cast_powMod, Int.cast_natCast, pow_sub_two hs,
    mul_comm]

/-- The point of `ecdsa_verify` is the one of the group. -/
theorem recovered_eq {q : Secp} {p : ℤ × ℤ} (hq : ofPoint q = some p) (z r : ℕ) {s : ℕ}
    (hs : (s : ZMod N) ≠ 0) :
    ptAdd (ptMul (z * Powering.powMod s (N - 2) N % N))
      (ptMul (r * Powering.powMod s (N - 2) N % N) (some p)) =
    ofPoint (Ecdsa.recovered generator q (z : ZMod N) r s) := by
  rw [ptMul_generator, ← hq, ptMul_ofPoint, ptAdd_ofPoint, cast_scalar _ hs, cast_scalar _ hs,
    Int.cast_natCast, Int.cast_natCast, Ecdsa.recovered]

/-- What is left to compare, once the key has been read and the two numbers are in range. -/
theorem ecdsaVerify_of_range {pubkey msg32 sig64 : Bytes} {p : ℤ × ℤ}
    (hkey : decompress pubkey = .ok p) (hr : 1 ≤ sigR sig64 ∧ sigR sig64 < N)
    (hs : 1 ≤ sigS sig64 ∧ sigS sig64 ≤ N / 2) :
    ecdsaVerify pubkey msg32 sig64 = .ok (compared (sigR sig64)
      (ptAdd (ptMul (Der.natOf msg32 * Powering.powMod (sigS sig64) (N - 2) N % N))
        (ptMul (sigR sig64 * Powering.powMod (sigS sig64) (N - 2) N % N) (some p)))) := by
  have hhalf : N / 2 < N := by decide
  have hrange : ¬ ¬ ((1 ≤ (Der.natOf (sig64.take 32) : ℤ) ∧ (Der.natOf (sig64.take 32) : ℤ) < N) ∧
      1 ≤ (Der.natOf (sig64.drop 32) : ℤ) ∧ (Der.natOf (sig64.drop 32) : ℤ) < N) := by
    rw [sigR] at hr
    rw [sigS] at hs
    omega
  have hlow : ¬ (Der.natOf (sig64.drop 32) : ℤ) > N / 2 := by
    rw [sigS] at hs
    omega
  rw [ecdsaVerify, hkey]
  dsimp only
  rw [if_neg hrange, if_neg hlow]
  simp only [bind, Except.bind]
  rw [← sigR, ← sigS]
  match ptAdd (ptMul (Der.natOf msg32 * Powering.powMod (sigS sig64) (N - 2) N % N))
    (ptMul (sigR sig64 * Powering.powMod (sigS sig64) (N - 2) N % N) (some p)) with
  | none => rfl
  | some _ => rfl

theorem range_of_ecdsaVerify {pubkey msg32 sig64 : Bytes}
    (h : ecdsaVerify pubkey msg32 sig64 = .ok true) :
    (1 ≤ sigR sig64 ∧ sigR sig64 < N) ∧ 1 ≤ sigS sig64 ∧ sigS sig64 ≤ N / 2 := by
  rw [ecdsaVerify] at h
  split at h
  · cases h
  · next hrange =>
    split at h
    · cases h
    · next hlow =>
      rw [← sigR, ← sigS] at hrange
      rw [← sigS] at hlow
      omega

/-- What is accepted, in the group. -/
theorem ecdsaVerify_eq_ok_true_iff {pubkey msg32 sig64 : Bytes} {p : ℤ × ℤ} {q : Secp}
    (hkey : decompress pubkey = .ok p) (hq : ofPoint q = some p) :
    ecdsaVerify pubkey msg32 sig64 = .ok true ↔
      sigR sig64 < N ∧ sigS sig64 ≤ N / 2 ∧
      Ecdsa.Accepts generator abscissa q (Der.natOf msg32 : ZMod N) (sigR sig64) (sigS sig64) := by
  have hhalf : N / 2 < N := by decide
  constructor
  · intro h
    obtain ⟨hr, hs⟩ := range_of_ecdsaVerify h
    have hr0 := (natCast_ne_zero_iff hr.2).mpr hr.1
    have hs0 := (natCast_ne_zero_iff (hs.2.trans_lt hhalf)).mpr hs.1
    rw [ecdsaVerify_of_range hkey hr hs, recovered_eq hq _ _ hs0, Except.ok.injEq,
      compared_ofPoint _ ⟨Int.natCast_nonneg _, by exact_mod_cast hr.2⟩, Int.cast_natCast] at h
    exact ⟨hr.2, hs.2, hr0, hs0, h.1, h.2⟩
  · rintro ⟨hr, hs, h⟩
    have hr0 := (natCast_ne_zero_iff hr).mp h.r_ne_zero
    have hs0 := (natCast_ne_zero_iff (hs.trans_lt hhalf)).mp h.s_ne_zero
    rw [ecdsaVerify_of_range hkey ⟨hr0, hr⟩ ⟨hs0, hs⟩, recovered_eq hq _ _ h.s_ne_zero,
      Except.ok.injEq, compared_ofPoint _ ⟨Int.natCast_nonneg _, by exact_mod_cast hr⟩,
      Int.cast_natCast]
    exact ⟨h.ne_zero, h.eq⟩

/-! ## What is signed -/

/-- Of a residue and its mirror image, the one in the lower half. -/
def lowered (s : ZMod N) : ZMod N := if s.val > N / 2 then -s else s

theorem lowered_eq_or (s : ZMod N) : lowered s = s ∨ lowered s = -s := by
  rw [lowered]
  split_ifs
  · exact Or.inr rfl
  · exact Or.inl rfl

theorem val_lowered_le (s : ZMod N) : (lowered s).val ≤ N / 2 := by
  rw [lowered]
  split_ifs with h
  · have hne : s ≠ 0 := by
      rintro rfl
      rw [ZMod.val_zero] at h
      exact absurd h (Nat.not_lt_zero _)
    have hodd : N % 2 = 1 := by decide
    rw [ZMod.neg_val, if_neg hne]
    omega
  · exact Nat.le_of_not_lt h

theorem lowered_of_le {s : ZMod N} (h : s.val ≤ N / 2) : lowered s = s :=
  if_neg (Nat.not_lt_of_le h)

/-- The number `ecdsa_sign` has for it. -/
theorem val_lowered {s : ZMod N} (hs : s ≠ 0) :
    (if (s.val : ℤ) > N / 2 then (N : ℤ) - s.val else s.val) = (lowered s).val := by
  have hlt := s.val_lt
  rw [lowered]
  by_cases h : s.val > N / 2
  · rw [if_pos h, if_pos (by omega), ZMod.neg_val, if_neg hs]
    omega
  · rw [if_neg h, if_neg (by omega)]

theorem val_lt_width (s : ZMod N) : s.val < 256 ^ 32 := by
  have hN : N < 256 ^ 32 := by decide
  exact s.val_lt.trans hN

theorem natCast_val_ne_zero_iff (s : ZMod N) : (s.val : ℤ) ≠ 0 ↔ s ≠ 0 := by
  rw [ne_eq, Int.natCast_eq_zero, ZMod.val_eq_zero]

/-- What is signed with a nonce is a signature in the group, if its two numbers are not 0. -/
theorem signWith_eq (priv msg32 : Bytes) {nonce : ℤ} (hnonce : 1 ≤ nonce ∧ nonce < N) :
    signWith priv msg32 nonce =
      if abscissa ((nonce : ZMod N) • generator) ≠ 0 ∧
        Ecdsa.signature generator abscissa (Der.natOf priv : ZMod N) (Der.natOf msg32) nonce ≠ 0
      then .ok (some (sigOf (abscissa ((nonce : ZMod N) • generator)).val (lowered (Ecdsa.signature
        generator abscissa (Der.natOf priv : ZMod N) (Der.natOf msg32) nonce)).val))
      else .ok none := by
  have hk : (nonce : ZMod N) ≠ 0 := by
    intro hzero
    rw [← Int.cast_zero] at hzero
    have heq := eq_of_cast_eq ⟨by omega, hnonce.2⟩ ⟨le_refl 0, by decide⟩ hzero
    omega
  have hne : (nonce : ZMod N) • generator ≠ 0 := smul_ne_zero hk (Point.some_ne_zero _)
  rw [signWith, Ecdsa.signature]
  dsimp only
  rw [if_pos hnonce, ptMul_generator]
  cases hpoint : (nonce : ZMod N) • generator with
  | zero => exact absurd hpoint hne
  | some x y h =>
    obtain ⟨r, hr⟩ : ∃ r, r = abscissa (.some x y h) := ⟨_, rfl⟩
    obtain ⟨s, hs⟩ : ∃ s, s = (nonce : ZMod N)⁻¹ * (Der.natOf msg32 + r * Der.natOf priv) :=
      ⟨_, rfl⟩
    have hrval : (x.val : ℤ) % N = r.val := emod_eq_val (by rw [hr, abscissa, Int.cast_natCast])
    have hsval : Powering.powMod nonce (N - 2) N * (Der.natOf msg32 + r.val * Der.natOf priv) % N
        = (s.val : ℤ) := by
      refine emod_eq_val ?_
      rw [Int.cast_mul, Int.cast_add, Int.cast_mul, Powering.cast_powMod, cast_val, Int.cast_natCast,
        Int.cast_natCast, hs, pow_sub_two hk]
    rw [ofPoint, ← hr, ← hs]
    dsimp only
    rw [hrval, hsval]
    have hr_iff := natCast_val_ne_zero_iff r
    have hs_iff := natCast_val_ne_zero_iff s
    by_cases hr0 : r ≠ 0
    · by_cases hs0 : s ≠ 0
      · rw [if_pos (hr_iff.mpr hr0), if_pos (hs_iff.mpr hs0), val_lowered hs0,
          if_pos (And.intro hr0 hs0), toBytes_natCast (val_lt_width r),
          toBytes_natCast (val_lt_width _)]
        rfl
      · rw [if_pos (hr_iff.mpr hr0), if_neg (mt hs_iff.mp hs0), if_neg fun h => hs0 h.2]
        rfl
    · rw [if_neg (mt hr_iff.mp hr0), if_neg fun h => hr0 h.1]
      rfl

theorem signWith_of_range {priv msg32 : Bytes} {nonce : ℤ} (h : ¬ (1 ≤ nonce ∧ nonce < N)) :
    signWith priv msg32 nonce = .ok none := by
  rw [signWith]
  exact if_neg h

/-- Every nonce gives a signature or none, and nothing is raised. -/
theorem exists_signWith (priv msg32 : Bytes) (nonce : ℤ) :
    ∃ sig, signWith priv msg32 nonce = .ok sig := by
  by_cases h : 1 ≤ nonce ∧ nonce < N
  · rw [signWith_eq priv msg32 h]
    split_ifs
    · exact ⟨_, rfl⟩
    · exact ⟨_, rfl⟩
  · exact ⟨_, signWith_of_range h⟩

theorem signWith_eq_ok_some_iff {priv msg32 sig : Bytes} {nonce : ℤ} :
    signWith priv msg32 nonce = .ok (some sig) ↔ (1 ≤ nonce ∧ nonce < N) ∧
      abscissa ((nonce : ZMod N) • generator) ≠ 0 ∧
      Ecdsa.signature generator abscissa (Der.natOf priv : ZMod N) (Der.natOf msg32) nonce ≠ 0 ∧
      sigOf (abscissa ((nonce : ZMod N) • generator)).val (lowered (Ecdsa.signature
        generator abscissa (Der.natOf priv : ZMod N) (Der.natOf msg32) nonce)).val = sig := by
  by_cases h : 1 ≤ nonce ∧ nonce < N
  · rw [signWith_eq priv msg32 h, and_iff_right h]
    split_ifs with hne
    · rw [and_iff_right hne.1, and_iff_right hne.2, Except.ok.injEq, Option.some.injEq]
    · refine iff_of_false (fun h => by cases h) fun h => hne ⟨h.1, h.2.1⟩
  · rw [signWith_of_range h]
    exact iff_of_false (fun h => by cases h) fun h' => h h'.1

/-! ## The two of them -/

/-- What is accepted for the key of `priv` is what some nonce signs. -/
theorem accepted_iff_exists_nonce {priv pubkey msg32 sig64 : Bytes} {p : ℤ × ℤ}
    (hkey : decompress pubkey = .ok p) (hpub : ptMul (Der.natOf priv) = some p)
    (hlength : sig64.length = 64) :
    ecdsaVerify pubkey msg32 sig64 = .ok true ↔
      ∃ nonce, signWith priv msg32 nonce = .ok (some sig64) := by
  rw [ptMul_generator, Int.cast_natCast] at hpub
  rw [ecdsaVerify_eq_ok_true_iff hkey hpub]
  constructor
  · rintro ⟨hr, hs, h⟩
    obtain ⟨hr0, hs0, k, hk, hx, hsig⟩ := Ecdsa.accepts_iff_exists_nonce.mp h
    have hhalf : N / 2 < N := by decide
    have hk0 : k ≠ 0 := by
      rintro rfl
      exact hk (zero_smul (ZMod N) generator)
    have hpos := (natCast_val_ne_zero_iff k).mpr hk0
    have hlt := k.val_lt
    refine ⟨(k.val : ℤ), signWith_eq_ok_some_iff.mpr ⟨⟨by omega, by omega⟩, ?_⟩⟩
    rw [cast_val, hx, hsig]
    refine ⟨hr0, hs0, ?_⟩
    have hsval : ((sigS sig64 : ℕ) : ZMod N).val = sigS sig64 :=
      ZMod.val_natCast_of_lt (hs.trans_lt hhalf)
    rw [lowered_of_le (hsval.symm ▸ hs), hsval, ZMod.val_natCast_of_lt hr, sigOf_sigR_sigS hlength]
  · rintro ⟨nonce, h⟩
    obtain ⟨hnonce, hr, hs, rfl⟩ := signWith_eq_ok_some_iff.mp h
    have hne : (nonce : ZMod N) • generator ≠ 0 := fun hzero => hr (by rw [hzero]; rfl)
    have haccepts := Ecdsa.accepts_signature hne hr hs
    rw [sigR_sigOf (val_lt_width _), sigS_sigOf (val_lt_width _), ZMod.natCast_zmod_val,
      ZMod.natCast_zmod_val]
    refine ⟨ZMod.val_lt _, val_lowered_le _, ?_⟩
    -- the lower half is as good as the upper one
    obtain heq | heq := lowered_eq_or (Ecdsa.signature generator abscissa
      (Der.natOf priv : ZMod N) (Der.natOf msg32) nonce)
    · rw [heq]
      exact haccepts
    · rw [heq]
      exact (Ecdsa.accepts_neg_iff abscissa_neg).mpr haccepts

/-- A key that is not a multiple of `N` has a public key, which is read back. -/
theorem exists_pubkey {priv : Bytes} (h : Der.natOf priv % N ≠ 0) :
    ∃ p pubkey, ptMul (Der.natOf priv) = some p ∧ compress (some p) = .ok pubkey ∧
      pubkey.length = 33 ∧ decompress pubkey = .ok p := by
  have hne : (Der.natOf priv : ZMod N) • generator ≠ 0 := by
    refine smul_ne_zero ?_ (Point.some_ne_zero _)
    rw [ne_eq, ZMod.natCast_eq_zero_iff, Nat.dvd_iff_mod_eq_zero]
    exact h
  have hmul : ptMul (Der.natOf priv) = ofPoint ((Der.natOf priv : ZMod N) • generator) := by
    rw [ptMul_generator, Int.cast_natCast]
  obtain ⟨p, hp⟩ := Option.ne_none_iff_exists'.mp (mt (ofPoint_eq_none_iff _).mp hne)
  have hcurve : OnCurve (some p) := hp ▸ onCurve_ofPoint _
  obtain ⟨pubkey, hpubkey, hlength, hread⟩ := decompress_of_onCurve hcurve
  exact ⟨p, pubkey, hmul.trans hp, hpubkey, hlength, hread⟩

/-! ## The nonces -/

section
variable (hmacSha256 : Bytes → Bytes → Bytes)

/-- From one turn of the loop to the next. -/
def nextState (s : Bytes × Bytes) : Bytes × Bytes :=
  let v := hmacSha256 s.1 s.2
  let k := hmacSha256 s.1 (v ++ [0x00])
  (k, hmacSha256 k v)

/-- The nonce of a turn. -/
def nonceOf (s : Bytes × Bytes) (i : ℕ) : ℤ :=
  let s := (nextState hmacSha256)^[i] s
  Der.natOf (hmacSha256 s.1 s.2)

/-- The state the loop begins with. -/
def firstState (priv msg32 : Bytes) : Bytes × Bytes :=
  let v := List.replicate 32 0x01
  let k := hmacSha256 (List.replicate 32 0x00) (v ++ [0x00] ++ priv ++ msg32)
  let v := hmacSha256 k v
  let k := hmacSha256 k (v ++ [0x01] ++ priv ++ msg32)
  (k, hmacSha256 k v)

theorem nonceOf_succ (s : Bytes × Bytes) (i : ℕ) :
    nonceOf hmacSha256 s (i + 1) = nonceOf hmacSha256 (nextState hmacSha256 s) i := by
  rw [nonceOf, nonceOf, Function.iterate_succ_apply]

/-- No nonce of the first turns gives a signature. -/
def NoneUntil (priv msg32 : Bytes) (s : Bytes × Bytes) (turns : ℕ) : Prop :=
  ∀ i < turns, signWith priv msg32 (nonceOf hmacSha256 s i) = .ok none

theorem noneUntil_succ {priv msg32 : Bytes} {s : Bytes × Bytes} {turns : ℕ}
    (hfirst : signWith priv msg32 (nonceOf hmacSha256 s 0) = .ok none)
    (h : NoneUntil hmacSha256 priv msg32 (nextState hmacSha256 s) turns) :
    NoneUntil hmacSha256 priv msg32 s (turns + 1) := by
  intro i hi
  cases i with
  | zero => exact hfirst
  | succ i =>
    rw [nonceOf_succ]
    exact h i (Nat.lt_of_succ_lt_succ hi)

/-- The first nonce that gives a signature is taken. -/
theorem signLoop_cases (priv msg32 : Bytes) (turns : ℕ) (s : Bytes × Bytes) :
    (∃ i < turns, ∃ sig, signWith priv msg32 (nonceOf hmacSha256 s i) = .ok (some sig) ∧
      NoneUntil hmacSha256 priv msg32 s i ∧
      signLoop hmacSha256 priv msg32 turns s.1 s.2 = .ok sig) ∨
    NoneUntil hmacSha256 priv msg32 s turns ∧
      signLoop hmacSha256 priv msg32 turns s.1 s.2 = .error .unfinished := by
  induction turns generalizing s with
  | zero => exact Or.inr ⟨fun i hi => absurd hi (Nat.not_lt_zero i), rfl⟩
  | succ turns ih =>
    have hzero : nonceOf hmacSha256 s 0 = Der.natOf (hmacSha256 s.1 s.2) := rfl
    obtain ⟨found, hfound⟩ := exists_signWith priv msg32 (nonceOf hmacSha256 s 0)
    cases found with
    | some sig =>
      refine Or.inl ⟨0, Nat.succ_pos _, sig, hfound, fun i hi => absurd hi (Nat.not_lt_zero i), ?_⟩
      rw [signLoop, ← hzero, hfound]
      rfl
    | none =>
      have hnext : signLoop hmacSha256 priv msg32 (turns + 1) s.1 s.2 =
          signLoop hmacSha256 priv msg32 turns (nextState hmacSha256 s).1
            (nextState hmacSha256 s).2 := by
        rw [signLoop, ← hzero, hfound]
        rfl
      rw [hnext]
      obtain ⟨i, hi, sig, hsig, hbefore, hok⟩ | ⟨hbefore, herror⟩ := ih (nextState hmacSha256 s)
      · rw [← nonceOf_succ] at hsig
        exact Or.inl ⟨i + 1, Nat.succ_lt_succ hi, sig, hsig,
          noneUntil_succ hmacSha256 hfound hbefore, hok⟩
      · exact Or.inr ⟨noneUntil_succ hmacSha256 hfound hbefore, herror⟩

theorem ecdsaSign_eq (turns : ℕ) (priv msg32 : Bytes) :
    ecdsaSign hmacSha256 turns priv msg32 = signLoop hmacSha256 priv msg32 turns
      (firstState hmacSha256 priv msg32).1 (firstState hmacSha256 priv msg32).2 := rfl

end

/-! ## Signing and verifying -/

/-- For the public key of `priv`, exactly the signatures are accepted that some nonce gives. -/
theorem ecdsaVerify_exact {priv : Bytes} (h : Der.natOf priv % N ≠ 0) :
    ∃ p pubkey, ptMul (Der.natOf priv) = some p ∧ compress (some p) = .ok pubkey ∧
      ∀ msg32 sig64 : Bytes, sig64.length = 64 →
        (ecdsaVerify pubkey msg32 sig64 = .ok true ↔
          ∃ nonce, signWith priv msg32 nonce = .ok (some sig64)) := by
  obtain ⟨p, pubkey, hpub, hpubkey, -, hread⟩ := exists_pubkey h
  exact ⟨p, pubkey, hpub, hpubkey, fun _ _ => accepted_iff_exists_nonce hread hpub⟩

theorem ecdsaVerify_exact_one : Der.natOf [1] % N ≠ 0 ∧
    ∃ p pubkey, ptMul (Der.natOf [1]) = some p ∧ compress (some p) = .ok pubkey ∧
      ∀ msg32 sig64 : Bytes, sig64.length = 64 →
        (ecdsaVerify pubkey msg32 sig64 = .ok true ↔
          ∃ nonce, signWith [1] msg32 nonce = .ok (some sig64)) :=
  have h : Der.natOf [1] % N ≠ 0 := by decide
  ⟨h, ecdsaVerify_exact h⟩

/-- Nothing is raised before the loop ends, and what it returns is what the first nonce gives that
can be used, is 64 bytes long, and is accepted for the public key. -/
theorem ecdsaSign_accepted (hmacSha256 : Bytes → Bytes → Bytes) (turns : ℕ) (priv msg32 : Bytes) :
    (NoneUntil hmacSha256 priv msg32 (firstState hmacSha256 priv msg32) turns ∧
      ecdsaSign hmacSha256 turns priv msg32 = .error .unfinished) ∨
    ∃ i < turns, ∃ sig64, ecdsaSign hmacSha256 turns priv msg32 = .ok sig64 ∧
      NoneUntil hmacSha256 priv msg32 (firstState hmacSha256 priv msg32) i ∧
      signWith priv msg32 (nonceOf hmacSha256 (firstState hmacSha256 priv msg32) i)
        = .ok (some sig64) ∧
      sig64.length = 64 ∧
      (Der.natOf priv % N ≠ 0 → ∃ p pubkey, ptMul (Der.natOf priv) = some p ∧
        compress (some p) = .ok pubkey ∧ ecdsaVerify pubkey msg32 sig64 = .ok true) := by
  rw [ecdsaSign_eq]
  obtain ⟨i, hi, sig, hsig, hbefore, hok⟩ | ⟨hbefore, herror⟩ :=
    signLoop_cases hmacSha256 priv msg32 turns (firstState hmacSha256 priv msg32)
  · have hlength : sig.length = 64 := by
      obtain ⟨-, -, -, rfl⟩ := signWith_eq_ok_some_iff.mp hsig
      exact length_sigOf _ _
    refine Or.inr ⟨i, hi, sig, hok, hbefore, hsig, hlength, fun hpriv => ?_⟩
    obtain ⟨p, pubkey, hpub, hpubkey, -, hread⟩ := exists_pubkey hpriv
    exact ⟨p, pubkey, hpub, hpubkey,
      (accepted_iff_exists_nonce hread hpub hlength).mpr ⟨_, hsig⟩⟩
  · exact Or.inl ⟨hbefore, herror⟩

end Verifier

end SignerOS
