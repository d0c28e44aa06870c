import Mathlib.Data.List.Basic
import Mathlib.Data.List.Nodup
import Mathlib.Data.List.ProdSigma
import Mathlib.Data.Nat.Bitwise
import Mathlib.Logic.Function.Iterate

/-!
# Checksums that respect exclusive or

A checksum that takes one symbol after another into a register: the register is fed back through a
function that respects exclusive or, and the symbol is added to it.

* `run_xor`, the registers of two words, and that of their difference;
* `run_eq_terms`, the register of a word, one symbol at a time;
* `Detects.run_ne`, words that differ in few symbols have different registers;
* `detects_of_distinct`, how to find out whether they do.
-/

namespace LinearChecksum

/-- `for v in values: c = L(c) ^ v`. -/
def run (L : ℕ → ℕ) (c : ℕ) (vs : List ℕ) : ℕ := vs.foldl (fun c v => L c ^^^ v) c

/-- The feedback respects exclusive or. -/
def Linear (L : ℕ → ℕ) : Prop := ∀ a b, L (a ^^^ b) = L a ^^^ L b

section
variable {L : ℕ → ℕ}

@[simp] theorem run_nil (c : ℕ) : run L c [] = c := rfl

@[simp] theorem run_cons (c v : ℕ) (vs : List ℕ) : run L c (v :: vs) = run L (L c ^^^ v) vs := rfl

theorem run_append (c : ℕ) (vs ws : List ℕ) : run L c (vs ++ ws) = run L (run L c vs) ws :=
  List.foldl_append

variable (hL : Linear L)
include hL

theorem Linear.zero : L 0 = 0 := by
  have h := hL 0 0
  rwa [Nat.xor_self, Nat.xor_self] at h

theorem Linear.iterate (n : ℕ) : Linear L^[n] := by
  induction n with
  | zero => exact fun a b => rfl
  | succ n ih =>
    intro a b
    rw [Function.iterate_succ_apply', ih, hL, ← Function.iterate_succ_apply' L,
      ← Function.iterate_succ_apply' L]

theorem run_xor {a b : ℕ} {vs ws : List ℕ} (hlength : vs.length = ws.length) :
    run L a vs ^^^ run L b ws = run L (a ^^^ b) (List.zipWith (· ^^^ ·) vs ws) := by
  induction vs generalizing a b ws with
  | nil =>
    rw [List.length_eq_zero_iff.mp hlength.symm]
    rfl
  | cons v vs ih =>
    cases ws with
    | nil => cases hlength
    | cons w ws =>
      rw [run_cons, run_cons, ih (Nat.succ.inj hlength), List.zipWith_cons_cons, run_cons, hL,
        Nat.xor_assoc, Nat.xor_assoc, Nat.xor_left_comm v]

/-- What the register holds before is fed back as often as there are symbols. -/
theorem run_eq_xor (c : ℕ) (vs : List ℕ) : run L c vs = L^[vs.length] c ^^^ run L 0 vs := by
  induction vs generalizing c with
  | nil => exact (Nat.xor_zero c).symm
  | cons v vs ih =>
    rw [run_cons, ih, run_cons, ih (L 0 ^^^ v), hL.zero, Nat.zero_xor, hL.iterate,
      List.length_cons, Function.iterate_succ_apply, Nat.xor_assoc]

end

/-! ## Symbols that are not zero -/

/-- The symbols that are not zero, with how many come after each of them. -/
def terms : List ℕ → List (ℕ × ℕ)
  | [] => []
  | v :: vs => if v = 0 then terms vs else (vs.length, v) :: terms vs

theorem length_terms (vs : List ℕ) : (terms vs).length = vs.countP (· ≠ 0) := by
  induction vs with
  | nil => rfl
  | cons v vs ih =>
    rw [terms]
    split
    · next hzero => rw [ih, List.countP_cons_of_neg (by simpa using hzero)]
    · next hne => rw [List.length_cons, ih, List.countP_cons_of_pos (by simpa using hne)]

theorem mem_terms {vs : List ℕ} {t : ℕ × ℕ} (h : t ∈ terms vs) :
    t.1 < vs.length ∧ t.2 ∈ vs ∧ t.2 ≠ 0 := by
  induction vs with
  | nil => exact absurd h List.not_mem_nil
  | cons v vs ih =>
    rw [terms] at h
    split at h
    · obtain ⟨hlt, hmem, hne⟩ := ih h
      exact ⟨Nat.lt_succ_of_lt hlt, List.mem_cons_of_mem _ hmem, hne⟩
    · next hv =>
      obtain rfl | h := List.mem_cons.mp h
      · exact ⟨Nat.lt_succ_self _, List.mem_cons_self, hv⟩
      · obtain ⟨hlt, hmem, hne⟩ := ih h
        exact ⟨Nat.lt_succ_of_lt hlt, List.mem_cons_of_mem _ hmem, hne⟩

theorem pairwise_terms (vs : List ℕ) : (terms vs).Pairwise fun t u => u.1 < t.1 := by
  induction vs with
  | nil => exact List.Pairwise.nil
  | cons v vs ih =>
    rw [terms]
    split
    · exact ih
    · exact List.Pairwise.cons (fun t ht => (mem_terms ht).1) ih

theorem terms_eq_nil_iff (vs : List ℕ) : terms vs = [] ↔ ∀ v ∈ vs, v = 0 := by
  induction vs with
  | nil => exact iff_of_true rfl fun v hv => absurd hv List.not_mem_nil
  | cons v vs ih =>
    rw [terms, List.forall_mem_cons]
    split
    · next hzero => rw [ih, and_iff_right hzero]
    · next hne => exact iff_of_false (List.cons_ne_nil _ _) fun h => hne h.1

variable {L : ℕ → ℕ}

/-- The register of a word. -/
theorem run_eq_terms (hL : Linear L) (vs : List ℕ) :
    run L 0 vs = (terms vs).foldr (fun t c => L^[t.1] t.2 ^^^ c) 0 := by
  induction vs with
  | nil => rfl
  | cons v vs ih =>
    rw [run_cons, hL.zero, Nat.zero_xor, terms]
    split
    · next hzero => rw [hzero, ih]
    · rw [run_eq_xor hL, List.foldr_cons, ih]

/-! ## Words that are close to each other -/

theorem lt_of_mem_zipWith_xor {k : ℕ} {vs ws : List ℕ} (hvs : ∀ v ∈ vs, v < 2 ^ k)
    (hws : ∀ w ∈ ws, w < 2 ^ k) : ∀ d ∈ List.zipWith (· ^^^ ·) vs ws, d < 2 ^ k := by
  induction vs generalizing ws with
  | nil => exact fun d hd => absurd hd List.not_mem_nil
  | cons v vs ih =>
    cases ws with
    | nil => exact fun d hd => absurd hd List.not_mem_nil
    | cons w ws =>
      rw [List.forall_mem_cons] at hvs hws
      rw [List.zipWith_cons_cons, List.forall_mem_cons]
      exact ⟨Nat.xor_lt_two_pow hvs.1 hws.1, ih hvs.2 hws.2⟩

theorem eq_of_zipWith_xor {vs ws : List ℕ} (hlength : vs.length = ws.length)
    (h : ∀ d ∈ List.zipWith (· ^^^ ·) vs ws, d = 0) : vs = ws := by
  induction vs generalizing ws with
  | nil => exact (List.length_eq_zero_iff.mp hlength.symm).symm
  | cons v vs ih =>
    cases ws with
    | nil => cases hlength
    | cons w ws =>
      rw [List.zipWith_cons_cons, List.forall_mem_cons, Nat.xor_eq_zero_iff] at h
      rw [h.1, ih (Nat.succ.inj hlength) h.2]

/-- The places in which two words differ. -/
def differences {α : Type*} [DecidableEq α] (as bs : List α) : ℕ :=
  (as.zip bs).countP fun p => p.1 ≠ p.2

theorem differences_xor (vs ws : List ℕ) :
    (List.zipWith (· ^^^ ·) vs ws).countP (· ≠ 0) = differences vs ws := by
  have hxor : List.zipWith (· ^^^ ·) vs ws = (vs.zip ws).map fun p => p.1 ^^^ p.2 := by
    rw [List.zip, List.map_zipWith]
  rw [hxor, List.countP_map, differences]
  exact List.countP_congr fun p _ => by simp

theorem differences_cons_self {α : Type*} [DecidableEq α] (a : α) (as bs : List α) :
    differences (a :: as) (a :: bs) = differences as bs := by
  rw [differences, List.zip_cons_cons, List.countP_cons_of_neg (by simp), differences]

theorem differences_append_left {α : Type*} [DecidableEq α] (as bs cs : List α) :
    differences (as ++ bs) (as ++ cs) = differences bs cs := by
  induction as with
  | nil => rfl
  | cons a as ih =>
    rw [List.cons_append, List.cons_append, differences_cons_self, ih]

/-- Symbols that are written as characters differ where the characters do. -/
theorem differences_map {α β : Type*} [DecidableEq α] [DecidableEq β] {f : α → β} {as bs : List α}
    (h : ∀ a ∈ as, ∀ b ∈ bs, f a = f b → a = b) :
    differences (as.map f) (bs.map f) = differences as bs := by
  rw [differences, List.zip_map, List.countP_map, differences]
  refine List.countP_congr fun p hp => ?_
  obtain ⟨ha, hb⟩ := List.of_mem_zip hp
  simpa using not_congr ⟨h _ ha _ hb, congrArg f⟩

/-- What keeps words apart that differ in up to three symbols of `k` bits among the last `n`: no
symbol that is fed back differs from another in its last `k` bits only. -/
structure Detects (L : ℕ → ℕ) (bits k n : ℕ) : Prop where
  linear : Linear L
  lt : ∀ c, L c < 2 ^ bits
  eq_zero : ∀ c < 2 ^ bits, L c = 0 → c = 0
  symbol : k ≤ bits
  high_ne_zero : ∀ a e, 1 ≤ a → a < n → 1 ≤ e → e < 2 ^ k → L^[a] e >>> k ≠ 0
  high_injective : ∀ a b e f, 1 ≤ a → a < n → 1 ≤ b → b < n → 1 ≤ e → e < 2 ^ k → 1 ≤ f →
    f < 2 ^ k → L^[a] e >>> k = L^[b] f >>> k → a = b

/-- A symbol, and how many come after it. -/
structure IsTerm (k n : ℕ) (t : ℕ × ℕ) : Prop where
  after : t.1 < n
  pos : 1 ≤ t.2
  lt : t.2 < 2 ^ k

namespace Detects

variable {bits k n : ℕ} (hD : Detects L bits k n)
include hD

theorem iterate_lt (a : ℕ) {x : ℕ} (hx : x < 2 ^ bits) : L^[a] x < 2 ^ bits := by
  cases a with
  | zero => exact hx
  | succ a =>
    rw [Function.iterate_succ_apply']
    exact hD.lt _

theorem iterate_eq_zero {a x : ℕ} (hx : x < 2 ^ bits) (h : L^[a] x = 0) : x = 0 := by
  induction a generalizing x with
  | zero => exact h
  | succ a ih => exact hD.eq_zero x hx (ih (hD.lt x) h)

theorem lt_of_isTerm {t : ℕ × ℕ} (ht : IsTerm k n t) : t.2 < 2 ^ bits :=
  Nat.lt_of_lt_of_le ht.lt (Nat.pow_le_pow_right (by omega) hD.symbol)

/-- With the later symbols taken as they are, what is fed back of the earlier ones is left. -/
theorem iterate_add_xor {a b x y : ℕ} (h : L^[a + b] x ^^^ L^[a] y = 0)
    (hx : x < 2 ^ bits) (hy : y < 2 ^ bits) : L^[b] x = y := by
  rw [Function.iterate_add_apply, ← hD.linear.iterate] at h
  exact Nat.xor_eq_zero_iff.mp (hD.iterate_eq_zero (Nat.xor_lt_two_pow (hD.iterate_lt b hx) hy) h)

theorem ne_of_two {t u : ℕ × ℕ} (ht : IsTerm k n t) (hu : IsTerm k n u) (hlt : u.1 < t.1) :
    L^[t.1] t.2 ^^^ L^[u.1] u.2 ≠ 0 := by
  intro h
  rw [show t.1 = u.1 + (t.1 - u.1) by omega] at h
  have heq := hD.iterate_add_xor h (hD.lt_of_isTerm ht) (hD.lt_of_isTerm hu)
  refine hD.high_ne_zero (t.1 - u.1) t.2 (by omega) (by have := ht.after; omega) ht.pos ht.lt ?_
  rw [heq, Nat.shiftRight_eq_div_pow, Nat.div_eq_of_lt hu.lt]

theorem ne_of_three {t u w : ℕ × ℕ} (ht : IsTerm k n t) (hu : IsTerm k n u) (hw : IsTerm k n w)
    (hut : u.1 < t.1) (hwu : w.1 < u.1) :
    L^[t.1] t.2 ^^^ (L^[u.1] u.2 ^^^ L^[w.1] w.2) ≠ 0 := by
  intro h
  have hta := ht.after
  have hua := hu.after
  -- everything is fed back as often as the last of the three
  have ht' := hD.lt_of_isTerm ht
  have hu' := hD.lt_of_isTerm hu
  have hw' := hD.lt_of_isTerm hw
  rw [show t.1 = w.1 + (t.1 - w.1) by omega, show u.1 = w.1 + (u.1 - w.1) by omega,
    Function.iterate_add_apply, Function.iterate_add_apply L w.1, ← hD.linear.iterate,
    ← hD.linear.iterate] at h
  have hzero := hD.iterate_eq_zero (Nat.xor_lt_two_pow (hD.iterate_lt _ ht')
    (Nat.xor_lt_two_pow (hD.iterate_lt _ hu') hw')) h
  have hhigh := congrArg (· >>> k) hzero
  rw [Nat.shiftRight_xor_distrib, Nat.shiftRight_xor_distrib, Nat.shiftRight_eq_zero _ _ hw.lt,
    Nat.xor_zero, Nat.zero_shiftRight, Nat.xor_eq_zero_iff] at hhigh
  have heq := hD.high_injective _ _ _ _ (by omega) (by omega) (by omega) (by omega) ht.pos ht.lt
    hu.pos hu.lt hhigh
  omega

/-- A word with one, two or three symbols that are not zero has a register that is not. -/
theorem run_ne_zero {ds : List ℕ} (hn : ds.length ≤ n) (hlt : ∀ d ∈ ds, d < 2 ^ k)
    (hne : ∃ d ∈ ds, d ≠ 0) (hfew : ds.countP (· ≠ 0) ≤ 3) : run L 0 ds ≠ 0 := by
  have hterm : ∀ t ∈ terms ds, IsTerm k n t := by
    intro t ht
    obtain ⟨hafter, hmem, hpos⟩ := mem_terms ht
    exact ⟨by omega, Nat.pos_of_ne_zero hpos, hlt _ hmem⟩
  have hpairs := pairwise_terms ds
  rw [← length_terms] at hfew
  rw [run_eq_terms hD.linear]
  match hterms : terms ds with
  | [] =>
    obtain ⟨d, hd, hd0⟩ := hne
    exact absurd ((terms_eq_nil_iff ds).mp hterms d hd) hd0
  | [t] =>
    rw [hterms, List.forall_mem_singleton] at hterm
    intro h
    rw [List.foldr_cons, List.foldr_nil, Nat.xor_zero] at h
    have hzero := hD.iterate_eq_zero (hD.lt_of_isTerm hterm) h
    have hpos := hterm.pos
    omega
  | [t, u] =>
    rw [hterms, List.forall_mem_cons, List.forall_mem_singleton] at hterm
    rw [hterms, List.pairwise_pair] at hpairs
    simpa using hD.ne_of_two hterm.1 hterm.2 hpairs
  | [t, u, w] =>
    rw [hterms, List.forall_mem_cons, List.forall_mem_cons, List.forall_mem_singleton] at hterm
    rw [hterms, List.pairwise_cons, List.forall_mem_cons, List.pairwise_pair] at hpairs
    simpa using hD.ne_of_three hterm.1 hterm.2.1 hterm.2.2 hpairs.1.1 hpairs.2
  | _ :: _ :: _ :: _ :: _ =>
    rw [hterms] at hfew
    simp only [List.length_cons] at hfew
    omega

/-- Words that differ in one, two or three symbols have different registers, whatever is in front
of them. -/
theorem run_ne {c : ℕ} {vs ws : List ℕ} (hlength : vs.length = ws.length) (hn : vs.length ≤ n)
    (hvs : ∀ v ∈ vs, v < 2 ^ k) (hws : ∀ w ∈ ws, w < 2 ^ k) (hne : vs ≠ ws)
    (hclose : differences vs ws ≤ 3) : run L c vs ≠ run L c ws := by
  intro heq
  have hzero : run L 0 (List.zipWith (· ^^^ ·) vs ws) = 0 := by
    have h := run_xor hD.linear (a := c) (b := c) hlength
    rw [heq, Nat.xor_self, Nat.xor_self] at h
    exact h.symm
  rw [← differences_xor] at hclose
  refine hD.run_ne_zero ?_ ?_ ?_ hclose hzero
  · rw [List.length_zipWith, ← hlength, Nat.min_self]
    exact hn
  · exact lt_of_mem_zipWith_xor hvs hws
  · by_contra hall
    push Not at hall
    exact hne (eq_of_zipWith_xor hlength hall)

end Detects

/-! ## The test of a feedback -/

/-- No two numbers have the same remainder, nor one that the mask has. -/
def distinct (m : ℕ) : ℕ → List ℕ → Bool
  | _, [] => true
  | mask, v :: vs => !mask.testBit (v % m) && distinct m (mask ||| 2 ^ (v % m)) vs

theorem of_distinct {m mask : ℕ} {vs : List ℕ} (h : distinct m mask vs = true) :
    vs.Nodup ∧ ∀ v ∈ vs, mask.testBit (v % m) = false := by
  induction vs generalizing mask with
  | nil => exact ⟨List.nodup_nil, fun v hv => absurd hv List.not_mem_nil⟩
  | cons v vs ih =>
    rw [distinct, Bool.and_eq_true, Bool.not_eq_true'] at h
    obtain ⟨hnodup, hmask⟩ := ih h.2
    simp only [Nat.testBit_or, Bool.or_eq_false_iff] at hmask
    refine ⟨List.nodup_cons.mpr ⟨fun hmem => ?_, hnodup⟩, List.forall_mem_cons.mpr ⟨h.1, ?_⟩⟩
    · have hbit := (hmask v hmem).2
      rw [Nat.testBit_two_pow_self] at hbit
      cases hbit
    · exact fun w hw => (hmask w hw).1

/-- What is fed back once, twice and so on. -/
def orbit (L : ℕ → ℕ) : ℕ → ℕ → List ℕ
  | _, 0 => []
  | x, turns + 1 => L x :: orbit L (L x) turns

theorem orbit_eq (L : ℕ → ℕ) (x turns : ℕ) :
    orbit L x turns = (List.range turns).map fun a => L^[a + 1] x := by
  induction turns generalizing x with
  | zero => rfl
  | succ turns ih =>
    rw [orbit, ih, List.range_succ_eq_map, List.map_cons, List.map_map]
    rfl

/-- All symbols but zero, fed back up to so many times, without their last `k` bits. -/
def highs (L : ℕ → ℕ) (k turns : ℕ) : List ℕ :=
  (List.range (2 ^ k - 1)).flatMap fun e => (orbit L (e + 1) turns).map (· >>> k)

theorem highs_eq (L : ℕ → ℕ) (k turns : ℕ) : highs L k turns =
    (List.range (2 ^ k - 1) ×ˢ List.range turns).map fun p => L^[p.2 + 1] (p.1 + 1) >>> k := by
  simp only [highs, orbit_eq, List.map_map, SProd.sprod, List.product, List.map_flatMap]
  rfl

theorem detects_of_distinct {bits k n m : ℕ} (hL : Linear L) (hlt : ∀ c, L c < 2 ^ bits)
    (hzero : ∀ c < 2 ^ bits, L c = 0 → c = 0) (hk : k ≤ bits)
    (h : distinct m 1 (highs L k (n - 1)) = true) : Detects L bits k n := by
  obtain ⟨hnodup, hmask⟩ := of_distinct h
  rw [highs_eq] at hnodup hmask
  have hmem {a e : ℕ} (ha : 1 ≤ a ∧ a < n) (he : 1 ≤ e ∧ e < 2 ^ k) :
      (e - 1, a - 1) ∈ List.range (2 ^ k - 1) ×ˢ List.range (n - 1) := by
    rw [List.mem_product, List.mem_range, List.mem_range]
    omega
  refine ⟨hL, hlt, hzero, hk, ?_, ?_⟩
  · intro a e ha1 ha he1 he hhigh
    have hbit := hmask _ (List.mem_map_of_mem (hmem ⟨ha1, ha⟩ ⟨he1, he⟩))
    rw [Nat.sub_add_cancel ha1, Nat.sub_add_cancel he1, hhigh, Nat.zero_mod] at hbit
    cases hbit
  · intro a b e f ha1 ha hb1 hb he1 he hf1 hf heq
    have hpair := List.inj_on_of_nodup_map hnodup (hmem ⟨ha1, ha⟩ ⟨he1, he⟩)
      (hmem ⟨hb1, hb⟩ ⟨hf1, hf⟩) (by
        rw [Nat.sub_add_cancel ha1, Nat.sub_add_cancel he1, Nat.sub_add_cancel hb1,
          Nat.sub_add_cancel hf1]
        exact heq)
    rw [Prod.mk.injEq] at hpair
    omega

end LinearChecksum
