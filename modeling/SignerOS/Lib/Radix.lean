import Mathlib.Data.List.TakeWhile
import Mathlib.Data.Nat.Digits.Lemmas

/-!
# Digits in another base

A list of digits, the most significant first, is a number with so many zeros ahead of it. Writing
the number in another base and keeping the zeros loses nothing.

* `digits_reverse_ofDigits`, the digits of a number that has no zeros ahead of it;
* `recode_recode`, the way there and back;
* `value_injective`, digits that are as many and stand for the same number;
* `readDigits_eq_some_iff`, digits as characters of an alphabet.
-/

namespace Radix

/-- The zeros ahead of the first digit that counts. -/
def zeros (ds : List ℕ) : ℕ := (ds.takeWhile (· == 0)).length

/-- The number. -/
def value (b : ℕ) (ds : List ℕ) : ℕ := Nat.ofDigits b ds.reverse

/-- The same in another base. -/
def recode (b c : ℕ) (ds : List ℕ) : List ℕ :=
  List.replicate (zeros ds) 0 ++ (Nat.digits c (value b ds)).reverse

/-- A list that begins with a digit that counts, or is empty. -/
def Significant (ds : List ℕ) : Prop := ∀ d ∈ ds.head?, d ≠ 0

variable {b c : ℕ}

@[simp] theorem zeros_cons_zero (ds : List ℕ) : zeros (0 :: ds) = zeros ds + 1 := rfl

theorem zeros_cons_of_ne {d : ℕ} (h : d ≠ 0) (ds : List ℕ) : zeros (d :: ds) = 0 := by
  rw [zeros, List.takeWhile_cons_of_neg (by simpa using h), List.length_nil]

theorem value_concat (ds : List ℕ) (d : ℕ) : value b (ds ++ [d]) = d + b * value b ds := by
  rw [value, List.reverse_append, List.reverse_singleton, List.singleton_append, Nat.ofDigits_cons,
    value]

theorem takeWhile_zero (ds : List ℕ) :
    ds.takeWhile (· == 0) = List.replicate (zeros ds) 0 := by
  rw [zeros, List.eq_replicate_iff]
  refine ⟨rfl, fun d hd => ?_⟩
  have hzero := List.mem_takeWhile_imp hd
  exact eq_of_beq hzero

theorem replicate_append_dropWhile (ds : List ℕ) :
    List.replicate (zeros ds) 0 ++ ds.dropWhile (· == 0) = ds := by
  rw [← takeWhile_zero, List.takeWhile_append_dropWhile]

/-- Zeros ahead do not count. -/
theorem value_replicate_append (z : ℕ) (ds : List ℕ) :
    value b (List.replicate z 0 ++ ds) = value b ds := by
  rw [value, List.reverse_append, List.reverse_replicate, Nat.ofDigits_append_replicate_zero, value]

theorem zeros_replicate_append {ds : List ℕ} (z : ℕ) (h : Significant ds) :
    zeros (List.replicate z 0 ++ ds) = z := by
  have hnone : ds.takeWhile (· == 0) = [] := by
    cases ds with
    | nil => rfl
    | cons d ds => exact List.takeWhile_cons_of_neg (by simpa using h d rfl)
  rw [zeros, List.takeWhile_append_of_pos (by simp), hnone, List.append_nil, List.length_replicate]

theorem significant_digits (n : ℕ) : Significant (Nat.digits c n).reverse := by
  intro d hd
  rw [List.head?_reverse] at hd
  have hne : Nat.digits c n ≠ [] := by
    intro hnil
    rw [hnil] at hd
    cases hd
  rw [List.getLast?_eq_some_getLast hne, Option.mem_some_iff] at hd
  rw [← hd]
  exact Nat.getLast_digit_ne_zero c (Nat.digits_ne_nil_iff_ne_zero.mp hne)

theorem significant_dropWhile (ds : List ℕ) : Significant (ds.dropWhile (· == 0)) := by
  intro d hd hzero
  have hhead := List.head?_dropWhile_not (· == 0) ds
  rw [Option.mem_def] at hd
  rw [hd, hzero] at hhead
  cases hhead

/-- The digits of the number a list stands for are those of the list. -/
theorem digits_value {ds : List ℕ} (hb : 1 < b) (hlt : ∀ d ∈ ds, d < b) (h : Significant ds) :
    (Nat.digits b (value b ds)).reverse = ds := by
  have hlast : ∀ hne : ds.reverse ≠ [], ds.reverse.getLast hne ≠ 0 := by
    intro hne
    refine h _ ?_
    rw [List.getLast_reverse]
    exact List.head?_eq_some_head _
  rw [value, Nat.digits_ofDigits b hb _ (fun d hd => hlt d (List.mem_reverse.mp hd)) hlast,
    List.reverse_reverse]

theorem value_recode (ds : List ℕ) : value c (recode b c ds) = value b ds := by
  rw [recode, value_replicate_append, value, List.reverse_reverse, Nat.ofDigits_digits]

theorem zeros_recode (ds : List ℕ) : zeros (recode b c ds) = zeros ds :=
  zeros_replicate_append _ (significant_digits _)

theorem lt_of_mem_recode {ds : List ℕ} (hc : 1 < c) : ∀ d ∈ recode b c ds, d < c := by
  intro d hd
  obtain h | h := List.mem_append.mp hd
  · rw [List.eq_of_mem_replicate h]
    omega
  · exact Nat.digits_lt_base hc (List.mem_reverse.mp h)

/-- Nothing is lost. -/
theorem recode_recode {ds : List ℕ} (hb : 1 < b) (hlt : ∀ d ∈ ds, d < b) :
    recode c b (recode b c ds) = ds := by
  have hvalue : value b ds = value b (ds.dropWhile (· == 0)) := by
    conv_lhs => rw [← replicate_append_dropWhile ds, value_replicate_append]
  have hdrop : ∀ d ∈ ds.dropWhile (· == 0), d < b :=
    fun d hd => hlt d ((List.dropWhile_sublist _).subset hd)
  rw [recode, zeros_recode, value_recode, hvalue,
    digits_value hb hdrop (significant_dropWhile ds), replicate_append_dropWhile]

/-! ## As many digits -/

theorem value_lt (hb : 1 < b) {ds : List ℕ} (h : ∀ d ∈ ds, d < b) : value b ds < b ^ ds.length := by
  rw [value, ← List.length_reverse]
  exact Nat.ofDigits_lt_base_pow_length hb fun d hd => h d (List.mem_reverse.mp hd)

theorem value_injective (hb : 1 < b) {ds ds' : List ℕ} (hlength : ds.length = ds'.length)
    (h : ∀ d ∈ ds, d < b) (h' : ∀ d ∈ ds', d < b) (heq : value b ds = value b ds') : ds = ds' := by
  refine List.reverse_injective (Nat.ofDigits_inj_of_len_eq hb ?_ ?_ ?_ heq)
  · rw [List.length_reverse, List.length_reverse, hlength]
  · exact fun d hd => h d (List.mem_reverse.mp hd)
  · exact fun d hd => h' d (List.mem_reverse.mp hd)

/-- The last digits of a number. -/
def fixed (b : ℕ) : ℕ → ℕ → List ℕ
  | 0, _ => []
  | width + 1, n => fixed b width (n / b) ++ [n % b]

theorem length_fixed (width n : ℕ) : (fixed b width n).length = width := by
  induction width generalizing n with
  | zero => rfl
  | succ width ih => rw [fixed, List.length_append, ih, List.length_singleton]

theorem lt_of_mem_fixed (hb : 0 < b) {width n : ℕ} : ∀ d ∈ fixed b width n, d < b := by
  induction width generalizing n with
  | zero => exact fun d hd => absurd hd List.not_mem_nil
  | succ width ih =>
    intro d hd
    obtain h | h := List.mem_append.mp hd
    · exact ih d h
    · rw [List.mem_singleton.mp h]
      exact Nat.mod_lt n hb

theorem value_fixed (width n : ℕ) : value b (fixed b width n) = n % b ^ width := by
  induction width generalizing n with
  | zero =>
    rw [pow_zero, Nat.mod_one]
    rfl
  | succ width ih => rw [fixed, value_concat, ih, pow_succ' b, Nat.mod_mul]

/-! ## Alphabets -/

/-- The character of a digit. -/
def char (alphabet : List Char) (d : ℕ) : Char := alphabet.getD d ' '

/-- The digit of a character. -/
def digit (alphabet : List Char) (ch : Char) : Option ℕ :=
  if ch ∈ alphabet then some (alphabet.idxOf ch) else none

/-- The digits of a text, if all its characters have one. -/
def readDigits (alphabet cs : List Char) : Option (List ℕ) := cs.mapM (digit alphabet)

variable {alphabet : List Char}

theorem digit_eq_some_iff (h : alphabet.Nodup) {ch : Char} {d : ℕ} :
    digit alphabet ch = some d ↔ d < alphabet.length ∧ char alphabet d = ch := by
  rw [digit]
  constructor
  · intro hd
    split_ifs at hd with hmem
    rw [← Option.some.inj hd, char, List.getD_eq_getElem?_getD, List.getElem?_idxOf hmem]
    exact ⟨List.idxOf_lt_length_iff.mpr hmem, rfl⟩
  · rintro ⟨hlt, rfl⟩
    rw [char, List.getD_eq_getElem?_getD, List.getElem?_eq_getElem hlt, Option.getD_some,
      if_pos (List.getElem_mem hlt), h.idxOf_getElem _ hlt]

theorem readDigits_eq_some_iff (h : alphabet.Nodup) {cs : List Char} {ds : List ℕ} :
    readDigits alphabet cs = some ds ↔
      (∀ d ∈ ds, d < alphabet.length) ∧ ds.map (char alphabet) = cs := by
  rw [readDigits]
  induction cs generalizing ds with
  | nil =>
    rw [List.mapM_nil, List.map_eq_nil_iff]
    constructor
    · rintro ⟨⟩
      exact ⟨fun d hd => absurd hd List.not_mem_nil, rfl⟩
    · rintro ⟨-, rfl⟩
      rfl
  | cons ch cs ih =>
    rw [List.mapM_cons]
    simp only [Option.bind_eq_bind, Option.bind_eq_some_iff, Option.pure_def, Option.some.injEq,
      digit_eq_some_iff h, ih]
    constructor
    · rintro ⟨d, ⟨hd, rfl⟩, ds, ⟨hds, rfl⟩, rfl⟩
      exact ⟨List.forall_mem_cons.mpr ⟨hd, hds⟩, rfl⟩
    · rintro ⟨hds, hmap⟩
      cases ds with
      | nil => cases hmap
      | cons d ds =>
        obtain ⟨hd, hrest⟩ := List.cons.inj hmap
        rw [List.forall_mem_cons] at hds
        exact ⟨d, ⟨hds.1, hd⟩, ds, ⟨hds.2, hrest⟩, rfl⟩

theorem map_char_injective (h : alphabet.Nodup) {ds ds' : List ℕ} (hds : ∀ d ∈ ds, d < alphabet.length)
    (hds' : ∀ d ∈ ds', d < alphabet.length) (heq : ds.map (char alphabet) = ds'.map (char alphabet)) :
    ds = ds' :=
  Option.some.inj (((readDigits_eq_some_iff h).mpr ⟨hds, heq⟩).symm.trans
    ((readDigits_eq_some_iff h).mpr ⟨hds', rfl⟩))

end Radix
