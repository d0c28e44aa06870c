import Mathlib.Data.Nat.Digits.Defs
import Mathlib.Data.List.Induction
import Mathlib.Tactic.Ring

/-!
# Elements of DER

An element is a tag, the length of its content, and the content. A length below 128 is one byte; a
longer one is the number of its bytes, with the top bit set, and these bytes.

* `natOf` and `bytesOf`, numbers with their most significant byte first;
* `natOf_lt_iff`, how many bytes of a number count;
* `element_of_lt` and `octets_of_le`, the two forms of a length.
-/

namespace Der

/-! ## Numbers -/

/-- The number the bytes stand for, most significant first. -/
def natOf (bs : List UInt8) : ℕ := bs.foldl (fun n b => 256 * n + b.toNat) 0

/-- The last `width` bytes of a number, most significant first. -/
def bytesOf : ℕ → ℕ → List UInt8
  | 0, _ => []
  | width + 1, n => bytesOf width (n / 256) ++ [UInt8.ofNat n]

/-- The bytes behind the zeros. -/
def significant (bs : List UInt8) : List UInt8 := bs.dropWhile (· == 0)

/-- With the bound as a numeral. -/
theorem toNat_ofNat_of_lt {n : ℕ} (h : n < 256) : (UInt8.ofNat n).toNat = n :=
  UInt8.toNat_ofNat_of_lt' h

theorem natOf_concat (bs : List UInt8) (b : UInt8) :
    natOf (bs ++ [b]) = 256 * natOf bs + b.toNat := by
  rw [natOf, List.foldl_append]
  rfl

theorem natOf_cons (b : UInt8) (bs : List UInt8) :
    natOf (b :: bs) = b.toNat * 256 ^ bs.length + natOf bs := by
  induction bs using List.reverseRecOn with
  | nil => simp [natOf]
  | append_singleton bs c ih =>
    rw [← List.cons_append, natOf_concat, ih, natOf_concat, List.length_append, List.length_singleton,
      pow_succ]
    ring

/-- A zero ahead of a number changes nothing. -/
theorem natOf_zero_cons (bs : List UInt8) : natOf (0 :: bs) = natOf bs := by
  rw [natOf_cons, UInt8.toNat_zero, Nat.zero_mul, Nat.zero_add]

theorem natOf_lt (bs : List UInt8) : natOf bs < 256 ^ bs.length := by
  induction bs using List.reverseRecOn with
  | nil => exact Nat.one_pos
  | append_singleton bs b ih =>
    have hb := b.toNat_lt
    rw [natOf_concat, List.length_append, List.length_singleton, pow_succ]
    omega

theorem bytesOf_natOf (bs : List UInt8) : bytesOf bs.length (natOf bs) = bs := by
  induction bs using List.reverseRecOn with
  | nil => rfl
  | append_singleton bs b ih =>
    have hb := b.toNat_lt
    have hdiv : (256 * natOf bs + b.toNat) / 256 = natOf bs := by omega
    have hlow : UInt8.ofNat (256 * natOf bs + b.toNat) = b := by
      apply UInt8.toNat_inj.mp
      rw [UInt8.toNat_ofNat']
      omega
    rw [List.length_append, List.length_singleton, natOf_concat, bytesOf, hdiv, hlow, ih]

theorem length_bytesOf (width n : ℕ) : (bytesOf width n).length = width := by
  induction width generalizing n with
  | zero => rfl
  | succ width ih => rw [bytesOf, List.length_append, ih, List.length_singleton]

theorem natOf_bytesOf (width n : ℕ) : natOf (bytesOf width n) = n % 256 ^ width := by
  induction width generalizing n with
  | zero => rw [pow_zero, Nat.mod_one]; rfl
  | succ width ih =>
    have hmod : n % (256 * 256 ^ width) = n % 256 + 256 * (n / 256 % 256 ^ width) := Nat.mod_mul
    rw [bytesOf, natOf_concat, ih, UInt8.toNat_ofNat', pow_succ' 256, hmod]
    exact Nat.add_comm _ _

theorem natOf_significant (bs : List UInt8) : natOf (significant bs) = natOf bs := by
  induction bs with
  | nil => rfl
  | cons b bs ih =>
    rw [significant, List.dropWhile_cons]
    split
    · next hzero =>
      rw [beq_iff_eq] at hzero
      rw [hzero, natOf_zero_cons]
      exact ih
    · rfl

theorem head_significant {bs rest : List UInt8} {b : UInt8} (h : significant bs = b :: rest) :
    b ≠ 0 := by
  have hhead := List.head?_dropWhile_not (· == (0 : UInt8)) bs
  rw [significant] at h
  rw [h] at hhead
  exact beq_eq_false_iff_ne.mp hhead

/-- A number has room in so many bytes exactly if no more of its own count. -/
theorem natOf_lt_iff {bs : List UInt8} {width : ℕ} :
    natOf bs < 256 ^ width ↔ (significant bs).length ≤ width := by
  rw [← natOf_significant]
  constructor
  · intro hlt
    cases hbs : significant bs with
    | nil => exact Nat.zero_le width
    | cons b rest =>
      by_contra hlong
      rw [List.length_cons] at hlong
      -- the first byte is not zero, so that the number is as large as its place
      have hpos : 0 < b.toNat :=
        Nat.pos_of_ne_zero fun h => head_significant hbs (UInt8.toNat_inj.mp h)
      have hle : 256 ^ width ≤ 256 ^ rest.length := Nat.pow_le_pow_right (by omega) (by omega)
      have hmul := Nat.le_mul_of_pos_left (256 ^ rest.length) hpos
      rw [hbs, natOf_cons] at hlt
      omega
  · intro hle
    exact Nat.lt_of_lt_of_le (natOf_lt _) (Nat.pow_le_pow_right (by omega) hle)

/-! ## Elements -/

/-- The bytes of a length. -/
def octets (n : ℕ) : List UInt8 :=
  if n < 128 then [UInt8.ofNat n]
  else
    let digits := (Nat.digits 256 n).reverse.map UInt8.ofNat
    UInt8.ofNat (128 + digits.length) :: digits

def element (tag : UInt8) (content : List UInt8) : List UInt8 :=
  tag :: (octets content.length ++ content)

/-- The content of an integer that is not negative. Zeros ahead of it are let pass. -/
def NonNeg (content : List UInt8) : Prop := content ≠ [] ∧ content.headD 0 < 0x80

instance (content : List UInt8) : Decidable (NonNeg content) :=
  inferInstanceAs (Decidable (_ ∧ _))

theorem element_of_lt (tag : UInt8) {content : List UInt8} (h : content.length < 128) :
    element tag content = tag :: UInt8.ofNat content.length :: content := by
  rw [element, octets, if_pos h]
  rfl

theorem length_element_of_lt (tag : UInt8) {content : List UInt8} (h : content.length < 128) :
    (element tag content).length = content.length + 2 := by
  rw [element_of_lt tag h]
  rfl

/-- A length of 128 and more takes two bytes at least, and two are enough below 256. -/
theorem octets_of_le {n : ℕ} (h : 128 ≤ n) :
    2 ≤ (octets n).length ∧ (n < 256 → octets n = [0x81, UInt8.ofNat n]) := by
  rw [octets, if_neg (by omega)]
  dsimp only
  constructor
  · have hne : Nat.digits 256 n ≠ [] := Nat.digits_ne_nil_iff_ne_zero.mpr (by omega)
    have hpos := List.length_pos_iff.mpr hne
    rw [List.length_cons, List.length_map, List.length_reverse]
    omega
  · intro hlt
    rw [Nat.digits_of_lt 256 n (by omega) hlt]
    rfl

theorem length_element (tag : UInt8) (content : List UInt8) :
    (element tag content).length = 1 + (octets content.length).length + content.length := by
  rw [element, List.length_cons, List.length_append]
  omega

theorem length_octets_pos (n : ℕ) : 0 < (octets n).length := by
  rw [octets]
  split
  · exact Nat.one_pos
  · exact Nat.succ_pos _

end Der
