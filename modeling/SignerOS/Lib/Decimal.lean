import Mathlib.Data.Nat.Digits.Defs
import Mathlib.Data.Rat.Defs
import Mathlib.Tactic.FieldSimp
import Mathlib.Tactic.Ring

/-!
# Decimal numbers in a text

What `toString` prints of a natural number, and reading it back; the same number with zeros ahead
of it, and with a point in it.

* `isDigit_of_mem_toString`, nothing but digits is printed;
* `readDecimal_toString` and `readDecimal_padded`, reading undoes printing;
* `readFixed_padded`, a point in front of the last digits divides by their power of ten.
-/

namespace Decimal

theorem toList_toString (n : ℕ) : (toString n).toList = Nat.toDigits 10 n := by
  rw [Nat.toString_eq_repr, Nat.toList_repr]

theorem toList_toString_ne_nil (n : ℕ) : (toString n).toList ≠ [] := by
  rw [toList_toString]
  exact Nat.toDigits_ne_nil

theorem isDigit_of_mem_toString {n : ℕ} {c : Char} (h : c ∈ (toString n).toList) :
    c.isDigit = true := by
  rw [toList_toString] at h
  exact Nat.isDigit_of_mem_toDigits (by decide) (by decide) h

/-- The value of the digits that are printed. -/
theorem ofDigitChars_toString (n : ℕ) : Nat.ofDigitChars 10 (toString n).toList 0 = n := by
  rw [toList_toString]
  simp

theorem toString_toList_inj {m n : ℕ} (h : (toString m).toList = (toString n).toList) : m = n :=
  calc m = Nat.ofDigitChars 10 (toString m).toList 0 := (ofDigitChars_toString m).symm
    _ = Nat.ofDigitChars 10 (toString n).toList 0 := by rw [h]
    _ = n := ofDigitChars_toString n

/-- A number, read from a text that is digits and nothing else. -/
def readDecimal (cs : List Char) : Option ℕ :=
  if cs ≠ [] ∧ cs.all Char.isDigit then some (Nat.ofDigitChars 10 cs 0) else none

theorem readDecimal_toString (n : ℕ) : readDecimal (toString n).toList = some n := by
  have hdigits : (toString n).toList.all Char.isDigit = true :=
    List.all_eq_true.mpr fun _ h => isDigit_of_mem_toString h
  rw [readDecimal, if_pos ⟨toList_toString_ne_nil n, hdigits⟩, ofDigitChars_toString]

/-! ## Zeros ahead of a number -/

/-- The digits of a number, with zeros ahead of them up to `width` characters. -/
def padded (width n : ℕ) : List Char :=
  List.replicate (width - (toString n).toList.length) '0' ++ (toString n).toList

theorem length_toString_le_iff {n width : ℕ} (hwidth : 0 < width) :
    (toString n).toList.length ≤ width ↔ n < 10 ^ width := by
  rw [toList_toString]
  exact Nat.length_toDigits_le_iff (by decide) hwidth

/-- A number there is room for is as long as the room. -/
theorem length_padded {n width : ℕ} (hwidth : 0 < width) (h : n < 10 ^ width) :
    (padded width n).length = width := by
  have hle := (length_toString_le_iff hwidth).mpr h
  rw [padded, List.length_append, List.length_replicate]
  omega

theorem isDigit_of_mem_padded {width n : ℕ} {c : Char} (h : c ∈ padded width n) :
    c.isDigit = true := by
  rcases List.mem_append.mp h with h | h
  · rw [List.eq_of_mem_replicate h]
    rfl
  · exact isDigit_of_mem_toString h

theorem readDecimal_padded (width n : ℕ) : readDecimal (padded width n) = some n := by
  have hne : padded width n ≠ [] := fun h => toList_toString_ne_nil n (List.append_eq_nil_iff.mp h).2
  have hdigits : (padded width n).all Char.isDigit = true :=
    List.all_eq_true.mpr fun _ h => isDigit_of_mem_padded h
  rw [readDecimal, if_pos ⟨hne, hdigits⟩, padded, Nat.ofDigitChars_append,
    Nat.ofDigitChars_replicate_zero, Nat.mul_zero, ofDigitChars_toString]

/-! ## A point in a number -/

/-- A number with a point in it. -/
def readFixed (cs : List Char) : Option ℚ :=
  match cs.splitOn '.' with
  | [whole, fraction] => do
    let n ← readDecimal whole
    let k ← readDecimal fraction
    return (n : ℚ) + (k : ℚ) / 10 ^ fraction.length
  | _ => none

theorem point_notMem {cs : List Char} (h : ∀ c ∈ cs, c.isDigit = true) : '.' ∉ cs :=
  fun hmem => absurd (h '.' hmem) (by decide)

/-- A number of `10 ^ width`-ths, printed as its whole part, a point and the rest. -/
theorem readFixed_padded {width : ℕ} (hwidth : 0 < width) (n : ℕ) :
    readFixed ((toString (n / 10 ^ width)).toList ++ '.' :: padded width (n % 10 ^ width))
      = some ((n : ℚ) / 10 ^ width) := by
  have hpow : 0 < 10 ^ width := Nat.pow_pos (by decide)
  have hlen := length_padded hwidth (Nat.mod_lt n hpow)
  have hsplit : ((toString (n / 10 ^ width)).toList
      ++ '.' :: padded width (n % 10 ^ width)).splitOn '.'
        = [(toString (n / 10 ^ width)).toList, padded width (n % 10 ^ width)] := by
    rw [List.splitOn_append_cons_self_of_not_mem (point_notMem fun _ => isDigit_of_mem_toString),
      List.splitOn_eq_singleton (point_notMem fun _ => isDigit_of_mem_padded)]
  have hvalue : ((n / 10 ^ width : ℕ) : ℚ) + ((n % 10 ^ width : ℕ) : ℚ) / 10 ^ width
      = (n : ℚ) / 10 ^ width := by
    have hdiv : ((n / 10 ^ width * 10 ^ width + n % 10 ^ width : ℕ) : ℚ) = n := by
      rw [Nat.div_add_mod']
    push_cast at hdiv
    field_simp
    exact hdiv
  unfold readFixed
  rw [hsplit]
  dsimp only
  rw [readDecimal_toString, readDecimal_padded, hlen]
  exact congrArg some hvalue

end Decimal
