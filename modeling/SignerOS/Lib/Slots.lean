import Mathlib.Data.List.Basic
import Mathlib.Data.List.Count

/-!
# Texts read as words between separators

`text.splitOn sep` reads a text as words with exactly one separator between two of them, so
that `k` separators give `k + 1` words, any of which may be empty. The text is then the words
before one, each followed by a separator, the word, and the words behind it, each led by one.

* `eq_assemble`, a text around one of its words;
* `splitOn_replace` and `splitOn_splice`, another word in that place changes no other word;
* `splitOn_append_replicate` and `splitOn_take`, growing and cutting off at the end.
-/

namespace Slots

variable {α : Type*} {sep : α}

/-- Words with a separator behind each. -/
def before (sep : α) (ws : List (List α)) : List α := ws.flatMap (· ++ [sep])

/-- Words with a separator ahead of each. -/
def behind (sep : α) (ws : List (List α)) : List α := ws.flatMap (sep :: ·)

theorem intercalate_eq_assemble (front : List (List α)) (w : List α) (back : List (List α)) :
    [sep].intercalate (front ++ w :: back) = before sep front ++ w ++ behind sep back := by
  induction front with
  | nil =>
    show [sep].intercalate (w :: back) = w ++ behind sep back
    induction back generalizing w with
    | nil => rw [List.intercalate_singleton, behind, List.flatMap_nil, List.append_nil]
    | cons x back ih =>
      rw [List.intercalate_cons_cons, ih, behind, behind, List.flatMap_cons, List.append_assoc]
      rfl
  | cons x front ih =>
    rw [List.cons_append, List.intercalate_cons_of_ne_nil (by simp), ih, before, before,
      List.flatMap_cons]
    simp only [List.append_assoc]

theorem take_append_cons_drop {ws : List (List α)} {i : ℕ} {w : List α} (h : ws[i]? = some w) :
    ws.take i ++ w :: ws.drop (i + 1) = ws := by
  obtain ⟨hi, rfl⟩ := List.getElem?_eq_some_iff.mp h
  rw [List.getElem_cons_drop, List.take_append_drop]

/-! ## Words -/

variable [BEq α] [LawfulBEq α]

theorem splitOn_cons_self (t : List α) : (sep :: t).splitOn sep = [] :: t.splitOn sep := by
  rw [List.splitOn_cons_eq_if_modifyHead, if_pos (beq_self_eq_true sep)]

theorem splitOn_cons_of_ne {c : α} (hc : c ≠ sep) (t : List α) :
    (c :: t).splitOn sep = (t.splitOn sep).modifyHead (c :: ·) := by
  rw [List.splitOn_cons_eq_if_modifyHead, if_neg (by simpa using hc)]

theorem length_splitOn (t : List α) : (t.splitOn sep).length = t.count sep + 1 := by
  induction t with
  | nil => rfl
  | cons c t ih =>
    by_cases hc : c = sep
    · subst hc
      rw [splitOn_cons_self, List.length_cons, ih, List.count_cons_self]
    · rw [splitOn_cons_of_ne hc, List.length_modifyHead, ih, List.count_cons_of_ne hc]

theorem notMem_of_mem_splitOn {t w : List α} (hw : w ∈ t.splitOn sep) : sep ∉ w := by
  induction t generalizing w with
  | nil =>
    rw [List.splitOn_nil, List.mem_singleton] at hw
    rw [hw]
    exact List.not_mem_nil
  | cons c t ih =>
    obtain ⟨x, xs, hx⟩ := List.exists_cons_of_ne_nil (List.splitOn_ne_nil sep t)
    rw [hx] at ih
    by_cases hc : c = sep
    · subst hc
      rw [splitOn_cons_self, hx, List.mem_cons] at hw
      rcases hw with rfl | hw
      · exact List.not_mem_nil
      · exact ih hw
    · rw [splitOn_cons_of_ne hc, hx, List.modifyHead_cons, List.mem_cons] at hw
      rcases hw with rfl | hw
      · rw [List.mem_cons]
        rintro (rfl | hmem)
        · exact hc rfl
        · exact ih List.mem_cons_self hmem
      · exact ih (List.mem_cons_of_mem x hw)

/-- Two texts with the same words are the same. -/
theorem splitOn_inj {t t' : List α} (h : t.splitOn sep = t'.splitOn sep) : t = t' :=
  calc t = [sep].intercalate (t.splitOn sep) := (List.intercalate_splitOn sep).symm
    _ = [sep].intercalate (t'.splitOn sep) := by rw [h]
    _ = t' := List.intercalate_splitOn sep

/-! ## A text around one of its words -/

/-- Words put together around one of them can be told apart again. -/
theorem splitOn_assemble {front : List (List α)} {w : List α} {back : List (List α)}
    (h : ∀ x ∈ front ++ w :: back, sep ∉ x) :
    (before sep front ++ w ++ behind sep back).splitOn sep = front ++ w :: back := by
  rw [← intercalate_eq_assemble, List.splitOn_intercalate sep h (by simp)]

section
variable {t w : List α} {i : ℕ}

/-- The text around its word `i`. -/
theorem eq_assemble (h : (t.splitOn sep)[i]? = some w) :
    t = before sep ((t.splitOn sep).take i) ++ w ++ behind sep ((t.splitOn sep).drop (i + 1)) := by
  rw [← intercalate_eq_assemble, take_append_cons_drop h, List.intercalate_splitOn]

/-- Another word in place of word `i` leaves all the others as they are. -/
theorem splitOn_replace (h : (t.splitOn sep)[i]? = some w) {w' : List α} (hw' : sep ∉ w') :
    (before sep ((t.splitOn sep).take i) ++ w'
        ++ behind sep ((t.splitOn sep).drop (i + 1))).splitOn sep
      = (t.splitOn sep).set i w' := by
  have hi : i < (t.splitOn sep).length := (List.getElem?_eq_some_iff.mp h).1
  rw [splitOn_assemble, List.set_eq_take_append_cons_drop, if_pos hi]
  intro x hx
  rw [List.mem_append, List.mem_cons] at hx
  rcases hx with hx | rfl | hx
  · exact notMem_of_mem_splitOn (List.mem_of_mem_take hx)
  · exact hw'
  · exact notMem_of_mem_splitOn (List.mem_of_mem_drop hx)

/-! ## Positions -/

/-- Where word `i` starts. -/
def start (sep : α) (t : List α) (i : ℕ) : ℕ := (before sep ((t.splitOn sep).take i)).length

theorem start_add_length_le (h : (t.splitOn sep)[i]? = some w) :
    start sep t i + w.length ≤ t.length := by
  have hlen := congrArg List.length (eq_assemble h)
  rw [List.length_append, List.length_append] at hlen
  rw [start]
  omega

theorem take_start (h : (t.splitOn sep)[i]? = some w) (k : ℕ) (hk : k ≤ w.length) :
    t.take (start sep t i + k) = before sep ((t.splitOn sep).take i) ++ w.take k := by
  have ht := eq_assemble h
  rw [start]
  generalize before sep ((t.splitOn sep).take i) = front at ht ⊢
  rw [ht, List.append_assoc, List.take_length_add_append, List.take_append_of_le_length hk]

theorem drop_start (h : (t.splitOn sep)[i]? = some w) :
    t.drop (start sep t i + w.length) = behind sep ((t.splitOn sep).drop (i + 1)) := by
  have ht := eq_assemble h
  rw [start]
  generalize before sep ((t.splitOn sep).take i) = front at ht ⊢
  generalize behind sep ((t.splitOn sep).drop (i + 1)) = back at ht ⊢
  rw [ht, ← List.length_append, List.drop_left]

/-- The word itself stands there. -/
theorem take_drop_start (h : (t.splitOn sep)[i]? = some w) :
    (t.drop (start sep t i)).take w.length = w := by
  have ht := eq_assemble h
  rw [start]
  generalize before sep ((t.splitOn sep).take i) = front at ht ⊢
  rw [ht, List.append_assoc, List.drop_left, List.take_left]

/-- What is put in place of the end of word `i` changes no other word. -/
theorem splitOn_splice (h : (t.splitOn sep)[i]? = some w) {k : ℕ} (hk : k ≤ w.length)
    {x : List α} (hx : sep ∉ x) :
    (t.take (start sep t i + k) ++ x ++ t.drop (start sep t i + w.length)).splitOn sep
      = (t.splitOn sep).set i (w.take k ++ x) := by
  have hw : sep ∉ w := notMem_of_mem_splitOn (List.mem_of_getElem? h)
  have hwx : sep ∉ w.take k ++ x := by
    rw [List.mem_append]
    rintro (hmem | hmem)
    · exact hw (List.mem_of_mem_take hmem)
    · exact hx hmem
  rw [take_start h k hk, drop_start h, List.append_assoc (before sep _), splitOn_replace h hwx]

/-- The text up to the end of word `i` has the words up to it. -/
theorem splitOn_take (h : (t.splitOn sep)[i]? = some w) :
    (t.take (start sep t i + w.length)).splitOn sep = (t.splitOn sep).take (i + 1) := by
  obtain ⟨hi, hget⟩ := List.getElem?_eq_some_iff.mp h
  have hall : ∀ x ∈ (t.splitOn sep).take i ++ [w], sep ∉ x := by
    intro x hx
    rw [← hget, List.take_append_getElem] at hx
    exact notMem_of_mem_splitOn (List.mem_of_mem_take hx)
  have hsplit := splitOn_assemble hall
  rw [behind, List.flatMap_nil, List.append_nil] at hsplit
  rw [take_start h w.length (Nat.le_refl _), List.take_length, hsplit, ← hget,
    List.take_append_getElem]

end

/-- A separator at the end adds an empty word. -/
theorem splitOn_append_replicate (t : List α) (n : ℕ) :
    (t ++ List.replicate n sep).splitOn sep = t.splitOn sep ++ List.replicate n [] := by
  induction n generalizing t with
  | zero => rw [List.replicate_zero, List.replicate_zero, List.append_nil, List.append_nil]
  | succ n ih =>
    have hone : (t ++ [sep]).splitOn sep = t.splitOn sep ++ [[]] := by
      rw [List.splitOn_append_cons_self, List.splitOn_nil]
    rw [List.replicate_succ, List.append_cons, ih, hone, List.append_assoc]
    rfl

end Slots
