import Mathlib.Data.List.Basic
import Mathlib.Data.Vector.Basic

/-!
# Text kept in a fixed array

A text of varying length lives at the start of an array of fixed size, every cell behind it
holding a padding value. Edits are loops over the array: they write, shift up, shift down or
wipe a range in place.

* `writeFrom`, `moveUp`, `moveDown` and `fill`, the loops, each with the cell it leaves at
  every index;
* `Padded`, an array that holds a text and padding behind it;
* `Padded.write`, `Padded.insert`, `Padded.erase` and `Padded.truncate`, what the loops do to
  the text when the tail is wiped along with them.
-/

namespace Buffer

variable {α : Type*} {N : ℕ}

/-! ## Loops -/

/-- `v[pos + i] = xs[i]`, for `i` upwards. -/
def writeFrom (v : Vector α N) (pos : ℕ) : List α → Vector α N
  | [] => v
  | x :: xs => writeFrom (v.setIfInBounds pos x) (pos + 1) xs

/-- `n` cells from `pos` on are overwritten with `x`. -/
def fill (v : Vector α N) (pos n : ℕ) (x : α) : Vector α N :=
  writeFrom v pos (List.replicate n x)

/-- `v[dst] = v[src]`. -/
def copyCell (v : Vector α N) (dst src : ℕ) : Vector α N :=
  match v[src]? with
  | none => v
  | some x => v.setIfInBounds dst x

/-- `v[i + n] = v[i]`, for the `k` cells from `pos` on, downwards. -/
def moveUp (v : Vector α N) (pos n : ℕ) : ℕ → Vector α N
  | 0 => v
  | k + 1 => moveUp (copyCell v (pos + k + n) (pos + k)) pos n k

/-- `v[i] = v[i + n]`, for `k` cells from `pos` on, upwards. -/
def moveDown (v : Vector α N) (pos n : ℕ) : ℕ → Vector α N
  | 0 => v
  | k + 1 => moveDown (copyCell v pos (pos + n)) (pos + 1) n k

theorem getElem?_writeFrom (v : Vector α N) (pos : ℕ) (xs : List α) {j : ℕ} (hj : j < N) :
    (writeFrom v pos xs)[j]? = if pos ≤ j ∧ j < pos + xs.length then xs[j - pos]? else v[j]? := by
  induction xs generalizing v pos with
  | nil => rw [writeFrom, if_neg (by simp)]
  | cons x xs ih =>
    rw [writeFrom, ih]
    by_cases hpos : pos = j
    · subst hpos
      rw [if_neg (by omega), if_pos (by simp), Vector.getElem?_setIfInBounds_self_of_lt hj]
      simp
    · rw [Vector.getElem?_setIfInBounds_ne hpos]
      by_cases hin : pos + 1 ≤ j ∧ j < pos + 1 + xs.length
      · have hsub : j - pos = j - (pos + 1) + 1 := by omega
        rw [if_pos hin, if_pos (by simp only [List.length_cons]; omega), hsub,
          List.getElem?_cons_succ]
      · rw [if_neg hin, if_neg (by simp only [List.length_cons]; omega)]

theorem getElem?_fill (v : Vector α N) (pos n : ℕ) (x : α) {j : ℕ} (hj : j < N) :
    (fill v pos n x)[j]? = if pos ≤ j ∧ j < pos + n then some x else v[j]? := by
  rw [fill, getElem?_writeFrom v pos _ hj, List.length_replicate]
  by_cases hin : pos ≤ j ∧ j < pos + n
  · rw [if_pos hin, if_pos hin, List.getElem?_replicate_of_lt (by omega)]
  · rw [if_neg hin, if_neg hin]

theorem getElem?_copyCell (v : Vector α N) (dst src : ℕ) {j : ℕ} (hdst : dst < N) (hsrc : src < N) :
    (copyCell v dst src)[j]? = if j = dst then v[src]? else v[j]? := by
  unfold copyCell
  rw [Vector.getElem?_eq_getElem hsrc]
  by_cases hj : j = dst
  · subst hj
    rw [if_pos rfl]
    exact Vector.getElem?_setIfInBounds_self_of_lt hdst
  · rw [if_neg hj]
    exact Vector.getElem?_setIfInBounds_ne (Ne.symm hj)

/-- Shifting up reads every cell before it is overwritten. -/
theorem getElem?_moveUp (v : Vector α N) (pos n k : ℕ) (hk : pos + k + n ≤ N) (j : ℕ) :
    (moveUp v pos n k)[j]? =
      if pos + n ≤ j ∧ j < pos + n + k then v[j - n]? else v[j]? := by
  induction k generalizing v with
  | zero => rw [moveUp, if_neg (by omega)]
  | succ k ih =>
    rw [moveUp, ih _ (by omega)]
    have hcell (i : ℕ) := getElem?_copyCell (j := i) v (pos + k + n) (pos + k)
      (by omega) (by omega)
    by_cases hlow : pos + n ≤ j ∧ j < pos + n + k
    · rw [if_pos hlow, if_pos (by omega), hcell]
      by_cases hn : j - n = pos + k + n
      · omega
      · rw [if_neg hn]
    · rw [if_neg hlow, hcell]
      by_cases htop : j = pos + k + n
      · have hsub : j - n = pos + k := by omega
        rw [if_pos htop, if_pos (by omega), hsub]
      · rw [if_neg htop, if_neg (by omega)]

/-- Shifting down reads every cell before it is overwritten. -/
theorem getElem?_moveDown (v : Vector α N) (pos n k : ℕ) (hn : 0 < n) (hk : pos + k + n ≤ N)
    (j : ℕ) :
    (moveDown v pos n k)[j]? = if pos ≤ j ∧ j < pos + k then v[j + n]? else v[j]? := by
  induction k generalizing v pos with
  | zero => rw [moveDown, if_neg (by omega)]
  | succ k ih =>
    rw [moveDown, ih _ _ (by omega)]
    have hcell (i : ℕ) := getElem?_copyCell (j := i) v pos (pos + n)
      (by omega) (by omega)
    by_cases hin : pos + 1 ≤ j ∧ j < pos + 1 + k
    · rw [if_pos hin, if_pos (by omega), hcell, if_neg (by omega)]
    · rw [if_neg hin, hcell]
      by_cases hj : j = pos
      · subst hj
        rw [if_pos rfl, if_pos (by omega)]
      · rw [if_neg hj, if_neg (by omega)]

/-! ## Texts and their padding -/

/-- The array holds `xs` from its start on, and `z` in every cell behind it. -/
structure Padded (z : α) (v : Vector α N) (xs : List α) : Prop where
  length_le : xs.length ≤ N
  get : ∀ j < N, v[j]? = some (xs[j]?.getD z)

section
variable {z : α} {v : Vector α N} {xs : List α}

theorem padded_replicate (z : α) : Padded z (Vector.replicate N z) [] where
  length_le := Nat.zero_le N
  get := by
    intro j hj
    rw [Vector.getElem?_replicate, if_pos hj]
    rfl

/-- The text can be read back from the array. -/
theorem Padded.take_toList (h : Padded z v xs) : v.toList.take xs.length = xs := by
  refine List.ext_getElem? fun j => ?_
  rw [List.getElem?_take, Vector.getElem?_toList]
  by_cases hj : j < xs.length
  · rw [if_pos hj, h.get j (Nat.lt_of_lt_of_le hj h.length_le), List.getElem?_eq_getElem hj]
    rfl
  · rw [if_neg hj, List.getElem?_eq_none (Nat.le_of_not_lt hj)]

theorem Padded.get_text (h : Padded z v xs) {j : ℕ} (hj : j < xs.length) : v[j]? = xs[j]? := by
  rw [h.get j (Nat.lt_of_lt_of_le hj h.length_le), List.getElem?_eq_getElem hj]
  rfl

theorem Padded.get_padding (h : Padded z v xs) {j : ℕ} (hj : xs.length ≤ j) (hN : j < N) :
    v[j]? = some z := by
  rw [h.get j hN, List.getElem?_eq_none hj]
  rfl

/-- An array is padded when its text and its padding are what they should be. -/
theorem padded_of_get (hlen : xs.length ≤ N) (htext : ∀ j < xs.length, v[j]? = xs[j]?)
    (hpad : ∀ j, xs.length ≤ j → j < N → v[j]? = some z) : Padded z v xs where
  length_le := hlen
  get := by
    intro j hj
    by_cases hin : j < xs.length
    · rw [htext j hin, List.getElem?_eq_getElem hin]
      rfl
    · rw [hpad j (Nat.le_of_not_lt hin) hj, List.getElem?_eq_none (Nat.le_of_not_lt hin)]
      rfl

/-- A terminator behind the text is padding already. -/
theorem Padded.terminate (h : Padded z v xs) (i : ℕ) (hi : xs.length ≤ i) :
    Padded z (v.setIfInBounds i z) xs := by
  refine padded_of_get h.length_le ?_ ?_
  · intro j hj
    rw [Vector.getElem?_setIfInBounds_ne (by omega), h.get_text hj]
  · intro j hj hN
    by_cases hij : i = j
    · rw [hij, Vector.getElem?_setIfInBounds_self_of_lt hN]
    · rw [Vector.getElem?_setIfInBounds_ne hij, h.get_padding hj hN]

/-- Writing behind the text appends to it. -/
theorem Padded.write (h : Padded z v xs) (ys : List α) (hroom : xs.length + ys.length ≤ N) :
    Padded z (writeFrom v xs.length ys) (xs ++ ys) := by
  refine padded_of_get (by rwa [List.length_append]) ?_ ?_
  · intro j hj
    rw [List.length_append] at hj
    rw [getElem?_writeFrom v _ _ (by omega), List.getElem?_append]
    by_cases hin : j < xs.length
    · rw [if_neg (by omega), if_pos hin, h.get_text hin]
    · rw [if_pos (by omega), if_neg hin]
  · intro j hj hN
    rw [List.length_append] at hj
    rw [getElem?_writeFrom v _ _ hN, if_neg (by omega), h.get_padding (by omega) hN]

/-- Shifting the rest of the text up and writing into the gap inserts. -/
theorem Padded.insert (h : Padded z v xs) {pos : ℕ} (hpos : pos ≤ xs.length) (ys : List α)
    (hroom : xs.length + ys.length ≤ N) :
    Padded z (writeFrom (moveUp v pos ys.length (xs.length - pos)) pos ys)
      (xs.take pos ++ ys ++ xs.drop pos) := by
  have hlen : (xs.take pos ++ ys ++ xs.drop pos).length = xs.length + ys.length := by
    simp only [List.length_append, List.length_take, List.length_drop]
    omega
  have hmove (j : ℕ) := getElem?_moveUp v pos ys.length (xs.length - pos) (by omega) j
  refine padded_of_get (by omega) ?_ ?_
  · intro j hj
    rw [getElem?_writeFrom _ _ _ (by omega), hmove]
    by_cases hlow : j < pos
    · rw [if_neg (by omega), if_neg (by omega), List.append_assoc,
        List.getElem?_append_left (by simp only [List.length_take]; omega),
        List.getElem?_take_of_lt hlow, h.get_text (by omega)]
    · by_cases hmid : j < pos + ys.length
      · rw [if_pos (by omega),
          List.getElem?_append_left (by simp only [List.length_append, List.length_take]; omega),
          List.getElem?_append_right (by simp only [List.length_take]; omega), List.length_take,
          Nat.min_eq_left hpos]
      · have hindex : pos + (j - (pos + ys.length)) = j - ys.length := by omega
        rw [if_neg (by omega), if_pos (by omega),
          List.getElem?_append_right (by simp only [List.length_append, List.length_take]; omega),
          List.length_append, List.length_take, Nat.min_eq_left hpos, List.getElem?_drop, hindex,
          h.get_text (by omega)]
  · intro j hj hN
    rw [getElem?_writeFrom _ _ _ hN, hmove, if_neg (by omega), if_neg (by omega),
      h.get_padding (by omega) hN]

/-- Wiping the end of the text cuts it off. -/
theorem Padded.truncate (h : Padded z v xs) (keep : ℕ) (hkeep : keep ≤ xs.length) :
    Padded z (fill v keep (xs.length - keep) z) (xs.take keep) := by
  have hlen : (xs.take keep).length = keep := by
    rw [List.length_take]
    omega
  have hN := h.length_le
  refine padded_of_get (by omega) ?_ ?_
  · intro j hj
    rw [getElem?_fill _ _ _ _ (by omega), if_neg (by omega), List.getElem?_take_of_lt (by omega),
      h.get_text (by omega)]
  · intro j hj hjN
    rw [getElem?_fill _ _ _ _ hjN]
    by_cases hin : j < xs.length
    · rw [if_pos (by omega)]
    · rw [if_neg (by omega), h.get_padding (by omega) hjN]

/-- Shifting the rest of the text down and wiping the cells it has left erases. -/
theorem Padded.erase (h : Padded z v xs) {pos n : ℕ} (hn : 0 < n) (hpos : pos + n ≤ xs.length) :
    Padded z (fill (moveDown v pos n (xs.length - n - pos)) (xs.length - n) n z)
      (xs.take pos ++ xs.drop (pos + n)) := by
  have hlen : (xs.take pos ++ xs.drop (pos + n)).length = xs.length - n := by
    simp only [List.length_append, List.length_take, List.length_drop]
    omega
  have hN := h.length_le
  have hmove (j : ℕ) := getElem?_moveDown v pos n (xs.length - n - pos) hn (by omega) j
  refine padded_of_get (by omega) ?_ ?_
  · intro j hj
    rw [getElem?_fill _ _ _ _ (by omega), if_neg (by omega), hmove]
    by_cases hlow : j < pos
    · rw [if_neg (by omega),
        List.getElem?_append_left (by simp only [List.length_take]; omega),
        List.getElem?_take_of_lt hlow, h.get_text (by omega)]
    · have hindex : pos + n + (j - pos) = j + n := by omega
      rw [if_pos (by omega),
        List.getElem?_append_right (by simp only [List.length_take]; omega), List.length_take,
        Nat.min_eq_left (by omega), List.getElem?_drop, hindex, h.get_text (by omega)]
  · intro j hj hjN
    rw [getElem?_fill _ _ _ _ hjN]
    by_cases hin : j < xs.length
    · rw [if_pos (by omega)]
    · rw [if_neg (by omega), hmove, if_neg (by omega), h.get_padding (by omega) hjN]

end

end Buffer
