import SignerOS.Lib.Buffer

/-!
# Where the loops over an array write

The loops of `Buffer` leave an array as it was where they write outside it. Here each of them
notes every index it writes, so that it can be said whether one of them is outside.

* `writeFrom`, `fill` and `moveUp`, the loops, with the array they leave and the indices they note;
* `Inside`, no index is outside the array.
-/

/-- An array, and the indices written so far, inside it or not. -/
structure Traced (α : Type*) (N : ℕ) where
  cells : Vector α N
  written : List ℕ

namespace Traced

variable {α : Type*} {N : ℕ}

/-- Nothing has been written. -/
def start (v : Vector α N) : Traced α N := ⟨v, []⟩

/-- `v[i] = x`. -/
def put (t : Traced α N) (i : ℕ) (x : α) : Traced α N :=
  ⟨t.cells.setIfInBounds i x, t.written ++ [i]⟩

/-- `v[pos + i] = xs[i]`, for `i` upwards. -/
def writeFrom (t : Traced α N) (pos : ℕ) : List α → Traced α N
  | [] => t
  | x :: xs => writeFrom (t.put pos x) (pos + 1) xs

/-- `n` cells from `pos` on are overwritten with `x`. -/
def fill (t : Traced α N) (pos n : ℕ) (x : α) : Traced α N := t.writeFrom pos (List.replicate n x)

/-- `v[dst] = v[src]`. -/
def copyCell (t : Traced α N) (dst src : ℕ) : Traced α N :=
  ⟨Buffer.copyCell t.cells dst src, t.written ++ [dst]⟩

/-- `v[i + n] = v[i]`, for the `k` cells from `pos` on, downwards. -/
def moveUp (t : Traced α N) (pos n : ℕ) : ℕ → Traced α N
  | 0 => t
  | k + 1 => moveUp (t.copyCell (pos + k + n) (pos + k)) pos n k

/-- Nothing was written outside the array. -/
def Inside (t : Traced α N) : Prop := ∀ i ∈ t.written, i < N

/-! ## The array that is left -/

@[simp] theorem cells_start (v : Vector α N) : (start v).cells = v := rfl

@[simp] theorem cells_put (t : Traced α N) (i : ℕ) (x : α) :
    (t.put i x).cells = t.cells.setIfInBounds i x := rfl

@[simp] theorem cells_writeFrom (t : Traced α N) (pos : ℕ) (xs : List α) :
    (t.writeFrom pos xs).cells = Buffer.writeFrom t.cells pos xs := by
  induction xs generalizing t pos with
  | nil => rfl
  | cons x xs ih =>
    rw [writeFrom, ih]
    rfl

@[simp] theorem cells_fill (t : Traced α N) (pos n : ℕ) (x : α) :
    (t.fill pos n x).cells = Buffer.fill t.cells pos n x := cells_writeFrom t pos _

@[simp] theorem cells_moveUp (t : Traced α N) (pos n k : ℕ) :
    (t.moveUp pos n k).cells = Buffer.moveUp t.cells pos n k := by
  induction k generalizing t with
  | zero => rfl
  | succ k ih =>
    rw [moveUp, ih]
    rfl

/-! ## The indices that are written -/

theorem inside_start (v : Vector α N) : (start v).Inside := fun _ h => absurd h List.not_mem_nil

/-- One more index. -/
theorem forall_concat {written : List ℕ} {i : ℕ} :
    (∀ j ∈ written ++ [i], j < N) ↔ (∀ j ∈ written, j < N) ∧ i < N := by
  rw [List.forall_mem_append, List.forall_mem_singleton]

theorem inside_put {t : Traced α N} {i : ℕ} {x : α} : (t.put i x).Inside ↔ t.Inside ∧ i < N :=
  forall_concat

theorem inside_copyCell {t : Traced α N} {dst src : ℕ} :
    (t.copyCell dst src).Inside ↔ t.Inside ∧ dst < N := forall_concat

/-- A loop upwards stays inside exactly if its end does. -/
theorem inside_writeFrom {t : Traced α N} {pos : ℕ} {xs : List α} :
    (t.writeFrom pos xs).Inside ↔ t.Inside ∧ (xs = [] ∨ pos + xs.length ≤ N) := by
  induction xs generalizing t pos with
  | nil => simp [writeFrom]
  | cons x xs ih =>
    rw [writeFrom, ih, inside_put, List.length_cons, and_assoc]
    refine and_congr_right fun _ => ?_
    cases xs with
    | nil =>
      simp only [true_or, and_true, reduceCtorEq, false_or, List.length_nil]
      omega
    | cons y ys =>
      simp only [reduceCtorEq, false_or, List.length_cons]
      omega

theorem inside_fill {t : Traced α N} {pos n : ℕ} {x : α} :
    (t.fill pos n x).Inside ↔ t.Inside ∧ (n = 0 ∨ pos + n ≤ N) := by
  rw [fill, inside_writeFrom, List.length_replicate, List.replicate_eq_nil_iff]

/-- A loop that shifts up stays inside exactly if the cell it writes first does. -/
theorem inside_moveUp {t : Traced α N} {pos n k : ℕ} :
    (t.moveUp pos n k).Inside ↔ t.Inside ∧ (k = 0 ∨ pos + n + k ≤ N) := by
  induction k generalizing t with
  | zero => simp [moveUp]
  | succ k ih =>
    rw [moveUp, ih, inside_copyCell, and_assoc]
    refine and_congr_right fun _ => ?_
    omega

end Traced
