import Mathlib.Data.List.Induction

/-!
# Chained states

A chain folds samples into a state with a step function `H`, such as a keyed hash whose key is
the previous state. Nothing is assumed of `H`, so a chain cannot be injective; what can be said
is where it fails to be. Two chains that end in the same state either took two different steps
with the same image, or one of them is the end of the other (`collide_or_suffix`).
-/

namespace Chain

variable {σ ι : Type*} {H : σ → ι → σ}

/-- The steps of a chain: the state each sample is folded into, with the sample. -/
def steps (H : σ → ι → σ) : σ → List ι → List (σ × ι)
  | _, [] => []
  | s, x :: xs => (s, x) :: steps H (H s x) xs

/-- Two different steps with the same image are among the steps of the two chains. -/
def Collide (H : σ → ι → σ) (s t : σ) (xs ys : List ι) : Prop :=
  ∃ p ∈ steps H s xs, ∃ q ∈ steps H t ys, p ≠ q ∧ H p.1 p.2 = H q.1 q.2

@[simp] theorem steps_append (s : σ) (xs ys : List ι) :
    steps H s (xs ++ ys) = steps H s xs ++ steps H (xs.foldl H s) ys := by
  induction xs generalizing s with
  | nil => rfl
  | cons x xs ih => simp [steps, ih]

theorem Collide.symm {s t : σ} {xs ys : List ι} (h : Collide H s t xs ys) :
    Collide H t s ys xs := by
  obtain ⟨p, hp, q, hq, hne, himage⟩ := h
  exact ⟨q, hq, p, hp, hne.symm, himage.symm⟩

/-- A collision among the steps of two chains stays one when the chains go on. -/
theorem Collide.append {s t : σ} {xs ys : List ι} (h : Collide H s t xs ys) (xs' ys' : List ι) :
    Collide H s t (xs ++ xs') (ys ++ ys') := by
  obtain ⟨p, hp, q, hq, hne, himage⟩ := h
  refine ⟨p, ?_, q, ?_, hne, himage⟩
  · rw [steps_append]
    exact List.mem_append_left _ hp
  · rw [steps_append]
    exact List.mem_append_left _ hq

/-- Two chains that end alike collide in their last steps unless these are the same step. -/
theorem collide_or_last {s t : σ} {xs ys : List ι} {x y : ι}
    (h : (xs ++ [x]).foldl H s = (ys ++ [y]).foldl H t) :
    Collide H s t (xs ++ [x]) (ys ++ [y]) ∨ xs.foldl H s = ys.foldl H t ∧ x = y := by
  by_cases hsame : (xs.foldl H s, x) = (ys.foldl H t, y)
  · right
    exact Prod.mk.injEq .. ▸ hsame
  · left
    refine ⟨(xs.foldl H s, x), ?_, (ys.foldl H t, y), ?_, hsame, ?_⟩
    · simp [steps]
    · simp [steps]
    · simpa using h

/-- Two chains that end in one state collide somewhere, or the samples of one of them are the
last samples of the other. -/
theorem collide_or_suffix {s t : σ} {xs ys : List ι} (h : xs.foldl H s = ys.foldl H t) :
    Collide H s t xs ys ∨ xs <:+ ys ∨ ys <:+ xs := by
  -- from the last step of both chains backwards
  induction xs using List.reverseRecOn generalizing ys with
  | nil => exact Or.inr (Or.inl List.nil_suffix)
  | append_singleton xs x ih =>
    induction ys using List.reverseRecOn with
    | nil => exact Or.inr (Or.inr List.nil_suffix)
    | append_singleton ys y _ =>
      rcases collide_or_last h with hcollide | ⟨hstate, rfl⟩
      · exact Or.inl hcollide
      · rcases ih hstate with hcollide | ⟨pre, rfl⟩ | ⟨pre, rfl⟩
        · exact Or.inl (hcollide.append _ _)
        · exact Or.inr (Or.inl ⟨pre, by rw [List.append_assoc]⟩)
        · exact Or.inr (Or.inr ⟨pre, by rw [List.append_assoc]⟩)

/-! ## Lists that differ in one place -/

/-- The two lists are equal except for one entry. -/
def DifferAtOne (xs ys : List ι) : Prop :=
  ∃ pre x y post, x ≠ y ∧ xs = pre ++ x :: post ∧ ys = pre ++ y :: post

theorem DifferAtOne.symm {xs ys : List ι} (h : DifferAtOne xs ys) : DifferAtOne ys xs := by
  obtain ⟨pre, x, y, post, hne, hxs, hys⟩ := h
  exact ⟨pre, y, x, post, hne.symm, hys, hxs⟩

theorem DifferAtOne.reverse {xs ys : List ι} (h : DifferAtOne xs ys) :
    DifferAtOne xs.reverse ys.reverse := by
  obtain ⟨pre, x, y, post, hne, rfl, rfl⟩ := h
  exact ⟨post.reverse, x, y, pre.reverse, hne, by simp, by simp⟩

theorem not_differAtOne_nil {xs : List ι} : ¬ DifferAtOne xs [] := by
  rintro ⟨pre, x, y, post, -, -, hnil⟩
  simp at hnil

/-- The first entries are the ones that differ, or they are equal and the rest differs. -/
theorem differAtOne_cons {x y : ι} {xs ys : List ι} (h : DifferAtOne (x :: xs) (y :: ys)) :
    x ≠ y ∧ xs = ys ∨ x = y ∧ DifferAtOne xs ys := by
  obtain ⟨pre, a, b, post, hne, hxs, hys⟩ := h
  cases pre with
  | nil =>
    obtain ⟨rfl, rfl⟩ := List.cons.inj hxs
    obtain ⟨rfl, rfl⟩ := List.cons.inj hys
    exact Or.inl ⟨hne, rfl⟩
  | cons c pre =>
    obtain ⟨rfl, rfl⟩ := List.cons.inj hxs
    obtain ⟨rfl, rfl⟩ := List.cons.inj hys
    exact Or.inr ⟨rfl, pre, a, b, post, hne, rfl, rfl⟩

end Chain
