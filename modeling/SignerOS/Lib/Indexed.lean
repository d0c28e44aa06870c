import Mathlib.Data.List.Forall2
import Mathlib.Data.List.Induction

/-!
# Lists mapped with their index

A loop that rewrites the entries of an array in place, each from its own index and value,
is a `List.mapIdx`. This file says what such a loop leaves alone and how its results are
counted:

* `map_mapIdx_eq_map`, a projection every rewriting keeps is kept over the whole list;
* `countP_mapIdx`, counting the rewritten entries is counting indices;
* `untilFailure`, a loop that stops at the first entry it fails on, and what it has made of
  the entries until then.
-/

namespace Indexed

variable {α β γ : Type*}

theorem map_mapIdx (l : List α) (f : ℕ → α → β) (g : β → γ) :
    (l.mapIdx f).map g = l.mapIdx fun i a => g (f i a) := by
  refine List.ext_getElem? fun i => ?_
  simp only [List.getElem?_map, List.getElem?_mapIdx, Option.map_map, Function.comp_def]

theorem mapIdx_map (l : List α) (f : α → β) (g : ℕ → β → γ) :
    (l.map f).mapIdx g = l.mapIdx fun i a => g i (f a) := by
  refine List.ext_getElem? fun i => ?_
  simp only [List.getElem?_map, List.getElem?_mapIdx, Option.map_map, Function.comp_def]

/-- A projection that every rewriting turns into `k` of the old entry is `k` of the old
list. -/
theorem map_mapIdx_eq_map {l : List α} {f : ℕ → α → β} {g : β → γ} {k : α → γ}
    (h : ∀ i a, l[i]? = some a → g (f i a) = k a) : (l.mapIdx f).map g = l.map k := by
  refine List.ext_getElem? fun i => ?_
  rw [List.getElem?_map, List.getElem?_mapIdx, List.getElem?_map]
  cases ha : l[i]? with
  | none => rfl
  | some a => exact congrArg some (h i a ha)

/-- Two rewritings agree exactly when they agree on every entry. -/
theorem mapIdx_congr_iff {l : List α} {f g : ℕ → α → β} :
    l.mapIdx f = l.mapIdx g ↔ ∀ i a, l[i]? = some a → f i a = g i a := by
  constructor
  · intro h i a ha
    have hi := congrArg (fun l : List β => l[i]?) h
    rw [List.getElem?_mapIdx, List.getElem?_mapIdx, ha] at hi
    exact Option.some.inj hi
  · intro h
    refine List.ext_getElem? fun i => ?_
    rw [List.getElem?_mapIdx, List.getElem?_mapIdx]
    cases ha : l[i]? with
    | none => rfl
    | some a => exact congrArg some (h i a ha)

/-- What holds of every entry, index by index. -/
theorem forall_mem_iff_index {l : List α} {p : α → Prop} :
    (∀ a ∈ l, p a) ↔ ∀ (i : ℕ) a, l[i]? = some a → p a := by
  constructor
  · exact fun h i a ha => h a (List.mem_of_getElem? ha)
  · intro h a ha
    obtain ⟨i, hi⟩ := List.mem_iff_getElem?.mp ha
    exact h i a hi

/-- What holds of every rewritten entry, entry by entry. -/
theorem forall_mem_mapIdx {l : List α} {f : ℕ → α → β} {p : β → Prop} :
    (∀ b ∈ l.mapIdx f, p b) ↔ ∀ i a, l[i]? = some a → p (f i a) := by
  constructor
  · intro h i a ha
    obtain ⟨hi, rfl⟩ := List.getElem?_eq_some_iff.mp ha
    exact h _ (List.mem_mapIdx.mpr ⟨i, hi, rfl⟩)
  · intro h b hb
    obtain ⟨i, hi, rfl⟩ := List.mem_mapIdx.mp hb
    exact h i _ (List.getElem?_eq_getElem hi)

/-- When a rewritten entry counts depends on its index alone, the count is one of indices. -/
theorem countP_mapIdx {l : List α} {f : ℕ → α → β} {p : β → Bool} {q : ℕ → Bool}
    (h : ∀ i a, l[i]? = some a → p (f i a) = q i) :
    (l.mapIdx f).countP p = (List.range l.length).countP q := by
  induction l using List.reverseRecOn with
  | nil => rfl
  | append_singleton l a ih =>
    have hl : ∀ i b, l[i]? = some b → p (f i b) = q i := fun i b hb =>
      h i b (by rw [List.getElem?_append_left (List.getElem?_eq_some_iff.mp hb).1, hb])
    have ha : p (f l.length a) = q l.length := h l.length a (by simp)
    rw [List.mapIdx_concat, List.countP_append, ih hl, List.length_append, List.length_singleton,
      List.range_succ, List.countP_append, List.countP_singleton, List.countP_singleton, ha]

/-! ## Loops that stop at a failure -/

/-- Rewrite the entries in place, one after the other. `f` says whether it succeeded on an
entry; the first one it fails on is the last one it touches. -/
def untilFailure (f : ℕ → α → Bool × α) : ℕ → List α → Bool × List α
  | _, [] => (true, [])
  | i, a :: l =>
    match f i a with
    | (false, a') => (false, a' :: l)
    | (true, a') => ((untilFailure f (i + 1) l).1, a' :: (untilFailure f (i + 1) l).2)

/-- However far the loop gets, each entry is what the rewriting makes of it, or untouched. -/
theorem forall₂_untilFailure {R : α → α → Prop} {f : ℕ → α → Bool × α} (hrefl : ∀ a, R a a)
    (hf : ∀ i a, R a (f i a).2) (i : ℕ) (l : List α) :
    List.Forall₂ R l (untilFailure f i l).2 := by
  induction l generalizing i with
  | nil => exact .nil
  | cons a l ih =>
    have ha := hf i a
    unfold untilFailure
    rcases hfa : f i a with ⟨ok, a'⟩
    rw [hfa] at ha
    cases ok with
    | false => exact .cons ha (List.forall₂_same.mpr fun b _ => hrefl b)
    | true => exact .cons ha (ih (i + 1))

/-- A loop that never fails rewrites every entry. -/
theorem untilFailure_of_succeeds (f : α → α) (i : ℕ) (l : List α) :
    untilFailure (fun _ a => (true, f a)) i l = (true, l.map f) := by
  induction l generalizing i with
  | nil => rfl
  | cons a l ih =>
    unfold untilFailure
    rw [ih (i + 1)]
    rfl

end Indexed
