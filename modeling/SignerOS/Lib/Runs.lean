import Mathlib.Data.List.Basic

/-!
# Runs of a deterministic step function

A component whose operations are total functions `step : σ → ι → σ` runs by folding its
operations. This file has the two rules such a component's safety proofs use:

* `run_invariant`, an invariant every step keeps holds after every run;
* `Along.invariant`, the same when each step is only known to keep the invariant under
  a condition on the state it starts from and the operation it performs;
* `throughout_iff_along`, when a property holds in every state of a run exactly if each
  step of the run meets a condition.
-/

namespace Runs

variable {σ ι : Type*} {step : σ → ι → σ}

/-- The state after performing `ops` in order, starting from `s`. -/
def run (step : σ → ι → σ) (s : σ) (ops : List ι) : σ := ops.foldl step s

@[simp] theorem run_nil (s : σ) : run step s [] = s := rfl

@[simp] theorem run_cons (s : σ) (op : ι) (ops : List ι) :
    run step s (op :: ops) = run step (step s op) ops := rfl

/-- A run of two halves is the second half's run from where the first one ended. -/
theorem run_append (s : σ) (ops ops' : List ι) :
    run step s (ops ++ ops') = run step (run step s ops) ops' :=
  List.foldl_append

/-- Every operation of the run meets `ok` in the state it is performed in. -/
def Along (step : σ → ι → σ) (ok : σ → ι → Prop) : σ → List ι → Prop
  | _, [] => True
  | s, op :: ops => ok s op ∧ Along step ok (step s op) ops

instance Along.decidable {ok : σ → ι → Prop} [∀ s op, Decidable (ok s op)] :
    (s : σ) → (ops : List ι) → Decidable (Along step ok s ops)
  | _, [] => inferInstanceAs (Decidable True)
  | s, op :: ops =>
    have : Decidable (Along step ok (step s op) ops) := Along.decidable (step s op) ops
    inferInstanceAs (Decidable (ok s op ∧ Along step ok (step s op) ops))

/-- An invariant kept by every step that meets `ok` holds after every run along `ok`. -/
theorem Along.invariant {ok : σ → ι → Prop} {I : σ → Prop}
    (hstep : ∀ s op, I s → ok s op → I (step s op)) {s : σ} {ops : List ι}
    (hs : I s) (h : Along step ok s ops) : I (run step s ops) := by
  induction ops generalizing s with
  | nil => exact hs
  | cons op ops ih => exact ih (hstep s op hs h.1) h.2

/-- What the steps that meet `ok` do from a state of the invariant, all steps of a run along `ok`
do. -/
theorem Along.along {ok Q : σ → ι → Prop} {I : σ → Prop}
    (hstep : ∀ s op, I s → ok s op → I (step s op)) (hQ : ∀ s op, I s → ok s op → Q s op)
    {s : σ} {ops : List ι} (hs : I s) (h : Along step ok s ops) : Along step Q s ops := by
  induction ops generalizing s with
  | nil => trivial
  | cons op ops ih => exact ⟨hQ s op hs h.1, ih (hstep s op hs h.1) h.2⟩

/-- A condition on the operations alone. -/
theorem along_of_forall {ok : σ → ι → Prop} {ops : List ι} (h : ∀ s, ∀ op ∈ ops, ok s op) (s : σ) :
    Along step ok s ops := by
  induction ops generalizing s with
  | nil => trivial
  | cons op ops ih =>
    exact ⟨h s op List.mem_cons_self,
      ih (fun s op hop => h s op (List.mem_cons_of_mem _ hop)) (step s op)⟩

/-- A run of two halves meets a condition if both of them do. -/
theorem along_append {ok : σ → ι → Prop} {s : σ} {ops ops' : List ι} :
    Along step ok s (ops ++ ops') ↔ Along step ok s ops ∧ Along step ok (run step s ops) ops' := by
  induction ops generalizing s with
  | nil => exact ⟨fun h => ⟨trivial, h⟩, fun h => h.2⟩
  | cons op ops ih =>
    rw [List.cons_append, Along, Along, run_cons, ih, and_assoc]

/-- An invariant kept by every step holds after every run. -/
theorem run_invariant {I : σ → Prop} (hstep : ∀ s op, I s → I (step s op))
    {s : σ} (ops : List ι) (hs : I s) : I (run step s ops) := by
  induction ops generalizing s with
  | nil => exact hs
  | cons op ops ih => exact ih (hstep s op hs)

/-- The states of a run are its first state and those of the run after its first step. -/
theorem forall_prefix_cons {P : σ → Prop} {s : σ} {op : ι} {ops : List ι} :
    (∀ ops', ops' <+: op :: ops → P (run step s ops')) ↔
      P s ∧ ∀ ops', ops' <+: ops → P (run step (step s op) ops') := by
  simp only [List.prefix_cons_iff]
  constructor
  · intro h
    exact ⟨h [] (Or.inl rfl), fun ops' hops => h (op :: ops') (Or.inr ⟨ops', rfl, hops⟩)⟩
  · intro h ops' hops
    rcases hops with rfl | ⟨rest, rfl, hrest⟩
    · exact h.1
    · exact h.2 rest hrest

/-- A property of every state of a run holds after each of its steps. -/
theorem along_of_forall_prefix {P : σ → Prop} {s : σ} {ops : List ι}
    (h : ∀ ops', ops' <+: ops → P (run step s ops')) :
    Along step (fun s op => P (step s op)) s ops := by
  induction ops generalizing s with
  | nil => trivial
  | cons op ops ih =>
    have hrest := (forall_prefix_cons.mp h).2
    exact ⟨hrest [] List.nil_prefix, ih hrest⟩

/-- An invariant kept by the steps that meet `ok`, whose property `P` is broken by every
step that does not: `P` holds throughout a run exactly when all its steps meet `ok`. -/
theorem throughout_iff_along {I P : σ → Prop} {ok : σ → ι → Prop} (hP : ∀ s, I s → P s)
    (hok : ∀ s op, I s → ok s op → I (step s op))
    (hbad : ∀ s op, I s → ¬ ok s op → ¬ P (step s op)) {s : σ} (ops : List ι) (hs : I s) :
    (∀ ops', ops' <+: ops → P (run step s ops')) ↔ Along step ok s ops := by
  induction ops generalizing s with
  | nil => simp [Along, hP s hs]
  | cons op ops ih =>
    rw [forall_prefix_cons, Along]
    by_cases h : ok s op
    · rw [ih (hok s op hs h)]
      exact ⟨fun h' => ⟨h, h'.2⟩, fun h' => ⟨hP s hs, h'.2⟩⟩
    · refine iff_of_false ?_ fun h' => h h'.1
      intro h'
      exact hbad s op hs h (h'.2 [] (List.nil_prefix))

end Runs
