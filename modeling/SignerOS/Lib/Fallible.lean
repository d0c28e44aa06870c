import Mathlib.Data.Set.Function

/-!
# Programs that may stop

A program over a state that gives a value or stops with an error, and leaves a state in both cases.
A triple says how it ends from the states it may start in: what holds of the value and the state if
it gives one, and of the error and the state if it stops.

* `Triple.bind`, one program after another, the rule every other is used under;
* `Triple.post` and `Triple.onError`, less said of an end;
* `Triple.lift` and `Triple.exists`, what holds before and does not speak of the state;
* `Triple.forM`, a program for each element of a list, with an invariant.
-/

/-- What a program makes of a state. -/
def Fallible (σ ε α : Type) := σ → Except ε α × σ

namespace Fallible

variable {σ ε ε' α β : Type}

instance : Monad (Fallible σ ε) where
  pure a := fun s => (.ok a, s)
  bind x f := fun s =>
    match x s with
    | (.ok a, s) => f a s
    | (.error e, s) => (.error e, s)

def fail (e : ε) : Fallible σ ε α := fun s => (.error e, s)

def get : Fallible σ ε σ := fun s => (.ok s, s)

def modify (f : σ → σ) : Fallible σ ε Unit := fun s => (.ok (), f s)

/-- Stops unless the condition holds. -/
def require (p : Bool) (e : ε) : Fallible σ ε Unit := if p then pure () else fail e

def ofExcept : Except ε α → Fallible σ ε α
  | .ok a => pure a
  | .error e => fail e

/-- The same program, with its errors renamed. -/
def mapError (f : ε → ε') (x : Fallible σ ε α) : Fallible σ ε' α := fun s =>
  match x s with
  | (.ok a, s) => (.ok a, s)
  | (.error e, s) => (.error (f e), s)

/-- The state is changed at the end, whether the program stops or not. -/
def leaving (x : Fallible σ ε α) (f : σ → σ) : Fallible σ ε α := fun s => ((x s).1, f (x s).2)

/-! ## Triples -/

/-- An end of a program, of a value with `Q` or of an error with `E`. -/
inductive Ends (Q : α → σ → Prop) (E : ε → σ → Prop) : Except ε α × σ → Prop
  | ok {a : α} {s : σ} (h : Q a s) : Ends Q E (.ok a, s)
  | error {e : ε} {s : σ} (h : E e s) : Ends Q E (.error e, s)

/-- From a state with `P` the program ends with `Q` or with `E`. -/
def Triple (P : σ → Prop) (x : Fallible σ ε α) (Q : α → σ → Prop) (E : ε → σ → Prop) : Prop :=
  ∀ s, P s → Ends Q E (x s)

section
variable {P : σ → Prop} {Q Q' : α → σ → Prop} {R : β → σ → Prop} {E E' : ε → σ → Prop}

theorem Ends.mono {r : Except ε α × σ} (h : Ends Q E r) (hQ : ∀ a s, Q a s → Q' a s)
    (hE : ∀ e s, E e s → E' e s) : Ends Q' E' r := by
  cases h with
  | ok h => exact .ok (hQ _ _ h)
  | error h => exact .error (hE _ _ h)

theorem Triple.post {x : Fallible σ ε α} (h : Triple P x Q' E) (hQ : ∀ a s, Q' a s → Q a s) :
    Triple P x Q E :=
  fun s hs => (h s hs).mono hQ fun _ _ he => he

theorem Triple.onError {x : Fallible σ ε α} (h : Triple P x Q E')
    (hE : ∀ e s, E' e s → E e s) : Triple P x Q E :=
  fun s hs => (h s hs).mono (fun _ _ hq => hq) hE

theorem Triple.pure {a : α} (h : ∀ s, P s → Q a s) : Triple P (Pure.pure a) Q E :=
  fun s hs => .ok (h s hs)

theorem Triple.fail {e : ε} (h : ∀ s, P s → E e s) : Triple P (fail e) Q E :=
  fun s hs => .error (h s hs)

theorem Triple.bind {x : Fallible σ ε α} {f : α → Fallible σ ε β} (hx : Triple P x Q E)
    (hf : ∀ a, Triple (Q a) (f a) R E) : Triple P (x >>= f) R E := by
  intro s hs
  change Ends R E (match x s with | (.ok a, s) => f a s | (.error e, s) => (.error e, s))
  have hend := hx s hs
  generalize x s = r at hend ⊢
  cases hend with
  | ok h => exact hf _ _ h
  | error h => exact .error h

theorem Triple.modify {f : σ → σ} {R : Unit → σ → Prop} (h : ∀ s, P s → R () (f s)) :
    Triple P (Fallible.modify f) R E :=
  fun s hs => .ok (h s hs)

theorem Triple.require {p : Bool} {e : ε} (h : p = false → ∀ s, P s → E e s) :
    Triple P (Fallible.require p e) (fun _ s => P s ∧ p = true) E := by
  cases p with
  | true => exact Triple.pure fun s hs => ⟨hs, rfl⟩
  | false => exact Triple.fail (h rfl)

theorem Triple.ofExcept {r : Except ε α} (hok : ∀ a, r = .ok a → ∀ s, P s → Q a s)
    (herror : ∀ e, r = .error e → ∀ s, P s → E e s) : Triple P (ofExcept r) Q E := by
  cases r with
  | ok a => exact Triple.pure (hok a rfl)
  | error e => exact Triple.fail (herror e rfl)

theorem Triple.mapError {f : ε → ε'} {x : Fallible σ ε α} {E' : ε' → σ → Prop}
    (h : Triple P x Q fun e => E' (f e)) : Triple P (mapError f x) Q E' := by
  intro s hs
  have hend := h s hs
  unfold Fallible.mapError
  generalize x s = r at hend ⊢
  cases hend with
  | ok h => exact .ok h
  | error h => exact .error h

theorem Triple.leaving {x : Fallible σ ε α} {f : σ → σ}
    (h : Triple P x (fun a s => Q a (f s)) fun e s => E e (f s)) : Triple P (leaving x f) Q E := by
  intro s hs
  have hend := h s hs
  unfold Fallible.leaving
  generalize x s = r at hend ⊢
  cases hend with
  | ok h => exact .ok h
  | error h => exact .error h

/-- A part of what holds before that does not speak of the state. -/
theorem Triple.lift {φ : Prop} {x : Fallible σ ε α} (h : φ → Triple P x Q E) :
    Triple (fun s => φ ∧ P s) x Q E :=
  fun s hs => h hs.1 s hs.2

theorem Triple.exists {γ : Type} {P : γ → σ → Prop} {x : Fallible σ ε α}
    (h : ∀ c, Triple (P c) x Q E) : Triple (fun s => ∃ c, P c s) x Q E := by
  intro s ⟨c, hs⟩
  exact h c s hs

theorem Triple.require_bind {p : Bool} {e : ε} {f : Unit → Fallible σ ε β}
    (herror : p = false → ∀ s, P s → E e s) (h : p = true → Triple P (f ()) R E) :
    Triple P (Fallible.require p e >>= f) R E := by
  cases p with
  | true => exact h rfl
  | false => exact fun s hs => .error (herror rfl s hs)

theorem Triple.get_bind {f : σ → Fallible σ ε β} (h : ∀ s, P s → Triple P (f s) R E) :
    Triple P (Fallible.get >>= f) R E :=
  fun s hs => h s hs s hs

/-- A program for each element, which finds out something about it. -/
theorem Triple.forM_forall {A : α → Prop} {f : α → Fallible σ ε PUnit} {xs : List α}
    (h : ∀ x ∈ xs, Triple P (f x) (fun _ s => A x ∧ P s) E) :
    Triple P (xs.forM f) (fun _ s => (∀ x ∈ xs, A x) ∧ P s) E := by
  induction xs with
  | nil => exact Triple.pure fun _ hs => ⟨by simp, hs⟩
  | cons x xs ih =>
    change Triple P (f x >>= fun _ => xs.forM f) _ E
    refine Triple.bind (h x List.mem_cons_self) fun _ => Triple.lift fun hx => ?_
    have hxs := ih fun y hy => h y (List.mem_cons_of_mem x hy)
    exact hxs.post fun _ s hs => ⟨List.forall_mem_cons.mpr ⟨hx, hs.1⟩, hs.2⟩

/-- A program for each element, which keeps what holds before the first. -/
theorem Triple.forM {f : α → Fallible σ ε PUnit} {xs : List α}
    (h : ∀ x ∈ xs, Triple P (f x) (fun _ => P) E) : Triple P (xs.forM f) (fun _ => P) E := by
  have hall : Triple P (xs.forM f) (fun _ s => (∀ x ∈ xs, True) ∧ P s) E :=
    Triple.forM_forall fun x hx => (h x hx).post fun _ _ hs => ⟨trivial, hs⟩
  exact hall.post fun _ _ hs => hs.2

end

end Fallible
