import Mathlib.Data.List.Basic
import Mathlib.Logic.Function.Basic

/-!
# Creating a file and filling it

A file system seen by its paths, and the sequence a program writes a new file with: an
exclusive create, a loop of `write` calls, `fsync` and `close`. What the operating system
does at each step is an argument (`Attempt`): the create may be refused, each `write` may
take a part of what it is given, be interrupted or fail, and `fsync` may fail.

* `writeLoop_prefix`, whatever happens the file holds a prefix of the payload;
* `writeLoop_complete_iff`, the loop ends well exactly when no error cuts it off;
* `create_complete`, `create_refused` and `create_failed`, the three ways a create ends;
* `unlink_create`, unlinking the created file restores the file system;
* `create_addsOnly`, what was there is as it was.
-/

namespace Files

variable {α : Type}

/-! ## The file system -/

/-- What a path leads to. -/
inductive Node (α : Type)
  | file (content : List α)
  | directory
  | danglingLink
deriving DecidableEq, Repr

/-- The file system, by path. -/
abbrev Disk (α : Type) := String → Option (Node α)

namespace Disk

/-- `access(path, F_OK) == 0`: the path is resolved, so a dangling link is not there. -/
def accessible (t : Disk α) (path : String) : Bool :=
  match t path with
  | none | some .danglingLink => false
  | some _ => true

/-- `unlink`. -/
def unlink (t : Disk α) (path : String) : Disk α := Function.update t path none

end Disk

/-- What is not there at all is not accessible. -/
theorem accessible_of_none {t : Disk α} {path : String} (h : t path = none) :
    t.accessible path = false := by
  rw [Disk.accessible, h]

/-! ## The write loop -/

/-- What one `write` does: it takes some of the bytes, is interrupted, or fails. -/
inductive WriteResult
  | wrote (n : {n : ℕ // 0 < n})
  | eintr
  | error
deriving DecidableEq

/-- What the operating system does with one attempt to create and fill a file. The results
of the `write` calls are listed in the order they are made; a `write` past the last of them
takes all the bytes it is given. -/
structure Attempt where
  refused : Bool := false
  writes : List WriteResult := []
  fsyncOk : Bool := true
deriving DecidableEq

/-- The loop over the `write` calls, with `content` written so far and `rest` still to be:
what the file holds in the end, and whether all of it was written. -/
def writeLoop (content rest : List α) : List WriteResult → List α × Bool
  | [] => (content ++ rest, true)
  | r :: script =>
    if rest.isEmpty then (content, true)
    else
      match r with
      | .error => (content, false)
      | .eintr => writeLoop content rest script
      | .wrote n => writeLoop (content ++ rest.take n) (rest.drop n) script

/-- The results of the `write` calls reach an error before the bytes they take add up to
`len`. -/
def Interrupts (len : ℕ) : List WriteResult → Prop
  | [] => False
  | .error :: _ => 0 < len
  | .eintr :: script => Interrupts len script
  | .wrote n :: script => Interrupts (len - n) script

instance decidableInterrupts : (len : ℕ) → (script : List WriteResult) →
    Decidable (Interrupts len script)
  | _, [] => isFalse not_false
  | len, .error :: _ => inferInstanceAs (Decidable (0 < len))
  | len, .eintr :: script => decidableInterrupts len script
  | len, .wrote n :: script => decidableInterrupts (len - n) script

theorem not_interrupts_zero (script : List WriteResult) : ¬ Interrupts 0 script := by
  induction script with
  | nil => exact not_false
  | cons r script ih =>
    cases r with
    | error => exact Nat.lt_irrefl 0
    | eintr => exact ih
    | wrote n =>
      show ¬ Interrupts (0 - n) script
      rw [Nat.zero_sub]
      exact ih

/-- Whatever the calls do, what is written is a prefix of the payload. -/
theorem writeLoop_prefix (content rest : List α) (script : List WriteResult) :
    (writeLoop content rest script).1 <+: content ++ rest := by
  induction script generalizing content rest with
  | nil => exact List.prefix_rfl
  | cons r script ih =>
    unfold writeLoop
    by_cases hr : rest.isEmpty = true
    · rw [if_pos hr]
      exact List.prefix_append content rest
    · rw [if_neg hr]
      cases r with
      | error => exact List.prefix_append content rest
      | eintr => exact ih content rest
      | wrote n =>
        -- what moves from `rest` to `content` stays where it is in the two together
        have h := ih (content ++ rest.take n) (rest.drop n)
        rwa [List.append_assoc, List.take_append_drop] at h

/-- The loop ends well exactly when no error cuts it off. -/
theorem writeLoop_complete_iff (content rest : List α) (script : List WriteResult) :
    (writeLoop content rest script).2 = true ↔ ¬ Interrupts rest.length script := by
  induction script generalizing content rest with
  | nil => exact iff_of_true rfl not_false
  | cons r script ih =>
    unfold writeLoop
    by_cases hr : rest.isEmpty = true
    · rw [if_pos hr, List.isEmpty_iff.mp hr]
      exact iff_of_true rfl (not_interrupts_zero _)
    · rw [if_neg hr]
      cases r with
      | error =>
        have hlen : 0 < rest.length := List.length_pos_iff.mpr (mt List.isEmpty_iff.mpr hr)
        exact iff_of_false (by simp) (not_not.mpr hlen)
      | eintr => exact ih content rest
      | wrote n =>
        have h := ih (content ++ rest.take n) (rest.drop n)
        rwa [List.length_drop] at h

/-- A loop that ends well has written the whole payload. -/
theorem writeLoop_complete {content rest : List α} {script : List WriteResult}
    (h : (writeLoop content rest script).2 = true) :
    (writeLoop content rest script).1 = content ++ rest := by
  induction script generalizing content rest with
  | nil => rfl
  | cons r script ih =>
    unfold writeLoop at h ⊢
    by_cases hr : rest.isEmpty = true
    · rw [if_pos hr, List.isEmpty_iff.mp hr, List.append_nil]
    · rw [if_neg hr] at h ⊢
      cases r with
      | error => exact absurd h (by simp)
      | eintr => exact ih h
      | wrote n => rw [ih h, List.append_assoc, List.take_append_drop]

/-! ## Creating a file -/

/-- How an attempt to create and fill a file ends. -/
inductive Created
  | refused | failed | complete
deriving DecidableEq, Repr

/-- `open(path, O_WRONLY | O_CREAT | O_EXCL)`, the write loop, `fsync` and `close`. The file
stays where it is when the loop or `fsync` fails. -/
def Disk.create (t : Disk α) (path : String) (payload : List α) (os : Attempt) :
    Created × Disk α :=
  if (t path).isSome ∨ os.refused then (.refused, t)
  else
    let (content, ok) := writeLoop [] payload os.writes
    (if ok && os.fsyncOk then .complete else .failed, Function.update t path (some (.file content)))

/-- The create goes through: the name is free and the operating system agrees. -/
def Creates (t : Disk α) (path : String) (os : Attempt) : Prop :=
  t path = none ∧ os.refused = false

/-- An attempt that would create the file and then not fill it. -/
def Stops (len : ℕ) (os : Attempt) : Prop := Interrupts len os.writes ∨ os.fsyncOk = false

instance (t : Disk α) (path : String) (os : Attempt) : Decidable (Creates t path os) :=
  decidable_of_iff ((t path).isNone = true ∧ os.refused = false) (by simp [Creates])

instance (len : ℕ) (os : Attempt) : Decidable (Stops len os) :=
  inferInstanceAs (Decidable (_ ∨ _))

theorem create_refused {t : Disk α} {path : String} {os : Attempt} (payload : List α)
    (h : ¬ Creates t path os) : t.create path payload os = (.refused, t) := by
  unfold Disk.create
  rw [if_pos]
  by_cases ht : t path = none
  · exact Or.inr (eq_true_of_ne_false fun hr => h ⟨ht, hr⟩)
  · exact Or.inl (Option.isSome_iff_ne_none.mpr ht)

theorem create_complete {t : Disk α} {path : String} {payload : List α} {os : Attempt}
    (h : Creates t path os) (hs : ¬ Stops payload.length os) :
    t.create path payload os = (.complete, Function.update t path (some (.file payload))) := by
  obtain ⟨ht, hr⟩ := h
  have hfs : os.fsyncOk = true := eq_true_of_ne_false fun hf => hs (Or.inr hf)
  have hok := (writeLoop_complete_iff [] payload os.writes).mpr fun hi => hs (Or.inl hi)
  unfold Disk.create
  rw [if_neg (by simp [ht, hr])]
  simp only [writeLoop_complete hok, hok, hfs, Bool.and_self, if_true, List.nil_append]

theorem create_failed {t : Disk α} {path : String} {payload : List α} {os : Attempt}
    (h : Creates t path os) (hs : Stops payload.length os) :
    ∃ content, content <+: payload ∧
      t.create path payload os
        = (.failed, Function.update t path (some (.file content))) := by
  obtain ⟨ht, hr⟩ := h
  refine ⟨(writeLoop [] payload os.writes).1, writeLoop_prefix [] payload os.writes, ?_⟩
  -- either the loop is cut off, or it has written everything and `fsync` fails
  have hbad : ((writeLoop [] payload os.writes).2 && os.fsyncOk) = false := by
    rcases hs with hi | hf
    · have hne : ¬ (writeLoop [] payload os.writes).2 = true := fun hok =>
        (writeLoop_complete_iff [] payload os.writes).mp hok hi
      rw [Bool.eq_false_iff.mpr hne, Bool.false_and]
    · rw [hf, Bool.and_false]
  unfold Disk.create
  rw [if_neg (by simp [ht, hr])]
  simp only [hbad, Bool.false_eq_true, if_false]

/-- Unlinking what a create left behind restores the file system. -/
theorem unlink_create {t : Disk α} {path : String} (ht : t path = none)
    (node : Option (Node α)) : Disk.unlink (Function.update t path node) path = t := by
  rw [Disk.unlink, Function.update_idem, ← ht, Function.update_eq_self]

/-- A file left behind is a change. -/
theorem update_some_ne {t : Disk α} {path : String} (ht : t path = none) (node : Node α) :
    Function.update t path (some node) ≠ t := by
  intro h
  have hp := congrFun h path
  rw [Function.update_self, ht] at hp
  exact absurd hp (by simp)

/-! ## What a create leaves alone -/

section
variable {P : String → Prop} {t t' t'' : Disk α}

/-- Nothing that was there differs, and what is new is where it may be. -/
def AddsOnly (P : String → Prop) (t t' : Disk α) : Prop :=
  ∀ path, t' path = t path ∨ t path = none ∧ P path

theorem AddsOnly.refl (P : String → Prop) (t : Disk α) : AddsOnly P t t := fun _ => Or.inl rfl

theorem AddsOnly.trans (h : AddsOnly P t t') (h' : AddsOnly P t' t'') : AddsOnly P t t'' := by
  intro path
  rcases h path with heq | hnew
  · rw [← heq]
    exact h' path
  · exact Or.inr hnew

theorem AddsOnly.kept (h : AddsOnly P t t') {path : String} (hthere : t path ≠ none) :
    t' path = t path :=
  (h path).resolve_right fun hnew => hthere hnew.1

theorem AddsOnly.placed (h : AddsOnly P t t') {path : String} (hnone : t path = none)
    (hnew : t' path ≠ none) : P path := by
  rcases h path with heq | hplaced
  · rw [heq] at hnew
    exact absurd hnone hnew
  · exact hplaced.2

/-- Exclusive creation adds a file where there was none. -/
theorem create_addsOnly {path : String} (hpath : P path) (t : Disk α) (payload : List α)
    (os : Attempt) : AddsOnly P t (t.create path payload os).2 := by
  by_cases hc : Creates t path os
  · intro other
    have hupdate : ∃ node, (t.create path payload os).2 = Function.update t path node := by
      by_cases hs : Stops payload.length os
      · obtain ⟨content, -, hcreate⟩ := create_failed hc hs
        exact ⟨_, congrArg Prod.snd hcreate⟩
      · exact ⟨_, congrArg Prod.snd (create_complete hc hs)⟩
    obtain ⟨node, hupdate⟩ := hupdate
    rw [hupdate]
    by_cases hother : other = path
    · subst hother
      exact Or.inr ⟨hc.1, hpath⟩
    · exact Or.inl (Function.update_of_ne hother _ _)
  · rw [create_refused payload hc]
    exact AddsOnly.refl P t

end

end Files
