import Mathlib.Data.List.Forall2
import Mathlib.Control.Basic

/-!
# Reading a list from its front

A reader has the whole list and how far it has come, and may fail. What was written in parts is
read in parts:

* `take`, `times` and `untilDone`, the next so many elements, the same so many times, and the same
  until it says so;
* `Reads p enc a`, wherever `enc` stands, `p` reads `a` there and comes to its end;
* `Reads.bind`, `reads_take`, `reads_times` and `reads_untilDone`, one rule for each;
* `mapM_flatten_injective`, lists that are told apart by what is written of them;
* `loop_eq_of_gains`, a loop that comes further with each turn is not cut short.
-/

/-- A list, and how far it has been read. -/
structure Cursor (β : Type*) where
  d : List β
  i : ℕ
deriving DecidableEq, Repr

namespace Cursor

variable {β ε α γ : Type}

/-- Something that is read, or an error. -/
abbrev Read (β ε α : Type) := StateT (Cursor β) (Except ε) α

/-! ## Readers -/

/-- The next `n` elements. -/
def take (short : ε) (n : ℕ) : Read β ε (List β) := fun r =>
  if r.i + n ≤ r.d.length then .ok ((r.d.drop r.i).take n, { r with i := r.i + n })
  else .error short

/-- The same reader so many times. -/
def times (p : Read β ε α) : ℕ → Read β ε (List α)
  | 0 => pure []
  | n + 1 => do
    let a ← p
    let as ← times p n
    return a :: as

/-- A reader that says what it goes on with, or what the result is; `tired` when it may go on no
more. -/
def loop (tired : ε) (p : α → Read β ε (α ⊕ γ)) : ℕ → α → Read β ε γ
  | 0, _ => fun _ => .error tired
  | fuel + 1, a => p a >>= fun
    | .inl a' => loop tired p fuel a'
    | .inr c => pure c

/-- The same, as often as there are elements left, and once more. -/
def untilDone (tired : ε) (p : α → Read β ε (α ⊕ γ)) (a : α) : Read β ε γ := fun r =>
  loop tired p (r.d.length - r.i + 1) a r

/-! ## What is read where it was written -/

/-- Wherever `enc` stands, `p` reads `a` there, and comes to its end. -/
def Reads (p : Read β ε α) (enc : List β) (a : α) : Prop :=
  ∀ before rest, p ⟨before ++ (enc ++ rest), before.length⟩ =
    .ok (a, ⟨before ++ (enc ++ rest), before.length + enc.length⟩)

section
variable {p : Read β ε α} {q : α → Read β ε γ} {enc enc' : List β} {a : α} {c : γ}

theorem reads_pure (a : α) : Reads (pure a : Read β ε α) [] a := fun _ _ => rfl

/-- What was written in two parts is read in two parts. -/
theorem Reads.bind (hp : Reads p enc a) (hq : Reads (q a) enc' c) :
    Reads (p >>= q) (enc ++ enc') c := by
  intro before rest
  have hfirst := hp before (enc' ++ rest)
  have hsecond := hq (before ++ enc) rest
  simp only [List.append_assoc, List.length_append] at hfirst hsecond ⊢
  show (p ⟨before ++ (enc ++ (enc' ++ rest)), before.length⟩ >>= fun r => q r.1 r.2) = _
  rw [hfirst]
  show q a ⟨before ++ (enc ++ (enc' ++ rest)), before.length + enc.length⟩ = _
  rw [hsecond, Nat.add_assoc]

theorem Reads.of_eq (h : Reads p enc a) (heq : enc = enc') : Reads p enc' a := heq ▸ h

theorem Reads.map {g : α → γ} (h : Reads p enc a) :
    Reads (p >>= fun x => pure (g x)) enc (g a) :=
  (h.bind (q := fun x => pure (g x)) (reads_pure (g a))).of_eq (List.append_nil enc)

theorem reads_take (short : ε) (enc : List β) : Reads (take short enc.length) enc enc := by
  intro before rest
  simp [take]

/-- What was written so many times is read so many times. -/
theorem reads_times {encs : List (List β)} {xs : List γ} {g : γ → α}
    (h : List.Forall₂ (fun enc x => Reads p enc (g x)) encs xs) :
    Reads (times p xs.length) encs.flatten (xs.map g) := by
  induction h with
  | nil => exact reads_pure []
  | @cons enc x encs xs hx _ ih =>
    have hall : Reads (times p (xs.length + 1)) (enc ++ (encs.flatten ++ [])) (g x :: xs.map g) :=
      hx.bind (ih.bind (reads_pure (g x :: xs.map g)))
    rwa [List.append_nil] at hall

/-- A result that is not read. -/
theorem reads_lift {x : Except ε α} (h : x = .ok a) : Reads (liftM x : Read β ε α) [] a := by
  subst h
  exact fun _ _ => rfl

end

/-! ## Writers -/

@[simp] theorem ok_bind (a : α) (f : α → Except ε γ) : (Except.ok a >>= f) = f a := rfl

/-- Two things made of each element in turn. -/
theorem mapM_both {δ : Type} {f : α → Except ε γ} {g : α → Except ε δ} {P : γ → δ → Prop}
    {xs : List α} (h : ∀ x ∈ xs, ∃ y z, f x = .ok y ∧ g x = .ok z ∧ P y z) :
    ∃ ys zs, xs.mapM f = .ok ys ∧ xs.mapM g = .ok zs ∧ List.Forall₂ P ys zs ∧
      zs.length = xs.length := by
  induction xs with
  | nil => exact ⟨[], [], rfl, rfl, List.Forall₂.nil, rfl⟩
  | cons x xs ih =>
    obtain ⟨y, z, hy, hz, hP⟩ := h x List.mem_cons_self
    obtain ⟨ys, zs, hys, hzs, hall, hlen⟩ := ih fun x' hx' => h x' (List.mem_cons_of_mem x hx')
    refine ⟨y :: ys, z :: zs, ?_, ?_, List.Forall₂.cons hP hall, congrArg (· + 1) hlen⟩
    · rw [List.mapM_cons, hy, hys]
      rfl
    · rw [List.mapM_cons, hz, hzs]
      rfl

/-- What is written for each element in turn. -/
theorem mapM_ok {f : α → Except ε γ} {P : γ → α → Prop} {xs : List α}
    (h : ∀ x ∈ xs, ∃ y, f x = .ok y ∧ P y x) :
    ∃ ys, xs.mapM f = .ok ys ∧ List.Forall₂ P ys xs := by
  obtain ⟨ys, zs, hys, hzs, hall, -⟩ := mapM_both (g := Except.ok) (P := P) fun x hx => by
    obtain ⟨y, hy, hP⟩ := h x hx
    exact ⟨y, x, hy, rfl, hP⟩
  have hsame : xs.mapM (pure : α → Except ε α) = .ok zs := hzs
  rw [List.mapM_pure, List.map_id'] at hsame
  exact ⟨ys, hys, Except.ok.inj hsame ▸ hall⟩

/-- What was written of each element in turn. -/
theorem forall₂_of_mapM {f : α → Except ε γ} {R : γ → α → Prop} {xs : List α} {ys : List γ}
    (hf : ∀ x ∈ xs, ∀ y, f x = .ok y → R y x) (h : xs.mapM f = .ok ys) : List.Forall₂ R ys xs := by
  induction xs generalizing ys with
  | nil =>
    cases h
    exact List.Forall₂.nil
  | cons x xs ih =>
    rw [List.forall_mem_cons] at hf
    rw [List.mapM_cons] at h
    match hx : f x with
    | .error e =>
      rw [hx] at h
      cases h
    | .ok y =>
      match hxs : xs.mapM f with
      | .error e =>
        rw [hx, hxs] at h
        cases h
      | .ok ys' =>
        rw [hx, hxs] at h
        cases h
        exact List.Forall₂.cons (hf.1 y hx) (ih hf.2 hxs)

theorem exists_of_mapM {f : α → Except ε γ} {xs : List α} {ys : List γ} (h : xs.mapM f = .ok ys) :
    ∀ x ∈ xs, ∃ y, f x = .ok y := by
  have hall := forall₂_of_mapM (R := fun y x => f x = .ok y) (fun _ _ _ hy => hy) h
  clear h
  induction hall with
  | nil => exact fun x hx => absurd hx List.not_mem_nil
  | cons hx _ ih => exact List.forall_mem_cons.mpr ⟨⟨_, hx⟩, ih⟩

/-! ## What is told apart -/

/-- What stands at the front of two lists that are one, and is read there, is the same. -/
theorem Reads.injective {p : Read β ε α} {enc enc' rest rest' : List β} {a a' : α}
    (h : Reads p enc a) (h' : Reads p enc' a') (heq : enc ++ rest = enc' ++ rest') :
    a = a' ∧ enc = enc' ∧ rest = rest' := by
  have hread := h [] rest
  have hread' := h' [] rest'
  rw [heq] at hread
  obtain ⟨ha, hr⟩ := Prod.mk.inj (Except.ok.inj (hread.symm.trans hread'))
  have hlength := congrArg Cursor.i hr
  dsimp only at hlength
  exact ⟨ha, List.append_inj heq (by omega)⟩

/-- Lists of things that are read one after the other. -/
theorem flatten_injective {p : Read β ε α} {encs encs' : List (List β)} {as as' : List α}
    (h : List.Forall₂ (fun enc a => enc ≠ [] ∧ Reads p enc a) encs as)
    (h' : List.Forall₂ (fun enc a => enc ≠ [] ∧ Reads p enc a) encs' as')
    (heq : encs.flatten = encs'.flatten) : as = as' := by
  induction h generalizing encs' as' with
  | nil =>
    cases h' with
    | nil => rfl
    | cons hx _ =>
      rw [List.flatten_cons, List.flatten_nil] at heq
      exact absurd (List.append_eq_nil_iff.mp heq.symm).1 hx.1
  | cons hx _ ih =>
    cases h' with
    | nil =>
      rw [List.flatten_cons, List.flatten_nil] at heq
      exact absurd (List.append_eq_nil_iff.mp heq).1 hx.1
    | cons hx' hrest' =>
      rw [List.flatten_cons, List.flatten_cons] at heq
      obtain ⟨rfl, -, hrest⟩ := hx.2.injective hx'.2 heq
      rw [ih hrest' hrest]

/-- Lists of things that are written one after the other. -/
theorem mapM_flatten_injective {p : Read β ε α} {f : γ → Except ε (List β)} {g : γ → α}
    {xs xs' : List γ} {ys ys' : List (List β)}
    (hxs : ∀ x ∈ xs, ∀ y, f x = .ok y → y ≠ [] ∧ Reads p y (g x))
    (hxs' : ∀ x ∈ xs', ∀ y, f x = .ok y → y ≠ [] ∧ Reads p y (g x))
    (h : xs.mapM f = .ok ys) (h' : xs'.mapM f = .ok ys') (heq : ys.flatten = ys'.flatten) :
    xs.map g = xs'.map g := by
  refine flatten_injective (p := p) ?_ ?_ heq
  · rw [List.forall₂_map_right_iff]
    exact forall₂_of_mapM hxs h
  · rw [List.forall₂_map_right_iff]
    exact forall₂_of_mapM hxs' h'

/-! ## Loops -/

section
variable {tired : ε} {p : α → Read β ε (α ⊕ γ)} {enc enc' : List β} {a a' : α} {c : γ} {fuel : ℕ}

theorem reads_loop_done (h : Reads (p a) enc (.inr c)) :
    Reads (loop tired p (fuel + 1) a) enc c := by
  have hall : Reads (loop tired p (fuel + 1) a) (enc ++ []) c := h.bind (reads_pure c)
  rwa [List.append_nil] at hall

theorem reads_loop_on (h : Reads (p a) enc (.inl a'))
    (hrest : Reads (loop tired p fuel a') enc' c) :
    Reads (loop tired p (fuel + 1) a) (enc ++ enc') c :=
  h.bind hrest

/-- A loop that needs no more turns than there are elements is not cut short. -/
theorem reads_untilDone (turns : ℕ) (hturns : turns ≤ enc.length)
    (h : ∀ fuel, turns < fuel → Reads (loop tired p fuel a) enc c) :
    Reads (untilDone tired p a) enc c := by
  intro before rest
  refine h _ ?_ before rest
  simp only [List.length_append]
  omega

/-- It comes further, and not over the end. -/
def Gains (p : Read β ε α) : Prop :=
  ∀ r a r', p r = .ok (a, r') → r'.d = r.d ∧ r.i < r'.i ∧ r'.i ≤ r.d.length

/-- It does not go back, nor over the end. -/
def Forward (p : Read β ε α) : Prop :=
  ∀ r a r', p r = .ok (a, r') → r.i ≤ r.d.length → r'.d = r.d ∧ r.i ≤ r'.i ∧ r'.i ≤ r.d.length

theorem Gains.forward {p : Read β ε α} (hp : Gains p) : Forward p := by
  intro r a r' h _
  obtain ⟨hd, hlt, hle⟩ := hp r a r' h
  exact ⟨hd, Nat.le_of_lt hlt, hle⟩

theorem forward_pure (a : α) : Forward (pure a : Read β ε α) := by
  intro r a' r' h hle
  cases h
  exact ⟨rfl, Nat.le_refl _, hle⟩

/-- What is read in two parts is read by both of them. -/
theorem of_bind_eq_ok {p : Read β ε α} {q : α → Read β ε γ} {r r'' : Cursor β} {c : γ}
    (h : (p >>= q) r = .ok (c, r'')) :
    ∃ a r', p r = .ok (a, r') ∧ q a r' = .ok (c, r'') := by
  change (p r >>= fun s => q s.1 s.2) = .ok (c, r'') at h
  match hfirst : p r with
  | .error e =>
    rw [hfirst] at h
    cases h
  | .ok (a, r') =>
    rw [hfirst] at h
    exact ⟨a, r', rfl, h⟩

/-- What holds of everything that is read holds of all of it. -/
theorem forall_of_times {p : Read β ε α} {P : α → Prop}
    (hp : ∀ r a r', p r = .ok (a, r') → P a) {n : ℕ} {r r' : Cursor β} {as : List α}
    (h : times p n r = .ok (as, r')) : ∀ a ∈ as, P a := by
  induction n generalizing r as r' with
  | zero =>
    cases h
    exact fun a ha => absurd ha List.not_mem_nil
  | succ n ih =>
    obtain ⟨a, r₁, hfirst, h⟩ := of_bind_eq_ok h
    obtain ⟨as', r₂, hrest, h⟩ := of_bind_eq_ok h
    cases h
    exact List.forall_mem_cons.mpr ⟨hp _ _ _ hfirst, ih hrest⟩

theorem length_of_take {short : ε} {n : ℕ} {r r' : Cursor β} {a : List β}
    (h : take short n r = .ok (a, r')) : a.length = n := by
  unfold take at h
  split at h
  · next hfits =>
    cases h
    rw [List.length_take, List.length_drop]
    omega
  · cases h

theorem Forward.bind {p : Read β ε α} {q : α → Read β ε γ} (hp : Forward p)
    (hq : ∀ a, Forward (q a)) : Forward (p >>= q) := by
  intro r c r'' h hle
  obtain ⟨a, r', hfirst, hsecond⟩ := of_bind_eq_ok h
  obtain ⟨hd, hlt, hle'⟩ := hp r a r' hfirst hle
  obtain ⟨hd', hlt', hle''⟩ := hq a r' c r'' hsecond (by rw [hd]; exact hle')
  exact ⟨hd'.trans hd, Nat.le_trans hlt hlt', by rw [← hd]; exact hle''⟩

theorem forward_take (short : ε) (n : ℕ) : Forward (take (β := β) short n) := by
  intro r a r' h hle
  unfold take at h
  split at h
  · next hfits =>
    cases h
    exact ⟨rfl, Nat.le_add_right _ _, hfits⟩
  · cases h

theorem gains_take (short : ε) (n : ℕ) : Gains (take (β := β) short (n + 1)) := by
  intro r a r' h
  unfold take at h
  split at h
  · next hfits =>
    cases h
    exact ⟨rfl, Nat.lt_add_of_pos_right (Nat.succ_pos n), hfits⟩
  · cases h

/-- What comes further first comes further. -/
theorem Gains.bind {p : Read β ε α} {q : α → Read β ε γ} (hp : Gains p) (hq : ∀ a, Forward (q a)) :
    Gains (p >>= q) := by
  intro r c r'' h
  obtain ⟨a, r', hfirst, hsecond⟩ := of_bind_eq_ok h
  obtain ⟨hd, hlt, hle⟩ := hp r a r' hfirst
  obtain ⟨hd', hlt', hle'⟩ := hq a r' c r'' hsecond (by rw [hd]; exact hle)
  exact ⟨hd'.trans hd, Nat.lt_of_lt_of_le hlt hlt', by rw [← hd]; exact hle'⟩

/-- More turns than there are elements left are never made. -/
theorem loop_eq_of_gains (hp : ∀ a, Gains (p a)) (r : Cursor β) (hfuel : r.d.length - r.i < fuel)
    {fuel' : ℕ} (hfuel' : r.d.length - r.i < fuel') :
    loop tired p fuel a r = loop tired p fuel' a r := by
  induction fuel generalizing a r fuel' with
  | zero => omega
  | succ fuel ih =>
    obtain ⟨fuel', rfl⟩ : ∃ n, fuel' = n + 1 := ⟨fuel' - 1, by omega⟩
    show (p a r >>= fun s => _) = (p a r >>= fun s => _)
    match hstep : p a r with
    | .error e => rfl
    | .ok (.inr c, r') => rfl
    | .ok (.inl a', r') =>
      obtain ⟨hd, hlt, hle⟩ := hp a r _ r' hstep
      refine ih r' ?_ ?_
      · rw [hd]
        omega
      · rw [hd]
        omega

end

end Cursor
