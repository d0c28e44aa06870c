import SignerOS.Ui.AppWindow
import SignerOS.Lib.Runs
import Mathlib.Logic.Relation

/-!
# What one event does to the window

* `SignView.Handles`, `CreateView.Handles` and `ImportView.Handles`, the ways an event reaches a
  screen that shows;
* `AppWindow.Moved`, one move of the window between its screens;
* `AppWindow.Stepped`, an event is handled by the screen that shows and some moves follow it, or
  it is a poll;
* `AppWindow.step_invariant`, the rule by which an invariant of the window is proved;
* `AppWindow.signView_invariant` and its two siblings, the rule for an invariant of one screen
  while it shows.
-/

namespace SignerOS

open Files (Disk)
open Relation (ReflGen ReflTransGen)

/-! ## Screens -/

/-- What an event makes of the sign screen, while it shows. -/
inductive SignView.Handles (w : Wally) (lib : Bip39) (v : SignView) : Event → SignView → Prop
  | key {press : KeyPress} {out : Outside} {v' : SignView}
    (h : v.keyPress w lib out press = some v') : Handles w lib v (.key press out) v'
  | osk (key : OskKey) : Handles w lib v (.osk key) (v.osk lib key)
  | click {button : SignButton} (out : Outside) (h : v.clickable button = true) :
    Handles w lib v (.click (.sign button) out) (v.click w lib out button)
  | accept {press : KeyPress} (out : Outside) (h : v.page = .name) (hkey : press.key = .enter) :
    Handles w lib v (.key press out) (v.doWrite w out)

/-- What an event makes of the create screen, while it shows. -/
inductive CreateView.Handles (w : Wally) (lib : Bip39) (v : CreateView) :
    Event → CreateView → Prop
  | key {press : KeyPress} {out : Outside} {v' : CreateView}
    (h : v.keyPress w lib out press = some v') : Handles w lib v (.key press out) v'
  | osk (key : OskKey) : Handles w lib v (.osk key) (v.osk lib key)
  | click {button : CreateButton} (out : Outside) (h : v.clickable button = true) :
    Handles w lib v (.click (.create button) out) (v.click w lib out button)
  | accept {press : KeyPress} (out : Outside) (h : v.page = .name) (hkey : press.key = .enter) :
    Handles w lib v (.key press out) (v.doCreate out)

/-- What an event makes of the import screen, while it shows. -/
inductive ImportView.Handles (w : Wally) (lib : Bip39) (v : ImportView) :
    Event → ImportView → Prop
  | key {press : KeyPress} {out : Outside} {v' : ImportView}
    (h : v.keyPress w lib out press = some v') : Handles w lib v (.key press out) v'
  | osk (key : OskKey) : Handles w lib v (.osk key) (v.osk lib key)
  | click {button : ImportButton} (out : Outside) (h : v.clickable button = true) :
    Handles w lib v (.click (.importing button) out) (v.click w lib out button)
  | accept {press : KeyPress} (out : Outside) (h : v.page = .name) (hkey : press.key = .enter) :
    Handles w lib v (.key press out) (v.doWrite out)

/-- A button is clicked on its own page only. -/
theorem SignView.page_of_clickable {v : SignView} {button : SignButton}
    (h : v.clickable button = true) : v.page = button.page := by
  unfold clickable at h
  exact beq_iff_eq.mp (Bool.and_eq_true_iff.mp h).1

theorem CreateView.page_of_clickable {v : CreateView} {button : CreateButton}
    (h : v.clickable button = true) : v.page = button.page := by
  unfold clickable at h
  exact beq_iff_eq.mp (Bool.and_eq_true_iff.mp h).1

theorem ImportView.page_of_clickable {v : ImportView} {button : ImportButton}
    (h : v.clickable button = true) : v.page = button.page := by
  unfold clickable at h
  exact beq_iff_eq.mp (Bool.and_eq_true_iff.mp h).1

namespace AppWindow

/-! ## Moves -/

/-- A screen is left for one that nothing is typed into. -/
inductive Left (a : AppWindow) : AppWindow → Prop
  | home : Left a a.showHome
  | scan : Left a a.showScan
  | inspect : Left a a.showInspect
  | shutdown : Left a a.showShutdown

/-- One move between the screens, with what goes before it. -/
inductive Moved (w : Wally) (lib : Bip39) (a : AppWindow) : AppWindow → Prop
  | left {a' : AppWindow} (h : Left a a') : Moved w lib a a'
  | splashed (h : a.current = .splash) : Moved w lib a { a with splashDone := true }
  | opened (path : String) (file : FileNode) (h : a.current = .scan ∨ a.current = .inspect) :
    Moved w lib a (a.openSelected w path file)
  | sign : Moved w lib a (a.showSign lib)
  | create (out : Outside) : Moved w lib a (a.showCreate lib out)
  | importing : Moved w lib a (a.showImport w lib)
  | poweroff (h : a.current = .shutdown) : Moved w lib a a.requestPoweroff

/-- What is typed goes to this screen. -/
def Typing (a : AppWindow) : Prop :=
  a.current = .sign ∨ a.current = .create ∨ a.current = .importing

/-- What one event does: the screen that shows handles it and may be left; it is left and nothing
else happens; where nothing is typed, moves follow one another; or the data partition is
polled. -/
inductive Stepped (w : Wally) (lib : Bip39) (a : AppWindow) : Event → AppWindow → Prop
  | left {event : Event} {a' : AppWindow} (h : ReflGen Left a a') : Stepped w lib a event a'
  | sign {event : Event} {v : SignView} {a' : AppWindow} (h : a.current = .sign)
    (hv : a.signView.Handles w lib event v) (hleft : ReflGen Left (a.withSign v) a') :
    Stepped w lib a event a'
  | create {event : Event} {v : CreateView} {a' : AppWindow} (h : a.current = .create)
    (hv : a.createView.Handles w lib event v) (hleft : ReflGen Left (a.withCreate v) a') :
    Stepped w lib a event a'
  | importing {event : Event} {v : ImportView} {a' : AppWindow} (h : a.current = .importing)
    (hv : a.importView.Handles w lib event v) (hleft : ReflGen Left (a.withImport v) a') :
    Stepped w lib a event a'
  | moved {event : Event} {a' : AppWindow} (htyping : ¬ a.Typing)
    (h : ReflTransGen (Moved w lib) a a') : Stepped w lib a event a'
  | polled (mounted : Bool) (files : Disk Char) :
    Stepped w lib a (.poll mounted files) (a.poll mounted files)

variable {w : Wally} {lib : Bip39} {a a' : AppWindow}

theorem stepped_self (event : Event) : Stepped w lib a event a := .left .refl

theorem not_typing {screen : Screen} (hcurrent : a.current = screen)
    (h : screen ≠ .sign ∧ screen ≠ .create ∧ screen ≠ .importing) : ¬ a.Typing := by
  rw [Typing, hcurrent]
  rintro (hs | hs | hs)
  · exact h.1 hs
  · exact h.2.1 hs
  · exact h.2.2 hs

theorem current_openSelected (path : String) (file : FileNode)
    (h : a.current = .scan ∨ a.current = .inspect) :
    (a.openSelected w path file).current = .scan ∨
      (a.openSelected w path file).current = .inspect := by
  unfold openSelected
  dsimp only
  split
  · exact h
  · exact Or.inr rfl

/-- The file is opened once for each delivery of the click. -/
theorem moved_opened (path : String) (reads : List FileNode)
    (h : a.current = .scan ∨ a.current = .inspect) :
    ReflTransGen (Moved w lib) a
      (reads.foldl (fun a file => a.openSelected w path file) a) := by
  induction reads generalizing a with
  | nil => exact .refl
  | cons file reads ih =>
    exact .head (.opened path file h) (ih (current_openSelected path file h))

theorem moved_finishSplash (h : a.current = .splash) :
    ReflTransGen (Moved w lib) a a.finishSplash := by
  unfold finishSplash
  split
  · exact .refl
  · exact .head (.splashed h) (.single (.left .home))

theorem left_ownKeyPress (press : KeyPress) : ReflGen Left a (a.ownKeyPress press) := by
  unfold ownKeyPress
  split
  · split
    · exact .refl
    · exact .single .home
  · exact .single .shutdown
  · exact .refl

theorem left_afterSign (button : SignButton) : ReflGen Left a (a.afterSign button) := by
  unfold afterSign
  split
  · exact .single .inspect
  · exact .single .scan
  · exact .single .scan
  · exact .single .shutdown
  · exact .refl

theorem left_afterCreate (button : CreateButton) : ReflGen Left a (a.afterCreate button) := by
  unfold afterCreate
  split
  · exact .single .home
  · exact .single .home
  · exact .single .shutdown
  · exact .refl

theorem left_afterImport (button : ImportButton) : ReflGen Left a (a.afterImport button) := by
  unfold afterImport
  split
  · exact .single .home
  · exact .single .home
  · exact .single .shutdown
  · exact .refl

/-! ## Steps -/

theorem stepped_acceptSavePage {press : KeyPress} (out : Outside) (hkey : press.key = .enter)
    (hactive : a.savePageActive = true) :
    Stepped w lib a (.key press out) (a.acceptSavePage w out) := by
  unfold acceptSavePage
  cases hcurrent : a.current with
  | sign =>
    have hpage : a.sign.page = .name := by
      simpa only [savePageActive, hcurrent, beq_iff_eq] using hactive
    dsimp only
    split
    · exact .sign hcurrent (.accept out hpage hkey) .refl
    · exact stepped_self _
  | create =>
    have hpage : a.create.page = .name := by
      simpa only [savePageActive, hcurrent, beq_iff_eq] using hactive
    dsimp only
    split
    · exact .create hcurrent (.accept out hpage hkey) .refl
    · exact stepped_self _
  | importing =>
    have hpage : a.importing.page = .name := by
      simpa only [savePageActive, hcurrent, beq_iff_eq] using hactive
    dsimp only
    split
    · exact .importing hcurrent (.accept out hpage hkey) .refl
    · exact stepped_self _
  | splash => exact stepped_self _
  | home => exact stepped_self _
  | scan => exact stepped_self _
  | inspect => exact stepped_self _
  | shutdown => exact stepped_self _

theorem stepped_screenKeyPress {press : KeyPress} {out : Outside}
    (h : a.screenKeyPress w lib out press = some a') : Stepped w lib a (.key press out) a' := by
  unfold screenKeyPress at h
  cases hcurrent : a.current with
  | splash =>
    rw [hcurrent] at h
    dsimp only at h
    split at h
    · cases h
    · cases h
      exact .moved (not_typing hcurrent (by decide)) (moved_finishSplash hcurrent)
  | sign =>
    rw [hcurrent] at h
    obtain ⟨v, hv, rfl⟩ := Option.map_eq_some_iff.mp h
    exact .sign hcurrent (.key hv) .refl
  | create =>
    rw [hcurrent] at h
    obtain ⟨v, hv, rfl⟩ := Option.map_eq_some_iff.mp h
    exact .create hcurrent (.key hv) .refl
  | importing =>
    rw [hcurrent] at h
    obtain ⟨v, hv, rfl⟩ := Option.map_eq_some_iff.mp h
    exact .importing hcurrent (.key hv) .refl
  | home => rw [hcurrent] at h; cases h
  | scan => rw [hcurrent] at h; cases h
  | inspect => rw [hcurrent] at h; cases h
  | shutdown => rw [hcurrent] at h; cases h

theorem stepped_keyPress (press : KeyPress) (out : Outside) :
    Stepped w lib a (.key press out) (a.keyPress w lib out press) := by
  unfold keyPress
  by_cases haccept : press.key = .enter ∧ a.savePageActive = true
  · rw [if_pos haccept]
    exact stepped_acceptSavePage out haccept.1 haccept.2
  rw [if_neg haccept]
  cases h : a.screenKeyPress w lib out press with
  | none => exact .left (left_ownKeyPress press)
  | some a' => exact stepped_screenKeyPress h

theorem stepped_osk (key : OskKey) : Stepped w lib a (.osk key) (a.osk lib key) := by
  unfold osk
  cases hcurrent : a.current with
  | sign => exact .sign hcurrent (.osk key) .refl
  | create => exact .create hcurrent (.osk key) .refl
  | importing => exact .importing hcurrent (.osk key) .refl
  | splash => exact stepped_self _
  | home => exact stepped_self _
  | scan => exact stepped_self _
  | inspect => exact stepped_self _
  | shutdown => exact stepped_self _

theorem stepped_click {button : Button} (out : Outside) (h : a.clickable button = true) :
    Stepped w lib a (.click button out) (a.click w lib out button) := by
  unfold clickable at h
  obtain ⟨hcurrent, henabled⟩ := Bool.and_eq_true_iff.mp h
  rw [beq_iff_eq] at hcurrent
  cases button with
  | splash => exact .moved (not_typing hcurrent (by decide)) (moved_finishSplash hcurrent)
  | homeCreate => exact .moved (not_typing hcurrent (by decide)) (.single (.create out))
  | homeSign => exact .left (.single .scan)
  | homeImport => exact .moved (not_typing hcurrent (by decide)) (.single .importing)
  | homeShutdown => exact .left (.single .shutdown)
  | scanBack => exact .left (.single .home)
  | scanOpen path reads =>
    have hnot : ¬ a.Typing := not_typing (show a.current = .scan from hcurrent) (by decide)
    exact .moved hnot (moved_opened path reads (Or.inl hcurrent))
  | inspectBack => exact .left (.single .scan)
  | inspectSign => exact .moved (not_typing hcurrent (by decide)) (.single .sign)
  | sign button => exact .sign hcurrent (.click out henabled) (left_afterSign button)
  | create button => exact .create hcurrent (.click out henabled) (left_afterCreate button)
  | importing button => exact .importing hcurrent (.click out henabled) (left_afterImport button)
  | shutdownCancel => exact .left (.single .home)
  | shutdownNow => exact .moved (not_typing hcurrent (by decide)) (.single (.poweroff hcurrent))

/-- Once the process has exited nothing happens. -/
theorem step_of_exited (w : Wally) (lib : Bip39) (event : Event) (h : a.exited = true) :
    a.step w lib event = a := by
  unfold step
  rw [if_pos h]

/-- Every event is one of these. -/
theorem step_stepped (w : Wally) (lib : Bip39) (a : AppWindow) (event : Event) :
    Stepped w lib a event (a.step w lib event) := by
  unfold step
  split
  · exact stepped_self _
  cases event with
  | key press out => exact stepped_keyPress press out
  | osk key => exact stepped_osk key
  | click button out =>
    dsimp only
    split
    · rename_i h
      exact stepped_click out h
    · exact stepped_self _
  | splashTimeout =>
    dsimp only
    split
    · rename_i h
      exact .moved (not_typing h (by decide)) (moved_finishSplash h)
    · exact stepped_self _
  | poll mounted files => exact .polled mounted files

/-! ## Invariants -/

theorem moves_invariant {I : AppWindow → Prop} (hmoved : ∀ {a a'}, Moved w lib a a' → I a → I a')
    (h : ReflTransGen (Moved w lib) a a') (ha : I a) : I a' := by
  induction h with
  | refl => exact ha
  | tail _ hlast ih => exact hmoved hlast ih

/-- An invariant is kept by an event if the moves, the poll and the three screens keep it. -/
theorem step_invariant {I : AppWindow → Prop} {event : Event}
    (hmoved : ∀ {a a'}, Moved w lib a a' → I a → I a')
    (hpoll : ∀ mounted files, I a → I (a.poll mounted files))
    (hsign : ∀ v, a.current = .sign → a.signView.Handles w lib event v → I a → I (a.withSign v))
    (hcreate : ∀ v, a.current = .create → a.createView.Handles w lib event v → I a →
      I (a.withCreate v))
    (himporting : ∀ v, a.current = .importing → a.importView.Handles w lib event v → I a →
      I (a.withImport v))
    (ha : I a) : I (a.step w lib event) := by
  -- a screen may be left behind what it has handled
  have hleave : ∀ {a a' : AppWindow}, ReflGen Left a a' → I a → I a' := by
    intro a a' h ha
    cases h with
    | refl => exact ha
    | single h => exact hmoved (.left h) ha
  have hstep := step_stepped w lib a event
  generalize a.step w lib event = a' at hstep ⊢
  cases hstep with
  | left h => exact hleave h ha
  | sign h hv hleft => exact hleave hleft (hsign _ h hv ha)
  | create h hv hleft => exact hleave hleft (hcreate _ h hv ha)
  | importing h hv hleft => exact hleave hleft (himporting _ h hv ha)
  | moved htyping h => exact moves_invariant hmoved h ha
  | polled mounted files => exact hpoll mounted files ha

@[simp] theorem signView_withSign (a : AppWindow) (v : SignView) :
    (a.withSign v).signView = v := rfl

@[simp] theorem createView_withCreate (a : AppWindow) (v : CreateView) :
    (a.withCreate v).createView = v := rfl

@[simp] theorem importView_withImport (a : AppWindow) (v : ImportView) :
    (a.withImport v).importView = v := rfl

/-- Whatever screen is left, what shows then is not typed into. -/
theorem Left.not_typing (h : Left a a') : ¬ a'.Typing := by
  cases h with
  | home => exact AppWindow.not_typing (show a.showHome.current = .home from rfl) (by decide)
  | scan => exact AppWindow.not_typing (show a.showScan.current = .scan from rfl) (by decide)
  | inspect =>
    exact AppWindow.not_typing (show a.showInspect.current = .inspect from rfl) (by decide)
  | shutdown =>
    exact AppWindow.not_typing (show a.showShutdown.current = .shutdown from rfl) (by decide)

/-- The screens that are typed into are come to in one way each. -/
theorem Moved.entered (h : Moved w lib a a') (htyping : a'.Typing) :
    a' = a.showSign lib ∨ (∃ out, a' = a.showCreate lib out) ∨ a' = a.showImport w lib := by
  cases h with
  | left h => exact absurd htyping h.not_typing
  | splashed h => exact absurd htyping (AppWindow.not_typing h (by decide))
  | opened path file h =>
    -- the file is opened, or an error is shown over the list
    rcases current_openSelected (w := w) path file h with h' | h'
    · exact absurd htyping (AppWindow.not_typing h' (by decide))
    · exact absurd htyping (AppWindow.not_typing h' (by decide))
  | poweroff h =>
    have h' : a.requestPoweroff.current = .shutdown := h
    exact absurd htyping (AppWindow.not_typing h' (by decide))
  | sign => exact Or.inl rfl
  | create out => exact Or.inr (Or.inl ⟨out, rfl⟩)
  | importing => exact Or.inr (Or.inr rfl)

/-- The sign screen is come to through `onEnter`. -/
theorem Moved.sign_entered (h : Moved w lib a a') (hcurrent : a'.current = .sign) :
    ∃ v : SignView, a'.signView = v.onEnter lib := by
  rcases h.entered (Or.inl hcurrent) with rfl | ⟨out, rfl⟩ | rfl
  · exact ⟨_, signView_withSign _ _⟩
  · cases hcurrent
  · cases hcurrent

/-- The create screen is come to through `onEnter`. -/
theorem Moved.create_entered (h : Moved w lib a a') (hcurrent : a'.current = .create) :
    ∃ (v : CreateView) (out : Outside), a'.createView = v.onEnter lib out := by
  rcases h.entered (Or.inr (Or.inl hcurrent)) with rfl | ⟨out, rfl⟩ | rfl
  · cases hcurrent
  · exact ⟨_, out, createView_withCreate _ _⟩
  · cases hcurrent

/-- The import screen is come to through `onEnter`. -/
theorem Moved.import_entered (h : Moved w lib a a') (hcurrent : a'.current = .importing) :
    ∃ v : ImportView, a'.importView = v.onEnter w lib := by
  rcases h.entered (Or.inr (Or.inr hcurrent)) with rfl | ⟨out, rfl⟩ | rfl
  · cases hcurrent
  · cases hcurrent
  · exact ⟨_, importView_withImport _ _⟩

/-- The poll touches nothing but the partition and the buttons that depend on it. -/
theorem poll_eq (a : AppWindow) (mounted : Bool) (files : Disk Char) :
    ∃ createEnabled writeEnabled, a.poll mounted files = { a with
      dataMounted := mounted, files := files
      create := { a.create with createEnabled := createEnabled }
      importing := { a.importing with writeEnabled := writeEnabled } } := by
  unfold poll
  dsimp only
  by_cases hmounted : mounted = a.dataMounted
  · rw [if_pos hmounted]
    subst hmounted
    exact ⟨_, _, rfl⟩
  rw [if_neg hmounted]
  by_cases hcreate : a.create.page = .confirm
  · rw [if_pos hcreate]
    split
    · exact ⟨_, _, rfl⟩
    · exact ⟨_, _, rfl⟩
  · rw [if_neg hcreate]
    split
    · exact ⟨_, _, rfl⟩
    · exact ⟨_, _, rfl⟩

variable {event : Event}

/-- What is true of the sign screen whenever it shows. -/
theorem signView_invariant {Inv : SignView → Prop} (henter : ∀ v : SignView, Inv (v.onEnter lib))
    (hpoll : ∀ (v : SignView) mounted files, Inv v →
      Inv { v with dataMounted := mounted, files := files })
    (hhandles : ∀ v, a.current = .sign → a.signView.Handles w lib event v → Inv a.signView → Inv v)
    (ha : a.current = .sign → Inv a.signView) :
    (a.step w lib event).current = .sign → Inv (a.step w lib event).signView := by
  refine step_invariant (I := fun a => a.current = .sign → Inv a.signView) ?_ ?_ ?_ ?_ ?_ ha
  · intro a a' h _ hcurrent
    obtain ⟨v, hv⟩ := h.sign_entered hcurrent
    rw [hv]
    exact henter v
  · intro mounted files ha
    obtain ⟨createEnabled, writeEnabled, h⟩ := a.poll_eq mounted files
    rw [h]
    exact fun hcurrent => hpoll a.signView mounted files (ha hcurrent)
  · intro v hcurrent hv ha _
    exact hhandles v hcurrent hv (ha hcurrent)
  · intro v hcurrent _ _ h
    exact absurd (hcurrent.symm.trans h) (by simp)
  · intro v hcurrent _ _ h
    exact absurd (hcurrent.symm.trans h) (by simp)

/-- What is true of the create screen whenever it shows. -/
theorem createView_invariant {Inv : CreateView → Prop}
    (henter : ∀ (v : CreateView) out, Inv (v.onEnter lib out))
    (hpoll : ∀ (v : CreateView) mounted files enabled, Inv v →
      Inv { v with dataMounted := mounted, files := files, createEnabled := enabled })
    (hhandles : ∀ v, a.current = .create → a.createView.Handles w lib event v →
      Inv a.createView → Inv v)
    (ha : a.current = .create → Inv a.createView) :
    (a.step w lib event).current = .create → Inv (a.step w lib event).createView := by
  refine step_invariant (I := fun a => a.current = .create → Inv a.createView) ?_ ?_ ?_ ?_ ?_ ha
  · intro a a' h _ hcurrent
    obtain ⟨v, out, hv⟩ := h.create_entered hcurrent
    rw [hv]
    exact henter v out
  · intro mounted files ha
    obtain ⟨createEnabled, writeEnabled, h⟩ := a.poll_eq mounted files
    rw [h]
    exact fun hcurrent => hpoll a.createView mounted files createEnabled (ha hcurrent)
  · intro v hcurrent _ _ h
    exact absurd (hcurrent.symm.trans h) (by simp)
  · intro v hcurrent hv ha _
    exact hhandles v hcurrent hv (ha hcurrent)
  · intro v hcurrent _ _ h
    exact absurd (hcurrent.symm.trans h) (by simp)

/-- What is true of the import screen whenever it shows. -/
theorem importView_invariant {Inv : ImportView → Prop}
    (henter : ∀ v : ImportView, Inv (v.onEnter w lib))
    (hpoll : ∀ (v : ImportView) mounted files enabled, Inv v →
      Inv { v with dataMounted := mounted, files := files, writeEnabled := enabled })
    (hhandles : ∀ v, a.current = .importing → a.importView.Handles w lib event v →
      Inv a.importView → Inv v)
    (ha : a.current = .importing → Inv a.importView) :
    (a.step w lib event).current = .importing → Inv (a.step w lib event).importView := by
  refine step_invariant (I := fun a => a.current = .importing → Inv a.importView) ?_ ?_ ?_ ?_ ?_ ha
  · intro a a' h _ hcurrent
    obtain ⟨v, hv⟩ := h.import_entered hcurrent
    rw [hv]
    exact henter v
  · intro mounted files ha
    obtain ⟨createEnabled, writeEnabled, h⟩ := a.poll_eq mounted files
    rw [h]
    exact fun hcurrent => hpoll a.importView mounted files writeEnabled (ha hcurrent)
  · intro v hcurrent _ _ h
    exact absurd (hcurrent.symm.trans h) (by simp)
  · intro v hcurrent _ _ h
    exact absurd (hcurrent.symm.trans h) (by simp)
  · intro v hcurrent hv ha _
    exact hhandles v hcurrent hv (ha hcurrent)

end AppWindow

end SignerOS
