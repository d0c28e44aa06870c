import SignerOS.Ui.Frames

/-!
# No secret outlives its screen

* `AppWindow.NoSecretLeft`, what holds of the buffers, the key slot and the PSBT on each screen;
* `AppWindow.Clean`, the invariant: a key is resident on the sign screen only, and the buffers
  hold text only on the three screens that are typed into;
* `AppWindow.no_secret_outlives_its_screen`, the property over every run.
-/

namespace SignerOS

open Files (Disk)

/-- On the screens nothing is typed into, the four buffers are wiped and no master key is
resident; on the home screen and those of the wallets no PSBT is loaded. -/
structure AppWindow.NoSecretLeft (a : AppWindow) : Prop where
  wiped : a.current ∈ [.splash, .home, .scan, .inspect, .shutdown] →
    a.secrets = .wiped ∧ a.slot = .clear
  unloaded : a.current ∈ [.home, .create, .importing] → a.engine.psbt = none

namespace AppWindow

/-- The invariant. -/
structure Clean (a : AppWindow) : Prop where
  secrets : a.current ≠ .sign → a.current ≠ .create → a.current ≠ .importing → a.secrets = .wiped
  slot : a.current ≠ .sign → a.slot = .clear
  psbt : a.current = .home ∨ a.current = .create ∨ a.current = .importing → a.engine.psbt = none

variable {w : Wally} {lib : Bip39} {a a' : AppWindow}

theorem Clean.noSecretLeft (h : a.Clean) : a.NoSecretLeft where
  wiped := by
    intro hcurrent
    have hsign : a.current ≠ .sign := by
      intro hsign
      rw [hsign] at hcurrent
      simp at hcurrent
    refine ⟨h.secrets hsign ?_ ?_, h.slot hsign⟩
    · intro hcreate
      rw [hcreate] at hcurrent
      simp at hcurrent
    · intro himport
      rw [himport] at hcurrent
      simp at hcurrent
  unloaded := fun hcurrent => h.psbt (by simpa using hcurrent)

/-! ## Moves -/

/-- Leaving a screen wipes what was typed and drops the key. -/
theorem leaveCurrent_wiped (h : a.Clean) :
    a.leaveCurrent.secrets = .wiped ∧ a.leaveCurrent.slot = .clear := by
  unfold leaveCurrent
  split
  · exact ⟨SecretBuffers.wipeAllSecrets_eq _, rfl⟩
  · rename_i hcurrent
    exact ⟨SecretBuffers.wipeAllSecrets_eq _, h.slot (by simp [hcurrent])⟩
  · rename_i hcurrent
    exact ⟨SecretBuffers.wipeAllSecrets_eq _, h.slot (by simp [hcurrent])⟩
  · -- nothing is typed into the other screens, and nothing is left on them
    rename_i hsign hcreate himport
    exact ⟨h.secrets hsign hcreate himport, h.slot hsign⟩

/-- Buffers that are wiped and a slot that is clear are all the invariant asks for on a screen
where no PSBT has to be gone. -/
theorem clean_of_wiped (hsecrets : a.secrets = .wiped) (hslot : a.slot = .clear)
    (hcurrent : a.current = .scan ∨ a.current = .inspect ∨ a.current = .shutdown) : a.Clean where
  secrets := fun _ _ _ => hsecrets
  slot := fun _ => hslot
  psbt := by
    intro h
    rcases hcurrent with hc | hc | hc
    all_goals simp [hc] at h

theorem clean_openSelected (path : String) (file : FileNode) (h : a.Clean)
    (hcurrent : a.current = .scan ∨ a.current = .inspect) :
    (a.openSelected w path file).Clean := by
  -- loading changes the engine only
  have hloaded : AppWindow.Clean { a with toMachine := (a.toMachine.load w path file).2 } := by
    have hnot : a.current ≠ .sign ∧ a.current ≠ .create ∧ a.current ≠ .importing := by
      rcases hcurrent with hc | hc
      all_goals simp [hc]
    refine clean_of_wiped (h.secrets hnot.1 hnot.2.1 hnot.2.2) (h.slot hnot.1) ?_
    rcases hcurrent with hc | hc
    · exact Or.inl hc
    · exact Or.inr (Or.inl hc)
  unfold openSelected
  dsimp only
  split
  · exact hloaded
  · obtain ⟨hsecrets, hslot⟩ := leaveCurrent_wiped hloaded
    exact clean_of_wiped hsecrets hslot (Or.inr (Or.inl rfl))

/-- The sign screen may hold anything. -/
theorem clean_of_sign (hcurrent : a.current = .sign) : a.Clean where
  secrets := fun hc => absurd hcurrent hc
  slot := fun hc => absurd hcurrent hc
  psbt := by
    rw [hcurrent]
    simp

theorem clean_withImport {v : ImportView} (hcurrent : a.current = .importing)
    (hslot : v.slot = .clear) (hpsbt : v.engine.psbt = none) : (a.withImport v).Clean :=
  ⟨fun _ _ hc => absurd hcurrent hc, fun _ => hslot, fun _ => hpsbt⟩

theorem clean_entered_import (hcurrent : a.current = .importing) (hslot : a.slot = .clear)
    (hpsbt : a.engine.psbt = none) : (a.withImport (a.importView.onEnter w lib)).Clean := by
  -- the slot and the engine come through `onEnter`
  have hquiet : a.toMachine.Quiet (a.importView.onEnter w lib).toMachine :=
    ImportView.quiet_onEnter a.importView
  exact clean_withImport hcurrent (hquiet.slot hslot)
    ((congrArg PsbtEngine.psbt hquiet.engine).trans hpsbt)

/-- The screens of the wallets put no key into the slot and load no PSBT. -/
theorem Clean.kept (h : a.Clean) (hkept : a.toMachine.Kept a'.toMachine)
    (hsame : a'.current = a.current) (hcurrent : a.current = .create ∨ a.current = .importing) :
    a'.Clean where
  secrets := by
    intro _ hcreate himport
    rw [hsame] at hcreate himport
    exact absurd hcurrent (not_or.mpr ⟨hcreate, himport⟩)
  slot := by
    intro _
    refine hkept.slot (h.slot ?_)
    rcases hcurrent with hc | hc
    all_goals simp [hc]
  psbt := by
    intro hc
    rw [hsame] at hc
    exact (congrArg PsbtEngine.psbt hkept.engine).trans (h.psbt hc)

theorem clean_left (hleft : Left a a') (h : a.Clean) : a'.Clean := by
  obtain ⟨hsecrets, hslot⟩ := leaveCurrent_wiped h
  cases hleft with
  | home => exact ⟨fun _ _ _ => SecretBuffers.wipeAllSecrets_eq _, fun _ => rfl, fun _ => rfl⟩
  | scan => exact clean_of_wiped (SecretBuffers.wipeAllSecrets_eq _) rfl (Or.inl rfl)
  | inspect => exact clean_of_wiped hsecrets hslot (Or.inr (Or.inl rfl))
  | shutdown => exact clean_of_wiped hsecrets hslot (Or.inr (Or.inr rfl))

theorem clean_moved (hmoved : Moved w lib a a') (h : a.Clean) : a'.Clean := by
  cases hmoved with
  | left hleft => exact clean_left hleft h
  | splashed hcurrent => exact ⟨h.secrets, h.slot, h.psbt⟩
  | opened path file hcurrent => exact clean_openSelected path file h hcurrent
  | sign => exact clean_of_sign rfl
  | create out => exact ⟨fun _ hc => absurd rfl hc, fun _ => rfl, fun _ => rfl⟩
  | importing => exact clean_entered_import rfl rfl rfl
  | poweroff hcurrent =>
    exact clean_of_wiped (SecretBuffers.wipeAllSecrets_eq _) rfl (Or.inr (Or.inr hcurrent))

/-! ## Runs -/

theorem clean_step (event : Event) (h : a.Clean) : (a.step w lib event).Clean := by
  refine step_invariant clean_moved ?_ ?_ ?_ ?_ h
  · intro mounted files h
    obtain ⟨createEnabled, writeEnabled, hpoll⟩ := a.poll_eq mounted files
    rw [hpoll]
    exact ⟨h.secrets, h.slot, h.psbt⟩
  · intro v hcurrent _ _
    exact clean_of_sign hcurrent
  · intro v hcurrent hv h
    exact h.kept hv.kept rfl (Or.inl hcurrent)
  · intro v hcurrent hv h
    exact h.kept hv.kept rfl (Or.inr hcurrent)

theorem clean_start (config : AppConfig) (files : Disk Char) : (start config files).Clean :=
  ⟨fun _ _ _ => rfl, fun _ => rfl, fun _ => rfl⟩

/-- In every state of every run, whatever the operator and the sticks do, the buffers are wiped
and no key is resident behind a screen that is not typed into, and no PSBT is loaded on the
home screen and the screens of the wallets. -/
theorem no_secret_outlives_its_screen (w : Wally) (lib : Bip39) (config : AppConfig)
    (files : Disk Char) (events : List Event) :
    (Runs.run (step w lib) (start config files) events).NoSecretLeft :=
  (Runs.run_invariant (I := Clean) (fun _ event => clean_step event) events
    (clean_start config files)).noSecretLeft

end AppWindow

end SignerOS
