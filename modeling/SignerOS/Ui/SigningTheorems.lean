import SignerOS.GateTheorems
import SignerOS.Ui.Frames
import SignerOS.Ui.SignScreenTheorems

/-!
# What is signed is what was checked and confirmed

* `AppWindow.step_signs`, the only call of `sign` an event can make, and what with;
* `AppWindow.signs_with_checked_key`, the key resident at that call is the one the last check
  derived from the text that is in the buffers;
* `AppWindow.signs_as_confirmed_iff`, the confirmation page was last built from what is signed,
  throughout a run exactly if no signing call of it fails and leaves another PSBT behind;
* `AppWindow.signed_after_failure`, a run with such a call.
-/

namespace SignerOS

open Files (Disk)

/-! ## Logs without a call of `sign` -/

/-- The log has grown, and not by a call of `sign`. -/
def Silent (log log' : List Call) : Prop :=
  ∃ calls, log' = calls ++ log ∧ ∀ signing, Call.sign signing ∉ calls

namespace Silent

variable {log log' log'' : List Call}

theorem refl (log : List Call) : Silent log log := ⟨[], rfl, by simp⟩

theorem trans (h : Silent log log') (h' : Silent log' log'') : Silent log log'' := by
  obtain ⟨calls, rfl, hcalls⟩ := h
  obtain ⟨calls', rfl, hcalls'⟩ := h'
  refine ⟨calls' ++ calls, (List.append_assoc _ _ _).symm, fun signing hmem => ?_⟩
  rcases List.mem_append.mp hmem with hmem | hmem
  · exact hcalls' signing hmem
  · exact hcalls signing hmem

theorem cons {call : Call} (h : Silent log log') (hcall : ∀ signing, call ≠ .sign signing) :
    Silent log (call :: log') := by
  obtain ⟨calls, rfl, hcalls⟩ := h
  refine ⟨call :: calls, rfl, fun signing hmem => ?_⟩
  rcases List.mem_cons.mp hmem with hmem | hmem
  · exact hcall signing hmem.symm
  · exact hcalls signing hmem

end Silent

theorem Machine.Kept.silent {m m' : Machine} (h : m.Kept m') : Silent m.log m'.log := by
  obtain ⟨calls, hlog, hcalls⟩ := h.log
  refine ⟨calls, hlog, fun signing hmem => ?_⟩
  obtain ⟨text, htext⟩ := hcalls _ hmem
  cases htext

namespace SignView

variable {lib : Bip39}

theorem log_setKeySource (v : SignView) (s : KeySource) : (v.setKeySource lib s).log = v.log := by
  unfold setKeySource
  dsimp only
  split_ifs
  all_goals exact (steady_setField lib _ _).log

/-- Entering drops the check, and goes to the words. -/
theorem steady_onEnter (lib : Bip39) (v : SignView) :
    Steady
      (((dropCheck { v with page := .entry }).setField lib .mnemonic).setKeySource lib .mnemonic)
      (v.onEnter lib) := by
  refine Steady.trans ?_ (steady_refreshDisplays lib _)
  exact steady_setOskVisible lib _ _

theorem log_onEnter (v : SignView) : (v.onEnter lib).log = v.log := by
  rw [(steady_onEnter lib v).log, log_setKeySource, (steady_setField lib _ _).log]
  rfl

end SignView

namespace AppWindow

variable {w : Wally} {lib : Bip39} {a a' : AppWindow}

theorem silent_leaveCurrent (a : AppWindow) : Silent a.log a.leaveCurrent.log := by
  unfold leaveCurrent
  split
  · exact .cons (.refl a.log) (by simp)
  · exact .refl _
  · exact .refl _
  · exact .refl _

theorem silent_withSign {log : List Call} {v : SignView} (h : Silent log v.log) :
    Silent log (a.withSign v).log := h

theorem silent_entered_sign {log : List Call} (h : Silent log a.log) :
    Silent log (a.withSign (a.signView.onEnter lib)).log := by
  refine silent_withSign ?_
  rw [SignView.log_onEnter]
  exact h

theorem silent_withImport {log : List Call} {v : ImportView} (h : Silent log v.log) :
    Silent log (a.withImport v).log := h

theorem silent_entered_import {log : List Call} (h : Silent log a.log) :
    Silent log (a.withImport (a.importView.onEnter w lib)).log :=
  silent_withImport (h.trans (ImportView.quiet_onEnter a.importView).toKept.silent)

theorem silent_left (h : Left a a') : Silent a.log a'.log := by
  have hleave := silent_leaveCurrent a
  cases h with
  | home => exact (hleave.cons (by simp)).cons (by simp)
  | scan => exact (hleave.cons (by simp)).cons (by simp)
  | inspect => exact hleave
  | shutdown => exact hleave

theorem silent_moved (h : Moved w lib a a') : Silent a.log a'.log := by
  have hleave := silent_leaveCurrent a
  cases h with
  | left h => exact silent_left h
  | splashed hcurrent => exact .refl _
  | opened path file hcurrent =>
    have hload : Silent a.log (.load :: a.log) := .cons (.refl a.log) (by simp)
    unfold openSelected
    dsimp only
    split
    · exact hload
    · exact hload.trans
        (silent_leaveCurrent { a with toMachine := (a.toMachine.load w path file).2 })
  | sign =>
    have hcurrent : Silent a.log { a.leaveCurrent with current := .sign }.log := hleave
    exact silent_entered_sign hcurrent
  | create out => exact (hleave.cons (by simp)).cons (by simp)
  | importing =>
    have hunload : Silent a.log a.leaveCurrent.clearKey.unload.log :=
      (hleave.cons (by simp)).cons (by simp)
    exact silent_entered_import hunload
  | poweroff hcurrent =>
    exact (((Silent.refl a.log).cons (by simp)).cons (by simp)).cons (by simp)

theorem silent_moves (h : Relation.ReflTransGen (Moved w lib) a a') : Silent a.log a'.log := by
  induction h with
  | refl => exact .refl _
  | tail _ hlast ih => exact ih.trans (silent_moved hlast)

theorem silent_leaves (h : Relation.ReflGen Left a a') : Silent a.log a'.log := by
  cases h with
  | refl => exact .refl _
  | single h => exact silent_left h

/-! ## The call of `sign` -/

end AppWindow

/-- The sign screen calls `sign` when its button is pressed with the key checked, and only
then. -/
theorem SignView.Effect.signs {w : Wally} {v v' : SignView} {event : Event}
    (h : Effect w v event v') : ∃ calls, v'.log = calls ++ v.log ∧
      ∀ signing, .sign signing ∈ calls →
        signing = v.signing ∧ v.PressesSign event ∧ v.keyChecked = true := by
  cases h with
  | kept page keyChecked signing log => exact ⟨[], log, by simp⟩
  | dropped page keyChecked log =>
    -- only `typeCharacter` and `wipeSecrets` clear the key
    rcases log with log | log
    · exact ⟨[], log, by simp⟩
    · exact ⟨[.clearKey], log, by simp⟩
  | checked check page log vouches => exact ⟨[.enterKey check], log, by simp⟩
  | confirmed page keyChecked signing log => exact ⟨[.rebuildConfirm v.slot v.engine], log, by simp⟩
  | failed pressed page keyChecked log sign signing =>
    exact ⟨[.sign v.signing], log, by simp [pressed, keyChecked]⟩
  | signed pressed keyChecked log dropped named =>
    exact ⟨[.clearKey, .sign v.signing], log, by simp [pressed, keyChecked]⟩
  | wrote hnamed page keyChecked log findings => exact ⟨[], log, by simp⟩

namespace AppWindow

variable {w : Wally} {lib : Bip39} {a : AppWindow}

/-- The event reaches `sign`: the sign screen shows and its button is pressed with the key
checked. -/
def ReachesSign (a : AppWindow) (event : Event) : Prop :=
  a.exited = false ∧ a.current = .sign ∧ a.signView.PressesSign event ∧ a.sign.keyChecked = true

/-- Of all the calls an event makes, only that of the pressed button is a call of `sign`. -/
theorem step_signs (w : Wally) (lib : Bip39) (a : AppWindow) (event : Event) :
    ∃ calls, (a.step w lib event).log = calls ++ a.log ∧
      ∀ signing, .sign signing ∈ calls → signing = a.signView.signing ∧ a.ReachesSign event := by
  have hsilent : ∀ {a' : AppWindow}, Silent a.log a'.log → ∃ calls, a'.log = calls ++ a.log ∧
      ∀ signing, .sign signing ∈ calls →
        signing = a.signView.signing ∧ a.ReachesSign event := by
    rintro a' ⟨calls, hlog, hcalls⟩
    exact ⟨calls, hlog, fun signing hmem => absurd hmem (hcalls signing)⟩
  by_cases hexited : a.exited = true
  · rw [step_of_exited w lib event hexited]
    exact hsilent (.refl _)
  have hstep := step_stepped w lib a event
  generalize a.step w lib event = a' at hstep ⊢
  cases hstep with
  | left h => exact hsilent (silent_leaves h)
  | create hcurrent hv hleft => exact hsilent (hv.kept.silent.trans (silent_leaves hleft))
  | importing hcurrent hv hleft => exact hsilent (hv.kept.silent.trans (silent_leaves hleft))
  | moved htyping h => exact hsilent (silent_moves h)
  | polled mounted files =>
    obtain ⟨createEnabled, writeEnabled, hpoll⟩ := a.poll_eq mounted files
    rw [hpoll]
    exact hsilent (.refl _)
  | sign hcurrent hv hleft =>
    obtain ⟨calls, hlog, hcalls⟩ := hv.effect.signs
    obtain ⟨calls', hlog', hcalls'⟩ := silent_leaves hleft
    refine ⟨calls' ++ calls, ?_, fun signing hmem => ?_⟩
    · rw [hlog', List.append_assoc]
      exact congrArg (calls' ++ ·) hlog
    · rcases List.mem_append.mp hmem with hmem | hmem
      · exact absurd hmem (hcalls' signing)
      · obtain ⟨hsigning, hpressed, hchecked⟩ := hcalls signing hmem
        exact ⟨hsigning, Bool.eq_false_of_not_eq_true hexited, hcurrent, hpressed, hchecked⟩

/-- Whenever an event makes a call of `sign`, `P` holds of it and of the calls made before. -/
def AtSign (w : Wally) (lib : Bip39) (P : Signing → List Call → Prop) (a : AppWindow) : Prop :=
  ∀ event signing calls, (a.step w lib event).log = calls ++ .sign signing :: a.log →
    P signing a.log

/-- Where the button is pressed, the one call of `sign` is with what the screen holds. -/
theorem atSign_of_reached {P : Signing → List Call → Prop}
    (h : ∀ event, a.ReachesSign event → P a.signView.signing a.log) : a.AtSign w lib P := by
  intro event signing calls hlog
  obtain ⟨calls', hlog', hcalls'⟩ := step_signs w lib a event
  -- the call is one of those that the event makes
  have hmem : .sign signing ∈ calls' := by
    have heq : calls' ++ a.log = (calls ++ [.sign signing]) ++ a.log := by
      rw [← hlog', hlog, List.append_assoc]
      rfl
    rw [List.append_cancel_right heq]
    exact List.mem_append_right _ (List.mem_singleton_self _)
  obtain ⟨rfl, hreached⟩ := hcalls' signing hmem
  exact h event hreached

end AppWindow

/-! ## The key that was checked -/

/-- The check of a call of `setKeyFromMnemonic` or `setKeyFromXprv`. -/
def Call.check? : Call → Option KeyCheck
  | .enterKey check => some check
  | _ => none

/-- The last check of the key. -/
def lastCheck (log : List Call) : Option KeyCheck := log.findSome? Call.check?

/-- The last check vouches for what `sign` is called with. -/
def CheckedFor (w : Wally) (signing : Signing) (log : List Call) : Prop :=
  ∃ check, lastCheck log = some check ∧ SignView.Vouches w check signing

namespace SignView

variable {w : Wally} {v v' : SignView} {event : Event}

/-- The flag says that the last check vouches for what `sign` would be called with. -/
def Checked (w : Wally) (v : SignView) : Prop :=
  v.keyChecked = true → CheckedFor w v.signing v.log

/-- The engine matters to a check by its network only. -/
theorem Vouches.of_engine {check : KeyCheck} {s : Signing} (h : Vouches w check s)
    {engine : PsbtEngine} (hnetwork : engine.network = s.engine.network) :
    Vouches w check { s with engine := engine } where
  source := h.source
  key := h.key
  passphrase := h.passphrase
  derived := by
    obtain ⟨key, hkey, hslot⟩ := h.derived
    refine ⟨key, ?_, hslot⟩
    rw [← hkey]
    exact congrArg (derivedKey w · s.source s.key s.passphrase) hnetwork
  confirmed := h.confirmed

theorem network_sign (w : Wally) (slot : KeySlot) (e : PsbtEngine) :
    (e.sign w slot).2.network = e.network := by
  rcases PsbtEngine.sign_cases w slot e with
    ⟨err, -, h⟩ | ⟨psbt, key, err, -, -, h⟩ | ⟨psbt, key, -, -, h⟩
  all_goals rw [h]

theorem checked_effect (h : Effect w v event v') (hv : v.Checked w) : v'.Checked w := by
  intro hchecked'
  cases h with
  | kept page keyChecked signing log =>
    rw [signing, log]
    exact hv (keyChecked.symm.trans hchecked')
  | dropped page keyChecked log => exact absurd (keyChecked.symm.trans hchecked') Bool.false_ne_true
  | checked check page log vouches =>
    refine ⟨check, ?_, vouches hchecked'⟩
    rw [log]
    rfl
  | confirmed page keyChecked signing log =>
    obtain ⟨check, hlast, hvouches⟩ := hv keyChecked
    rw [signing, log]
    exact ⟨check, hlast, hvouches⟩
  | failed pressed page keyChecked log sign signing =>
    obtain ⟨check, hlast, hvouches⟩ := hv keyChecked
    -- the check is of the network, which `sign` does not change
    have hnetwork := network_sign w v.slot v.engine
    rw [sign] at hnetwork
    rw [signing, log]
    exact ⟨check, hlast, hvouches.of_engine hnetwork⟩
  | signed pressed keyChecked log dropped named =>
    exact absurd (dropped.symm.trans hchecked') Bool.false_ne_true
  | wrote hnamed page keyChecked log findings =>
    obtain ⟨check, hlast, hvouches⟩ := hv (keyChecked.symm.trans hchecked')
    obtain ⟨findings, hsigning⟩ := findings
    rw [hsigning, log]
    exact ⟨check, hlast, hvouches.of_engine rfl⟩

theorem page_setKeySource (lib : Bip39) (v : SignView) (s : KeySource) :
    (v.setKeySource lib s).page = v.page := by
  unfold setKeySource
  dsimp only
  split_ifs
  all_goals exact (steady_setField lib _ _).page

theorem page_onEnter (lib : Bip39) (v : SignView) : (v.onEnter lib).page = .entry := by
  rw [(steady_onEnter lib v).page, page_setKeySource, (steady_setField lib _ _).page]
  rfl

theorem keyChecked_setKeySource (lib : Bip39) (s : KeySource) (h : v.keyChecked = false) :
    (v.setKeySource lib s).keyChecked = false := by
  have hset (v₁ : SignView) (f : Field) (h₁ : v₁.keyChecked = false) :
      (v₁.setField lib f).keyChecked = false := (steady_setField lib v₁ f).keyChecked.trans h₁
  unfold setKeySource
  dsimp only
  split_ifs
  · exact hset _ _ h
  · exact hset _ _ h
  · exact hset _ _ rfl
  · exact hset _ _ rfl

theorem keyChecked_onEnter (lib : Bip39) (v : SignView) : (v.onEnter lib).keyChecked = false := by
  rw [(steady_onEnter lib v).keyChecked]
  refine keyChecked_setKeySource lib _ ?_
  rw [(steady_setField lib _ _).keyChecked]
  exact keyChecked_dropCheck _

end SignView

namespace AppWindow

variable {w : Wally} {lib : Bip39} {a : AppWindow}

theorem checked_step (lib : Bip39) (event : Event) (h : a.current = .sign → a.signView.Checked w) :
    (a.step w lib event).current = .sign → (a.step w lib event).signView.Checked w := by
  refine signView_invariant ?_ ?_ ?_ h
  · intro v hchecked
    rw [SignView.keyChecked_onEnter] at hchecked
    exact absurd hchecked Bool.false_ne_true
  · intro v mounted files hv
    exact hv
  · intro v _ hv
    exact SignView.checked_effect hv.effect

/-- In every run, whenever an event makes `doSign` call `sign`, the resident key is the one the
last check of the key derived from exactly the text that is in the key and the passphrase buffer,
under the key source that is set, and of a mnemonic the passphrase was empty or confirmed at that
check. -/
theorem signs_with_checked_key (w : Wally) (lib : Bip39) (config : AppConfig)
    (files : Disk Char) (events : List Event) :
    (Runs.run (step w lib) (start config files) events).AtSign w lib (CheckedFor w) := by
  have hchecked := Runs.run_invariant (I := fun a : AppWindow =>
      a.current = .sign → a.signView.Checked w)
    (fun _ event => checked_step lib event) events
    (s := start config files) (fun h => by cases h)
  refine atSign_of_reached fun event hreached => ?_
  exact hchecked hreached.2.1 hreached.2.2.2

end AppWindow

/-! ## The page that was confirmed -/

/-- The slot and the engine a call of `rebuildConfirm` builds the page from. -/
def Call.confirmed? : Call → Option (KeySlot × PsbtEngine)
  | .rebuildConfirm slot engine => some (slot, engine)
  | _ => none

/-- The call leaves the confirmation page and what it was built from: it loads, unloads, clears
or enters nothing, and builds no other page. -/
def Call.leavesPage : Call → Bool
  | .generated _ | .sign _ => true
  | .load | .unload | .clearKey | .enterKey _ | .rebuildConfirm .. => false

/-- The confirmation page was last built from the slot, the PSBT and the summary that `sign` is
called with, and nothing was loaded, unloaded, entered or cleared since. -/
def ConfirmedAs (signing : Signing) (log : List Call) : Prop :=
  ∃ between engine rest, log = between ++ .rebuildConfirm signing.slot engine :: rest ∧
    (∀ call ∈ between, call.leavesPage = true) ∧
    engine.psbt = signing.engine.psbt ∧ engine.summary = signing.engine.summary

/-- A failing call of `sign` comes between, if it has left the engine alone. -/
theorem ConfirmedAs.cons_sign {signing : Signing} {log : List Call} (h : ConfirmedAs signing log)
    (failed : Signing) : ConfirmedAs signing (.sign failed :: log) := by
  obtain ⟨between, engine, rest, rfl, hbetween, hengine⟩ := h
  refine ⟨.sign failed :: between, engine, rest, rfl, fun call hcall => ?_, hengine⟩
  rcases List.mem_cons.mp hcall with rfl | hcall
  · rfl
  · exact hbetween call hcall

/-- What the page was last built from, as read off the log. -/
theorem findSome_confirmed {between rest : List Call} {slot : KeySlot} {engine : PsbtEngine}
    (h : ∀ call ∈ between, call.leavesPage = true) :
    (between ++ .rebuildConfirm slot engine :: rest).findSome? Call.confirmed?
      = some (slot, engine) := by
  induction between with
  | nil => rfl
  | cons call between ih =>
    have hcall : call.confirmed? = none := by
      have hleaves := h call List.mem_cons_self
      cases call
      case rebuildConfirm slot engine => cases hleaves
      all_goals rfl
    rw [List.cons_append, List.findSome?_cons, hcall]
    exact ih fun call hmem => h call (List.mem_cons_of_mem _ hmem)

/-- Of one log, what `sign` is called with is confirmed for one PSBT only. -/
theorem ConfirmedAs.psbt_eq {signing signing' : Signing} {log : List Call}
    (h : ConfirmedAs signing log) (h' : ConfirmedAs signing' log) :
    signing.engine.psbt = signing'.engine.psbt := by
  obtain ⟨between, engine, rest, hlog, hbetween, hpsbt, -⟩ := h
  obtain ⟨between', engine', rest', hlog', hbetween', hpsbt', -⟩ := h'
  have hfound : (between ++ .rebuildConfirm signing.slot engine :: rest).findSome? Call.confirmed?
      = some (signing.slot, engine) := findSome_confirmed hbetween
  rw [← hlog, hlog', findSome_confirmed hbetween', Option.some.injEq, Prod.mk.injEq] at hfound
  rw [← hpsbt, ← hpsbt', hfound.2]

namespace SignView

variable {w : Wally} {v v' : SignView} {event : Event}

/-- While the confirmation page shows and the key is checked, the page is of what `sign` would be
called with. -/
def Confirmed (v : SignView) : Prop :=
  v.page = .confirm → v.keyChecked = true → ConfirmedAs v.signing v.log

/-- A call of libwally that fails leaves the PSBT it was given. -/
def FailsCleanly (w : Wally) (v : SignView) : Prop :=
  ∀ psbt key, PsbtEngine.signGate v.slot v.engine = .ok (psbt, key) →
    PsbtEngine.SignFails w psbt key → (w.psbtSignBip32 psbt key).2 = psbt

/-- Where a failing call leaves the PSBT, a failing `sign` leaves the engine. -/
theorem engine_of_failsCleanly (h : v.FailsCleanly w) {err : String} {engine : PsbtEngine}
    (hsign : v.engine.sign w v.slot = (.error err, engine)) : engine = v.engine := by
  rcases PsbtEngine.sign_cases w v.slot v.engine with
    ⟨err', -, h'⟩ | ⟨psbt, key, err', hgate, hfails, h'⟩ | ⟨psbt, key, -, -, h'⟩
  · exact (Prod.mk.inj (hsign.symm.trans h')).2
  · obtain ⟨hpsbt, -⟩ := PsbtEngine.signGate_eq_ok.mp hgate
    rw [(Prod.mk.inj (hsign.symm.trans h')).2, h psbt key hgate hfails, ← hpsbt]
  · exact absurd (Prod.mk.inj (hsign.symm.trans h')).1 (by simp)

/-- With the key checked, `doSign` calls `sign` with what the screen holds. -/
theorem log_doSign (w : Wally) (lib : Bip39) (out : Outside) (h : v.keyChecked = true) :
    ∃ calls, (v.doSign w lib out).log = calls ++ .sign v.signing :: v.log := by
  unfold doSign
  rw [if_pos h]
  dsimp only [Machine.sign]
  cases (v.engine.sign w v.slot).1 with
  | error err => exact ⟨[], rfl⟩
  | ok added => exact ⟨[.clearKey], (log_nameResult lib out _).2⟩

/-- When the call fails, the page stays, over the PSBT that libwally has left. -/
theorem doSign_of_fails (lib : Bip39) (out : Outside) (h : v.keyChecked = true) {psbt : Psbt}
    {key : ExtKey} (hgate : PsbtEngine.signGate v.slot v.engine = .ok (psbt, key))
    (hfails : PsbtEngine.SignFails w psbt key) :
    v.doSign w lib out = { v with
      engine := { v.engine with psbt := some (w.psbtSignBip32 psbt key).2 }
      log := .sign v.signing :: v.log } := by
  unfold doSign
  rw [if_pos h]
  dsimp only [Machine.sign]
  rcases PsbtEngine.sign_cases w v.slot v.engine with
    ⟨err, hgate', -⟩ | ⟨psbt', key', err, hgate', -, hsign⟩ | ⟨psbt', key', hgate', hok, -⟩
  · exact absurd (hgate'.symm.trans hgate) (by simp)
  · obtain ⟨rfl, rfl⟩ := Prod.mk.inj (Except.ok.inj (hgate'.symm.trans hgate))
    rw [hsign]
    rfl
  · obtain ⟨rfl, rfl⟩ := Prod.mk.inj (Except.ok.inj (hgate'.symm.trans hgate))
    exact absurd hfails hok

theorem confirmed_effect (h : Effect w v event v') (hv : v.Confirmed)
    (hok : v.PressesSign event → v.keyChecked = true → v.FailsCleanly w) : v'.Confirmed := by
  intro hpage' hchecked'
  cases h with
  | kept page keyChecked signing log =>
    rcases page with page | page
    · rw [signing, log]
      exact hv (page.symm.trans hpage') (keyChecked.symm.trans hchecked')
    · exact absurd (page.symm.trans hpage') (by simp)
  | dropped page keyChecked log => exact absurd (keyChecked.symm.trans hchecked') Bool.false_ne_true
  | checked check page log vouches => exact absurd (page.symm.trans hpage') (by simp)
  | confirmed page keyChecked signing log =>
    rw [signing, log]
    exact ⟨[], v.engine, v.log, rfl, by simp, rfl, rfl⟩
  | failed pressed page keyChecked log sign signing =>
    -- the page stays, and what it was built from is still there
    have hengine := engine_of_failsCleanly (hok pressed keyChecked) sign
    rw [signing, log, hengine]
    exact (hv pressed.1 keyChecked).cons_sign _
  | signed pressed keyChecked log dropped named =>
    exact absurd (dropped.symm.trans hchecked') Bool.false_ne_true
  | wrote hnamed page keyChecked log findings =>
    rcases page with page | page
    · exact absurd (page.symm.trans hpage') (by simp)
    · exact absurd (page.symm.trans hpage') (by simp)

end SignView

namespace AppWindow

variable {w : Wally} {lib : Bip39} {a : AppWindow}

/-- If the event reaches `sign`, a call of libwally that fails leaves the PSBT as it was. -/
def KeepsPsbt (w : Wally) (a : AppWindow) (event : Event) : Prop :=
  a.ReachesSign event → a.signView.FailsCleanly w

theorem confirmed_step (event : Event) (h : a.current = .sign → a.signView.Confirmed)
    (hok : a.KeepsPsbt w event) :
    (a.step w lib event).current = .sign → (a.step w lib event).signView.Confirmed := by
  by_cases hexited : a.exited = true
  · rw [step_of_exited w lib event hexited]
    exact h
  refine signView_invariant ?_ ?_ ?_ h
  · intro v _ hchecked
    rw [SignView.keyChecked_onEnter] at hchecked
    exact absurd hchecked Bool.false_ne_true
  · intro v mounted files hv
    exact hv
  · intro v hcurrent hv hconfirmed
    refine SignView.confirmed_effect hv.effect hconfirmed fun hpressed hchecked => ?_
    exact hok ⟨Bool.eq_false_of_not_eq_true hexited, hcurrent, hpressed, hchecked⟩

theorem step_click {button : Button} {out : Outside} (hexited : a.exited = false)
    (h : a.clickable button = true) :
    a.step w lib (.click button out) = a.click w lib out button := by
  unfold step
  rw [if_neg (by simp [hexited])]
  exact if_pos h

/-- The event that reaches `sign` runs `doSign`. -/
theorem step_of_reached (w : Wally) (lib : Bip39) {event : Event} (h : a.ReachesSign event) :
    ∃ out, a.step w lib event = a.withSign (a.signView.doSign w lib out) := by
  obtain ⟨hexited, hcurrent, ⟨hpage, henabled, hpressed⟩, -⟩ := h
  have hpage' : a.sign.page = .confirm := hpage
  cases event with
  | key press out =>
    refine ⟨out, ?_⟩
    unfold step
    rw [if_neg (by simp [hexited])]
    -- Enter goes to the screen, not to a page that names a file
    have hactive : ¬ (press.key = .enter ∧ a.savePageActive = true) := by
      simp [savePageActive, hcurrent, hpage']
    have hkey : a.signView.keyPress w lib out press = some (a.signView.doSign w lib out) := by
      unfold SignView.keyPress
      rw [hpage]
      dsimp only
      rw [if_pos hpressed, if_pos henabled]
    dsimp only [keyPress]
    rw [if_neg hactive]
    simp only [screenKeyPress, hcurrent, hkey, Option.map_some, Option.getD_some]
  | click button out =>
    refine ⟨out, ?_⟩
    cases button
    case sign button =>
      cases button
      case signNow =>
        have hclickable : a.clickable (.sign .signNow) = true := by
          simp [clickable, Button.screen, hcurrent, SignView.clickable, hpage, SignButton.page,
            henabled]
        exact step_click hexited hclickable
      all_goals exact hpressed.elim
    all_goals exact hpressed.elim
  | osk key => exact hpressed.elim
  | splashTimeout => exact hpressed.elim
  | poll mounted files => exact hpressed.elim

/-- After a failed call that has changed the PSBT, the page that still shows is of another one. -/
theorem not_atSign_of_not_keepsPsbt {event : Event} (h : a.current = .sign → a.signView.Confirmed)
    (hbad : ¬ a.KeepsPsbt w event) : ¬ (a.step w lib event).AtSign w lib ConfirmedAs := by
  unfold KeepsPsbt SignView.FailsCleanly at hbad
  push Not at hbad
  obtain ⟨hreached, psbt, key, hgate, hfails, hchanged⟩ := hbad
  obtain ⟨out, hstep⟩ := step_of_reached w lib hreached
  obtain ⟨hexited, hcurrent, hpressed, hchecked⟩ := hreached
  have hconfirmed := h hcurrent hpressed.1 hchecked
  rw [hstep, SignView.doSign_of_fails lib out hchecked hgate hfails]
  intro hatSign
  -- the same event is pressed once more
  set v : SignView := { a.signView with
    engine := { a.signView.engine with psbt := some (w.psbtSignBip32 psbt key).2 }
    log := .sign a.signView.signing :: a.signView.log } with hv
  have hreached : (a.withSign v).ReachesSign event := ⟨hexited, hcurrent, hpressed, hchecked⟩
  obtain ⟨out', hstep'⟩ := step_of_reached w lib hreached
  obtain ⟨calls, hlog⟩ := SignView.log_doSign (v := v) w lib out' hchecked
  -- for one log there is one confirmed PSBT, so the two calls are with the same
  have hagain : ConfirmedAs v.signing (.sign a.signView.signing :: a.log) :=
    hatSign event v.signing calls ((congrArg (fun a : AppWindow => a.log) hstep').trans hlog)
  have hsame : a.engine.psbt = some (w.psbtSignBip32 psbt key).2 :=
    (hconfirmed.cons_sign _).psbt_eq hagain
  obtain ⟨hpsbt, -⟩ := PsbtEngine.signGate_eq_ok.mp hgate
  exact hchanged (Option.some.inj (hsame.symm.trans hpsbt))

/-- Throughout a run, whenever an event makes `doSign` call `sign` the confirmation page was last
built from the slot, the PSBT and the summary it is called with, exactly if every call of libwally
in it that fails leaves the PSBT as it was. -/
theorem signs_as_confirmed_iff (w : Wally) (lib : Bip39) (config : AppConfig)
    (files : Disk Char) (events : List Event) :
    (∀ events', events' <+: events →
        (Runs.run (step w lib) (start config files) events').AtSign w lib ConfirmedAs) ↔
      Runs.Along (step w lib) (KeepsPsbt w) (start config files) events := by
  refine Runs.throughout_iff_along (I := fun a : AppWindow =>
    a.current = .sign → a.signView.Confirmed) ?_ ?_ ?_ events (fun h => by cases h)
  · intro a ha
    refine atSign_of_reached fun event hreached => ?_
    exact ha hreached.2.1 hreached.2.2.1.1 hreached.2.2.2
  · intro a event ha hok
    exact confirmed_step event ha hok
  · intro a event ha hbad
    exact not_atSign_of_not_keepsPsbt ha hbad

end AppWindow

/-! ## A signature that is not counted

A taproot PSBT is opened, an xprv entered and checked, and "Sign now" pressed on the confirmation
page. libwally signs, `sign` reports that it has not, and the page goes on showing the PSBT as it
was. -/

namespace AppWindow

open Session (taprootLibrary taprootPsbt paymentTx)

def noWords : Bip39 := ⟨none, fun _ => none⟩

def quietOutside : Outside where
  clock := ⟨none, none⟩
  laterClock := ⟨none, none⟩
  file := {}
  secondFile := {}
  targetReached := false
  entropy := fun _ => .error "the pool is not full"

def taprootFile : FileNode := .regular 4 [.data [0x41, 0x41, 0x41, 0x41]]

def openingEvents : List Event :=
  [.splashTimeout, .click .homeSign quietOutside,
    .click (.scanOpen "/mnt/data/payment.psbt" [taprootFile]) quietOutside]

def typingEvents : List Event :=
  [.click (.sign .sourceXprv) quietOutside, .key { key := .letter 23 } quietOutside]

/-- The events up to the confirmation page. -/
def confirmingEvents : List Event :=
  openingEvents ++ (.click .inspectSign quietOutside :: (typingEvents ++
    [.click (.sign .checkKey) quietOutside, .click (.sign .review) quietOutside]))

/-- The taproot PSBT is shown. -/
def inspecting : AppWindow :=
  Runs.run (step taprootLibrary noWords) (start {} fun _ => none) openingEvents

/-- Its key is typed. -/
def typing : AppWindow :=
  Runs.run (step taprootLibrary noWords) (inspecting.showSign noWords) typingEvents

/-- The key has been checked. -/
def keyChecking : AppWindow :=
  typing.step taprootLibrary noWords (.click (.sign .checkKey) quietOutside)

/-- The confirmation page shows. -/
def confirming : AppWindow :=
  keyChecking.withSign { keyChecking.signView.rebuildConfirm with page := .confirm }

theorem taprootPsbt_gate :
    (summarise taprootLibrary .mainnet false (.hold default) taprootPsbt).safeToSign = true ∧
      (summarise taprootLibrary .mainnet false (.hold default) taprootPsbt).signableInputs ≠ 0 :=
  (signingGate_iff_summarise .mainnet false).mpr
    (Session.signingGate_taprootPsbt taprootLibrary default rfl (by decide) (by decide))

theorem taprootPsbt_safe :
    (summarise taprootLibrary .mainnet false .clear taprootPsbt).safeToSign = true := by
  obtain ⟨tx, htx, hfile, -⟩ :=
    (Session.signingGate_taprootPsbt taprootLibrary default rfl (by decide) (by decide)).1
  exact (safeToSign_summarise_iff false).mpr ⟨tx, htx, hfile, fun key h => by cases h⟩

section
attribute [local semireducible] Secret.perform

theorem keyChecked_keyChecking : keyChecking.sign.keyChecked = true :=
  decide_eq_true (Nat.pos_of_ne_zero taprootPsbt_gate.2)

theorem showConfirm_keyChecking : keyChecking.signView.showConfirm =
    { keyChecking.signView.rebuildConfirm with page := .confirm } :=
  if_pos keyChecked_keyChecking

theorem run_confirmingEvents :
    Runs.run (step taprootLibrary noWords) (start {} fun _ => none) confirmingEvents
      = confirming := by
  have hinspect : inspecting.clickable .inspectSign = true := taprootPsbt_safe
  have hsign : inspecting.step taprootLibrary noWords (.click .inspectSign quietOutside)
      = inspecting.showSign noWords :=
    step_click rfl hinspect
  have hreview : keyChecking.clickable (.sign .review) = true := by
    show (keyChecking.sign.keyChecked && _) = true
    rw [keyChecked_keyChecking]
    exact taprootPsbt_gate.1
  have hconfirm : keyChecking.step taprootLibrary noWords (.click (.sign .review) quietOutside)
      = confirming := by
    refine (step_click rfl hreview).trans ?_
    exact congrArg keyChecking.withSign showConfirm_keyChecking
  rw [confirmingEvents, Runs.run_append, ← inspecting, Runs.run_cons, hsign, Runs.run_append,
    ← typing, Runs.run_cons, ← keyChecking, Runs.run_cons, Runs.run_nil]
  exact hconfirm

theorem confirming_reachesSign :
    confirming.ReachesSign (.click (.sign .signNow) quietOutside) := by
  obtain ⟨hsafe, hsignable⟩ := taprootPsbt_gate
  refine ⟨rfl, rfl, ⟨rfl, ?_, trivial⟩, decide_eq_true (Nat.pos_of_ne_zero hsignable)⟩
  show ((summarise taprootLibrary .mainnet false (.hold default) taprootPsbt).safeToSign &&
    decide (0 < (summarise taprootLibrary .mainnet false (.hold default)
      taprootPsbt).signableInputs)) = true
  rw [hsafe]
  exact decide_eq_true (Nat.pos_of_ne_zero hsignable)

theorem confirming_signGate :
    PsbtEngine.signGate confirming.slot confirming.engine = .ok (taprootPsbt, default) :=
  PsbtEngine.signGate_eq_ok.mpr ⟨rfl, rfl, taprootPsbt_gate.1, taprootPsbt_gate.2⟩

theorem confirming_confirmed : confirming.signView.Confirmed :=
  fun _ _ => ⟨[], confirming.engine, _, rfl, by simp, rfl, rfl⟩

end

/-- "Sign now" fails; pressed once more, it signs a PSBT with a signature in it, which is not the
one on the confirmation page. -/
theorem signed_after_failure :
    ¬ (Runs.run (step taprootLibrary noWords) (start {} fun _ => none)
      (confirmingEvents ++ [.click (.sign .signNow) quietOutside])).AtSign
        taprootLibrary noWords ConfirmedAs := by
  rw [Runs.run_append, run_confirmingEvents, Runs.run_cons, Runs.run_nil]
  refine not_atSign_of_not_keepsPsbt (fun _ => confirming_confirmed) fun hkeeps => ?_
  have hclean := hkeeps confirming_reachesSign taprootPsbt default confirming_signGate
    (Or.inr (by decide))
  exact absurd (congrArg (fun psbt : Psbt => psbt.inputs.map fun inp => inp.psbtFields.length)
    hclean) (by decide)

end AppWindow

end SignerOS
