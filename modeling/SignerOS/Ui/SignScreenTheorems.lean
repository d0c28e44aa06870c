import SignerOS.Ui.SecretsTheorems
import SignerOS.Ui.WindowTheorems

/-!
# What the sign screen does with an event

* `SignView.Effect`, all that comes of it for the check of the key, the calls on the engine and
  the page;
* `SignView.Handles.effect`, every event has one of these effects.
-/

namespace SignerOS

namespace SignView

/-- What `sign` would be called with. -/
def signing (v : SignView) : Signing :=
  ⟨v.slot, v.engine, v.source, v.secrets.mnemonic.text, v.secrets.passphrase.text⟩

/-! ## Displays -/

/-- Nothing differs but the displays, the field and a confirmation that is cleared. -/
structure Steady (v v' : SignView) : Prop where
  page : v'.page = v.page
  keyChecked : v'.keyChecked = v.keyChecked
  signing : v'.signing = v.signing
  log : v'.log = v.log

variable {w : Wally} {lib : Bip39} {out : Outside} {v v' v'' : SignView} {event : Event}

theorem Steady.refl (v : SignView) : Steady v v := ⟨rfl, rfl, rfl, rfl⟩

theorem Steady.trans (h : Steady v v') (h' : Steady v' v'') : Steady v v'' where
  page := h'.page.trans h.page
  keyChecked := h'.keyChecked.trans h.keyChecked
  signing := h'.signing.trans h.signing
  log := h'.log.trans h.log

theorem steady_refreshDisplays (lib : Bip39) (v : SignView) :
    Steady v (v.refreshDisplays lib) := by
  unfold refreshDisplays
  split
  · exact ⟨rfl, rfl, rfl, rfl⟩
  · refine ⟨rfl, rfl, ?_, rfl⟩
    show Signing.mk v.slot v.engine v.source v.secrets.dropConfirmation.mnemonic.text
      v.secrets.dropConfirmation.passphrase.text = v.signing
    simp only [SecretBuffers.mnemonic_dropConfirmation,
      SecretBuffers.passphrase_dropConfirmation]
    rfl

theorem steady_setField (lib : Bip39) (v : SignView) (f : Field) :
    Steady v (v.setField lib f) := by
  refine Steady.trans ?_ (steady_refreshDisplays lib _)
  exact ⟨rfl, rfl, rfl, rfl⟩

theorem steady_setOskVisible (lib : Bip39) (v : SignView) (visible : Bool) :
    Steady v (v.setOskVisible lib visible) := by
  refine Steady.trans ?_ (steady_refreshDisplays lib _)
  exact ⟨rfl, rfl, rfl, rfl⟩

/-! ## The effects -/

/-- A check of the key vouches for what `sign` would be called with: the slot holds the key
derived from the text in the buffers, which is the text of the check, and the passphrase of a
mnemonic was empty or confirmed. -/
structure Vouches (w : Wally) (check : KeyCheck) (s : Signing) : Prop where
  source : check.source = s.source
  key : check.key = s.key
  passphrase : check.passphrase = s.passphrase
  derived : ∃ key, derivedKey w s.engine.network s.source s.key s.passphrase = .ok key ∧
    s.slot = .hold key
  confirmed : s.source = .mnemonic → check.passphrase = [] ∨
    check.passphrase = check.confirmation

/-- The screen as `doSign` leaves it: the file is named, nothing secret is left in the buffers, and
the floating keyboard suggests nothing. -/
structure Named (v : SignView) : Prop where
  page : v.page = .name
  secrets : v.secrets = .wiped
  suggestions : v.panel.suggestions = 0

/-- The event presses "Sign now" on the confirmation page, with the mouse or by Enter. -/
def PressesSign (v : SignView) (event : Event) : Prop :=
  v.page = .confirm ∧ v.confirmSignEnabled = true ∧
    match event with
    | .key press _ => press.key = .enter
    | .click (.sign .signNow) _ => True
    | _ => False

/-- All that can come of an event. -/
inductive Effect (w : Wally) (v : SignView) (event : Event) : SignView → Prop
  /-- Displays change, or the confirmation page is left for the entry page. -/
  | kept {v' : SignView} (page : v'.page = v.page ∨ v'.page = .entry)
    (keyChecked : v'.keyChecked = v.keyChecked) (signing : v'.signing = v.signing)
    (log : v'.log = v.log) : Effect w v event v'
  /-- The check is dropped, and the key with it or not. -/
  | dropped {v' : SignView} (page : v'.page = v.page) (keyChecked : v'.keyChecked = false)
    (log : v'.log = v.log ∨ v'.log = .clearKey :: v.log) : Effect w v event v'
  /-- A key is entered. -/
  | checked {v' : SignView} (check : KeyCheck) (page : v'.page = .entry)
    (log : v'.log = .enterKey check :: v.log)
    (vouches : v'.keyChecked = true → Vouches w check v'.signing) : Effect w v event v'
  /-- The confirmation page is built for what `sign` would be called with. -/
  | confirmed {v' : SignView} (page : v'.page = .confirm) (keyChecked : v.keyChecked = true)
    (signing : v'.signing = v.signing)
    (log : v'.log = .rebuildConfirm v.slot v.engine :: v.log) : Effect w v event v'
  /-- `sign` has failed. -/
  | failed {v' : SignView} (pressed : v.PressesSign event) (page : v'.page = v.page)
    (keyChecked : v.keyChecked = true)
    (log : v'.log = .sign v.signing :: v.log) {err : String}
    (sign : v.engine.sign w v.slot = (.error err, v'.engine))
    (signing : v'.signing = { v.signing with engine := v'.engine }) : Effect w v event v'
  /-- `sign` has returned true, and the secrets are wiped. -/
  | signed {v' : SignView} (pressed : v.PressesSign event) (keyChecked : v.keyChecked = true)
    (log : v'.log = .clearKey :: .sign v.signing :: v.log) (dropped : v'.keyChecked = false)
    (named : v'.Named) : Effect w v event v'
  /-- The result has been written, or not. -/
  | wrote {v' : SignView} (named : v.page = .name) (page : v'.page = .name ∨ v'.page = .result)
    (keyChecked : v'.keyChecked = v.keyChecked) (log : v'.log = v.log)
    (findings : ∃ findings, v'.signing =
      { v.signing with engine := v.engine.withFindings findings }) : Effect w v event v'

theorem Steady.effect (h : Steady v v') : Effect w v event v' :=
  .kept (Or.inl h.page) h.keyChecked h.signing h.log

/-- Displays that change after the check is dropped. -/
theorem Effect.dropped_of_steady (h : Steady v' v'') (page : v'.page = v.page)
    (keyChecked : v'.keyChecked = false) (log : v'.log = v.log ∨ v'.log = .clearKey :: v.log) :
    Effect w v event v'' := by
  refine .dropped (h.page.trans page) (h.keyChecked.trans keyChecked) ?_
  rw [h.log]
  exact log

/-! ## The handlers -/

@[simp] theorem keyChecked_dropCheck (v : SignView) : v.dropCheck.keyChecked = false := rfl

theorem log_wipeSecrets (v : SignView) : v.wipeSecrets.log = .clearKey :: v.log := rfl

theorem effect_setKeySource (v : SignView) (s : KeySource) :
    Effect w v event (v.setKeySource lib s) := by
  unfold setKeySource
  by_cases hs : v.source = s
  · subst hs
    rw [if_pos rfl]
    by_cases hfield : v.source = .xprv ∧ v.field = .passphrase
    · rw [if_pos hfield]
      exact (steady_setField lib v _).effect
    · rw [if_neg hfield]
      exact (steady_setField lib v _).effect
  · rw [if_neg hs]
    -- another source wipes what was typed, and drops the check
    obtain ⟨v₁, hv, hpage, hchecked, hlog⟩ : ∃ v₁, dropCheck { v with
        secrets := { v.secrets with mnemonic := v.secrets.mnemonic.clear } } = v₁ ∧
        v₁.page = v.page ∧ v₁.keyChecked = false ∧ v₁.log = v.log := ⟨_, rfl, rfl, rfl, rfl⟩
    rw [hv]
    have hset (f : Field) : Effect w v event (setField lib { v₁ with source := s } f) :=
      .dropped_of_steady (steady_setField lib _ f) hpage hchecked (Or.inl hlog)
    by_cases hfield : s = .xprv ∧ v₁.field = .passphrase
    · rw [if_pos hfield]
      exact hset .mnemonic
    · rw [if_neg hfield]
      exact hset v₁.field

theorem effect_typeCharacter (v : SignView) (c : UInt8) :
    Effect w v event (v.typeCharacter lib c) := by
  unfold typeCharacter
  by_cases hpage : v.page = .name
  · rw [if_pos hpage]
    exact .kept (Or.inl rfl) rfl rfl rfl
  rw [if_neg hpage]
  by_cases hallowed : v.allowed c = false
  · rw [if_pos hallowed]
    exact (Steady.refl v).effect
  rw [if_neg hallowed]
  by_cases hchecked : v.keyChecked = true
  · -- with the check the key is cleared, whether the buffer is full or not
    rw [if_pos hchecked]
    dsimp only
    split
    · exact .dropped_of_steady (steady_refreshDisplays lib _) rfl rfl (Or.inr rfl)
    · exact .dropped rfl rfl (Or.inr rfl)
  · rw [if_neg hchecked]
    dsimp only
    split
    · exact .dropped_of_steady (steady_refreshDisplays lib _) rfl
        (Bool.eq_false_of_not_eq_true hchecked) (Or.inl rfl)
    · exact (Steady.refl v).effect

theorem effect_edit (v : SignView) (onBuffer : Secret → Secret)
    (onName : SaveAsPage → SaveAsPage) : Effect w v event (v.edit lib onBuffer onName) := by
  unfold edit
  split
  · exact .kept (Or.inl rfl) rfl rfl rfl
  · exact .dropped_of_steady (steady_refreshDisplays lib _) rfl rfl (Or.inl rfl)

theorem effect_applySuggestion (v : SignView) (i : Fin kSuggestionCount) :
    Effect w v event (v.applySuggestion lib i) := by
  unfold applySuggestion
  cases v.row.word i with
  | none => exact (Steady.refl v).effect
  | some word => exact .dropped_of_steady (steady_refreshDisplays lib _) rfl rfl (Or.inl rfl)

/-- The gate before the derivation lets a mnemonic through with an empty or a confirmed
passphrase. -/
theorem passphraseReady_cases (lib : Bip39) (v : SignView) :
    (v.passphraseReady lib = (true, v) ∧ (v.source = .mnemonic → v.secrets.PassphraseReady)) ∨
      ∃ v', v.passphraseReady lib = (false, v') ∧ Steady v v' := by
  unfold passphraseReady
  by_cases hfree : v.source ≠ .mnemonic ∨ v.secrets.passphrase.empty = true
  · rw [if_pos hfree]
    refine Or.inl ⟨rfl, fun hsource => Or.inl ?_⟩
    exact Secret.empty_iff.mp (hfree.resolve_left fun h => h hsource)
  rw [if_neg hfree]
  by_cases hconfirmed : v.secrets.passphraseConfirmed = true
  · rw [if_pos hconfirmed]
    exact Or.inl ⟨rfl, fun _ => Or.inr (Secret.equals_iff.mp hconfirmed)⟩
  · rw [if_neg hconfirmed]
    exact Or.inr ⟨_, rfl, steady_setField lib v _⟩

end SignView

/-- What is typed when a key is entered. -/
def Machine.keyCheck (m : Machine) (source : KeySource) : KeyCheck :=
  ⟨source, m.secrets.mnemonic.text, m.secrets.passphrase.text,
    m.secrets.passphraseConfirm.text⟩

/-- A key that is entered is the one its text derives, and nothing else changes but the slot,
the engine and the log. -/
theorem Machine.enterKey_cases (w : Wally) (m : Machine) (source : KeySource) :
    ∃ slot engine, (m.enterKey w source).2 =
        { m with slot := slot, engine := engine, log := .enterKey (m.keyCheck source) :: m.log } ∧
      engine.network = m.engine.network ∧
      ((m.enterKey w source).1 = .ok () → ∃ key,
        derivedKey w m.engine.network source m.secrets.mnemonic.text m.secrets.passphrase.text
          = .ok key ∧ slot = .hold key) := by
  -- the key is set in the same way whatever it was derived from
  have hset : ∀ derived : Except String ExtKey,
      (PsbtEngine.enterKey w m.engine derived).2.2.network = m.engine.network ∧
        ((PsbtEngine.enterKey w m.engine derived).1 = .ok () → ∃ key, derived = .ok key ∧
          (PsbtEngine.enterKey w m.engine derived).2.1 = .hold key) := by
    intro derived
    cases derived with
    | error err => exact ⟨rfl, fun h => by cases h⟩
    | ok key =>
      cases hpsbt : m.engine.psbt with
      | none =>
        rw [PsbtEngine.enterKey_of_unloaded w m.engine key hpsbt]
        exact ⟨rfl, fun _ => ⟨key, rfl, rfl⟩⟩
      | some psbt =>
        rw [PsbtEngine.enterKey_of_loaded w m.engine key hpsbt]
        exact ⟨rfl, fun _ => ⟨key, rfl, rfl⟩⟩
  cases source with
  | mnemonic =>
    exact ⟨_, _, rfl, hset (PsbtEngine.masterFromMnemonic w m.engine.network _ _)⟩
  | xprv => exact ⟨_, _, rfl, hset (PsbtEngine.masterFromXprv w _)⟩

namespace SignView

variable {w : Wally} {lib : Bip39} {out : Outside} {v v' v'' : SignView} {event : Event}

theorem effect_checkKey (hpage : v.page = .entry) : Effect w v event (v.checkKey w lib) := by
  unfold checkKey
  dsimp only
  by_cases hempty : v.dropCheck.secrets.mnemonic.empty = true
  · rw [if_pos hempty]
    exact .dropped rfl rfl (Or.inl rfl)
  rw [if_neg hempty]
  rcases passphraseReady_cases lib v.dropCheck with ⟨h, hready⟩ | ⟨v', h, hsteady⟩
  · rw [h, if_pos rfl]
    dsimp only
    -- from here on the words stand between single spaces
    set m : Machine := { v.dropCheck.toMachine with
      secrets := { v.dropCheck.secrets with
        mnemonic := v.dropCheck.secrets.mnemonic.normaliseWhitespace } } with hm
    obtain ⟨slot, engine, hmachine, hnetwork, hok⟩ := m.enterKey_cases w v.dropCheck.source
    cases hresult : (m.enterKey w v.dropCheck.source).1 with
    | error err =>
      refine .checked (m.keyCheck v.source) hpage ?_ fun h => ?_
      · exact congrArg Machine.log hmachine
      · exact absurd h Bool.false_ne_true
    | ok u =>
      obtain ⟨key, hkey, hslot⟩ := hok hresult
      refine .checked (m.keyCheck v.source) hpage (congrArg Machine.log hmachine) fun _ => ?_
      dsimp only [signing]
      rw [hmachine]
      refine ⟨rfl, rfl, rfl, ⟨key, ?_, hslot⟩, fun hsource => hready hsource⟩
      -- the network is not changed by the key
      show derivedKey w engine.network _ _ _ = .ok key
      rw [hnetwork]
      exact hkey
  · rw [h]
    exact .dropped_of_steady hsteady rfl rfl (Or.inl rfl)

theorem effect_showConfirm (v : SignView) : Effect w v event v.showConfirm := by
  unfold showConfirm
  by_cases hchecked : v.keyChecked = true
  · rw [if_pos hchecked]
    exact .confirmed rfl hchecked rfl rfl
  · rw [if_neg hchecked]
    exact (Steady.refl v).effect

/-- An empty key offers no words. -/
theorem suggestions_refreshDisplays (lib : Bip39) (h : v.secrets.mnemonic = .wiped) :
    (v.refreshDisplays lib).panel.suggestions = 0 := by
  have hsuggestions : ∀ v : SignView, v.secrets.mnemonic = .wiped →
      (v.refreshSuggestions lib).panel.suggestions = 0 := by
    intro v hv
    -- there is no last word of a wiped key to complete
    have hwords : (if v.source = .mnemonic ∧ v.field = .mnemonic then
        bip39Suggestions lib (v.secrets.mnemonic.copyTrailingWord 16) kSuggestionCount
        else []) = [] := by
      rw [hv, Secret.copyTrailingWord_wiped]
      exact ite_self []
    unfold refreshSuggestions
    rw [hwords]
    unfold offerSuggestions
    split_ifs <;> rfl
  unfold refreshDisplays
  split
  · exact hsuggestions v h
  · exact hsuggestions _ ((SecretBuffers.mnemonic_dropConfirmation _).trans h)

theorem secrets_refreshDisplays_wiped (lib : Bip39) (h : v.secrets = .wiped) :
    (v.refreshDisplays lib).secrets = .wiped := by
  have hdrop : SecretBuffers.wiped.dropConfirmation = .wiped :=
    if_pos (Secret.empty_iff.mpr Secret.text_wiped)
  unfold refreshDisplays
  split
  · exact h
  · rw [h, hdrop]
    rfl

theorem log_nameResult (lib : Bip39) (out : Outside) (v : SignView) :
    (v.nameResult lib out).keyChecked = false ∧
      (v.nameResult lib out).log = .clearKey :: v.log := by
  have h : Steady _ (v.nameResult lib out) := steady_setOskVisible lib _ _
  exact ⟨h.keyChecked, h.log.trans (log_wipeSecrets v)⟩

theorem named_nameResult (lib : Bip39) (out : Outside) (v : SignView) :
    (v.nameResult lib out).Named := by
  have h : Steady _ (v.nameResult lib out) := steady_setOskVisible lib _ _
  have hwiped : v.wipeSecrets.secrets = .wiped := SecretBuffers.wipeAllSecrets_eq _
  exact ⟨h.page, secrets_refreshDisplays_wiped lib hwiped,
    suggestions_refreshDisplays lib (congrArg SecretBuffers.mnemonic hwiped)⟩

theorem effect_doSign (hpressed : v.PressesSign event) : Effect w v event (v.doSign w lib out) := by
  unfold doSign
  by_cases hchecked : v.keyChecked = true
  · rw [if_pos hchecked]
    dsimp only [Machine.sign]
    cases hsign : v.engine.sign w v.slot with
    | mk result engine =>
      cases result with
      | error err => exact .failed hpressed rfl hchecked rfl hsign rfl
      | ok added =>
        obtain ⟨hdropped, hlog⟩ := log_nameResult lib out { v with
          engine := engine, log := .sign v.signing :: v.log }
        exact .signed hpressed hchecked hlog hdropped (named_nameResult lib out _)
  · rw [if_neg hchecked]
    exact (Steady.refl v).effect

theorem effect_doWrite (hpage : v.page = .name) : Effect w v event (v.doWrite w out) := by
  obtain ⟨findings, hengine⟩ := PsbtEngine.writeResult_engine w v.engine
    ⟨out.clock, out.laterClock, out.file, out.secondFile⟩ v.files v.config.dataDir
    v.namePage.fileName v.config.writeFinalTx
  unfold doWrite
  dsimp only [Machine.writeResult]
  split
  · refine .wrote hpage (Or.inl hpage) rfl rfl ⟨findings, ?_⟩
    exact congrArg (fun e => { v.signing with engine := e }) hengine
  · refine .wrote hpage (Or.inr rfl) rfl rfl ⟨findings, ?_⟩
    exact congrArg (fun e => { v.signing with engine := e }) hengine

/-! ## The events -/

theorem effect_osk (v : SignView) (key : OskKey) : Effect w v event (v.osk lib key) := by
  unfold osk
  split
  · cases key with
    | character c => exact effect_typeCharacter v c
    | backspace => exact effect_edit v _ _
    | deleteWord => exact effect_edit v _ _
    | clear => exact effect_edit v _ _
    | hide => exact (steady_setOskVisible lib v false).effect
    | suggestion i =>
      dsimp only
      split
      · exact effect_applySuggestion v i
      · exact (Steady.refl v).effect
  · exact (Steady.refl v).effect

theorem effect_click {button : SignButton} (hclick : v.clickable button = true) :
    Effect w v (.click (.sign button) out) (v.click w lib out button) := by
  unfold clickable at hclick
  obtain ⟨hbutton, henabled⟩ := Bool.and_eq_true_iff.mp hclick
  have hpage : v.page = button.page := beq_iff_eq.mp hbutton
  cases button with
  | sourceMnemonic => exact effect_setKeySource v .mnemonic
  | sourceXprv => exact effect_setKeySource v .xprv
  | mnemonicBox => exact (steady_setField lib v .mnemonic).effect
  | passphraseBox => exact (steady_setField lib v .passphrase).effect
  | confirmBox => exact (steady_setField lib v .confirm).effect
  | suggestion i => exact effect_applySuggestion v i
  | back => exact .dropped rfl rfl (Or.inr (log_wipeSecrets v))
  | oskToggle => exact (steady_setOskVisible lib v _).effect
  | checkKey => exact effect_checkKey hpage
  | review => exact effect_showConfirm v
  | confirmBack => exact .kept (Or.inr rfl) rfl rfl rfl
  | signNow => exact effect_doSign ⟨hpage, henabled, trivial⟩
  | nameOskToggle => exact (steady_setOskVisible lib v _).effect
  | nameClear => exact .kept (Or.inl rfl) rfl rfl rfl
  | nameAccept => exact effect_doWrite hpage
  | nameBack => exact (Steady.refl v).effect
  | signAnother => exact (Steady.refl v).effect
  | secureShutdown => exact (Steady.refl v).effect

theorem effect_keyOnEntry {press : KeyPress} (hpage : v.page = .entry)
    (h : v.keyOnEntry w lib press = some v') : Effect w v event v' := by
  unfold keyOnEntry at h
  by_cases hf2 : press.key = .f2
  · rw [if_pos hf2] at h
    cases h
    exact (steady_setOskVisible lib v _).effect
  rw [if_neg hf2] at h
  by_cases hf3 : press.key = .f3 ∧ v.source = .mnemonic
  · rw [if_pos hf3] at h
    cases h
    exact (steady_setField lib v _).effect
  rw [if_neg hf3] at h
  split at h
  · cases h
    exact effect_applySuggestion v _
  split at h
  · split at h
    · cases h
      exact (Steady.refl v).effect
    · cases h
  · cases h
    exact effect_edit v _ _
  · cases h
    split
    · exact effect_showConfirm v
    · exact effect_checkKey hpage
  · obtain ⟨c, -, rfl⟩ := Option.map_eq_some_iff.mp h
    exact effect_typeCharacter v c

theorem effect_keyPress {press : KeyPress} (h : v.keyPress w lib out press = some v') :
    Effect w v (.key press out) v' := by
  unfold keyPress at h
  cases hpage : v.page with
  | entry =>
    rw [hpage] at h
    exact effect_keyOnEntry hpage h
  | confirm =>
    rw [hpage] at h
    dsimp only at h
    split at h
    · rename_i henter
      cases h
      by_cases henabled : v.confirmSignEnabled = true
      · rw [if_pos henabled]
        exact effect_doSign ⟨hpage, henabled, henter⟩
      · rw [if_neg henabled]
        exact (Steady.refl v).effect
    · cases h
  | name =>
    rw [hpage] at h
    dsimp only at h
    split at h
    · cases h
      exact (steady_setOskVisible lib v _).effect
    · obtain ⟨namePage, -, rfl⟩ := Option.map_eq_some_iff.mp h
      exact .kept (Or.inl hpage.symm) rfl rfl rfl
  | result =>
    rw [hpage] at h
    cases h

/-- Every event the screen handles has one of the effects. -/
theorem Handles.effect (h : Handles w lib v event v') : Effect w v event v' := by
  cases h with
  | key h => exact effect_keyPress h
  | osk key => exact effect_osk v key
  | click out h => exact effect_click h
  | accept out h hkey => exact effect_doWrite h

end SignView

end SignerOS
