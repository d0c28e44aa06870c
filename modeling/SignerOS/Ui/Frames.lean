import SignerOS.ExportTheorems
import SignerOS.Ui.WindowTheorems
import SignerOS.Ui.SecretsTheorems

/-!
# What the wallet screens leave alone

* `Machine.Typed`, only the buffers differ: all a handler does that edits, moves or navigates;
* `Machine.Kept`, the engine is untouched and a clear slot stays clear: all a handler of the
  create and the import screen does; `Machine.Quiet`, and no file is written;
* `CreateView.Handles.quiet_or_wrote` and `ImportView.Handles.quiet_or_wrote`, an event is quiet
  or it writes the file;
* `Machine.ExportOf`, an export is that of the buffers, and `AppWindow.WroteExport`, such an
  export is what an event has written.
-/

namespace SignerOS

open Files (Attempt)
open Relation (ReflGen)

/-! ## Machines -/

namespace Machine

variable {m m' m'' : Machine}

/-- Nothing but the buffers differs. -/
def Typed (m m' : Machine) : Prop := m' = { m with secrets := m'.secrets }

theorem typed_secrets (m : Machine) (secrets : SecretBuffers) :
    m.Typed { m with secrets := secrets } := rfl

theorem Typed.trans (h : m.Typed m') (h' : m'.Typed m'') : m.Typed m'' := by
  rw [Typed] at *
  rw [h', h]

/-- The engine is untouched, a clear slot stays clear, and nothing is logged but mnemonics. -/
structure Kept (m m' : Machine) : Prop where
  config : m'.config = m.config
  engine : m'.engine = m.engine
  slot : m.slot = .clear → m'.slot = .clear
  log : ∃ calls, m'.log = calls ++ m.log ∧ ∀ call ∈ calls, ∃ text, call = .generated text

/-- And so are the files. -/
structure Quiet (m m' : Machine) : Prop extends Kept m m' where
  files : m'.files = m.files

theorem Quiet.trans (h : m.Quiet m') (h' : m'.Quiet m'') : m.Quiet m'' := by
  obtain ⟨calls, hlog, hcalls⟩ := h.log
  obtain ⟨calls', hlog', hcalls'⟩ := h'.log
  refine ⟨⟨h'.config.trans h.config, h'.engine.trans h.engine,
    fun hslot => h'.slot (h.slot hslot), calls' ++ calls, ?_, ?_⟩, h'.files.trans h.files⟩
  · rw [hlog', hlog, List.append_assoc]
  · intro call hcall
    exact (List.mem_append.mp hcall).elim (hcalls' call) (hcalls call)

theorem Typed.quiet (h : m.Typed m') : m.Quiet m' := by
  rw [Typed] at h
  rw [h]
  exact ⟨⟨rfl, rfl, id, [], rfl, by simp⟩, rfl⟩

theorem Quiet.refl (m : Machine) : m.Quiet m := Typed.quiet rfl

end Machine

/-- The slot a wallet export leaves is the one it was given, or clear. -/
theorem slot_buildWalletExport (w : Wally) (slot : KeySlot) (mnemonic passphrase : String)
    (network : Network) (account : UInt32) :
    (buildWalletExport w slot mnemonic passphrase network account).2.2 = slot ∨
      (buildWalletExport w slot mnemonic passphrase network account).2.2 = .clear := by
  cases hvalid : PsbtEngine.bip39Validate w mnemonic with
  | error err =>
    rw [buildWalletExport_of_invalid hvalid]
    exact Or.inl rfl
  | ok u =>
    rw [buildWalletExport_of_valid hvalid]
    split
    · exact Or.inr rfl
    · exact Or.inr rfl

theorem Machine.quiet_buildExport (w : Wally) (m : Machine) (account : UInt32) :
    m.Quiet (m.buildExport w account).2.2 := by
  refine ⟨⟨rfl, rfl, fun hslot => ?_, [], rfl, by simp⟩, rfl⟩
  rcases slot_buildWalletExport w m.slot (cStr m.secrets.mnemonic.text)
    (cStr m.secrets.passphrase.text) m.config.network account with h | h
  · exact h.trans hslot
  · exact h

/-! ## Exports of the buffers -/

/-- The export is what `buildWalletExport` makes of the words, the passphrase and the network. -/
def Machine.ExportOf (w : Wally) (m : Machine) (account : UInt32) (we : WalletExport) : Prop :=
  ∀ slot, buildWalletExport w slot (cStr m.secrets.mnemonic.text) (cStr m.secrets.passphrase.text)
    m.config.network account = (.ok (), we, .clear)

namespace Machine

variable {w : Wally} {m : Machine} {account : UInt32}

/-- What `buildWalletExport` hands back on success does not depend on the slot. -/
theorem exportOf_buildExport (h : (m.buildExport w account).1 = .ok ()) :
    m.ExportOf w account (m.buildExport w account).2.1 := by
  intro slot
  unfold buildExport at h ⊢
  dsimp only at h ⊢
  cases hvalid : PsbtEngine.bip39Validate w (cStr m.secrets.mnemonic.text) with
  | error err =>
    rw [buildWalletExport_of_invalid hvalid] at h
    cases h
  | ok u =>
    rw [buildWalletExport_of_valid hvalid] at h ⊢
    rw [buildWalletExport_of_valid hvalid]
    split at h
    · cases h
    · rfl

/-- On failure there is no account in the export. -/
theorem accounts_buildExport {err : String} (h : (m.buildExport w account).1 = .error err) :
    (m.buildExport w account).2.1.accounts = [] := by
  unfold buildExport at h ⊢
  dsimp only at h ⊢
  cases hvalid : PsbtEngine.bip39Validate w (cStr m.secrets.mnemonic.text) with
  | error err =>
    rw [buildWalletExport_of_invalid hvalid]
  | ok u =>
    rw [buildWalletExport_of_valid hvalid] at h ⊢
    split at h
    · rfl
    · cases h

/-- An export with no account is not written. -/
theorem files_writeExport_of_nil {clock laterClock : Clock} {os : Attempt} {we : WalletExport}
    {fileName : String} (h : we.accounts = []) :
    (m.writeExport clock laterClock os we fileName).2.files = m.files := by
  unfold writeExport writeWalletExport
  rw [h]
  rfl

end Machine

/-- An event has written the export of the buffers, and the passphrase in them is empty or
confirmed. -/
structure AppWindow.WroteExport (w : Wally) (a a' : AppWindow) (account : UInt32)
    (fileName : String) : Prop where
  ready : a.secrets.PassphraseReady
  written : ∃ (we : WalletExport) (out : Outside), a.ExportOf w account we ∧
    a'.files = (writeWalletExport out.clock out.laterClock out.file a.files we a.config.dataDir
      fileName).files

/-! ## The create screen -/

namespace CreateView

variable {w : Wally} {lib : Bip39} {out : Outside} {v v' : CreateView} {event : Event}

theorem typed_verifySetCursor (lib : Bip39) (v : CreateView) (index : ℤ) :
    v.toMachine.Typed (v.verifySetCursor lib index).toMachine := by
  unfold verifySetCursor
  dsimp only
  split_ifs <;> rfl

theorem typed_verifyType (c : UInt8) : v.toMachine.Typed (v.verifyType lib c).toMachine := by
  unfold verifyType
  dsimp only
  split_ifs
  · rfl
  · exact typed_verifySetCursor lib v _
  all_goals rfl

theorem typed_verifyBackspace : v.toMachine.Typed (v.verifyBackspace lib).toMachine := by
  unfold verifyBackspace
  split_ifs
  · exact typed_verifySetCursor lib v _
  all_goals rfl

theorem typed_applyVerifySuggestion (i : Fin kSuggestionCount) :
    v.toMachine.Typed (v.applyVerifySuggestion lib i).toMachine := by
  unfold applyVerifySuggestion
  cases v.row.word i with
  | none => rfl
  | some word =>
    dsimp only
    split_ifs
    · exact typed_verifySetCursor lib (v.setVerification _) _
    · rfl

theorem typed_refreshPassphrase (v : CreateView) :
    v.toMachine.Typed v.refreshPassphrase.toMachine := by
  unfold refreshPassphrase
  split_ifs <;> rfl

theorem typed_editPassphrase (f : Secret → Secret) :
    v.toMachine.Typed (v.editPassphrase f).toMachine :=
  typed_refreshPassphrase { v with secrets := _ }

theorem typed_passphraseType (c : UInt8) : v.toMachine.Typed (v.passphraseType c).toMachine := by
  unfold passphraseType
  split_ifs
  · rfl
  · exact typed_editPassphrase _

theorem typed_setPassphraseField (v : CreateView) (confirming : Bool) :
    v.toMachine.Typed (v.setPassphraseField confirming).toMachine :=
  typed_refreshPassphrase { v with passConfirming := _ }

theorem typed_goTo (lib : Bip39) (out : Outside) (v : CreateView) (page : CreatePage) :
    v.toMachine.Typed (v.goTo lib out page).toMachine := by
  cases page
  case passphrase => exact typed_refreshPassphrase _
  all_goals rfl

theorem typed_leavePassphrasePage :
    v.toMachine.Typed (v.leavePassphrasePage lib out).toMachine := by
  unfold leavePassphrasePage passphraseReady
  split_ifs
  · exact typed_goTo lib out v .confirm
  · exact typed_goTo lib out v .confirm
  · exact typed_setPassphraseField v true

theorem typed_keyOnVerify {press : KeyPress} (h : v.keyOnVerify lib out press = some v') :
    v.toMachine.Typed v'.toMachine := by
  unfold keyOnVerify at h
  split at h
  · cases h
    rfl
  split at h
  · cases h
    exact typed_applyVerifySuggestion _
  split at h
  all_goals cases h
  · rfl
  · exact typed_verifyBackspace
  · exact typed_verifyType _
  · split_ifs
    · exact typed_goTo lib out v .passphrase
    · exact typed_verifySetCursor lib v _
  · exact typed_verifySetCursor lib v _
  · exact typed_verifySetCursor lib v _
  · exact typed_verifySetCursor lib v _
  · exact typed_verifySetCursor lib v _
  · exact typed_verifySetCursor lib v _
  · exact typed_verifySetCursor lib v _
  · exact typed_verifyType _

theorem typed_keyOnPassphrase {press : KeyPress}
    (h : v.keyOnPassphrase lib out press = some v') : v.toMachine.Typed v'.toMachine := by
  unfold keyOnPassphrase at h
  split at h
  · cases h
    rfl
  · cases h
    exact typed_editPassphrase _
  · cases h
    exact typed_setPassphraseField v _
  · cases h
    split_ifs
    · exact typed_setPassphraseField v true
    · exact typed_leavePassphrasePage
  · obtain ⟨c, -, rfl⟩ := Option.map_eq_some_iff.mp h
    exact typed_passphraseType c

theorem typed_osk (key : OskKey) : v.toMachine.Typed (v.osk lib key).toMachine := by
  -- each of the three pages does its own edit
  have hdispatch : ∀ {onVerify onPassphrase : CreateView} (onName : SaveAsPage),
      v.toMachine.Typed onVerify.toMachine → v.toMachine.Typed onPassphrase.toMachine →
        v.toMachine.Typed (v.oskDispatch onVerify onPassphrase onName).toMachine := by
    intro onVerify onPassphrase onName hverify hpassphrase
    unfold oskDispatch
    split
    · exact hverify
    · exact hpassphrase
    · rfl
    · rfl
  unfold osk
  split
  · cases key with
    | character c => exact hdispatch _ (typed_verifyType c) (typed_passphraseType c)
    | backspace => exact hdispatch _ typed_verifyBackspace (typed_editPassphrase _)
    | deleteWord => exact hdispatch _ rfl (typed_editPassphrase _)
    | clear => exact hdispatch _ rfl (typed_editPassphrase _)
    | hide => rfl
    | suggestion i =>
      dsimp only
      split
      · exact typed_applyVerifySuggestion i
      · rfl
  · rfl

theorem quiet_generate (v : CreateView) : v.toMachine.Quiet (v.generate w lib out).toMachine := by
  unfold generate
  cases out.entropy v.wordCount.entropyBytes with
  | error err => exact .refl _
  | ok entropy =>
    dsimp only
    split
    · exact Machine.Typed.quiet rfl
    · exact ⟨⟨rfl, rfl, id, [_], rfl, by simp⟩, rfl⟩

theorem quiet_showNamePage (v : CreateView) :
    v.toMachine.Quiet (v.showNamePage w out).toMachine := by
  have h := v.toMachine.quiet_buildExport w 0
  unfold showNamePage
  dsimp only
  split
  · exact h
  · exact h.trans (.refl _)

/-- An event on the create screen writes the file, on the page that names it, or is quiet. -/
theorem Handles.quiet_or_wrote (h : v.Handles w lib event v') :
    v.toMachine.Quiet v'.toMachine ∨ v.page = .name ∧ ∃ out, v' = v.doCreate out := by
  cases h with
  | @key press out _ h =>
    refine Or.inl ?_
    unfold keyPress at h
    split at h
    · split at h
      · cases h
        exact .refl _
      · obtain ⟨page, -, rfl⟩ := Option.map_eq_some_iff.mp h
        exact .refl _
    · split at h
      · cases h
        split_ifs
        · exact quiet_generate v
        · exact .refl _
      · cases h
        exact .refl _
    · exact (typed_keyOnVerify h).quiet
    · exact (typed_keyOnPassphrase h).quiet
    · cases h
  | osk key => exact Or.inl (typed_osk key).quiet
  | @click button out h =>
    cases button
    case nameAccept => exact Or.inr ⟨page_of_clickable h, out, rfl⟩
    all_goals refine Or.inl ?_
    case generate => exact quiet_generate v
    case create => exact quiet_showNamePage v
    case understood => exact (typed_goTo lib out v _).quiet
    case entropyBack => exact (typed_goTo lib out v _).quiet
    case written => exact (typed_goTo lib out v _).quiet
    case showAgain => exact (typed_goTo lib out v _).quiet
    case verifyNext => exact (typed_goTo lib out v _).quiet
    case passBack => exact (typed_goTo lib out v _).quiet
    case confirmBack => exact (typed_goTo lib out v _).quiet
    case nameBack => exact (typed_goTo lib out v _).quiet
    case cell i => exact (typed_verifySetCursor lib v i).quiet
    case suggestion i => exact (typed_applyVerifySuggestion i).quiet
    case passBox => exact (typed_setPassphraseField v _).quiet
    case passConfirmBox => exact (typed_setPassphraseField v _).quiet
    case passNext => exact typed_leavePassphrasePage.quiet
    all_goals exact Machine.Typed.quiet rfl
  | accept out h hkey => exact Or.inr ⟨h, out, rfl⟩

theorem kept_doCreate (v : CreateView) : v.toMachine.Kept (v.doCreate out).toMachine := by
  unfold doCreate
  dsimp only
  split
  · exact ⟨rfl, rfl, id, [], rfl, by simp⟩
  · exact ⟨rfl, rfl, id, [], rfl, by simp⟩

theorem Handles.kept (h : v.Handles w lib event v') : v.toMachine.Kept v'.toMachine := by
  rcases h.quiet_or_wrote with h | ⟨-, out, rfl⟩
  · exact h.toKept
  · exact kept_doCreate v

end CreateView

/-! ## The import screen -/

namespace ImportView

variable {w : Wally} {lib : Bip39} {out : Outside} {v v' : ImportView} {event : Event}

theorem typed_refreshEntry (lib : Bip39) (v : ImportView) :
    v.toMachine.Typed (v.refreshEntry lib).toMachine := by
  unfold refreshEntry
  dsimp only
  split_ifs <;> rfl

theorem typed_setField (lib : Bip39) (v : ImportView) (f : Field) :
    v.toMachine.Typed (v.setField lib f).toMachine :=
  typed_refreshEntry lib { v with field := _ }

theorem typed_setWordCount (lib : Bip39) (v : ImportView) (words : WordCount) :
    v.toMachine.Typed (v.setWordCount lib words).toMachine := by
  refine Machine.Typed.trans ?_ (typed_refreshEntry lib _)
  rfl

theorem typed_setWordCursor (lib : Bip39) (v : ImportView) (index : ℤ) :
    v.toMachine.Typed (v.setWordCursor lib index).toMachine := by
  unfold setWordCursor
  dsimp only
  split
  · rfl
  · exact typed_refreshEntry lib { v with cursor := _ }

theorem typed_setMnemonic (lib : Bip39) (v : ImportView) (s : Secret) :
    v.toMachine.Typed ((v.setMnemonic s).refreshEntry lib).toMachine :=
  Machine.Typed.trans (Machine.typed_secrets _ _) (typed_refreshEntry lib (v.setMnemonic s))

theorem typed_editField (lib : Bip39) (v : ImportView) (f : Secret → Secret) :
    v.toMachine.Typed (v.editField lib f).toMachine :=
  Machine.Typed.trans (Machine.typed_secrets _ _) (typed_refreshEntry lib { v with secrets := _ })

theorem typed_typeCharacter (c : UInt8) : v.toMachine.Typed (v.typeCharacter lib c).toMachine := by
  unfold typeCharacter
  dsimp only
  split_ifs
  · rfl
  · rfl
  · exact typed_editField lib v _
  · rfl
  · rfl
  · exact typed_setWordCursor lib v _
  · rfl
  · exact typed_setMnemonic lib v _
  · rfl

theorem typed_backspace : v.toMachine.Typed (v.backspace lib).toMachine := by
  unfold backspace
  split_ifs
  · rfl
  · exact typed_editField lib v _
  · exact typed_setWordCursor lib v _
  · rfl
  · exact typed_setMnemonic lib v _

theorem typed_deleteWord : v.toMachine.Typed (v.deleteWord lib).toMachine := by
  unfold deleteWord
  split_ifs
  · rfl
  · exact typed_editField lib v _
  · exact typed_setMnemonic lib v _

theorem typed_clearAll : v.toMachine.Typed (v.clearAll lib).toMachine := by
  unfold clearAll
  split_ifs
  · rfl
  · exact typed_editField lib v _
  · exact Machine.Typed.trans (Machine.typed_secrets _ _)
      (typed_refreshEntry lib { v.setMnemonic _ with cursor := 0 })

theorem typed_applySuggestion (i : Fin kSuggestionCount) :
    v.toMachine.Typed (v.applySuggestion lib i).toMachine := by
  unfold applySuggestion
  cases v.row.word i with
  | none => rfl
  | some word =>
    dsimp only
    split
    · exact Machine.Typed.trans (Machine.typed_secrets _ _)
        (typed_setWordCursor lib (v.setMnemonic _) _)
    · exact typed_setMnemonic lib v _

theorem typed_goTo (lib : Bip39) (v : ImportView) (page : ImportPage) :
    v.toMachine.Typed (v.goTo lib page).toMachine := by
  cases page
  case entry => exact typed_refreshEntry lib _
  all_goals rfl

theorem typed_moveKey {press : KeyPress} (h : v.moveKey lib press = some v') :
    v.toMachine.Typed v'.toMachine := by
  unfold moveKey at h
  split at h
  case h_7 =>
    split at h
    · cases h
      exact typed_applySuggestion _
    · split at h
      · cases h
        rfl
      · cases h
  all_goals
    cases h
    exact typed_setWordCursor lib v _

theorem typed_osk (key : OskKey) : v.toMachine.Typed (v.osk lib key).toMachine := by
  unfold osk
  split
  · cases key with
    | character c => exact typed_typeCharacter c
    | backspace => exact typed_backspace
    | deleteWord => exact typed_deleteWord
    | clear => exact typed_clearAll
    | hide => rfl
    | suggestion i =>
      dsimp only
      split
      · exact typed_applySuggestion i
      · rfl
  · rfl

theorem quiet_derive (w : Wally) (lib : Bip39) (v : ImportView) (reportOnEntryPage : Bool) :
    v.toMachine.Quiet (v.derive w lib reportOnEntryPage).2.toMachine := by
  unfold derive
  dsimp only
  by_cases hempty : v.secrets.mnemonic.firstEmptySlot < v.wordCount.toNat
  · rw [if_pos hempty]
    dsimp only
    split
    · exact (typed_setWordCursor lib v _).quiet
    · exact .refl _
  · rw [if_neg hempty]
    have h : v.toMachine.Quiet
        ((v.setMnemonic v.secrets.mnemonic.normaliseWhitespace).toMachine.buildExport w
          (UInt32.ofNat v.account)).2.2 :=
      (Machine.typed_secrets _ _).quiet.trans (Machine.quiet_buildExport w _ _)
    split
    · exact h
    · exact h

theorem quiet_deriveForReview (v : ImportView) :
    v.toMachine.Quiet (v.deriveForReview w lib).toMachine := by
  have hderive := quiet_derive w lib v true
  -- the review page is gone to or not, and only the slot is used in between
  have hreview : v.toMachine.Quiet (if (v.derive w lib true).1 = true then
      (v.derive w lib true).2.goTo lib .review else (v.derive w lib true).2).toMachine := by
    split
    · exact hderive.trans (typed_goTo lib _ .review).quiet
    · exact hderive
  unfold deriveForReview passphraseReady
  split_ifs
  · exact hreview
  · exact hreview
  · exact (typed_setField lib v .confirm).quiet

theorem quiet_setAccount (w : Wally) (lib : Bip39) (v : ImportView) (account : ℤ) :
    v.toMachine.Quiet (v.setAccount w lib account).toMachine := by
  unfold setAccount
  split
  · exact .refl _
  dsimp only
  split
  · have hderive := quiet_derive w lib { v with account := account.toNat } false
    split
    · exact hderive
    · exact hderive
  · exact .refl _

theorem quiet_onEnter (v : ImportView) : v.toMachine.Quiet (v.onEnter w lib).toMachine := by
  unfold onEnter
  refine Machine.Quiet.trans ?_ (typed_goTo lib _ .entry).quiet
  refine Machine.Quiet.trans ?_ (typed_setField lib _ .mnemonic).quiet
  refine Machine.Quiet.trans ?_ (quiet_setAccount w lib _ 0)
  refine Machine.Quiet.trans ?_ (typed_setWordCount lib _ _).quiet
  exact Machine.Typed.quiet rfl

theorem quiet_keyOnEntry {press : KeyPress} (h : v.keyOnEntry w lib press = some v') :
    v.toMachine.Quiet v'.toMachine := by
  unfold keyOnEntry at h
  split at h
  · cases h
    exact .refl _
  · cases h
    exact (typed_setField lib v _).quiet
  · cases h
    exact (typed_setWordCount lib v _).quiet
  split at h
  · rename_i hmove
    cases h
    split at hmove
    · exact (typed_moveKey hmove).quiet
    · cases hmove
  split at h
  · cases h
    exact typed_backspace.quiet
  · cases h
    unfold enterOnEntry
    split_ifs
    · exact (typed_setField lib v _).quiet
    · exact (typed_setWordCursor lib v _).quiet
    · exact (typed_setField lib v _).quiet
    · exact quiet_deriveForReview v
    · exact .refl _
  · obtain ⟨c, -, rfl⟩ := Option.map_eq_some_iff.mp h
    exact (typed_typeCharacter c).quiet

theorem quiet_keyOnReview {press : KeyPress} (h : v.keyOnReview w lib out press = some v') :
    v.toMachine.Quiet v'.toMachine := by
  unfold keyOnReview at h
  split at h
  · cases h
    exact quiet_setAccount w lib v _
  · cases h
    exact quiet_setAccount w lib v _
  · cases h
    exact quiet_setAccount w lib v _
  · cases h
    split
    · exact Machine.Typed.quiet rfl
    · exact .refl _
  · cases h

/-- An event on the import screen writes the file, on the page that names it, or is quiet. -/
theorem Handles.quiet_or_wrote (h : v.Handles w lib event v') :
    v.toMachine.Quiet v'.toMachine ∨ v.page = .name ∧ ∃ out, v' = v.doWrite out := by
  cases h with
  | @key press out _ h =>
    refine Or.inl ?_
    unfold keyPress at h
    split at h
    · exact quiet_keyOnEntry h
    · exact quiet_keyOnReview h
    · split at h
      · cases h
        exact .refl _
      · obtain ⟨page, -, rfl⟩ := Option.map_eq_some_iff.mp h
        exact .refl _
    · cases h
  | osk key => exact Or.inl (typed_osk key).quiet
  | @click button out h =>
    cases button
    case nameAccept => exact Or.inr ⟨page_of_clickable h, out, rfl⟩
    all_goals refine Or.inl ?_
    case words count => exact (typed_setWordCount lib v count).quiet
    case reveal => exact (typed_refreshEntry lib v).quiet
    case cell i =>
      refine Machine.Quiet.trans ?_ (typed_setWordCursor lib _ _).quiet
      split
      · exact .refl _
      · exact (typed_setField lib v _).quiet
    case wordsBox => exact (typed_setField lib v _).quiet
    case passphraseBox => exact (typed_setField lib v _).quiet
    case confirmBox => exact (typed_setField lib v _).quiet
    case suggestion i => exact (typed_applySuggestion i).quiet
    case clear => exact typed_clearAll.quiet
    case derive => exact quiet_deriveForReview v
    case account i => exact quiet_setAccount w lib v _
    case reviewBack => exact (typed_goTo lib v _).quiet
    case nameBack => exact (typed_goTo lib v _).quiet
    all_goals exact Machine.Typed.quiet rfl
  | accept out h hkey => exact Or.inr ⟨h, out, rfl⟩

theorem kept_doWrite (v : ImportView) : v.toMachine.Kept (v.doWrite out).toMachine := by
  unfold doWrite
  dsimp only
  split
  · exact ⟨rfl, rfl, id, [], rfl, by simp⟩
  · exact ⟨rfl, rfl, id, [], rfl, by simp⟩

theorem Handles.kept (h : v.Handles w lib event v') : v.toMachine.Kept v'.toMachine := by
  rcases h.quiet_or_wrote with h | ⟨-, out, rfl⟩
  · exact h.toKept
  · exact kept_doWrite v

end ImportView

/-! ## The window -/

namespace AppWindow

variable {w : Wally} {lib : Bip39} {a a' : AppWindow} {event : Event}

theorem files_leaveCurrent (a : AppWindow) : a.leaveCurrent.files = a.files := by
  unfold leaveCurrent
  split <;> rfl

/-- Leaving a screen writes nothing. -/
theorem files_left (h : ReflGen Left a a') : a'.files = a.files := by
  cases h with
  | refl => rfl
  | single h =>
    cases h
    all_goals exact files_leaveCurrent a

/-- While the create screen shows, the files are its handler's. -/
theorem files_of_create (hcurrent : a.current = .create)
    (hpoll : ∀ mounted files, event ≠ .poll mounted files) :
    (a.step w lib event).files = a.files ∨
      ∃ v, a.createView.Handles w lib event v ∧ (a.step w lib event).files = v.files := by
  have hstep := step_stepped w lib a event
  generalize a.step w lib event = a' at hstep ⊢
  cases hstep with
  | left hleft => exact Or.inl (files_left hleft)
  | create _ hv hleft => exact Or.inr ⟨_, hv, files_left hleft⟩
  | sign hsign => exact absurd (hcurrent.symm.trans hsign) (by simp)
  | importing himport => exact absurd (hcurrent.symm.trans himport) (by simp)
  | moved htyping => exact absurd (Or.inr (Or.inl hcurrent)) htyping
  | polled mounted files => exact absurd rfl (hpoll mounted files)

/-- While the import screen shows, the files are its handler's. -/
theorem files_of_importing (hcurrent : a.current = .importing)
    (hpoll : ∀ mounted files, event ≠ .poll mounted files) :
    (a.step w lib event).files = a.files ∨
      ∃ v, a.importView.Handles w lib event v ∧ (a.step w lib event).files = v.files := by
  have hstep := step_stepped w lib a event
  generalize a.step w lib event = a' at hstep ⊢
  cases hstep with
  | left hleft => exact Or.inl (files_left hleft)
  | importing _ hv hleft => exact Or.inr ⟨_, hv, files_left hleft⟩
  | sign hsign => exact absurd (hcurrent.symm.trans hsign) (by simp)
  | create hcreate => exact absurd (hcurrent.symm.trans hcreate) (by simp)
  | moved htyping => exact absurd (Or.inr (Or.inr hcurrent)) htyping
  | polled mounted files => exact absurd rfl (hpoll mounted files)

end AppWindow

end SignerOS
