import SignerOS.Ui.Frames
import SignerOS.Ui.GridTheorems
import SignerOS.UnknownSlots

/-!
# The import screen writes what it shows

* `ImportView.Edited`, an edit stays on its page and leaves words of letters;
* `ImportView.Derived`, what the review and the name page rest on: the grid is filled, the
  passphrase is ready, and the export is that of the buffers and the account, or has no account;
* `ImportView.Current`, the invariant;
* `AppWindow.import_writes_its_words`, the property over every run.
-/

namespace SignerOS

open Files (Disk)
open SecureString (space)

theorem SecretBuffers.mnemonic_set {b : SecretBuffers} {s : Secret} {f : Field}
    (h : f ≠ .mnemonic) : (b.set s f).mnemonic = b.mnemonic := by
  cases f with
  | mnemonic => exact absurd rfl h
  | passphrase => rfl
  | confirm => rfl

/-- The marks on the grid are those of the engine, where the list is what the engine can read. -/
theorem bip39UnknownSlots_eq {wordlist : List Bytes} {list : Option (ℕ → Option Bytes)}
    (hlist : ∀ word, word ∈ wordlist ↔ PsbtEngine.ListWord list word) (mnemonic : Secret)
    (inProgressSlot : Option ℕ) :
    bip39UnknownSlots wordlist mnemonic inProgressSlot =
      PsbtEngine.bip39UnknownSlots list mnemonic.str ((inProgressSlot.map Int.ofNat).getD (-1)) := by
  have hprogress (i : ℕ) : inProgressSlot = some i ↔
      (inProgressSlot.map Int.ofNat).getD (-1) = i := by
    cases inProgressSlot with
    | none => simp
    | some k => exact Option.some.injEq k i ▸ Int.ofNat_inj.symm
  refine Mask.ext_has fun i hi => ?_
  unfold bip39UnknownSlots
  dsimp only
  rw [Mask.has_foldl_unless (Nat.min_le_right _ _), or_iff_right Mask.not_has_zero,
    PsbtEngine.has_unknownSlots hi, hprogress]
  unfold PsbtEngine.UnknownSlot Secret.slotCount Secret.slotLength Secret.slotSpan Secret.text
  rw [SecureString.slotLength_eq, SecureString.slotCount_eq]
  cases htyped : mnemonic.str.words[i]? with
  | none =>
    have hlen := List.getElem?_eq_none_iff.mp htyped
    simp only [reduceCtorEq, false_and, exists_false, iff_false]
    omega
  | some typed =>
    have hlt := (List.getElem?_eq_some_iff.mp htyped).1
    rw [SecureString.slotSpan_of_word htyped, Option.map_some, Option.getD_some, Option.getD_some]
    dsimp only
    rw [Slots.take_drop_start htyped, List.contains_iff_mem, hlist, List.length_eq_zero_iff]
    constructor
    · rintro ⟨-, hskip⟩
      rw [not_or, not_or] at hskip
      exact ⟨typed, rfl, hskip.2.1, hskip.1, hskip.2.2⟩
    · rintro ⟨typed', heq, hnil, hne, hword⟩
      obtain rfl := Option.some.inj heq
      refine ⟨by omega, ?_⟩
      rintro (h | h | h)
      · exact hne h
      · exact hnil h
      · exact hword h

namespace ImportView

variable {w : Wally} {lib : Bip39} {out : Outside} {v v' : ImportView} {event : Event}

/-! ## Edits -/

/-- The page is the same, and words of letters are words of letters still. -/
structure Edited (v v' : ImportView) : Prop where
  page : v'.page = v.page
  lettered : v.secrets.mnemonic.Lettered → v'.secrets.mnemonic.Lettered

theorem Edited.refl (v : ImportView) : v.Edited v := ⟨rfl, id⟩

theorem Edited.trans {v'' : ImportView} (h : v.Edited v') (h' : v'.Edited v'') : v.Edited v'' :=
  ⟨h'.page.trans h.page, fun hletters => h'.lettered (h.lettered hletters)⟩

/-- The words are untouched. -/
theorem edited_of_eq (hpage : v'.page = v.page)
    (hwords : v'.secrets.mnemonic = v.secrets.mnemonic) : v.Edited v' :=
  ⟨hpage, fun h => hwords ▸ h⟩

theorem Edited.refreshEntry (h : v.Edited v') (lib : Bip39) :
    v.Edited (v'.refreshEntry lib) := by
  refine h.trans ?_
  unfold ImportView.refreshEntry
  dsimp only
  split
  · exact edited_of_eq rfl (SecretBuffers.mnemonic_dropConfirmation v'.secrets)
  · exact edited_of_eq rfl rfl

theorem edited_setField (lib : Bip39) (v : ImportView) (f : Field) :
    v.Edited (v.setField lib f) := by
  refine Edited.refreshEntry ?_ lib
  exact edited_of_eq rfl rfl

theorem edited_setMnemonic (lib : Bip39) (v : ImportView) {s : Secret}
    (h : v.secrets.mnemonic.Lettered → s.Lettered) :
    v.Edited ((v.setMnemonic s).refreshEntry lib) := by
  refine Edited.refreshEntry ?_ lib
  exact ⟨rfl, h⟩

theorem lettered_slotsFor {s : Secret} (h : s.Lettered) (words : WordCount) :
    (slotsFor s words).Lettered :=
  h.setSlotCount words.toNat_pos _

theorem edited_setWordCount (lib : Bip39) (v : ImportView) (words : WordCount) :
    v.Edited (v.setWordCount lib words) := by
  refine Edited.refreshEntry ?_ lib
  exact ⟨rfl, fun h => lettered_slotsFor h words⟩

theorem edited_setWordCursor (lib : Bip39) (v : ImportView) (index : ℤ) :
    v.Edited (v.setWordCursor lib index) := by
  unfold setWordCursor
  dsimp only
  split
  · exact .refl v
  · refine Edited.refreshEntry ?_ lib
    exact edited_of_eq rfl rfl

/-- An edit of a field that does not hold the words. -/
theorem edited_editField (lib : Bip39) (f : Secret → Secret) (h : v.field ≠ .mnemonic) :
    v.Edited (v.editField lib f) := by
  refine Edited.refreshEntry ?_ lib
  exact edited_of_eq rfl (SecretBuffers.mnemonic_set h)

theorem edited_typeCharacter (c : UInt8) : v.Edited (v.typeCharacter lib c) := by
  unfold typeCharacter
  dsimp only
  split_ifs with hname hfield hprintable hroom hchar hspace hlength happended
  · exact edited_of_eq rfl rfl
  · exact .refl v
  · exact edited_editField lib _ hfield
  · exact .refl v
  · exact .refl v
  · exact edited_setWordCursor lib v _
  · exact .refl v
  · have hlower : isLower c = true :=
      isLower_of_isBip39Char (Bool.eq_true_of_not_eq_false hchar) hspace
    exact edited_setMnemonic lib v (Secret.respelled_appendToSlot _ _ hlower).lettered
  · exact .refl v

theorem edited_backspace : v.Edited (v.backspace lib) := by
  unfold backspace
  split_ifs with hname hfield hempty hcursor
  · exact edited_of_eq rfl rfl
  · exact edited_editField lib _ hfield
  · exact edited_setWordCursor lib v _
  · exact .refl v
  · exact edited_setMnemonic lib v (Secret.respelled_backspaceInSlot _ _).lettered

theorem edited_deleteWord : v.Edited (v.deleteWord lib) := by
  unfold deleteWord
  split_ifs with hname hfield
  · exact edited_of_eq rfl rfl
  · exact edited_editField lib _ hfield
  · exact edited_setMnemonic lib v (Secret.respelled_clearSlot _ _).lettered

theorem edited_clearAll : v.Edited (v.clearAll lib) := by
  unfold clearAll
  split_ifs with hname hfield
  · exact edited_of_eq rfl rfl
  · exact edited_editField lib _ hfield
  · have hwiped : (slotsFor v.secrets.mnemonic.clear v.wordCount).Lettered :=
      lettered_slotsFor (Secret.lettered_clear _) v.wordCount
    refine Edited.refreshEntry ?_ lib
    exact ⟨rfl, fun _ => hwiped⟩

theorem edited_applySuggestion (i : Fin kSuggestionCount) :
    v.Edited (v.applySuggestion lib i) := by
  unfold applySuggestion
  cases v.row.word i with
  | none => exact .refl v
  | some word =>
    have hletters := (Secret.respelled_setSlot v.secrets.mnemonic v.cursor word).lettered
    dsimp only
    split
    · have hset : v.Edited (v.setMnemonic (v.secrets.mnemonic.setSlot v.cursor word)) :=
        ⟨rfl, hletters⟩
      exact hset.trans (edited_setWordCursor lib _ _)
    · exact edited_setMnemonic lib v hletters

theorem edited_moveKey {press : KeyPress} (h : v.moveKey lib press = some v') : v.Edited v' := by
  unfold moveKey at h
  split at h
  case h_7 =>
    split at h
    · cases h
      exact edited_applySuggestion _
    · split at h
      · cases h
        exact .refl v
      · cases h
  all_goals
    cases h
    exact edited_setWordCursor lib v _

/-- The floating keyboard edits the words and the passphrase where no name is edited. -/
theorem edited_osk (key : OskKey) : v.Edited (v.osk lib key) := by
  unfold osk
  split
  · cases key with
    | character c => exact edited_typeCharacter c
    | backspace => exact edited_backspace
    | deleteWord => exact edited_deleteWord
    | clear => exact edited_clearAll
    | hide => exact edited_of_eq rfl rfl
    | suggestion i =>
      dsimp only
      split
      · exact edited_applySuggestion i
      · exact .refl v
  · exact .refl v

/-! ## Deriving -/

/-- What the review and the name page rest on. -/
structure Derived (w : Wally) (v : ImportView) : Prop where
  filled : v.wordCount.toNat ≤ v.secrets.mnemonic.firstEmptySlot
  ready : v.secrets.PassphraseReady
  exported : v.exported.accounts ≠ [] →
    v.toMachine.ExportOf w (UInt32.ofNat v.account) v.exported

/-- Deriving from a grid that is not filled does nothing. -/
theorem derive_of_unfilled (reportOnEntryPage : Bool)
    (h : v.secrets.mnemonic.firstEmptySlot < v.wordCount.toNat) :
    v.derive w lib reportOnEntryPage = (false, if reportOnEntryPage then
      v.setWordCursor lib v.secrets.mnemonic.firstEmptySlot else v) := by
  unfold derive
  exact if_pos h

/-- Deriving from a grid that is filled leaves the export of its words, or none. -/
theorem derived_derive (w : Wally) (lib : Bip39) (v : ImportView) (reportOnEntryPage : Bool)
    (hletters : v.secrets.mnemonic.Lettered)
    (hready : v.secrets.PassphraseReady)
    (h : v.wordCount.toNat ≤ v.secrets.mnemonic.firstEmptySlot) :
    ((v.derive w lib reportOnEntryPage).2.Derived w ∧
      (v.derive w lib reportOnEntryPage).2.secrets.mnemonic.Lettered) ∧
      (v.derive w lib reportOnEntryPage).2.page = v.page ∧
      (v.derive w lib reportOnEntryPage).2.panel = v.panel := by
  -- collapsing drops no word, since the first `wordCount_` slots are filled
  have hpos : 0 < v.secrets.mnemonic.firstEmptySlot := Nat.lt_of_lt_of_le v.wordCount.toNat_pos h
  obtain ⟨hletters', hfirst⟩ := hletters.normaliseWhitespace hpos
  unfold derive
  dsimp only
  rw [if_neg (Nat.not_lt.mpr h)]
  split
  · rename_i err herr
    -- the export that fails has no account, and there is nothing to write
    have hnone := Machine.accounts_buildExport herr
    exact ⟨⟨⟨Nat.le_trans h hfirst, hready, fun haccounts => absurd hnone haccounts⟩, hletters'⟩,
      rfl, rfl⟩
  · rename_i hok
    exact ⟨⟨⟨Nat.le_trans h hfirst, hready, fun _ => Machine.exportOf_buildExport hok⟩, hletters'⟩,
      rfl, rfl⟩

theorem edited_derive (w : Wally) (lib : Bip39) (v : ImportView) (reportOnEntryPage : Bool) :
    v.Edited (v.derive w lib reportOnEntryPage).2 := by
  by_cases h : v.secrets.mnemonic.firstEmptySlot < v.wordCount.toNat
  · rw [derive_of_unfilled reportOnEntryPage h]
    dsimp only
    split
    · exact edited_setWordCursor lib v _
    · exact .refl v
  · have hpos : 0 < v.secrets.mnemonic.firstEmptySlot :=
      Nat.lt_of_lt_of_le v.wordCount.toNat_pos (Nat.not_lt.mp h)
    unfold derive
    dsimp only
    rw [if_neg h]
    split
    · exact ⟨rfl, fun hletters => (hletters.normaliseWhitespace hpos).1⟩
    · exact ⟨rfl, fun hletters => (hletters.normaliseWhitespace hpos).1⟩

/-! ## The invariant -/

/-- The invariant of the screen. The floating keyboard types into the buffers from every page but
the one that names the file, so it has to be down on the review page. -/
structure Current (w : Wally) (v : ImportView) : Prop where
  lettered : v.secrets.mnemonic.Lettered
  derived : v.page = .review ∨ v.page = .name → v.Derived w
  hidden : v.page = .review → v.panel.visible = false
  unsuggested : v.page = .name → v.panel.suggestions = 0

/-- Where nothing is about to be written, letters are all the invariant asks for. -/
theorem current_of_letters (hletters : v.secrets.mnemonic.Lettered)
    (hpage : v.page = .entry ∨ v.page = .result) : v.Current w := by
  have hnot : v.page ≠ .review ∧ v.page ≠ .name := by
    rcases hpage with hpage | hpage
    all_goals simp [hpage]
  exact ⟨hletters, fun h => (h.elim hnot.1 hnot.2).elim, fun h => absurd h hnot.1,
    fun h => absurd h hnot.2⟩

theorem current_of_review (hletters : v.secrets.mnemonic.Lettered) (hderived : v.Derived w)
    (hpage : v.page = .review) (hhidden : v.panel.visible = false) : v.Current w :=
  ⟨hletters, fun _ => hderived, fun _ => hhidden, fun h => absurd (hpage.symm.trans h) (by simp)⟩

theorem current_of_name (hletters : v.secrets.mnemonic.Lettered) (hderived : v.Derived w)
    (hpage : v.page = .name) (hsuggestions : v.panel.suggestions = 0) : v.Current w :=
  ⟨hletters, fun _ => hderived, fun h => absurd (hpage.symm.trans h) (by simp),
    fun _ => hsuggestions⟩

theorem Edited.current (h : v.Edited v') (hv : v.Current w)
    (hpage : v.page = .entry ∨ v.page = .result) : v'.Current w := by
  refine current_of_letters (h.lettered hv.lettered) ?_
  rw [h.page]
  exact hpage

/-! ## Moves between the pages -/

theorem current_goTo_entry (hletters : v.secrets.mnemonic.Lettered) :
    (v.goTo lib .entry).Current w := by
  have hedit : Edited { v with page := .entry } (v.goTo lib .entry) := by
    refine Edited.refreshEntry ?_ lib
    exact edited_of_eq rfl rfl
  exact current_of_letters (hedit.lettered hletters) (Or.inl hedit.page)

/-- Going to the review page takes the keyboard down. -/
theorem current_goTo_review (lib : Bip39) (hletters : v.secrets.mnemonic.Lettered)
    (h : v.Derived w) : (v.goTo lib .review).Current w :=
  current_of_review hletters ⟨h.filled, h.ready, h.exported⟩ rfl rfl

theorem current_deriveForReview (h : v.Current w) (hpage : v.page = .entry) :
    (v.deriveForReview w lib).Current w := by
  -- if it does not derive, the entry page stays
  have hstays : (v.derive w lib true).2.Current w :=
    (edited_derive w lib v true).current h (Or.inl hpage)
  have hreview (hready : v.secrets.PassphraseReady) :
      (if (v.derive w lib true).1 = true then (v.derive w lib true).2.goTo lib .review
        else (v.derive w lib true).2).Current w := by
    by_cases hunfilled : v.secrets.mnemonic.firstEmptySlot < v.wordCount.toNat
    · have hfalse : (v.derive w lib true).1 = false := by rw [derive_of_unfilled true hunfilled]
      rw [hfalse, if_neg Bool.false_ne_true]
      exact hstays
    · obtain ⟨⟨hderived, hletters⟩, -⟩ :=
        derived_derive w lib v true h.lettered hready (Nat.not_lt.mp hunfilled)
      split
      · exact current_goTo_review lib hletters hderived
      · exact hstays
  unfold deriveForReview passphraseReady
  split_ifs with hempty hconfirmed
  · exact hreview (Or.inl (Secret.empty_iff.mp hempty))
  · exact hreview (Or.inr (Secret.equals_iff.mp hconfirmed))
  · exact (edited_setField lib v .confirm).current h (Or.inl hpage)

theorem edited_setAccount (w : Wally) (lib : Bip39) (v : ImportView) (account : ℤ) :
    v.Edited (v.setAccount w lib account) := by
  unfold setAccount
  split
  · exact .refl v
  have hchosen : v.Edited { v with account := account.toNat } := edited_of_eq rfl rfl
  dsimp only
  split
  · have hderive := hchosen.trans (edited_derive w lib { v with account := account.toNat } false)
    split
    · exact hderive.trans (edited_of_eq rfl rfl)
    · exact hderive
  · exact hchosen

/-- The account that is chosen on the review page is derived again, and if it does not derive
there is no export. -/
theorem current_setAccount (h : v.Current w) (hpage : v.page = .review) (account : ℤ) :
    (v.setAccount w lib account).Current w := by
  unfold setAccount
  split
  · exact h
  -- the words and the passphrase are those the review page was built from
  have hold : v.Derived w := h.derived (Or.inl hpage)
  obtain ⟨⟨hderived, hletters⟩, hpage', hpanel⟩ :=
    derived_derive w lib { v with account := account.toNat } false h.lettered hold.ready
      hold.filled
  have hhidden : (ImportView.derive w lib { v with account := account.toNat } false).2.panel.visible
      = false := by
    rw [hpanel]
    exact h.hidden hpage
  dsimp only
  rw [if_pos hpage]
  split
  · exact current_of_review hletters ⟨hderived.filled, hderived.ready, hderived.exported⟩
      (hpage'.trans hpage) hhidden
  · exact current_of_review hletters hderived (hpage'.trans hpage) hhidden

theorem current_showNamePage (h : v.Current w) (hpage : v.page = .review) :
    (v.showNamePage out).Current w := by
  have hderived := h.derived (Or.inl hpage)
  exact current_of_name h.lettered ⟨hderived.filled, hderived.ready, hderived.exported⟩ rfl rfl

/-- On the page that names the file nothing but the name and the keyboard changes. -/
theorem current_namePage (h : v.Current w) (hpage : v.page = .name) (namePage : SaveAsPage)
    (visible : Bool) :
    Current w { v with namePage := namePage, panel := { v.panel with visible := visible } } := by
  have hderived := h.derived (Or.inr hpage)
  exact current_of_name h.lettered ⟨hderived.filled, hderived.ready, hderived.exported⟩ hpage
    (h.unsuggested hpage)

theorem current_doWrite (h : v.Current w) (hpage : v.page = .name) :
    (v.doWrite out).Current w := by
  have hderived := h.derived (Or.inr hpage)
  unfold doWrite
  dsimp only
  split
  · exact current_of_name h.lettered ⟨hderived.filled, hderived.ready, hderived.exported⟩ hpage
      (h.unsuggested hpage)
  · -- the words went as soon as the file was there
    exact current_of_letters (Secret.lettered_clear v.secrets.mnemonic) (Or.inr rfl)

theorem current_onEnter (v : ImportView) : (v.onEnter w lib).Current w := by
  refine current_goTo_entry ?_
  refine (edited_setField lib _ .mnemonic).lettered ?_
  refine (edited_setAccount w lib _ 0).lettered ?_
  refine (edited_setWordCount lib _ _).lettered ?_
  exact Secret.lettered_clear v.secrets.mnemonic

/-! ## Events -/

theorem current_keyOnEntry {press : KeyPress} (h : v.Current w) (hpage : v.page = .entry)
    (hkey : v.keyOnEntry w lib press = some v') : v'.Current w := by
  have hedit {u : ImportView} (hu : v.Edited u) : u.Current w := hu.current h (Or.inl hpage)
  unfold keyOnEntry at hkey
  split at hkey
  · cases hkey
    exact hedit (edited_of_eq rfl rfl)
  · cases hkey
    exact hedit (edited_setField lib v _)
  · cases hkey
    exact hedit (edited_setWordCount lib v _)
  split at hkey
  · rename_i hmove
    cases hkey
    split at hmove
    · exact hedit (edited_moveKey hmove)
    · cases hmove
  split at hkey
  · cases hkey
    exact hedit edited_backspace
  · cases hkey
    unfold enterOnEntry
    split_ifs
    · exact hedit (edited_setField lib v _)
    · exact hedit (edited_setWordCursor lib v _)
    · exact hedit (edited_setField lib v _)
    · exact current_deriveForReview h hpage
    · exact h
  · obtain ⟨c, -, rfl⟩ := Option.map_eq_some_iff.mp hkey
    exact hedit (edited_typeCharacter c)

theorem current_keyOnReview {press : KeyPress} (h : v.Current w) (hpage : v.page = .review)
    (hkey : v.keyOnReview w lib out press = some v') : v'.Current w := by
  unfold keyOnReview at hkey
  split at hkey
  · cases hkey
    exact current_setAccount h hpage _
  · cases hkey
    exact current_setAccount h hpage _
  · cases hkey
    exact current_setAccount h hpage _
  · cases hkey
    split
    · exact current_showNamePage h hpage
    · exact h
  · cases hkey

theorem current_osk (h : v.Current w) (key : OskKey) : (v.osk lib key).Current w := by
  cases hpage : v.page with
  | entry => exact (edited_osk key).current h (Or.inl hpage)
  | result => exact (edited_osk key).current h (Or.inr hpage)
  | review =>
    unfold osk
    -- the keyboard is down
    rw [h.hidden hpage, if_neg Bool.false_ne_true]
    exact h
  | name =>
    have hname (namePage : SaveAsPage) : Current w { v with namePage := namePage } :=
      current_namePage h hpage namePage v.panel.visible
    unfold osk
    split
    · cases key with
      | character c =>
        dsimp only
        rw [typeCharacter, if_pos hpage]
        exact hname _
      | backspace =>
        dsimp only
        rw [backspace, if_pos hpage]
        exact hname _
      | deleteWord =>
        dsimp only
        rw [deleteWord, if_pos hpage]
        exact hname _
      | clear =>
        dsimp only
        rw [clearAll, if_pos hpage]
        exact hname _
      | hide => exact current_namePage h hpage v.namePage false
      | suggestion i =>
        dsimp only
        rw [h.unsuggested hpage, if_neg (Nat.not_lt_zero _)]
        exact h
    · exact h

theorem current_click {button : ImportButton} (h : v.Current w) (hpage : v.page = button.page) :
    (v.click w lib out button).Current w := by
  cases button
  -- the review page
  case account i => exact current_setAccount h hpage _
  case reviewBack => exact current_goTo_entry h.lettered
  case write => exact current_showNamePage h hpage
  -- the page that names the file
  case nameBack => exact current_goTo_review lib h.lettered (h.derived (Or.inr hpage))
  case nameOskToggle => exact current_namePage h hpage v.namePage _
  case nameClear => exact current_namePage h hpage _ v.panel.visible
  case nameAccept => exact current_doWrite h hpage
  -- the entry page
  case words count => exact (edited_setWordCount lib v count).current h (Or.inl hpage)
  case cell i =>
    refine Edited.current (v := v) ?_ h (Or.inl hpage)
    refine Edited.trans ?_ (edited_setWordCursor lib _ _)
    split
    · exact .refl v
    · exact edited_setField lib v _
  case wordsBox => exact (edited_setField lib v _).current h (Or.inl hpage)
  case passphraseBox => exact (edited_setField lib v _).current h (Or.inl hpage)
  case confirmBox => exact (edited_setField lib v _).current h (Or.inl hpage)
  case suggestion i => exact (edited_applySuggestion i).current h (Or.inl hpage)
  case clear => exact edited_clearAll.current h (Or.inl hpage)
  case oskToggle =>
    have htoggle : v.Edited (v.setOskVisible (!v.panel.visible)) := edited_of_eq rfl rfl
    exact htoggle.current h (Or.inl hpage)
  case derive => exact current_deriveForReview h hpage
  case reveal => exact ((Edited.refl v).refreshEntry lib).current h (Or.inl hpage)
  all_goals exact h

/-- Every event on the screen keeps the invariant. -/
theorem Handles.current (hv : v.Handles w lib event v') (h : v.Current w) : v'.Current w := by
  cases hv with
  | @key press out _ hkey =>
    unfold keyPress at hkey
    split at hkey
    · rename_i hpage
      exact current_keyOnEntry h hpage hkey
    · rename_i hpage
      exact current_keyOnReview h hpage hkey
    · rename_i hpage
      split at hkey
      · cases hkey
        exact current_namePage h hpage v.namePage _
      · obtain ⟨namePage, -, rfl⟩ := Option.map_eq_some_iff.mp hkey
        exact current_namePage h hpage namePage v.panel.visible
    · cases hkey
  | osk key => exact current_osk h key
  | @click button out hclick =>
    exact current_click h (page_of_clickable hclick)
  | accept out hname hkey => exact current_doWrite h hname

/-! ## Writing -/

/-- What is written is the export of the buffers, and nothing if there is none. -/
theorem files_doWrite (h : v.Derived w) (out : Outside) :
    (v.doWrite out).files = v.files ∨
      ∃ we, v.toMachine.ExportOf w (UInt32.ofNat v.account) we ∧
        (v.doWrite out).files = (writeWalletExport out.clock out.laterClock out.file v.files we
          v.config.dataDir v.namePage.fileName).files := by
  have hfiles : (v.doWrite out).files
      = (v.toMachine.writeExport out.clock out.laterClock out.file v.exported
          v.namePage.fileName).2.files := by
    unfold doWrite
    dsimp only
    split
    · rfl
    · rfl
  by_cases hnone : v.exported.accounts = []
  · exact Or.inl (hfiles.trans (Machine.files_writeExport_of_nil hnone))
  · exact Or.inr ⟨v.exported, h.exported hnone, hfiles⟩

end ImportView

/-! ## Runs -/

namespace AppWindow

variable {w : Wally} {lib : Bip39} {a : AppWindow}

/-- While the import screen shows, an event that is no poll leaves the files as they are, or it
comes on the page that names the file, the passphrase is empty or confirmed, and what is written
is the export of the words, the passphrase and the network and of the account that is selected. -/
def ImportWritesItsWords (w : Wally) (lib : Bip39) (a : AppWindow) : Prop :=
  ∀ event, a.current = .importing → (∀ mounted files, event ≠ .poll mounted files) →
    (a.step w lib event).files = a.files ∨
      a.importing.page = .name ∧
        a.WroteExport w (a.step w lib event) (UInt32.ofNat a.importing.account)
          a.importing.namePage.fileName

theorem importWritesItsWords_of_current (h : a.current = .importing → a.importView.Current w) :
    a.ImportWritesItsWords w lib := by
  intro event hcurrent hpoll
  rcases files_of_importing hcurrent hpoll with hsame | ⟨v, hv, hfiles⟩
  · exact Or.inl hsame
  rcases hv.quiet_or_wrote with hquiet | ⟨hpage, out, rfl⟩
  · exact Or.inl (hfiles.trans hquiet.files)
  have hderived := (h hcurrent).derived (Or.inr hpage)
  rcases ImportView.files_doWrite hderived out with hsame | ⟨we, hexport, hwritten⟩
  · exact Or.inl (hfiles.trans hsame)
  · exact Or.inr ⟨hpage, hderived.ready, we, out, hexport, hfiles.trans hwritten⟩

/-- In every state of every run, whatever the import screen writes is what it shows. -/
theorem import_writes_its_words (w : Wally) (lib : Bip39) (config : AppConfig)
    (files : Disk Char) (events : List Event) :
    (Runs.run (step w lib) (start config files) events).ImportWritesItsWords w lib := by
  have hstart : (start config files).current = .importing →
      (start config files).importView.Current w := by
    intro hcurrent
    cases hcurrent
  refine importWritesItsWords_of_current ?_
  refine Runs.run_invariant
    (I := fun a : AppWindow => a.current = .importing → a.importView.Current w)
    (fun a event ha => ?_) events hstart
  refine importView_invariant ImportView.current_onEnter ?_ (fun _ _ hv h => hv.current h) ha
  intro v mounted files enabled h
  exact ⟨h.lettered, fun hpage => ⟨(h.derived hpage).filled, (h.derived hpage).ready,
    (h.derived hpage).exported⟩, h.hidden, h.unsuggested⟩

end AppWindow

end SignerOS
