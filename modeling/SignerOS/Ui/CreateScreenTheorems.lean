import SignerOS.Ui.Frames
import SignerOS.Ui.GridTheorems

/-!
# No wallet without a checked backup

* `compareCell_of_words`, what the comparison makes of one cell;
* `text_eq_of_complete`, a grid that is complete holds the text it is compared with;
* `CreateView.Checked`, the verification grid: where it counts as verified, its text is the
  mnemonic;
* `CreateView.PageHolds`, what holds on each page, and `CreateView.Faithful`, the invariant;
* `AppWindow.create_writes_checked_words`, the property over every run.
-/

namespace SignerOS

open Files (Disk)
open SecureString (space)

/-! ## A complete grid -/

section
variable {typed reference : Secret} {cursor i : ℕ} {word right : Bytes}

theorem compareCell_of_none (m : GridMatch)
    (h : typed.words[i]? = none ∨ reference.words[i]? = none) :
    compareCell typed reference cursor m i = m := by
  have hspan : typed.slotSpan i = _ := typed.clean.refinesWords.slotSpan i
  have hspan' : reference.slotSpan i = _ := reference.clean.refinesWords.slotSpan i
  unfold compareCell
  rw [hspan, hspan']
  rcases h with h | h
  · have hnone : typed.str.words[i]? = none := h
    rw [hnone]
    rfl
  · have hnone : reference.str.words[i]? = none := h
    rw [hnone]
    cases typed.str.words[i]? <;> rfl

/-- A cell that is empty is passed over, the right word is counted, and the beginning of it is let
pass where the cursor stands. -/
theorem compareCell_of_words (m : GridMatch) (hword : typed.words[i]? = some word)
    (hright : reference.words[i]? = some right) :
    compareCell typed reference cursor m i =
      if word = [] then m
      else if word = right then { m with filled := m.filled + 1, correct := m.correct + 1 }
      else if cursor = i ∧ word <+: right then { m with filled := m.filled + 1 }
      else { m with
        filled := m.filled + 1
        wrong := m.wrong ||| 1 <<< UInt32.ofNat i } := by
  have hspan : typed.slotSpan i = _ := typed.clean.refinesWords.slotSpan i
  have hspan' : reference.slotSpan i = _ := reference.clean.refinesWords.slotSpan i
  have hsome : typed.str.words[i]? = some word := hword
  have hsome' : reference.str.words[i]? = some right := hright
  -- the letters between start and end are the words
  have hcut : (typed.text.drop _).take word.length = word :=
    typed.clean.refinesWords.span i word hword
  have hcut' : (reference.text.drop _).take right.length = right :=
    reference.clean.refinesWords.span i right hright
  unfold compareCell
  rw [hspan, hspan', hsome, hsome']
  dsimp only [Option.map_some]
  rw [hcut]
  by_cases hnil : word = []
  · rw [if_pos hnil, if_pos (by rw [hnil]; rfl)]
  rw [if_neg hnil, if_neg (by simpa using hnil)]
  by_cases hlen : word.length ≤ right.length
  · -- as far as the word goes, the other grid has the beginning of the right one
    have hbegin : (reference.text.drop (Slots.start space reference.str.text i)).take word.length
        = right.take word.length := by
      rw [← hcut', List.take_take, Nat.min_eq_left hlen]
    have hsame : word.length = right.length ∧ word = right.take word.length ↔ word = right := by
      constructor
      · rintro ⟨heq, htake⟩
        rw [htake, heq, List.take_length]
      · rintro rfl
        exact ⟨rfl, List.take_length.symm⟩
    rw [hbegin]
    by_cases heq : word = right
    · rw [if_pos heq, if_pos (hsame.mpr heq)]
    · rw [if_neg heq, if_neg (mt hsame.mp heq)]
      have hbegins : cursor = i ∧ word.length < right.length ∧ word = right.take word.length ↔
          cursor = i ∧ word <+: right := by
        rw [List.prefix_iff_eq_take]
        refine and_congr_right fun _ => and_iff_right_of_imp fun htake => ?_
        refine Nat.lt_of_le_of_ne hlen fun hsize => heq (hsame.mp ⟨hsize, htake⟩)
      by_cases hin : cursor = i ∧ word <+: right
      · rw [if_pos hin, if_pos (hbegins.mpr hin)]
      · rw [if_neg hin, if_neg (mt hbegins.mp hin)]
  · -- a longer word is not the right one, nor its beginning
    have hne : word ≠ right := fun h => hlen (h ▸ Nat.le_refl _)
    have hnot : ¬ word <+: right := fun h => hlen h.length_le
    rw [if_neg hne, if_neg fun h => hlen h.1.le, if_neg fun h => hlen h.2.1.le,
      if_neg fun h => hnot h.2]

/-- Cell `i` is filled and the same in both grids. -/
def rightCell (typed reference : Secret) (i : ℕ) : Bool :=
  (typed.words[i]?).any fun word => !word.isEmpty && reference.words[i]? == some word

theorem rightCell_iff {i : ℕ} : rightCell typed reference i = true ↔
    ∃ word, word ≠ [] ∧ typed.words[i]? = some word ∧ reference.words[i]? = some word := by
  unfold rightCell
  cases typed.words[i]? with
  | none => simp
  | some word => simp

theorem not_rightCell_of_none {i : ℕ}
    (h : typed.words[i]? = none ∨ reference.words[i]? = none) :
    ¬ rightCell typed reference i = true := by
  rw [rightCell_iff]
  rintro ⟨word, -, hword, hword'⟩
  rcases h with h | h
  · cases h.symm.trans hword
  · cases h.symm.trans hword'

theorem rightCell_of_words {i : ℕ} {word word' : Bytes} (hword : typed.words[i]? = some word)
    (hword' : reference.words[i]? = some word') :
    rightCell typed reference i = true ↔ word ≠ [] ∧ word = word' := by
  rw [rightCell_iff]
  constructor
  · rintro ⟨both, hne, hsome, hsome'⟩
    obtain rfl := Option.some.inj (hword.symm.trans hsome)
    obtain rfl := Option.some.inj (hword'.symm.trans hsome')
    exact ⟨hne, rfl⟩
  · rintro ⟨hne, rfl⟩
    exact ⟨word, hne, hword, hword'⟩

/-- A cell counts as correct if it is right. -/
theorem correct_compareCell (cursor : ℕ) (m : GridMatch) (i : ℕ) :
    (compareCell typed reference cursor m i).correct
      = m.correct + if rightCell typed reference i then 1 else 0 := by
  cases hword : typed.words[i]? with
  | none =>
    rw [compareCell_of_none m (Or.inl hword), if_neg (not_rightCell_of_none (Or.inl hword))]
    rfl
  | some word =>
    cases hright : reference.words[i]? with
    | none =>
      rw [compareCell_of_none m (Or.inr hright), if_neg (not_rightCell_of_none (Or.inr hright))]
      rfl
    | some right =>
      have hiff := rightCell_of_words hword hright
      rw [compareCell_of_words m hword hright]
      by_cases hnil : word = []
      · rw [if_pos hnil, if_neg fun h => (hiff.mp h).1 hnil]
        rfl
      by_cases heq : word = right
      · rw [if_neg hnil, if_pos heq, if_pos (hiff.mpr ⟨hnil, heq⟩)]
      · rw [if_neg hnil, if_neg heq, if_neg fun h => heq (hiff.mp h).2]
        -- the beginning of the right word is not counted, and neither is a wrong one
        split
        · rfl
        · rfl

theorem correct_foldl_compareCell (cursor : ℕ) (cells : List ℕ) (m : GridMatch) :
    (cells.foldl (compareCell typed reference cursor) m).correct
      = m.correct + cells.countP (rightCell typed reference) := by
  induction cells generalizing m with
  | nil => rfl
  | cons i cells ih =>
    rw [List.foldl_cons, ih, correct_compareCell, List.countP_cons]
    omega

/-- Every cell of a grid that is complete is right. -/
theorem rightCell_of_complete {cursor : ℕ}
    (h : (compareGrid typed reference cursor).complete = true) :
    ∀ i < reference.words.length, rightCell typed reference i = true := by
  have hcount : reference.slotCount = reference.words.length :=
    reference.clean.refinesWords.slotCount
  unfold compareGrid at h
  obtain ⟨-, hcorrect⟩ := Bool.and_eq_true_iff.mp h
  have hall := beq_iff_eq.mp hcorrect
  rw [correct_foldl_compareCell, hcount] at hall
  -- as many cells are right as there are words, and no more than 32 are looked at
  have hle := List.countP_le_length (p := rightCell typed reference)
    (l := List.range (min reference.words.length 32))
  rw [List.length_range] at hle
  have hmin : min reference.words.length 32 = reference.words.length := by
    have hzero : ({} : GridMatch).correct = 0 := rfl
    omega
  rw [hmin] at hall
  intro i hi
  refine List.countP_eq_length.mp ?_ i (List.mem_range.mpr hi)
  rw [List.length_range]
  exact (Nat.zero_add _).symm.trans hall

/-- A grid that is complete, and has no more cells than the words it is compared with, holds the
same text. -/
theorem text_eq_of_complete {cursor : ℕ}
    (h : (compareGrid typed reference cursor).complete = true)
    (hlen : typed.words.length ≤ reference.words.length) : typed.text = reference.text := by
  have hright := rightCell_of_complete h
  have hwords : typed.words = reference.words := by
    refine List.ext_getElem? fun i => ?_
    by_cases hi : i < reference.words.length
    · obtain ⟨word, -, hword, hword'⟩ := rightCell_iff.mp (hright i hi)
      exact hword.trans hword'.symm
    · rw [List.getElem?_eq_none (Nat.not_lt.mp hi),
        List.getElem?_eq_none (Nat.le_trans hlen (Nat.not_lt.mp hi))]
  exact Slots.splitOn_inj hwords

/-- A grid that is complete is compared with at least one word. -/
theorem wordCount_pos_of_complete {cursor : ℕ} (hletters : reference.Lettered)
    (h : (compareGrid typed reference cursor).complete = true) : 0 < reference.wordCount := by
  have hpos : 0 < reference.words.length := by
    have hcount : reference.slotCount = reference.words.length :=
      reference.clean.refinesWords.slotCount
    rw [← hcount]
    exact of_decide_eq_true (Bool.and_eq_true_iff.mp h).1
  obtain ⟨word, hne, -, hword⟩ := rightCell_iff.mp (rightCell_of_complete h 0 hpos)
  -- the first word has letters
  have hmem : word ∈ filled reference.words :=
    List.mem_filter.mpr ⟨List.mem_of_getElem? hword, by simpa using hne⟩
  rw [Secret.wordCount_eq hletters]
  exact List.length_pos_of_mem hmem

end

/-- The mnemonic that was generated last. -/
def lastGenerated (log : List Call) : Option Bytes :=
  log.findSome? fun
    | .generated text => some text
    | _ => none

namespace CreateView

variable {w : Wally} {lib : Bip39} {out : Outside} {v v' : CreateView} {event : Event}

/-! ## The verification grid -/

/-- The grid has a slot for each word of the mnemonic, and where it counts as verified it holds
the mnemonic. -/
structure Checked (v : CreateView) : Prop where
  slots : 0 < v.secrets.mnemonic.wordCount →
    v.secrets.verification.words.length ≤ v.secrets.mnemonic.wordCount
  matched : v.verified = true ∨ v.verifyNextEnabled = true →
    v.secrets.verification.text = v.secrets.mnemonic.text

/-- Refreshing compares the grid with the mnemonic. -/
theorem checked_refreshVerify (hletters : v.secrets.mnemonic.Lettered)
    (hslots : 0 < v.secrets.mnemonic.wordCount →
      v.secrets.verification.words.length ≤ v.secrets.mnemonic.wordCount) :
    (v.refreshVerify lib).Checked := by
  refine ⟨hslots, fun h => ?_⟩
  obtain ⟨cursor, hcomplete⟩ : ∃ cursor,
      (compareGrid v.secrets.verification v.secrets.mnemonic cursor).complete = true :=
    ⟨_, h.elim id id⟩
  refine text_eq_of_complete hcomplete ?_
  exact Nat.le_trans (hslots (wordCount_pos_of_complete hletters hcomplete))
    (Secret.wordCount_le_length hletters)

/-- The page and the mnemonic are the same, and a grid that is checked is checked still. -/
structure Regridded (v v' : CreateView) : Prop where
  page : v'.page = v.page
  mnemonic : v'.secrets.mnemonic = v.secrets.mnemonic
  log : v'.log = v.log
  checked : v.secrets.mnemonic.Lettered → v.Checked → v'.Checked

theorem Regridded.refl (v : CreateView) : v.Regridded v := ⟨rfl, rfl, rfl, fun _ h => h⟩

/-- The grid is edited and the cursor is moved, and the grid is compared again. -/
theorem regridded_refreshVerify (lib : Bip39) {v u : CreateView} (hpage : u.page = v.page)
    (hmnemonic : u.secrets.mnemonic = v.secrets.mnemonic) (hlog : u.log = v.log)
    (h : v.Checked → 0 < v.secrets.mnemonic.wordCount →
      u.secrets.verification.words.length ≤ v.secrets.mnemonic.wordCount) :
    v.Regridded (refreshVerify lib u) := by
  refine ⟨hpage, hmnemonic, hlog, fun hletters hchecked => ?_⟩
  rw [← hmnemonic] at hletters h
  exact checked_refreshVerify hletters (h hchecked)

/-- The same, where the edit leaves the slots. -/
theorem regridded_respelled (lib : Bip39) {v u : CreateView} (hpage : u.page = v.page)
    (hmnemonic : u.secrets.mnemonic = v.secrets.mnemonic) (hlog : u.log = v.log)
    (h : v.secrets.verification.Respelled u.secrets.verification) :
    v.Regridded (refreshVerify lib u) :=
  regridded_refreshVerify lib hpage hmnemonic hlog fun hchecked hpos =>
    h.length ▸ hchecked.slots hpos

theorem regridded_verifySetCursor (lib : Bip39) (v : CreateView) (index : ℤ) :
    v.Regridded (v.verifySetCursor lib index) := by
  unfold verifySetCursor
  dsimp only
  split_ifs
  · exact .refl v
  · exact .refl v
  · exact regridded_respelled lib rfl rfl rfl (.refl v.secrets.verification)

theorem regridded_verifyType (c : UInt8) : v.Regridded (v.verifyType lib c) := by
  unfold verifyType
  dsimp only
  split_ifs with hchar hspace hlength happended
  · exact .refl v
  · exact regridded_verifySetCursor lib v _
  · exact .refl v
  · -- the letter makes no other slot
    have hlower : isLower c = true :=
      isLower_of_isBip39Char (Bool.eq_true_of_not_eq_false hchar) hspace
    exact regridded_respelled lib rfl rfl rfl (Secret.respelled_appendToSlot _ _ hlower)
  · exact .refl v

theorem regridded_verifyBackspace : v.Regridded (v.verifyBackspace lib) := by
  unfold verifyBackspace
  split_ifs
  · exact regridded_verifySetCursor lib v _
  · exact .refl v
  · exact regridded_respelled lib rfl rfl rfl (Secret.respelled_backspaceInSlot _ _)

theorem regridded_verifyDeleteWord : v.Regridded (v.verifyDeleteWord lib) :=
  regridded_respelled lib rfl rfl rfl (Secret.respelled_clearSlot _ _)

/-- A grid that gets a slot for each word of the mnemonic. -/
theorem length_slotsForMnemonic (v : CreateView) (s : Secret)
    (hpos : 0 < v.secrets.mnemonic.wordCount) :
    (v.slotsForMnemonic s).words.length ≤ v.secrets.mnemonic.wordCount :=
  s.length_words_setSlotCount hpos _

theorem regridded_verifyClear : v.Regridded (v.verifyClear lib) :=
  regridded_refreshVerify lib rfl rfl rfl fun _ hpos => v.length_slotsForMnemonic _ hpos

theorem verifyMoveCursor_one (h : v.verifyCursor + 1 < v.secrets.mnemonic.wordCount) :
    v.verifyMoveCursor lib 1 = refreshVerify lib { v with verifyCursor := v.verifyCursor + 1 } := by
  have hindex : (min (max ((v.verifyCursor : ℤ) + 1) 0)
      (v.secrets.mnemonic.wordCount - 1 : ℤ)).toNat = v.verifyCursor + 1 := by omega
  unfold verifyMoveCursor verifySetCursor
  dsimp only
  rw [if_neg (by omega), hindex, if_neg (by omega)]

theorem regridded_applyVerifySuggestion (i : Fin kSuggestionCount) :
    v.Regridded (v.applyVerifySuggestion lib i) := by
  unfold applyVerifySuggestion
  cases v.row.word i with
  | none => exact .refl v
  | some word =>
    have hrespelled := Secret.respelled_setSlot v.secrets.verification v.verifyCursor word
    dsimp only
    split
    · rename_i hnext
      -- the cursor moves on, so the grid is compared again
      rw [verifyMoveCursor_one (v := v.setVerification _) hnext]
      exact regridded_respelled lib rfl rfl rfl hrespelled
    · exact regridded_respelled lib rfl rfl rfl hrespelled

/-! ## The passphrase -/

/-- Only the passphrase and its confirmation differ, and which of them is typed into. -/
structure Repassed (v v' : CreateView) : Prop where
  page : v'.page = v.page
  panel : v'.panel = v.panel
  log : v'.log = v.log
  mnemonic : v'.secrets.mnemonic = v.secrets.mnemonic
  verification : v'.secrets.verification = v.secrets.verification

theorem Repassed.refl (v : CreateView) : v.Repassed v := ⟨rfl, rfl, rfl, rfl, rfl⟩

theorem Repassed.refreshPassphrase (h : v.Repassed v') : v.Repassed v'.refreshPassphrase := by
  unfold CreateView.refreshPassphrase
  split
  · exact ⟨h.page, h.panel, h.log,
      (SecretBuffers.mnemonic_dropConfirmation v'.secrets).trans h.mnemonic,
      (SecretBuffers.verification_dropConfirmation v'.secrets).trans h.verification⟩
  · exact h

theorem repassed_editPassphrase (f : Secret → Secret) : v.Repassed (v.editPassphrase f) := by
  refine Repassed.refreshPassphrase ?_
  cases hfield : v.passConfirming with
  | true =>
    have hconfirm : v.passField = .confirm := if_pos hfield
    rw [hconfirm]
    exact ⟨rfl, rfl, rfl, rfl, rfl⟩
  | false =>
    have hpassphrase : v.passField = .passphrase := if_neg (by simp [hfield])
    rw [hpassphrase]
    exact ⟨rfl, rfl, rfl, rfl, rfl⟩

theorem repassed_passphraseType (c : UInt8) : v.Repassed (v.passphraseType c) := by
  unfold passphraseType
  split
  · exact .refl v
  · exact repassed_editPassphrase _

theorem repassed_setPassphraseField (v : CreateView) (confirming : Bool) :
    v.Repassed (v.setPassphraseField confirming) := by
  refine Repassed.refreshPassphrase ?_
  exact ⟨rfl, rfl, rfl, rfl, rfl⟩

/-! ## Generating -/

/-- The mnemonic that is generated is of letters, and so is what is left when none is. -/
theorem lettered_mnemonicFromEntropy (w : Wally) (lib : Bip39) (entropy : Bytes) (s : Secret) :
    (mnemonicFromEntropy w lib entropy s).2.Lettered := by
  unfold mnemonicFromEntropy
  rw [Secret.clear_eq_wiped]
  dsimp only
  split
  · exact Secret.lettered_wiped
  · exact Secret.lettered_wiped
  · split
    · rename_i hcopied
      split
      · exact Secret.lettered_clear _
      · exact Secret.lettered_of_phrase (Secret.text_assign hcopied)
    · exact Secret.lettered_clear _

/-! ## The invariant -/

/-- The mnemonic is the one that was generated last. -/
def Generated (v : CreateView) : Prop := lastGenerated v.log = some v.secrets.mnemonic.text

/-- The mnemonic has been typed back. The words the floating keyboard suggests are put into the
verification grid on whatever page, so none may be left on it. -/
structure Backed (v : CreateView) : Prop where
  generated : v.Generated
  typed : v.secrets.verification.text = v.secrets.mnemonic.text
  unsuggested : v.panel.suggestions = 0

/-- What holds on each page. -/
def PageHolds (w : Wally) (v : CreateView) : CreatePage → Prop
  | .intro | .entropy | .result => True
  | .seed => v.Generated
  | .verify => v.Generated ∧ v.Checked
  | .passphrase => v.Backed
  | .confirm => v.Backed ∧ v.secrets.PassphraseReady
  | .name => v.Backed ∧ v.secrets.PassphraseReady ∧ v.toMachine.ExportOf w 0 v.exported

/-- The invariant. -/
structure Faithful (w : Wally) (v : CreateView) : Prop where
  lettered : v.secrets.mnemonic.Lettered
  holds : v.PageHolds w v.page

theorem Faithful.holds_on {page : CreatePage} (h : v.Faithful w) (hpage : v.page = page) :
    v.PageHolds w page := hpage ▸ h.holds

theorem faithful_of_page {page : CreatePage} (hpage : v.page = page)
    (hletters : v.secrets.mnemonic.Lettered) (h : v.PageHolds w page) : v.Faithful w :=
  ⟨hletters, hpage ▸ h⟩

theorem Generated.congr (h : v.Generated) (hlog : v'.log = v.log)
    (hmnemonic : v'.secrets.mnemonic = v.secrets.mnemonic) : v'.Generated := by
  rw [Generated, hlog, hmnemonic]
  exact h

/-- All the invariant is about is the same. -/
structure Framed (v v' : CreateView) : Prop where
  page : v'.page = v.page
  suggestions : v'.panel.suggestions = v.panel.suggestions
  verified : v'.verified = v.verified ∧ v'.verifyNextEnabled = v.verifyNextEnabled
  exported : v'.exported = v.exported
  secrets : v'.secrets = v.secrets
  config : v'.config = v.config
  log : v'.log = v.log

theorem Framed.backed (h : v.Framed v') (hv : v.Backed) : v'.Backed where
  generated := hv.generated.congr h.log (by rw [h.secrets])
  typed := by
    rw [h.secrets]
    exact hv.typed
  unsuggested := h.suggestions.trans hv.unsuggested

theorem Framed.checked (h : v.Framed v') (hv : v.Checked) : v'.Checked where
  slots := by
    rw [h.secrets]
    exact hv.slots
  matched := by
    rw [h.secrets, h.verified.1, h.verified.2]
    exact hv.matched

theorem Framed.exportOf (h : v.Framed v') (hv : v.toMachine.ExportOf w 0 v.exported) :
    v'.toMachine.ExportOf w 0 v'.exported := by
  intro slot
  rw [h.secrets, h.config, h.exported]
  exact hv slot

/-- The grid is edited on the page it is on, or on one of those before it. -/
theorem Regridded.faithful (h : v.Regridded v') (hv : v.Faithful w)
    (hpage : v.page ∈ [.intro, .entropy, .seed, .verify, .result]) : v'.Faithful w := by
  have hletters : v'.secrets.mnemonic.Lettered := h.mnemonic ▸ hv.lettered
  cases hcase : v.page with
  | intro => exact faithful_of_page (h.page.trans hcase) hletters trivial
  | entropy => exact faithful_of_page (h.page.trans hcase) hletters trivial
  | result => exact faithful_of_page (h.page.trans hcase) hletters trivial
  | seed =>
    have hgenerated : v.Generated := hv.holds_on hcase
    exact faithful_of_page (h.page.trans hcase) hletters (hgenerated.congr h.log h.mnemonic)
  | verify =>
    obtain ⟨hgenerated, hchecked⟩ := hv.holds_on hcase
    exact faithful_of_page (h.page.trans hcase) hletters
      ⟨hgenerated.congr h.log h.mnemonic, h.checked hv.lettered hchecked⟩
  | passphrase => simp [hcase] at hpage
  | confirm => simp [hcase] at hpage
  | name => simp [hcase] at hpage

theorem Repassed.backed (h : v.Repassed v') (hv : v.Backed) : v'.Backed where
  generated := hv.generated.congr h.log h.mnemonic
  typed := by
    rw [h.verification, h.mnemonic]
    exact hv.typed
  unsuggested := by
    rw [h.panel]
    exact hv.unsuggested

theorem Faithful.backed (h : v.Faithful w) (hpage : v.page ∈ [.passphrase, .confirm, .name]) :
    v.Backed := by
  cases hcase : v.page with
  | passphrase => exact h.holds_on hcase
  | confirm => exact (h.holds_on hcase).1
  | name => exact (h.holds_on hcase).1
  | _ => simp [hcase] at hpage

/-- The confirmation page and the one that names the file are come to with a passphrase that is
ready. -/
theorem Faithful.ready (h : v.Faithful w) (hpage : v.page ∈ [.confirm, .name]) :
    v.secrets.PassphraseReady := by
  cases hcase : v.page with
  | confirm => exact (h.holds_on hcase).2
  | name => exact (h.holds_on hcase).2.1
  | _ => simp [hcase] at hpage

/-- The export on the page that names the file. -/
theorem Faithful.exportOf (h : v.Faithful w) (hpage : v.page = .name) :
    v.toMachine.ExportOf w 0 v.exported := (h.holds_on hpage).2.2

theorem Faithful.framed (hv : v.Faithful w) (h : v.Framed v') : v'.Faithful w := by
  have hletters : v'.secrets.mnemonic.Lettered := h.secrets ▸ hv.lettered
  have hready (hv : v.secrets.PassphraseReady) : v'.secrets.PassphraseReady := h.secrets ▸ hv
  have hgenerated (hv : v.Generated) : v'.Generated := hv.congr h.log (by rw [h.secrets])
  refine ⟨hletters, ?_⟩
  rw [h.page]
  cases hcase : v.page with
  | seed => exact hgenerated (hv.holds_on hcase)
  | verify => exact (hv.holds_on hcase).imp hgenerated h.checked
  | passphrase => exact h.backed (hv.holds_on hcase)
  | confirm => exact (hv.holds_on hcase).imp h.backed hready
  | name => exact (hv.holds_on hcase).imp h.backed (And.imp hready h.exportOf)
  | _ => trivial

/-- The passphrase is edited on its page. -/
theorem Repassed.faithful (h : v.Repassed v') (hv : v.Faithful w) (hpage : v.page = .passphrase) :
    v'.Faithful w := by
  have hbacked : v'.Backed := h.backed (hv.holds_on hpage)
  exact faithful_of_page (h.page.trans hpage) (h.mnemonic ▸ hv.lettered) hbacked

/-! ## Moves between the pages -/

theorem faithful_goTo_verify (lib : Bip39) (out : Outside)
    (hletters : v.secrets.mnemonic.Lettered) (hgenerated : v.Generated) :
    (v.goTo lib out .verify).Faithful w := by
  have hslots := v.length_slotsForMnemonic v.secrets.verification
  have hchecked : (v.goTo lib out .verify).Checked := checked_refreshVerify hletters hslots
  exact ⟨hletters, hgenerated, hchecked⟩

theorem faithful_goTo_passphrase (lib : Bip39) (out : Outside)
    (hletters : v.secrets.mnemonic.Lettered) (hgenerated : v.Generated)
    (htyped : v.secrets.verification.text = v.secrets.mnemonic.text) :
    (v.goTo lib out .passphrase).Faithful w := by
  refine Repassed.faithful (v := setOskVisible
    { v with page := .passphrase, panel := { v.panel with suggestions := 0 } }
    (!v.config.physicalKeyboard)) ?_ ⟨hletters, hgenerated, htyped, rfl⟩ rfl
  exact (Repassed.refl _).refreshPassphrase

theorem faithful_goTo_confirm (lib : Bip39) (out : Outside)
    (hletters : v.secrets.mnemonic.Lettered) (hbacked : v.Backed)
    (hready : v.secrets.PassphraseReady) : (v.goTo lib out .confirm).Faithful w :=
  ⟨hletters, ⟨hbacked.generated, hbacked.typed, hbacked.unsuggested⟩, hready⟩

theorem faithful_leavePassphrasePage (h : v.Faithful w) (hpage : v.page = .passphrase) :
    (v.leavePassphrasePage lib out).Faithful w := by
  have hbacked := h.backed (by simp [hpage])
  unfold leavePassphrasePage passphraseReady
  split_ifs with hempty hconfirmed
  · exact faithful_goTo_confirm lib out h.lettered hbacked (Or.inl (Secret.empty_iff.mp hempty))
  · exact faithful_goTo_confirm lib out h.lettered hbacked
      (Or.inr (Secret.equals_iff.mp hconfirmed))
  · exact (repassed_setPassphraseField v true).faithful h hpage

theorem faithful_generate (h : v.Faithful w) (hpage : v.page = .entropy) :
    (v.generate w lib out).Faithful w := by
  unfold generate
  cases out.entropy v.wordCount.entropyBytes with
  | error err => exact h
  | ok entropy =>
    have hletters := lettered_mnemonicFromEntropy w lib entropy v.secrets.mnemonic.clear
    dsimp only
    split
    · -- nothing was generated, and the page stays
      exact faithful_of_page hpage hletters trivial
    · exact ⟨hletters, rfl⟩

theorem lettered_wipeSecrets (v : CreateView) : v.wipeSecrets.secrets.mnemonic.Lettered :=
  Secret.lettered_clear v.secrets.mnemonic

theorem faithful_onEnter (v : CreateView) (out : Outside) : (v.onEnter lib out).Faithful w :=
  ⟨v.lettered_wipeSecrets, trivial⟩

/-- The export is made where the file is going to be named. -/
theorem faithful_showNamePage (h : v.Faithful w) (hpage : v.page = .confirm) :
    (v.showNamePage w out).Faithful w := by
  have hbacked := h.backed (by simp [hpage])
  have hready := h.ready (by simp [hpage])
  unfold showNamePage
  dsimp only
  split
  · exact faithful_of_page hpage h.lettered
      ⟨⟨hbacked.generated, hbacked.typed, hbacked.unsuggested⟩, hready⟩
  · rename_i hok
    exact ⟨h.lettered, ⟨hbacked.generated, hbacked.typed, hbacked.unsuggested⟩, hready,
      Machine.exportOf_buildExport hok⟩

/-- On the page that names the file nothing but the name and the keyboard changes. -/
theorem faithful_namePage (h : v.Faithful w) (namePage : SaveAsPage) (visible : Bool) :
    Faithful w { v with namePage := namePage, panel := { v.panel with visible := visible } } :=
  h.framed ⟨rfl, rfl, ⟨rfl, rfl⟩, rfl, rfl, rfl, rfl⟩

theorem faithful_doCreate (h : v.Faithful w) : (v.doCreate out).Faithful w := by
  unfold doCreate
  dsimp only
  split
  · exact h.framed ⟨rfl, rfl, ⟨rfl, rfl⟩, rfl, rfl, rfl, rfl⟩
  · exact ⟨v.lettered_wipeSecrets, trivial⟩

/-! ## Events -/

/-- Putting the keyboard up or down changes nothing that holds. -/
theorem faithful_setOskVisible (h : v.Faithful w) (visible : Bool) :
    (v.setOskVisible visible).Faithful w :=
  faithful_namePage h v.namePage visible

theorem faithful_keyOnVerify {press : KeyPress} (h : v.Faithful w) (hpage : v.page = .verify)
    (hkey : v.keyOnVerify lib out press = some v') : v'.Faithful w := by
  have hedit {u : CreateView} (hu : v.Regridded u) : u.Faithful w :=
    hu.faithful h (by simp [hpage])
  obtain ⟨hgenerated, hchecked⟩ := h.holds_on hpage
  unfold keyOnVerify at hkey
  split at hkey
  · cases hkey
    exact faithful_setOskVisible h _
  split at hkey
  · cases hkey
    exact hedit (regridded_applyVerifySuggestion _)
  split at hkey
  all_goals cases hkey
  · exact h
  · exact hedit regridded_verifyBackspace
  · exact hedit (regridded_verifyType _)
  · split
    · rename_i hverified
      exact faithful_goTo_passphrase lib out h.lettered hgenerated
        (hchecked.matched (Or.inl hverified))
    · exact hedit (regridded_verifySetCursor lib v _)
  · exact hedit (regridded_verifySetCursor lib v _)
  · exact hedit (regridded_verifySetCursor lib v _)
  · exact hedit (regridded_verifySetCursor lib v _)
  · exact hedit (regridded_verifySetCursor lib v _)
  · exact hedit (regridded_verifySetCursor lib v _)
  · exact hedit (regridded_verifySetCursor lib v _)
  · exact hedit (regridded_verifyType _)

theorem faithful_keyOnPassphrase {press : KeyPress} (h : v.Faithful w)
    (hpage : v.page = .passphrase) (hkey : v.keyOnPassphrase lib out press = some v') :
    v'.Faithful w := by
  unfold keyOnPassphrase at hkey
  split at hkey
  · cases hkey
    exact faithful_setOskVisible h _
  · cases hkey
    exact (repassed_editPassphrase _).faithful h hpage
  · cases hkey
    exact (repassed_setPassphraseField v _).faithful h hpage
  · cases hkey
    split
    · exact (repassed_setPassphraseField v true).faithful h hpage
    · exact faithful_leavePassphrasePage h hpage
  · obtain ⟨c, -, rfl⟩ := Option.map_eq_some_iff.mp hkey
    exact (repassed_passphraseType c).faithful h hpage

/-- What the keyboard does where it types: each of the three pages does its own edit. -/
theorem faithful_oskDispatch {onVerify onPassphrase : CreateView} (h : v.Faithful w)
    (hverify : v.Regridded onVerify) (hpassphrase : v.Repassed onPassphrase)
    (onName : SaveAsPage) : (v.oskDispatch onVerify onPassphrase onName).Faithful w := by
  unfold oskDispatch
  split
  · rename_i hpage
    exact hverify.faithful h (by simp [hpage])
  · rename_i hpage
    exact hpassphrase.faithful h hpage
  · exact faithful_namePage h onName v.panel.visible
  · exact h

/-- A word the keyboard suggests can be picked on no page behind the verification. -/
theorem faithful_oskSuggestion (h : v.Faithful w) (i : Fin kSuggestionCount)
    (hi : i.val < v.panel.suggestions) : (v.applyVerifySuggestion lib i).Faithful w := by
  -- behind the verification the keyboard suggests nothing
  have hnot : v.page ∉ [.passphrase, .confirm, .name] := by
    intro hpage
    rw [(h.backed hpage).unsuggested] at hi
    exact Nat.not_lt_zero _ hi
  refine (regridded_applyVerifySuggestion i).faithful h ?_
  cases hpage : v.page
  all_goals simp [hpage] at hnot ⊢

theorem faithful_osk (h : v.Faithful w) (key : OskKey) : (v.osk lib key).Faithful w := by
  unfold osk
  split
  · cases key with
    | character c =>
      exact faithful_oskDispatch h (regridded_verifyType c) (repassed_passphraseType c) _
    | backspace =>
      exact faithful_oskDispatch h regridded_verifyBackspace (repassed_editPassphrase _) _
    | deleteWord =>
      exact faithful_oskDispatch h regridded_verifyDeleteWord (repassed_editPassphrase _) _
    | clear => exact faithful_oskDispatch h regridded_verifyClear (repassed_editPassphrase _) _
    | hide => exact faithful_setOskVisible h false
    | suggestion i =>
      dsimp only
      split
      · rename_i hi
        exact faithful_oskSuggestion h i hi
      · exact h
  · exact h

theorem faithful_click {button : CreateButton} (h : v.Faithful w)
    (hclick : v.clickable button = true) : (v.click w lib out button).Faithful w := by
  unfold clickable at hclick
  obtain ⟨hcurrent, henabled⟩ := Bool.and_eq_true_iff.mp hclick
  have hpage : v.page = button.page := beq_iff_eq.mp hcurrent
  have hgrid {u : CreateView} (hverify : v.page = .verify) (hu : v.Regridded u) : u.Faithful w :=
    hu.faithful h (by simp [hverify])
  cases button
  -- the entropy
  case words count => exact faithful_of_page hpage h.lettered trivial
  case understood => exact ⟨h.lettered, trivial⟩
  case entropyBack => exact ⟨h.lettered, trivial⟩
  case pad => exact faithful_of_page hpage h.lettered trivial
  case generate => exact faithful_generate h hpage
  -- the words, and typing them back
  case discard => exact ⟨v.lettered_wipeSecrets, trivial⟩
  case written => exact faithful_goTo_verify lib out h.lettered (h.holds_on hpage)
  case cell i => exact hgrid hpage (regridded_verifySetCursor lib v i)
  case suggestion i => exact hgrid hpage (regridded_applyVerifySuggestion i)
  case showAgain => exact ⟨h.lettered, (h.holds_on hpage).1⟩
  case verifyClear => exact hgrid hpage regridded_verifyClear
  case verifyNext =>
    obtain ⟨hgenerated, hchecked⟩ := h.holds_on hpage
    exact faithful_goTo_passphrase lib out h.lettered hgenerated
      (hchecked.matched (Or.inr henabled))
  -- the passphrase
  case passBox => exact (repassed_setPassphraseField v _).faithful h hpage
  case passConfirmBox => exact (repassed_setPassphraseField v _).faithful h hpage
  case passBack =>
    have hbacked : v.Backed := h.holds_on hpage
    exact faithful_goTo_verify lib out h.lettered hbacked.generated
  case passNext => exact faithful_leavePassphrasePage h hpage
  -- the file
  case confirmBack =>
    have hbacked := (h.holds_on hpage).1
    exact faithful_goTo_passphrase lib out h.lettered hbacked.generated hbacked.typed
  case create => exact faithful_showNamePage h hpage
  case nameBack =>
    obtain ⟨hbacked, hready, -⟩ := h.holds_on hpage
    exact faithful_goTo_confirm lib out h.lettered hbacked hready
  case nameClear => exact faithful_namePage h _ v.panel.visible
  case nameAccept => exact faithful_doCreate h
  case verifyOskToggle => exact faithful_setOskVisible h _
  case passOskToggle => exact faithful_setOskVisible h _
  case nameOskToggle => exact faithful_setOskVisible h _
  all_goals exact h

/-- Every event on the screen keeps the invariant. -/
theorem Handles.faithful (hv : v.Handles w lib event v') (h : v.Faithful w) :
    v'.Faithful w := by
  cases hv with
  | @key press out _ hkey =>
    unfold keyPress at hkey
    split at hkey
    · split at hkey
      · cases hkey
        exact faithful_setOskVisible h _
      · obtain ⟨namePage, -, rfl⟩ := Option.map_eq_some_iff.mp hkey
        exact faithful_namePage h namePage v.panel.visible
    · rename_i hpage
      split at hkey
      · cases hkey
        split
        · exact faithful_generate h hpage
        · exact h
      · cases hkey
        exact faithful_of_page hpage h.lettered trivial
    · rename_i hpage
      exact faithful_keyOnVerify h hpage hkey
    · rename_i hpage
      exact faithful_keyOnPassphrase h hpage hkey
    · cases hkey
  | osk key => exact faithful_osk h key
  | click out hclick => exact faithful_click h hclick
  | accept out hname hkey => exact faithful_doCreate h

/-! ## Writing -/

theorem files_doCreate (v : CreateView) (out : Outside) :
    (v.doCreate out).files = (writeWalletExport out.clock out.laterClock out.file v.files
      v.exported v.config.dataDir v.namePage.fileName).files := by
  unfold doCreate
  dsimp only
  split
  · rfl
  · rfl

end CreateView

/-! ## Runs -/

namespace AppWindow

variable {w : Wally} {lib : Bip39} {a : AppWindow}

/-- While the create screen shows: behind the verification the grid holds the words that were
generated, one by one; the confirmation page and the one that names the file show only while the
passphrase is empty or confirmed; and an event that is no poll leaves the files as they are, or
it comes on the page that names the file and writes the export of the words and the passphrase,
account 0. -/
structure CreateWritesCheckedWords (w : Wally) (lib : Bip39) (a : AppWindow) : Prop where
  typedBack : a.current = .create → a.create.page ∈ [.passphrase, .confirm, .name] →
    lastGenerated a.log = some a.secrets.mnemonic.text ∧
      a.secrets.verification.words = a.secrets.mnemonic.words
  ready : a.current = .create → a.create.page ∈ [.confirm, .name] → a.secrets.PassphraseReady
  written : ∀ event, a.current = .create → (∀ mounted files, event ≠ .poll mounted files) →
    (a.step w lib event).files = a.files ∨
      a.create.page = .name ∧
        a.WroteExport w (a.step w lib event) 0 a.create.namePage.fileName

/-- What one event writes. -/
theorem create_step_files (h : a.createView.Faithful w) (hcurrent : a.current = .create)
    (event : Event) (hpoll : ∀ mounted files, event ≠ .poll mounted files) :
    (a.step w lib event).files = a.files ∨
      a.create.page = .name ∧
        a.WroteExport w (a.step w lib event) 0 a.create.namePage.fileName := by
  rcases files_of_create hcurrent hpoll with hsame | ⟨v, hv, hfiles⟩
  · exact Or.inl hsame
  rcases hv.quiet_or_wrote with hquiet | ⟨hpage, out, rfl⟩
  · exact Or.inl (hfiles.trans hquiet.files)
  · -- the export was made from the buffers when the page was come to
    have hwritten := hfiles.trans (CreateView.files_doCreate a.createView out)
    exact Or.inr ⟨hpage, h.ready (by simp [hpage]), _, out, h.exportOf hpage, hwritten⟩

theorem createWritesCheckedWords_of_faithful
    (h : a.current = .create → a.createView.Faithful w) : a.CreateWritesCheckedWords w lib where
  typedBack := by
    intro hcurrent hpage
    have hbacked := (h hcurrent).backed hpage
    exact ⟨hbacked.generated, congrArg (List.splitOn space) hbacked.typed⟩
  ready := fun hcurrent hpage => (h hcurrent).ready hpage
  written := fun event hcurrent hpoll => create_step_files (h hcurrent) hcurrent event hpoll

/-- In every state of every run, the create screen has its words typed back and its passphrase
confirmed before it names a file, and writes the export of what is in the buffers. -/
theorem create_writes_checked_words (w : Wally) (lib : Bip39) (config : AppConfig)
    (files : Disk Char) (events : List Event) :
    (Runs.run (step w lib) (start config files) events).CreateWritesCheckedWords w lib := by
  have hstart : (start config files).current = .create →
      (start config files).createView.Faithful w := by
    intro hcurrent
    cases hcurrent
  refine createWritesCheckedWords_of_faithful ?_
  refine Runs.run_invariant
    (I := fun a : AppWindow => a.current = .create → a.createView.Faithful w)
    (fun a event ha => ?_) events hstart
  refine createView_invariant CreateView.faithful_onEnter ?_ (fun _ _ hv h => hv.faithful h) ha
  intro v mounted files enabled h
  exact h.framed ⟨rfl, rfl, ⟨rfl, rfl⟩, rfl, rfl, rfl, rfl⟩

end AppWindow

end SignerOS
