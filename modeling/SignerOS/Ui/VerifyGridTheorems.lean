import SignerOS.Lib.Mask
import SignerOS.Lib.Runs
import SignerOS.Ui.CreateScreenTheorems

/-!
# Typing the words back

The grid the mnemonic is typed back into, over any sequence of edits.

* `complete_iff` and `has_wrong_iff`, what it says of the grid;
* `CreateView.Retyped`, an edit changes the cell under the cursor and moves the cursor within the
  grid;
* `CreateView.verification_grid`, the property over every run.
-/

namespace SignerOS

open SecureString (space)
open Runs (run)

/-! ## The comparison -/

section
variable {typed reference : Secret} {cursor i j : ℕ}

/-- Cell `i` is wrong: it holds something other than the right word, and not the beginning of it
where the cursor stands. -/
def WrongCell (typed reference : Secret) (cursor i : ℕ) : Prop :=
  ∃ word right, typed.words[i]? = some word ∧ reference.words[i]? = some right ∧ word ≠ [] ∧
    word ≠ right ∧ ¬ (cursor = i ∧ word <+: right)

theorem has_wrong_compareCell (m : GridMatch) (hi : i < 32) :
    Mask.Has (compareCell typed reference cursor m i).wrong j ↔
      Mask.Has m.wrong j ∨ j = i ∧ WrongCell typed reference cursor i := by
  by_cases hnone : typed.words[i]? = none ∨ reference.words[i]? = none
  · rw [compareCell_of_none m hnone]
    refine (or_iff_left ?_).symm
    rintro ⟨-, word, right, hword, hright, -⟩
    rcases hnone with hnone | hnone
    · rw [hnone] at hword
      exact absurd hword (by simp)
    · rw [hnone] at hright
      exact absurd hright (by simp)
  obtain ⟨hword, hright⟩ := not_or.mp hnone
  obtain ⟨word, hword⟩ := Option.ne_none_iff_exists'.mp hword
  obtain ⟨right, hright⟩ := Option.ne_none_iff_exists'.mp hright
  have hwrong : WrongCell typed reference cursor i ↔
      word ≠ [] ∧ word ≠ right ∧ ¬ (cursor = i ∧ word <+: right) := by
    simp [WrongCell, hword, hright]
  rw [compareCell_of_words m hword hright, hwrong]
  split_ifs with hnil heq hin
  · simp [hnil]
  · simp [heq]
  · simp [hin]
  · rw [Mask.has_or hi]
    simp [hnil, heq, hin]

/-- The cells that are marked. -/
theorem has_wrong_iff :
    Mask.Has (compareGrid typed reference cursor).wrong i ↔
      i < 32 ∧ WrongCell typed reference cursor i := by
  have hloop (cells : List ℕ) (hcells : ∀ j ∈ cells, j < 32) (m : GridMatch) :
      Mask.Has (cells.foldl (compareCell typed reference cursor) m).wrong i ↔
        Mask.Has m.wrong i ∨ i ∈ cells ∧ WrongCell typed reference cursor i := by
    induction cells generalizing m with
    | nil => simp
    | cons k cells ih =>
      obtain ⟨hk, hrest⟩ := List.forall_mem_cons.mp hcells
      rw [List.foldl_cons, ih hrest, has_wrong_compareCell m hk, List.mem_cons, or_and_right,
        or_assoc]
      refine or_congr_right (or_congr_left (and_congr_right ?_))
      rintro rfl
      rfl
  have hcount : reference.slotCount = reference.words.length :=
    reference.clean.refinesWords.slotCount
  show Mask.Has ((List.range _).foldl (compareCell typed reference cursor) {}).wrong i ↔ _
  rw [hloop _ (fun j hj => by rw [List.mem_range] at hj; omega), or_iff_right Mask.not_has_zero,
    List.mem_range, hcount]
  refine ⟨fun h => ⟨by omega, h.2⟩, fun h => ⟨?_, h.2⟩⟩
  obtain ⟨hlt, word, right, -, hright, -⟩ := h
  have hlen := (List.getElem?_eq_some_iff.mp hright).1
  omega

/-- A grid of as many cells as there are words is complete when it holds their text. -/
theorem complete_iff (hlen : typed.words.length = reference.words.length)
    (hfew : reference.words.length ≤ 32) (hfilled : ∀ word ∈ reference.words, word ≠ []) :
    (compareGrid typed reference cursor).complete = true ↔ typed.text = reference.text := by
  refine ⟨fun h => text_eq_of_complete h hlen.le, fun htext => ?_⟩
  have hwords : typed.words = reference.words := congrArg (List.splitOn space) htext
  have hright : ∀ i ∈ List.range reference.words.length, rightCell typed reference i = true := by
    intro i hi
    have hget := List.getElem?_eq_getElem (List.mem_range.mp hi)
    refine rightCell_iff.mpr ⟨_, hfilled _ (List.getElem_mem _), ?_, hget⟩
    rw [hwords]
    exact hget
  have hcount : reference.slotCount = reference.words.length :=
    reference.clean.refinesWords.slotCount
  have hpos : 0 < reference.words.length := by
    rw [← hcount]
    show 0 < 1 + _
    omega
  unfold compareGrid
  dsimp only
  rw [correct_foldl_compareCell, hcount, Nat.min_eq_left hfew,
    List.countP_eq_length.mpr hright, List.length_range]
  simp [hpos]

end

/-! ## The editor -/

namespace CreateView

/-- What the verification page offers: a letter or a space that is typed, a cursor that is moved,
a cell that is clicked, the editing keys, and the suggestions. -/
inductive GridEdit
  | type (c : UInt8)
  | move (delta : ℤ)
  | cell (index : ℤ)
  | backspace
  | deleteWord
  | clear
  | suggestion (i : Fin kSuggestionCount)

/-- An edit is performed. -/
def perform (lib : Bip39) (v : CreateView) : GridEdit → CreateView
  | .type c => v.verifyType lib c
  | .move delta => v.verifyMoveCursor lib delta
  | .cell index => v.verifySetCursor lib index
  | .backspace => v.verifyBackspace lib
  | .deleteWord => v.verifyDeleteWord lib
  | .clear => v.verifyClear lib
  | .suggestion i => v.applyVerifySuggestion lib i

/-- The mnemonic is so many words of letters, with one space between each. -/
structure Reference (n : ℕ) (s : Secret) : Prop where
  length : s.words.length = n
  lettered : s.Lettered
  ne_nil : ∀ word ∈ s.words, word ≠ []

theorem Reference.wordCount {n : ℕ} {s : Secret} (h : Reference n s) : s.wordCount = n := by
  have hall : filled s.words = s.words :=
    List.filter_eq_self.mpr fun word hmem => by simpa using h.ne_nil word hmem
  rw [Secret.wordCount_eq h.lettered, hall, h.length]

/-- What is generated is such a mnemonic. -/
theorem reference_of_phrase {p : Phrase} {s : Secret} (h : s.text = p.text) (hne : p.words ≠ []) :
    Reference p.words.length s := by
  have hwords := Secret.words_of_phrase h hne
  refine ⟨by rw [hwords, List.length_map], Secret.lettered_of_phrase h, fun word hmem => ?_⟩
  rw [hwords] at hmem
  obtain ⟨w, -, rfl⟩ := List.mem_map.mp hmem
  exact w.ne_nil

/-- The grid has `n` cells of eight letters at most, and the cursor is in one of them. -/
structure InGrid (n : ℕ) (v : CreateView) : Prop where
  slots : v.secrets.verification.words.length = n
  cursor : v.verifyCursor < n
  short : ∀ word ∈ v.secrets.verification.words, word.length ≤ kMaxWordLength

/-- The cell under the cursor is typed into, and the cursor moves within the grid. -/
structure Retyped (n : ℕ) (v v' : CreateView) : Prop where
  mnemonic : v'.secrets.mnemonic = v.secrets.mnemonic
  cursor : v'.verifyCursor < n
  cell : ∃ word, word.length ≤ kMaxWordLength ∧
    v'.secrets.verification.words = v.secrets.verification.words.set v.verifyCursor word

section
variable {lib : Bip39} {n : ℕ} {v v' : CreateView}

theorem InGrid.retyped (h : InGrid n v) (h' : Retyped n v v') : InGrid n v' := by
  obtain ⟨word, hshort, hwords⟩ := h'.cell
  refine ⟨?_, h'.cursor, fun word' hmem => ?_⟩
  · rw [hwords, List.length_set]
    exact h.slots
  · rw [hwords] at hmem
    rcases List.mem_or_eq_of_mem_set hmem with hmem | rfl
    · exact h.short word' hmem
    · exact hshort

/-- The word under the cursor. -/
theorem InGrid.word (h : InGrid n v) : ∃ word,
    v.secrets.verification.words[v.verifyCursor]? = some word ∧ word.length ≤ kMaxWordLength := by
  have hlt : v.verifyCursor < v.secrets.verification.words.length := h.slots ▸ h.cursor
  exact ⟨_, List.getElem?_eq_getElem hlt, h.short _ (List.getElem_mem hlt)⟩

/-- The cells are as they were. -/
theorem retyped_of_words (h : InGrid n v) (hmnemonic : v'.secrets.mnemonic = v.secrets.mnemonic)
    (hcursor : v'.verifyCursor < n)
    (hwords : v'.secrets.verification.words = v.secrets.verification.words) : Retyped n v v' := by
  obtain ⟨word, hword, hshort⟩ := h.word
  refine ⟨hmnemonic, hcursor, word, hshort, hwords.trans ?_⟩
  obtain ⟨hlt, hget⟩ := List.getElem?_eq_some_iff.mp hword
  rw [← hget, List.set_getElem_self]

theorem Retyped.refl (h : InGrid n v) : Retyped n v v := retyped_of_words h rfl h.cursor rfl

/-- The grid is edited and compared, which leaves a cursor in the grid where it is. -/
theorem retyped_refreshVerify {u : CreateView} (hmnemonic : u.secrets.mnemonic = v.secrets.mnemonic)
    (hcount : v.secrets.mnemonic.wordCount = n) (hcursor : u.verifyCursor < n) {word : Bytes}
    (hshort : word.length ≤ kMaxWordLength)
    (hwords : u.secrets.verification.words
      = v.secrets.verification.words.set v.verifyCursor word) :
    Retyped n v (refreshVerify lib u) := by
  refine ⟨hmnemonic, ?_, word, hshort, hwords⟩
  show (if u.secrets.mnemonic.wordCount ≤ u.verifyCursor then u.secrets.mnemonic.wordCount - 1
    else u.verifyCursor) < n
  rw [hmnemonic]
  split_ifs <;> omega

/-- A cursor that is moved stays in the grid. -/
theorem retyped_verifySetCursor (h : InGrid n v) (hcount : v.secrets.mnemonic.wordCount = n)
    (index : ℤ) : Retyped n v (v.verifySetCursor lib index) := by
  have hpos : 0 < n := Nat.zero_lt_of_lt h.cursor
  unfold verifySetCursor
  dsimp only
  split_ifs
  · exact .refl h
  · exact .refl h
  · refine retyped_of_words h rfl ?_ rfl
    show (if v.secrets.mnemonic.wordCount ≤ _ then v.secrets.mnemonic.wordCount - 1 else _) < n
    split_ifs <;> omega

/-- There is room for another letter. -/
theorem InGrid.room (h : InGrid n v) (hn : n ≤ 24) :
    v.secrets.verification.text.length + 8 < kCapacity := by
  have hlen := Secret.length_text_lt h.short
  have hmax : kMaxWordLength = 8 := rfl
  have hcap : kCapacity = 320 := rfl
  rw [h.slots, hmax] at hlen
  omega

theorem retyped_verifyType (h : InGrid n v) (hcount : v.secrets.mnemonic.wordCount = n)
    (hn : n ≤ 24) (c : UInt8) : Retyped n v (v.verifyType lib c) := by
  obtain ⟨word, hword, hshort⟩ := h.word
  have hlen : v.secrets.verification.slotLength v.verifyCursor = word.length := by
    have hslot : v.secrets.verification.slotLength v.verifyCursor = _ :=
      v.secrets.verification.clean.refinesWords.slotLength v.verifyCursor
    have hsome : v.secrets.verification.str.words[v.verifyCursor]? = some word := hword
    rw [hslot, hsome, Option.getD_some]
  unfold verifyType
  dsimp only
  split_ifs with hchar hspace hfull happended
  · exact .refl h
  · exact retyped_verifySetCursor h hcount _
  · exact .refl h
  · have hroom := h.room hn
    obtain ⟨-, hwords⟩ := Secret.words_appendToSlot hword hspace (by omega)
    refine retyped_refreshVerify rfl hcount h.cursor ?_ hwords
    rw [hlen] at hfull
    rw [List.length_append, List.length_singleton]
    omega
  · exact .refl h

theorem retyped_verifyBackspace (h : InGrid n v) (hcount : v.secrets.mnemonic.wordCount = n) :
    Retyped n v (v.verifyBackspace lib) := by
  obtain ⟨word, hword, hshort⟩ := h.word
  unfold verifyBackspace
  split_ifs
  · exact retyped_verifySetCursor h hcount _
  · exact .refl h
  · refine retyped_refreshVerify rfl hcount h.cursor ?_ (Secret.words_backspaceInSlot hword)
    rw [List.length_dropLast]
    omega

theorem retyped_verifyDeleteWord (h : InGrid n v) (hcount : v.secrets.mnemonic.wordCount = n) :
    Retyped n v (v.verifyDeleteWord lib) := by
  obtain ⟨word, hword, -⟩ := h.word
  exact retyped_refreshVerify rfl hcount h.cursor (Nat.zero_le _) (Secret.words_clearSlot hword)

theorem retyped_applyVerifySuggestion (h : InGrid n v)
    (hcount : v.secrets.mnemonic.wordCount = n) (hn : n ≤ 24) (i : Fin kSuggestionCount) :
    Retyped n v (v.applyVerifySuggestion lib i) := by
  unfold applyVerifySuggestion
  cases v.row.word i with
  | none => exact .refl h
  | some suggested =>
    obtain ⟨word, hword, hshort⟩ := h.word
    have hroom := h.room hn
    have hmax : kMaxWordLength = 8 := rfl
    have hlen := suggested.length_le
    have hwords := Secret.words_setSlot hword suggested (by omega)
    dsimp only
    split
    · rename_i hnext
      -- the cursor goes to the next cell, which is in the grid
      rw [verifyMoveCursor_one (v := v.setVerification _) hnext]
      exact retyped_refreshVerify rfl hcount (hcount ▸ hnext) hlen hwords
    · exact retyped_refreshVerify rfl hcount h.cursor hlen hwords

/-- A grid that is set up anew. -/
theorem words_slotsForMnemonic (hcount : v.secrets.mnemonic.wordCount = n) (hpos : 0 < n)
    (hn : n ≤ 24) : (v.slotsForMnemonic .wiped).words = List.replicate n [] := by
  subst hcount
  have hempty : Secret.wiped.str.text = [] := Secret.text_wiped
  have hone : Secret.wiped.str.words = [[]] := Secret.words_wiped
  have hroom : Secret.wiped.str.text.length + (v.secrets.mnemonic.wordCount
      - Secret.wiped.str.words.length) < kCapacity := by
    have hcapacity : kCapacity = 320 := rfl
    rw [hempty, List.length_nil]
    omega
  have hset := (Secret.wiped.clean.refinesWords.setSlotCount _ hpos hroom).2
  rw [hone, List.length_singleton, List.take_of_length_le hpos, ← List.replicate_one,
    ← List.replicate_add, Nat.add_sub_cancel' hpos] at hset
  exact (Secret.wiped.words_perform (.setSlotCount v.secrets.mnemonic.wordCount)
    v.secrets.mnemonic.wordCount_le).trans hset

theorem inGrid_of_words (hcursor : v.verifyCursor < n)
    (hwords : v.secrets.verification.words = List.replicate n []) : InGrid n v := by
  refine ⟨by rw [hwords, List.length_replicate], hcursor, fun word hmem => ?_⟩
  rw [hwords] at hmem
  rw [List.eq_of_mem_replicate hmem]
  exact Nat.zero_le _

theorem inGrid_verifyClear (hcount : v.secrets.mnemonic.wordCount = n) (hpos : 0 < n)
    (hn : n ≤ 24) : InGrid n (v.verifyClear lib) := by
  refine inGrid_of_words ?_ ?_
  · show (if v.secrets.mnemonic.wordCount ≤ 0 then v.secrets.mnemonic.wordCount - 1 else 0) < n
    split_ifs <;> omega
  · show (v.slotsForMnemonic v.secrets.verification.clear).words = _
    rw [Secret.clear_eq_wiped]
    exact words_slotsForMnemonic hcount hpos hn

/-- An edit that is not `clear` changes the cell under the cursor alone. -/
theorem retyped_perform (h : InGrid n v) (hcount : v.secrets.mnemonic.wordCount = n)
    (hn : n ≤ 24) (lib : Bip39) {edit : GridEdit} (hclear : edit ≠ .clear) :
    Retyped n v (v.perform lib edit) := by
  cases edit with
  | type c => exact retyped_verifyType h hcount hn c
  | move delta => exact retyped_verifySetCursor h hcount _
  | cell index => exact retyped_verifySetCursor h hcount index
  | backspace => exact retyped_verifyBackspace h hcount
  | deleteWord => exact retyped_verifyDeleteWord h hcount
  | clear => exact absurd rfl hclear
  | suggestion i => exact retyped_applyVerifySuggestion h hcount hn i

/-- An edit stays in the grid, and leaves the mnemonic alone. -/
theorem inGrid_perform (h : InGrid n v) (hcount : v.secrets.mnemonic.wordCount = n)
    (hn : n ≤ 24) (lib : Bip39) (edit : GridEdit) :
    InGrid n (v.perform lib edit) ∧ (v.perform lib edit).secrets.mnemonic = v.secrets.mnemonic := by
  by_cases hclear : edit = .clear
  · subst hclear
    exact ⟨inGrid_verifyClear hcount (Nat.zero_lt_of_lt h.cursor) hn, rfl⟩
  · have hretyped := retyped_perform h hcount hn lib hclear
    exact ⟨h.retyped hretyped, hretyped.mnemonic⟩

/-- Over any sequence of edits the grid keeps its cells, the cursor stays in one of them, every
edit but `clear` leaves the other cells alone, and no cell gets longer than eight letters; the
comparison says complete exactly of the text of the mnemonic, and marks the cells that are wrong. -/
theorem verification_grid (lib : Bip39) (hreference : Reference n v.secrets.mnemonic) (hn : n ≤ 24)
    (hstart : v.secrets.verification = v.slotsForMnemonic .wiped) (hcursor : v.verifyCursor < n)
    (edits : List GridEdit) :
    let v' := run (perform lib) v edits
    let grid := v'.secrets.verification
    let m := compareGrid grid v.secrets.mnemonic v'.verifyCursor
    v'.secrets.mnemonic = v.secrets.mnemonic ∧ grid.slotCount = n ∧ v'.verifyCursor < n ∧
      (∀ word ∈ grid.words, word.length ≤ 8) ∧
      (∀ edit, edit ≠ .clear → ∀ i, i ≠ v'.verifyCursor →
        (v'.perform lib edit).secrets.verification.words[i]? = grid.words[i]?) ∧
      (m.complete = true ↔ grid.text = v.secrets.mnemonic.text) ∧
      ∀ i, Mask.Has m.wrong i ↔ WrongCell grid v.secrets.mnemonic v'.verifyCursor i := by
  have hcount := hreference.wordCount
  have hpos : 0 < n := Nat.zero_lt_of_lt hcursor
  have hgrid : InGrid n v :=
    inGrid_of_words hcursor (hstart ▸ words_slotsForMnemonic hcount hpos hn)
  have hstep (v' : CreateView) (edit : GridEdit)
      (h : InGrid n v' ∧ v'.secrets.mnemonic = v.secrets.mnemonic) :
      InGrid n (v'.perform lib edit) ∧
        (v'.perform lib edit).secrets.mnemonic = v.secrets.mnemonic := by
    obtain ⟨hin, hsame⟩ := inGrid_perform h.1 (h.2 ▸ hcount) hn lib edit
    exact ⟨hin, hsame.trans h.2⟩
  obtain ⟨hin, hmnemonic⟩ := Runs.run_invariant hstep edits ⟨hgrid, rfl⟩
  intro v' grid m
  have hslots : grid.slotCount = grid.words.length := grid.clean.refinesWords.slotCount
  refine ⟨hmnemonic, hslots.trans hin.slots, hin.cursor, hin.short, ?_, ?_, ?_⟩
  · intro edit hclear i hi
    obtain ⟨word, -, hwords⟩ :=
      (retyped_perform hin (hmnemonic ▸ hcount) hn lib hclear).cell
    rw [hwords]
    exact List.getElem?_set_ne hi.symm
  · exact complete_iff (hin.slots.trans hreference.length.symm) (by rw [hreference.length]; omega)
      hreference.ne_nil
  · intro i
    refine has_wrong_iff.trans (and_iff_right_of_imp ?_)
    rintro ⟨word, right, -, hright, -⟩
    have hlt := (List.getElem?_eq_some_iff.mp hright).1
    have hlen := hreference.length
    omega

/-- The grid and the reference, once the grid is put in. -/
theorem secrets_setVerification (v : CreateView) (s : Secret) :
    (v.setVerification s).secrets.verification = s ∧
      (v.setVerification s).secrets.mnemonic = v.secrets.mnemonic ∧
      (v.setVerification s).slotsForMnemonic .wiped = v.slotsForMnemonic .wiped :=
  ⟨rfl, rfl, rfl⟩

end

/-- A mnemonic of two words. -/
def twoWords : Phrase where
  words :=
    [⟨[0x7a, 0x6f, 0x6f], List.all_eq_true.mp (by decide), by decide, by decide⟩,
      ⟨[0x61, 0x62, 0x61, 0x6e, 0x64, 0x6f, 0x6e], List.all_eq_true.mp (by decide), by decide,
        by decide⟩]
  length_le := by decide

/-- The page on which they are typed back. -/
def typingBack : CreateView :=
  let a := AppWindow.start {} fun _ => none
  { toMachine := { a.toMachine with
      secrets := { a.secrets with mnemonic := (Secret.wiped.assign twoWords).2 } } }

theorem verification_grid_typingBack :
    let v := typingBack.setVerification (typingBack.slotsForMnemonic .wiped)
    let v' := run (perform ⟨none, fun _ => none⟩) v
      [.type 0x7a, .type 0x6f, .type SecureString.space, .backspace]
    v'.secrets.verification.slotCount = 2 ∧ v'.verifyCursor < 2 := by
  have htext : typingBack.secrets.mnemonic.text = twoWords.text :=
    Secret.text_assign (by decide)
  have hreference : Reference 2 typingBack.secrets.mnemonic :=
    reference_of_phrase htext (List.cons_ne_nil _ _)
  -- rewritten, so that no buffer is evaluated
  obtain ⟨hgrid, hmnemonic, hslotsFor⟩ :=
    secrets_setVerification typingBack (typingBack.slotsForMnemonic .wiped)
  obtain ⟨-, hslots, hcursor, -⟩ := verification_grid ⟨none, fun _ => none⟩
    (v := typingBack.setVerification (typingBack.slotsForMnemonic .wiped))
    (hmnemonic.symm ▸ hreference) (by decide) (hgrid.trans hslotsFor.symm) (by decide)
    [.type 0x7a, .type 0x6f, .type SecureString.space, .backspace]
  exact ⟨hslots, hcursor⟩

end CreateView

end SignerOS
