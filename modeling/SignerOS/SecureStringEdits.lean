import SignerOS.SecureStringWords

/-!
# What an edit of the grid can do to its words

* `SecureString.failed_edit_unchanged_iff`, the edits that leave everything as it was when they
  fail;
* `SecureString.complete_grid_canonical`, the grids whose filled cells are the words that count.
-/

namespace SignerOS

namespace SecureString

/-! ## Edits that fail -/

/-- The edits that report whether they were made; `assign` is not one of them, it clears first. -/
inductive Edit
  | append (c : UInt8)
  | appendChars (chars : Option Bytes)
  | setSlotCount (count : ℕ)
  | appendToSlot (index : ℕ) (c : UInt8)
  | setSlot (index : ℕ) (chars : Option Bytes)

def edit (s : SecureString) : Edit → Bool × SecureString
  | .append c => s.append c
  | .appendChars chars => s.appendChars chars
  | .setSlotCount count => s.setSlotCount count
  | .appendToSlot index c => s.appendToSlot index c
  | .setSlot index chars => s.setSlot index chars

/-- The text, the number of slots and every slot are as they were. -/
def Unchanged (s s' : SecureString) : Prop :=
  s'.text = s.text ∧ s'.slotCount = s.slotCount ∧
    ∀ index, s'.slotSpan index = s.slotSpan index ∧
      ∀ out, s'.copySlot index out = s.copySlot index out

theorem unchanged_of_text {s s' : SecureString} (h : s'.text = s.text) : s.Unchanged s' := by
  have hspan (index : ℕ) : s'.slotSpan index = s.slotSpan index := by
    rw [slotSpan, slotSpan, h]
  refine ⟨h, ?_, fun index => ⟨hspan index, fun out => ?_⟩⟩
  · rw [slotCount, slotCount, h]
  · simp only [copySlot, hspan, h]

/-- What replaces a word fits where the word stood. -/
def Edit.Fits (s : SecureString) : Edit → Prop
  | .setSlot index (some cs) =>
    ∀ w, s.words[index]? = some w → w ≠ [] → cs ≠ [] → space ∉ cs →
      fits (s.len - w.length) cs.length = true
  | _ => True

theorem insertAt_of_failed {s : SecureString} {pos : ℕ} {chars : Option Bytes}
    (h : (s.insertAt pos chars).1 = false) : s.insertAt pos chars = (false, s) := by
  unfold insertAt at h ⊢
  split at h
  · rfl
  · split_ifs at h ⊢
    · rfl
    · rfl

/-- An edit that is not composed of two leaves the buffer itself as it was. -/
theorem edit_of_failed {s : SecureString} {e : Edit} (he : ∀ index chars, e ≠ .setSlot index chars)
    (h : (s.edit e).1 = false) : (s.edit e).2 = s := by
  cases e with
  | append c =>
    dsimp only [edit, append] at h ⊢
    split_ifs at h ⊢
    rfl
  | appendChars chars =>
    dsimp only [edit, appendChars] at h ⊢
    split at h
    · rfl
    · split_ifs at h ⊢
      rfl
  | setSlotCount count =>
    dsimp only [edit, setSlotCount] at h ⊢
    split_ifs at h ⊢
    · rfl
    · rfl
    · split at h
      · simp [*]
      · exact absurd h (by simp)
  | appendToSlot index c =>
    dsimp only [edit, appendToSlot] at h ⊢
    split_ifs at h ⊢
    · rfl
    · cases hspan : s.slotSpan index with
      | none => rfl
      | some span =>
        rw [hspan] at h
        exact congrArg Prod.snd (insertAt_of_failed h)
  | setSlot index chars => exact absurd rfl (he index chars)

theorem length_text {s : SecureString} (h : s.len < kCapacity) : s.text.length = s.len := by
  rw [text, List.length_take, Vector.length_toList]
  omega

/-- Cutting a word out shortens the text. -/
theorem len_eraseAt_slot {s : SecureString} (h : s.len < kCapacity) {index : ℕ} {w : Bytes}
    (hw : s.words[index]? = some w) (hne : w ≠ []) :
    (s.eraseAt (Slots.start space s.text index) w.length).len = s.len - w.length := by
  have hspan := Slots.start_add_length_le hw
  have hpos : 0 < w.length := List.length_pos_iff.mpr hne
  rw [length_text h] at hspan
  rw [eraseAt, if_neg (by omega)]
  dsimp only
  omega

/-- Cutting a word out changes the text. -/
theorem not_unchanged_eraseAt_slot {s : SecureString} (h : s.len < kCapacity) {index : ℕ}
    {w : Bytes} (hw : s.words[index]? = some w) (hne : w ≠ []) :
    ¬ s.Unchanged (s.eraseAt (Slots.start space s.text index) w.length) := by
  intro hkept
  have hlen := len_eraseAt_slot h hw hne
  have htext : (s.eraseAt (Slots.start space s.text index) w.length).text.length =
      s.text.length := congrArg List.length hkept.1
  have hspan := Slots.start_add_length_le hw
  have hpos : 0 < w.length := List.length_pos_iff.mpr hne
  rw [length_text h, length_text (by omega), hlen] at htext
  rw [length_text h] at hspan
  omega

/-- Inserting a word where one was cut out fails only for want of room. -/
theorem insertAt_eraseAt_slot {s : SecureString} (h : s.len < kCapacity) {index : ℕ} {w : Bytes}
    (hw : s.words[index]? = some w) (hne : w ≠ []) (cs : Bytes) :
    (s.eraseAt (Slots.start space s.text index) w.length).insertAt
        (Slots.start space s.text index) (some cs) =
      if cs ≠ [] ∧ fits (s.len - w.length) cs.length = false then
        (false, s.eraseAt (Slots.start space s.text index) w.length)
      else (true, ((s.eraseAt (Slots.start space s.text index) w.length).insertAt
        (Slots.start space s.text index) (some cs)).2) := by
  have hspan := Slots.start_add_length_le hw
  rw [length_text h] at hspan
  have hlen := len_eraseAt_slot h hw hne
  rw [insertAt, if_neg (by omega), hlen]
  by_cases hcs : cs = []
  · simp [hcs]
  · have hcslen : ¬ cs.length = 0 := by simpa using hcs
    rw [if_neg hcslen]
    cases hfits : fits (s.len - w.length) cs.length with
    | false => simp [hcs]
    | true => simp [hcs]

/-- Putting a word in a slot leaves everything as it was, where it fails, exactly when the word
fits where the other stood. -/
theorem failed_setSlot_unchanged_iff {s : SecureString} (h : s.len < kCapacity) (index : ℕ)
    (cs : Bytes) :
    ((s.setSlot index (some cs)).1 = false → s.Unchanged (s.setSlot index (some cs)).2) ↔
      Edit.Fits s (.setSlot index (some cs)) := by
  by_cases hrefused : space ∈ cs ∨ s.words.length ≤ index
  · rw [setSlot_of_refused hrefused]
    refine iff_of_true (fun _ => unchanged_of_text rfl) ?_
    intro w hw _ _ hcs
    have hlt := (List.getElem?_eq_some_iff.mp hw).1
    exact absurd (hrefused.resolve_left hcs) (by omega)
  · push Not at hrefused
    obtain ⟨w, hw⟩ : ∃ w, s.words[index]? = some w :=
      ⟨_, List.getElem?_eq_getElem hrefused.2⟩
    rw [setSlot_of_word hw hrefused.1]
    by_cases hnil : w = []
    · -- nothing is cut out of an empty slot
      have hsame : s.eraseAt (Slots.start space s.text index) w.length = s := by
        rw [eraseAt, if_pos (Or.inr (by simp [hnil]))]
      rw [hsame]
      refine iff_of_true (fun hfail => ?_) ?_
      · exact unchanged_of_text (congrArg text (congrArg Prod.snd (insertAt_of_failed hfail)))
      · intro w' hw' hne
        rw [hw] at hw'
        exact absurd ((Option.some.inj hw').symm.trans hnil) hne
    · rw [insertAt_eraseAt_slot h hw hnil]
      by_cases hfits : cs = [] ∨ fits (s.len - w.length) cs.length = true
      · -- the word is put in place of the other
        rw [if_neg (by rwa [not_and_or, not_not, Bool.not_eq_false])]
        refine iff_of_true (fun hfail => absurd hfail (by simp)) ?_
        intro w' hw' _ hcs _
        rw [Option.some.inj (hw'.symm.trans hw)]
        exact hfits.resolve_left hcs
      · push Not at hfits
        rw [if_pos ⟨hfits.1, by simpa using hfits.2⟩]
        refine iff_of_false (fun hkept => ?_) fun hfit =>
          hfits.2 (hfit w hw hnil hfits.1 hrefused.1)
        -- the old word is gone
        exact not_unchanged_eraseAt_slot h hw hnil (hkept rfl)

/-- An edit that reports failure leaves the text, the number of slots and every slot as they were
exactly when it is not a word put in place of a longer or shorter one that does not fit where that
one stood: `setSlot` has cut the old word out by the time it finds out. -/
theorem failed_edit_unchanged_iff (s : SecureString) (h : s.len < kCapacity) (e : Edit) :
    ((s.edit e).1 = false → s.Unchanged (s.edit e).2) ↔ e.Fits s := by
  by_cases he : ∀ index chars, e ≠ .setSlot index chars
  · refine iff_of_true (fun hfail => ?_) ?_
    · exact unchanged_of_text (congrArg text (edit_of_failed he hfail))
    · cases e with
      | setSlot index chars => exact absurd rfl (he index chars)
      | _ => trivial
  · push Not at he
    obtain ⟨index, chars, rfl⟩ := he
    cases chars with
    | none => exact iff_of_true (fun _ => unchanged_of_text rfl) trivial
    | some cs => exact failed_setSlot_unchanged_iff h index cs

/-- A word of three letters in front of one that takes all the room there is. -/
def nearlyFull : SecureString :=
  (new.appendChars (some ([0x7a, 0x6f, 0x6f] ++ space :: List.replicate 315 0x61))).2

theorem holds_nearlyFull :
    nearlyFull.Holds ([0x7a, 0x6f, 0x6f] ++ space :: List.replicate 315 0x61) := by
  refine (holds_new.appendChars_of_room ?_).2
  simp only [List.length_append, List.length_cons, List.length_replicate, List.length_nil]
  decide

theorem length_nearlyFull : nearlyFull.text.length = 319 := by
  rw [holds_nearlyFull.text_eq]
  simp only [List.length_append, List.length_cons, List.length_replicate, List.length_nil]

theorem word_nearlyFull : nearlyFull.words[0]? = some [0x7a, 0x6f, 0x6f] := by
  rw [words, holds_nearlyFull.text_eq, List.splitOn_append_cons_self_of_not_mem (by decide)]
  rfl

/-- Putting a word of four letters in place of one of three fails when there is room for three,
and the one of three is gone. -/
theorem setSlot_drops_word :
    (nearlyFull.setSlot 0 (some [0x7a, 0x65, 0x72, 0x6f])).1 = false ∧
      nearlyFull.slotLength 0 = 3 ∧
      (nearlyFull.setSlot 0 (some [0x7a, 0x65, 0x72, 0x6f])).2.slotLength 0 = 0 ∧
      ¬ nearlyFull.Unchanged (nearlyFull.setSlot 0 (some [0x7a, 0x65, 0x72, 0x6f])).2 := by
  obtain ⟨hfail, -, hwords⟩ : _ ∧ _ ∧ (nearlyFull.setSlot 0 (some [0x7a, 0x65, 0x72, 0x6f])).2.words
      = nearlyFull.words.set 0 [] :=
    holds_nearlyFull.clean.setSlot_of_full word_nearlyFull (by decide)
      (by rw [length_nearlyFull]; decide) (by rw [length_nearlyFull]; decide)
  have hold : nearlyFull.slotLength 0 = 3 := by
    rw [slotLength_eq, word_nearlyFull]
    rfl
  have hnew : (nearlyFull.setSlot 0 (some [0x7a, 0x65, 0x72, 0x6f])).2.slotLength 0 = 0 := by
    have hlt := (List.getElem?_eq_some_iff.mp word_nearlyFull).1
    rw [slotLength_eq, hwords, List.getElem?_set_self hlt]
    rfl
  refine ⟨hfail, hold, hnew, fun h => ?_⟩
  rw [slotLength, (h.2.2 0).1, ← slotLength, hold] at hnew
  exact absurd hnew (by decide)

/-- A word of three letters fits where one of three stood. -/
theorem failed_edit_unchanged_iff_fits :
    Edit.Fits nearlyFull (.setSlot 0 (some [0x6f, 0x6e, 0x65])) ∧
      ((nearlyFull.edit (.setSlot 0 (some [0x6f, 0x6e, 0x65]))).1 = false →
        nearlyFull.Unchanged (nearlyFull.edit (.setSlot 0 (some [0x6f, 0x6e, 0x65]))).2) := by
  have hlen : nearlyFull.len = 319 := by rw [holds_nearlyFull.clean.len_eq, length_nearlyFull]
  have hfits : Edit.Fits nearlyFull (.setSlot 0 (some [0x6f, 0x6e, 0x65])) := by
    intro w hw _ _ _
    rw [← Option.some.inj (word_nearlyFull.symm.trans hw), hlen]
    decide
  exact ⟨hfits, (failed_edit_unchanged_iff nearlyFull (by rw [hlen]; decide) _).mpr hfits⟩

/-! ## Complete grids -/

/-- The edits of a grid. -/
inductive GridOp
  | setSlotCount (count : ℕ)
  | appendToSlot (index : ℕ) (c : UInt8)
  | backspaceInSlot (index : ℕ)
  | clearSlot (index : ℕ)
  | setSlot (index : ℕ) (chars : Option Bytes)

/-- The edit as an operation of the buffer. -/
def GridOp.toOp : GridOp → Op
  | .setSlotCount count => .setSlotCount count
  | .appendToSlot index c => .appendToSlot index c
  | .backspaceInSlot index => .backspaceInSlot index
  | .clearSlot index => .clearSlot index
  | .setSlot index chars => .setSlot index chars

def gridStep (s : SecureString) (op : GridOp) : SecureString := s.step op.toOp

/-- A tab or a line end: a blank that is not the space between two slots. -/
def isOtherBlank (c : UInt8) : Bool := isSpace c && c != space

/-- Where there is such a slot and room for what is typed, the edit types no blank but, in vain, a
space; and its count or length does not wrap. -/
def Plain (s : SecureString) (op : GridOp) : Prop :=
  Small s op.toOp ∧
    match op with
    | .appendToSlot index c =>
      index < s.words.length → s.text.length + 1 < kCapacity → isOtherBlank c = false
    | .setSlot index (some cs) =>
      ∀ w, s.words[index]? = some w → space ∉ cs →
        s.text.length - w.length + cs.length < kCapacity → ∀ c ∈ cs, isOtherBlank c = false
    | _ => True

/-- The two readings of a grid agree: as many words count as there are slots exactly if no slot is
empty, and then the text is what `normaliseWhitespace` makes of it. -/
def ReadAlike (s : SecureString) : Prop :=
  (s.wordCount = s.slotCount ↔ s.firstEmptySlot = s.slotCount) ∧
    (s.wordCount = s.slotCount → s.normaliseWhitespace = s)

theorem isSpace_of_ne_space {c : UInt8} (h : isOtherBlank c = false) (hc : c ≠ space) :
    isSpace c = false := by
  rw [isOtherBlank, bne_iff_ne.mpr hc, Bool.and_true] at h
  exact h

theorem Unspaced.set {words : List Bytes} (h : Unspaced words) (index : ℕ) {word : Bytes}
    (hword : ∀ c ∈ word, isSpace c = false) : Unspaced (words.set index word) := by
  intro word' hmem
  rcases List.mem_or_eq_of_mem_set hmem with hmem | rfl
  · exact h word' hmem
  · exact hword

theorem filled_eq_self_iff (words : List Bytes) :
    (filled words).length = words.length ↔ ∀ word ∈ words, word ≠ [] := by
  rw [filled, List.length_filter_eq_length_iff]
  simp

/-- A clean buffer without other blanks is read alike as words and as slots. -/
theorem Clean.readAlike {s : SecureString} (h : s.Clean) (hwords : Unspaced s.words) :
    s.ReadAlike := by
  have htext : s.text = [space].intercalate s.words := (List.intercalate_splitOn space).symm
  have hcount : s.wordCount = (filled s.words).length := by
    rw [wordCount, htext, wordCountFrom_intercalate hwords]
  have hfirst : s.firstEmptySlot = s.words.findIdx fun word => word.isEmpty :=
    h.refinesWords.firstEmptySlot
  have hempty : s.firstEmptySlot = s.words.length ↔ ∀ word ∈ s.words, word ≠ [] := by
    rw [hfirst, List.findIdx_eq_length]
    simp
  constructor
  · rw [hcount, slotCount_eq, filled_eq_self_iff, hempty]
  · intro hfull
    rw [hcount, slotCount_eq, filled_eq_self_iff] at hfull
    -- no slot is empty, so all of them are words and stay as they stand
    have hall : filled s.words = s.words := List.filter_eq_self.mpr fun word hmem => by
      simpa using hfull word hmem
    have hholds := Holds.normaliseWhitespace h
    apply Clean.ext hholds.clean h
    rw [hholds.text_eq, collapseFrom_eq]
    nth_rewrite 1 [htext]
    rw [spaceWords_intercalate hwords, hall, ← htext]

/-- A plain edit leaves no other blank in the words. -/
theorem Clean.unspaced_gridStep {s : SecureString} (h : s.Clean) (hwords : Unspaced s.words)
    {op : GridOp} (hplain : s.Plain op) : Unspaced (s.gridStep op).words := by
  obtain ⟨hsmall, hchars⟩ := hplain
  have hrefines := h.refinesWords
  have hlen : s.text.length + op.toOp.added + 1 < 2 ^ 64 := by
    rw [← h.len_eq]
    exact hsmall
  cases op with
  | setSlotCount count =>
    show Unspaced (s.setSlotCount count).2.words
    by_cases hpos : count = 0
    · rw [setSlotCount, if_pos hpos]
      exact hwords
    · by_cases hroom : s.text.length + (count - s.words.length) < kCapacity
      · rw [(hrefines.setSlotCount count (by omega) hroom).2]
        intro word hmem
        rcases List.mem_append.mp hmem with hmem | hmem
        · exact hwords word (List.mem_of_mem_take hmem)
        · rw [List.eq_of_mem_replicate hmem]
          exact fun c hc => absurd hc List.not_mem_nil
      · rw [hrefines.setSlotCount_full count (by omega) hlen hroom]
        exact hwords
  | appendToSlot index c =>
    show Unspaced (s.appendToSlot index c).2.words
    cases hw : s.words[index]? with
    | none =>
      rw [appendToSlot_of_refused (Or.inr (List.getElem?_eq_none_iff.mp hw))]
      exact hwords
    | some w =>
      by_cases hc : c = space
      · rw [appendToSlot_of_refused (Or.inl hc)]
        exact hwords
      · by_cases hroom : s.text.length + 1 < kCapacity
        · rw [(hrefines.appendToSlot index w c hw hc hroom).2]
          refine hwords.set index fun d hd => ?_
          rcases List.mem_append.mp hd with hd | hd
          · exact hwords w (List.mem_of_getElem? hw) d hd
          · rw [List.mem_singleton.mp hd]
            exact isSpace_of_ne_space (hchars (List.getElem?_eq_some_iff.mp hw).1 hroom) hc
        · rw [hrefines.appendToSlot_full index w c hw hc hroom]
          exact hwords
  | backspaceInSlot index =>
    show Unspaced (s.backspaceInSlot index).words
    cases hw : s.words[index]? with
    | none =>
      rw [(hrefines.slot_refused index (List.getElem?_eq_none_iff.mp hw)).1]
      exact hwords
    | some w =>
      rw [hrefines.backspaceInSlot index w hw]
      exact hwords.set index fun c hc =>
        hwords w (List.mem_of_getElem? hw) c (List.dropLast_subset w hc)
  | clearSlot index =>
    show Unspaced (s.clearSlot index).words
    cases hw : s.words[index]? with
    | none =>
      rw [(hrefines.slot_refused index (List.getElem?_eq_none_iff.mp hw)).2]
      exact hwords
    | some w =>
      rw [hrefines.clearSlot index w hw]
      exact hwords.set index fun c hc => absurd hc List.not_mem_nil
  | setSlot index chars =>
    cases chars with
    | none => exact hwords
    | some cs =>
      show Unspaced (s.setSlot index (some cs)).2.words
      by_cases hrefused : space ∈ cs ∨ s.words.length ≤ index
      · rw [setSlot_of_refused hrefused]
        exact hwords
      · push Not at hrefused
        obtain ⟨w, hw⟩ : ∃ w, s.words[index]? = some w :=
          ⟨_, List.getElem?_eq_getElem hrefused.2⟩
        by_cases hroom : s.text.length - w.length + cs.length < kCapacity
        · rw [(hrefines.setSlot index w cs hw hrefused.1 hroom).2]
          have hplain := hchars w hw hrefused.1 hroom
          refine hwords.set index fun c hc => isSpace_of_ne_space (hplain c hc) ?_
          rintro rfl
          exact hrefused.1 hc
        · rw [(hrefines.setSlot_full index w cs hw hrefused.1 hlen hroom).2]
          exact hwords.set index fun c hc => absurd hc List.not_mem_nil

/-- In every state of a run of grid edits none of which brings a tab or a line end into a slot, the
filled cells are the words that count and a complete grid is in its canonical form. -/
theorem complete_grid_canonical (ops : List GridOp) (h : Runs.Along gridStep Plain new ops) :
    ∀ ops', ops' <+: ops → (Runs.run gridStep new ops').ReadAlike := by
  rintro ops' ⟨rest, rfl⟩
  have hinv : (Runs.run gridStep new ops').Clean ∧ Unspaced (Runs.run gridStep new ops').words := by
    refine Runs.Along.invariant (I := fun s => s.Clean ∧ Unspaced s.words) ?_ ?_
      (Runs.along_append.mp h).1
    · exact fun s op hs hplain => ⟨hs.1.step hplain.1, hs.1.unspaced_gridStep hs.2 hplain⟩
    · refine ⟨clean_new, fun word hmem => ?_⟩
      rw [words, text_new, List.splitOn_nil, List.mem_singleton] at hmem
      rw [hmem]
      exact fun c hc => absurd hc List.not_mem_nil
  exact hinv.1.readAlike hinv.2

/-- A tab typed into the only slot fills it, and no word counts. -/
theorem tab_fills_slot :
    (gridStep new (.appendToSlot 0 0x09)).slotCount = 1 ∧
      (gridStep new (.appendToSlot 0 0x09)).firstEmptySlot = 1 ∧
      (gridStep new (.appendToSlot 0 0x09)).wordCount = 0 ∧
      ¬ (Runs.run gridStep new [.appendToSlot 0 0x09]).ReadAlike := by
  have hslots : (gridStep new (.appendToSlot 0 0x09)).slotCount = 1 := by decide +kernel
  have hfirst : (gridStep new (.appendToSlot 0 0x09)).firstEmptySlot = 1 := by decide +kernel
  have hwords : (gridStep new (.appendToSlot 0 0x09)).wordCount = 0 := by decide +kernel
  refine ⟨hslots, hfirst, hwords, fun h => ?_⟩
  have hcount := h.1.mpr (hfirst.trans hslots.symm)
  exact absurd (hwords.symm.trans (hcount.trans hslots)) (by decide)

/-- Two words typed into a grid of two, and a tab into a third slot that is not there. -/
theorem complete_grid_canonical_two :
    (Runs.run gridStep new
      [.setSlotCount 2, .setSlot 1 (some [0x7a, 0x6f, 0x6f]), .appendToSlot 0 0x61,
        .appendToSlot 2 0x09]).ReadAlike :=
  complete_grid_canonical
    [.setSlotCount 2, .setSlot 1 (some [0x7a, 0x6f, 0x6f]), .appendToSlot 0 0x61,
      .appendToSlot 2 0x09]
    ⟨⟨by decide +kernel, trivial⟩, ⟨by decide +kernel, fun _ _ _ _ => by simp; decide⟩,
      ⟨by decide +kernel, fun _ _ => by decide⟩,
      ⟨by decide +kernel, fun hslot => absurd hslot (by decide +kernel)⟩, trivial⟩
    _ (List.prefix_refl _)

end SecureString

end SignerOS
