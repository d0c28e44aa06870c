import SignerOS.SecureStringWords
import SignerOS.Ui.SecretsTheorems

/-!
# The words of a buffer

* one theorem for each edit of the grid, on the words it leaves;
* `Secret.Lettered`, every word is of lower-case letters: what a buffer is that words are typed
  into, since the space only separates them;
* `Secret.wordCount_eq` and `Secret.words_normaliseWhitespace`, the words that are not empty are
  those that count, and those that are left.
-/

namespace SignerOS

open SecureString (space isSpace)

/-! ## Letters -/

theorem isSpace_of_isLower {c : UInt8} (h : isLower c = true) : isSpace c = false := by
  unfold isLower at h
  obtain ⟨hlow, -⟩ := Bool.and_eq_true_iff.mp h
  have hle : (0x61 : UInt8) ≤ c := of_decide_eq_true hlow
  -- the four blanks stand before the letters
  have hne : ∀ d : UInt8, d < 0x61 → (c == d) = false := by
    intro d hd
    rw [beq_eq_false_iff_ne]
    rintro rfl
    exact absurd (UInt8.lt_of_lt_of_le hd hle) (UInt8.lt_irrefl _)
  unfold isSpace
  rw [hne space (by decide), hne 0x09 (by decide), hne 0x0a (by decide), hne 0x0d (by decide)]
  rfl

theorem isLower_of_isBip39Char {c : UInt8} (h : isBip39Char c = true) (hspace : c ≠ space) :
    isLower c = true := by
  unfold isBip39Char at h
  rcases Bool.or_eq_true_iff.mp h with h | h
  · exact h
  · exact absurd (beq_iff_eq.mp h) hspace

namespace Secret

variable {s s' : Secret} {index : ℕ} {word : Bytes}

/-! ## Edits -/

/-- Every word is of lower-case letters. -/
def Lettered (s : Secret) : Prop := ∀ word ∈ s.words, ∀ c ∈ word, isLower c = true

/-- The grid has as many slots as before, and no character that is not a letter if it had none. -/
structure Respelled (s s' : Secret) : Prop where
  length : s'.words.length = s.words.length
  lettered : s.Lettered → s'.Lettered

theorem Respelled.refl (s : Secret) : s.Respelled s := ⟨rfl, id⟩

/-- The words an operation leaves, by what it makes of the array. -/
theorem words_perform (s : Secret) (op : SecureString.Op) (h : op.added ≤ kCapacity) :
    (s.perform op h).words = (s.str.step op).words := by
  rw [words, str_perform]

theorem words_clearSlot (hword : s.words[index]? = some word) :
    (s.clearSlot index).words = s.words.set index [] :=
  (s.words_perform (.clearSlot index) (Nat.zero_le _)).trans
    (s.clean.refinesWords.clearSlot index word hword)

theorem words_backspaceInSlot (hword : s.words[index]? = some word) :
    (s.backspaceInSlot index).words = s.words.set index word.dropLast :=
  (s.words_perform (.backspaceInSlot index) (Nat.zero_le _)).trans
    (s.clean.refinesWords.backspaceInSlot index word hword)

theorem words_appendToSlot (hword : s.words[index]? = some word) {c : UInt8} (hc : c ≠ space)
    (hroom : s.text.length + 1 < kCapacity) :
    (s.appendToSlot index c).1 = true ∧
      (s.appendToSlot index c).2.words = s.words.set index (word ++ [c]) := by
  obtain ⟨hok, hset⟩ := s.clean.refinesWords.appendToSlot index word c hword hc hroom
  exact ⟨hok, (s.words_perform (.appendToSlot index c) (Nat.zero_le _)).trans hset⟩

theorem space_notMem_letters (w : Word) : space ∉ w.letters :=
  fun hmem => isLower_ne_space (w.lower _ hmem) rfl

theorem words_setSlot (hword : s.words[index]? = some word) (w : Word)
    (hroom : s.text.length - word.length + w.letters.length < kCapacity) :
    (s.setSlot index w).words = s.words.set index w.letters :=
  (s.words_perform (.setSlot index (some w.letters)) (word_added w)).trans
    (s.clean.refinesWords.setSlot index word w.letters hword (space_notMem_letters w) hroom).2

theorem respelled_of_words (h : s'.words = s.words) : s.Respelled s' :=
  ⟨congrArg List.length h, fun hletters => by rwa [Lettered, h]⟩

/-- One word is replaced by letters. -/
theorem respelled_of_set (h : s'.words = s.words.set index word)
    (hword : s.Lettered → ∀ c ∈ word, isLower c = true) : s.Respelled s' := by
  refine ⟨by rw [h, List.length_set], fun hletters word' hmem => ?_⟩
  rw [h] at hmem
  rcases List.mem_or_eq_of_mem_set hmem with hmem | rfl
  · exact hletters word' hmem
  · exact hword hletters

theorem Lettered.of_getElem? (h : s.Lettered) (hword : s.words[index]? = some word) :
    ∀ c ∈ word, isLower c = true := h word (List.mem_of_getElem? hword)

theorem respelled_clearSlot (s : Secret) (index : ℕ) : s.Respelled (s.clearSlot index) := by
  have hwords := s.words_perform (.clearSlot index) (Nat.zero_le _)
  cases hword : s.words[index]? with
  | none =>
    have hsame := (s.clean.refinesWords.slot_refused index (List.getElem?_eq_none_iff.mp hword)).2
    exact respelled_of_words (hwords.trans (congrArg SecureString.words hsame))
  | some word =>
    exact respelled_of_set (words_clearSlot hword) fun _ c hmem => absurd hmem List.not_mem_nil

theorem respelled_backspaceInSlot (s : Secret) (index : ℕ) :
    s.Respelled (s.backspaceInSlot index) := by
  have hwords := s.words_perform (.backspaceInSlot index) (Nat.zero_le _)
  cases hword : s.words[index]? with
  | none =>
    have hsame := (s.clean.refinesWords.slot_refused index (List.getElem?_eq_none_iff.mp hword)).1
    exact respelled_of_words (hwords.trans (congrArg SecureString.words hsame))
  | some word =>
    refine respelled_of_set (words_backspaceInSlot hword) fun hletters c hmem => ?_
    exact hletters.of_getElem? hword c (List.dropLast_subset word hmem)

theorem respelled_appendToSlot (s : Secret) (index : ℕ) {c : UInt8} (hc : isLower c = true) :
    s.Respelled (s.appendToSlot index c).2 := by
  have hwords := s.words_perform (.appendToSlot index c) (Nat.zero_le _)
  have hrefines := s.clean.refinesWords
  have hspace : c ≠ space := isLower_ne_space hc
  cases hword : s.words[index]? with
  | none =>
    have hrefused := hrefines.appendToSlot_refused index c
      (Or.inr (List.getElem?_eq_none_iff.mp hword))
    exact respelled_of_words (hwords.trans (congrArg (fun r => r.2.words) hrefused))
  | some word =>
    by_cases hroom : s.str.text.length + 1 < kCapacity
    · refine respelled_of_set (words_appendToSlot hword hspace hroom).2 fun hletters d hmem => ?_
      rcases List.mem_append.mp hmem with hmem | hmem
      · exact hletters.of_getElem? hword d hmem
      · rw [List.mem_singleton.mp hmem]
        exact hc
    · have hfull := hrefines.appendToSlot_full index word c hword hspace hroom
      exact respelled_of_words (hwords.trans (congrArg (fun r => r.2.words) hfull))

theorem respelled_setSlot (s : Secret) (index : ℕ) (w : Word) :
    s.Respelled (s.setSlot index w) := by
  have hwords := s.words_perform (.setSlot index (some w.letters)) (word_added w)
  have hrefines := s.clean.refinesWords
  have hspace := space_notMem_letters w
  cases hword : s.words[index]? with
  | none =>
    have hrefused := hrefines.setSlot_refused index w.letters
      (Or.inr (List.getElem?_eq_none_iff.mp hword))
    exact respelled_of_words (hwords.trans (congrArg (fun r => r.2.words) hrefused))
  | some word =>
    by_cases hroom : s.str.text.length - word.length + w.letters.length < kCapacity
    · exact respelled_of_set (words_setSlot hword w hroom) fun _ => w.lower
    · -- the word that stood there is gone
      have hsmall : s.str.text.length + w.letters.length + 1 < 2 ^ 64 := by
        have hadded : (SecureString.Op.setSlot index (some w.letters)).added ≤ kCapacity :=
          word_added w
        have hlen := s.small hadded
        rwa [SecureString.Small, s.clean.len_eq] at hlen
      have hset := hwords.trans
        (hrefines.setSlot_full index word w.letters hword hspace hsmall hroom).2
      exact respelled_of_set hset fun _ c hmem => absurd hmem List.not_mem_nil

/-- A grid of so many slots is cut or filled up with empty ones, where there is room. -/
theorem words_setSlotCount (s : Secret) {count : ℕ} (hpos : 1 ≤ count) (h : count ≤ kCapacity) :
    (s.setSlotCount count h).words
        = s.words.take count ++ List.replicate (count - s.words.length) [] ∨
      s.words.length < count ∧ (s.setSlotCount count h).words = s.words := by
  have hwords := s.words_perform (.setSlotCount count) h
  have hrefines := s.clean.refinesWords
  by_cases hroom : s.str.text.length + (count - s.str.words.length) < kCapacity
  · exact Or.inl (hwords.trans (hrefines.setSlotCount count hpos hroom).2)
  · refine Or.inr ⟨?_, ?_⟩
    · have htext := s.clean.room
      show s.str.words.length < count
      omega
    · have hsmall : s.str.text.length + count + 1 < 2 ^ 64 := by
        have hlen := s.small (show (SecureString.Op.setSlotCount count).added ≤ kCapacity from h)
        rwa [SecureString.Small, s.clean.len_eq] at hlen
      have hfull := hrefines.setSlotCount_full count hpos hsmall hroom
      exact hwords.trans (congrArg (fun r => r.2.words) hfull)

theorem length_words_setSlotCount (s : Secret) {count : ℕ} (hpos : 1 ≤ count)
    (h : count ≤ kCapacity) : (s.setSlotCount count h).words.length ≤ count := by
  rcases s.words_setSlotCount hpos h with hwords | ⟨hlt, hwords⟩
  · rw [hwords, List.length_append, List.length_take, List.length_replicate]
    omega
  · rw [hwords]
    exact Nat.le_of_lt hlt

theorem Lettered.setSlotCount (hletters : s.Lettered) {count : ℕ} (hpos : 1 ≤ count)
    (h : count ≤ kCapacity) : (s.setSlotCount count h).Lettered := by
  rcases s.words_setSlotCount hpos h with hwords | ⟨-, hwords⟩
  · intro word hmem
    rw [hwords] at hmem
    rcases List.mem_append.mp hmem with hmem | hmem
    · exact hletters word (List.mem_of_mem_take hmem)
    · rw [List.eq_of_mem_replicate hmem]
      exact fun c hc => absurd hc List.not_mem_nil
  · rwa [Lettered, hwords]

theorem words_wiped : wiped.words = [[]] := by
  show wiped.text.splitOn space = [[]]
  rw [text_wiped, List.splitOn_nil]

theorem lettered_wiped : wiped.Lettered := by
  intro word hmem
  rw [words_wiped, List.mem_singleton] at hmem
  rw [hmem]
  exact fun c hc => absurd hc List.not_mem_nil

theorem lettered_clear (s : Secret) : s.clear.Lettered := by
  rw [clear_eq_wiped]
  exact lettered_wiped

/-! ## Words that are not empty -/

theorem text_eq_intercalate (s : Secret) : s.text = [space].intercalate s.words :=
  (List.intercalate_splitOn space).symm

/-- The text is the words and one space between each. -/
theorem length_text_lt {k : ℕ} (h : ∀ word ∈ s.words, word.length ≤ k) :
    s.text.length < (k + 1) * s.words.length := by
  have hloop (words : List Bytes) (hne : words ≠ []) (h : ∀ word ∈ words, word.length ≤ k) :
      ([space].intercalate words).length < (k + 1) * words.length := by
    induction words with
    | nil => exact absurd rfl hne
    | cons word words ih =>
      obtain ⟨hword, hwords⟩ := List.forall_mem_cons.mp h
      cases words with
      | nil =>
        rw [List.intercalate_singleton, List.length_singleton]
        omega
      | cons next words =>
        have hrest := ih (List.cons_ne_nil _ _) hwords
        rw [List.intercalate_cons_cons, List.length_append, List.length_append,
          List.length_singleton, List.length_cons (a := word), Nat.mul_add]
        omega
  rw [text_eq_intercalate]
  exact hloop s.words (List.splitOn_ne_nil _ _) h

theorem Lettered.unspaced (h : s.Lettered) : SecureString.Unspaced s.words :=
  fun word hword c hc => isSpace_of_isLower (h word hword c hc)

/-- The words that count are the ones that are not empty. -/
theorem wordCount_eq (h : s.Lettered) : s.wordCount = (filled s.words).length := by
  show SecureString.wordCountFrom false s.text = (filled s.words).length
  rw [text_eq_intercalate, SecureString.wordCountFrom_intercalate h.unspaced]

theorem wordCount_le_length (h : s.Lettered) : s.wordCount ≤ s.words.length := by
  rw [wordCount_eq h]
  exact List.length_filter_le _ _

/-- What `normaliseWhitespace` leaves are the words that are not empty. -/
theorem words_normaliseWhitespace (h : s.Lettered) (hne : filled s.words ≠ []) :
    s.normaliseWhitespace.words = filled s.words := by
  -- the loop joins the words, and joining skips the empty ones
  have hcollapse : SecureString.collapseFrom [] false ([space].intercalate s.words)
      = s.words.foldl SecureString.joinWord [] :=
    SecureString.collapseFrom_intercalate h.unspaced []
  have htext : s.normaliseWhitespace.text = [space].intercalate (filled s.words) := by
    rw [text_normaliseWhitespace, text_eq_intercalate, hcollapse,
      SecureString.foldl_joinWord_filled,
      SecureString.foldl_joinWord_nil fun word hmem => ne_nil_of_mem_filled hmem]
  show s.normaliseWhitespace.text.splitOn space = filled s.words
  rw [htext]
  refine List.splitOn_intercalate space (fun word hmem hspace => ?_) hne
  exact isLower_ne_space (h word (List.mem_of_mem_filter hmem) space hspace) rfl

/-- A grid whose first slots are filled is not emptied by `normaliseWhitespace`. -/
theorem Lettered.normaliseWhitespace (h : s.Lettered) (hpos : 0 < s.firstEmptySlot) :
    s.normaliseWhitespace.Lettered ∧ s.firstEmptySlot ≤ s.normaliseWhitespace.firstEmptySlot := by
  have hfirst : s.firstEmptySlot = s.words.findIdx fun word => word.isEmpty :=
    s.clean.refinesWords.firstEmptySlot
  have hle : s.firstEmptySlot ≤ (filled s.words).length := hfirst ▸ findIdx_isEmpty_le s.words
  have hne : filled s.words ≠ [] := List.ne_nil_of_length_pos (Nat.lt_of_lt_of_le hpos hle)
  have hwords := words_normaliseWhitespace h hne
  constructor
  · intro word hmem
    rw [hwords] at hmem
    exact h word (List.mem_of_mem_filter hmem)
  · have hfirst' : s.normaliseWhitespace.firstEmptySlot
        = (filled s.words).findIdx fun word => word.isEmpty := by
      rw [← hwords]
      exact s.normaliseWhitespace.clean.refinesWords.firstEmptySlot
    -- none of the words that are left is empty
    have hall : (filled s.words).findIdx (fun word => word.isEmpty) = (filled s.words).length :=
      List.findIdx_eq_length.mpr fun word hmem => by simpa using ne_nil_of_mem_filled hmem
    rw [hfirst', hall]
    exact hle

/-- The words of what the library generates. -/
theorem words_of_phrase {p : Phrase} (h : s.text = p.text) (hne : p.words ≠ []) :
    s.words = p.words.map Word.letters := by
  have hspace : ∀ word ∈ p.words.map Word.letters, space ∉ word := by
    intro word hmem
    obtain ⟨w, -, rfl⟩ := List.mem_map.mp hmem
    exact space_notMem_letters w
  show s.text.splitOn space = p.words.map Word.letters
  rw [h]
  exact List.splitOn_intercalate space hspace (by simpa using hne)

/-- What the library generates is letters. -/
theorem lettered_of_phrase {p : Phrase} (h : s.text = p.text) : s.Lettered := by
  by_cases hnil : p.words = []
  · have hwiped : s = wiped := by
      rw [← text_eq_nil_iff, h, Phrase.text, hnil]
      rfl
    rw [hwiped]
    exact lettered_wiped
  · intro word hmem
    rw [words_of_phrase h hnil] at hmem
    obtain ⟨w, -, rfl⟩ := List.mem_map.mp hmem
    exact w.lower

end Secret

end SignerOS
