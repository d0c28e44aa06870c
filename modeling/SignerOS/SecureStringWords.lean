import SignerOS.SecureStringRefinement

/-!
# The words of a buffer, counted and collapsed

* `filled`, the words that are not empty: the ones `wordCount` counts
  (`SecureString.wordCountFrom_intercalate`) and `normaliseWhitespace` keeps
  (`SecureString.collapseFrom_intercalate`);
* `SecureString.spaceWords`, the words of any text, whatever blanks stand between them;
* `SecureString.normaliseWhitespace_canonical`, what `normaliseWhitespace` makes of a buffer.
-/

namespace SignerOS

open SecureString (space isSpace)

/-! ## Texts of words -/

/-- The words that are not empty. -/
def filled (words : List Bytes) : List Bytes := words.filter fun word => !word.isEmpty

theorem ne_nil_of_mem_filled {words : List Bytes} {word : Bytes} (h : word ∈ filled words) :
    word ≠ [] := by
  rintro rfl
  exact absurd (List.mem_filter.mp h).2 (by simp)

/-- The words in front of the first empty one are filled. -/
theorem findIdx_isEmpty_le (words : List Bytes) :
    words.findIdx (fun word => word.isEmpty) ≤ (filled words).length := by
  induction words with
  | nil => exact Nat.le_refl 0
  | cons word words ih =>
    rw [List.findIdx_cons]
    cases word with
    | nil => exact Nat.zero_le _
    | cons c word => exact Nat.succ_le_succ ih

namespace SecureString

/-- Words without a blank in them. -/
def Unspaced (words : List Bytes) : Prop := ∀ word ∈ words, ∀ c ∈ word, isSpace c = false

/-! ### Counting -/

theorem wordCountFrom_word {word : Bytes} (h : ∀ c ∈ word, isSpace c = false) (rest : Bytes) :
    wordCountFrom true (word ++ rest) = wordCountFrom true rest := by
  induction word with
  | nil => rfl
  | cons c word ih =>
    have hc : ¬ isSpace c = true := by simp [h c List.mem_cons_self]
    rw [List.cons_append, wordCountFrom, if_neg hc, if_pos rfl]
    exact ih fun c hmem => h c (List.mem_cons_of_mem _ hmem)

theorem wordCountFrom_false_word {word : Bytes} (h : ∀ c ∈ word, isSpace c = false)
    (rest : Bytes) :
    wordCountFrom false (word ++ rest)
      = if word.isEmpty then wordCountFrom false rest else wordCountFrom true rest + 1 := by
  cases word with
  | nil => rfl
  | cons c word =>
    have hc : ¬ isSpace c = true := by simp [h c List.mem_cons_self]
    rw [List.cons_append, wordCountFrom, if_neg hc]
    exact congrArg (· + 1)
      (wordCountFrom_word (fun c hmem => h c (List.mem_cons_of_mem _ hmem)) rest)

/-- `wordCount` counts the words that are not empty. -/
theorem wordCountFrom_intercalate {words : List Bytes} (h : Unspaced words) :
    wordCountFrom false ([space].intercalate words) = (filled words).length := by
  induction words with
  | nil => rfl
  | cons word words ih =>
    have hword : ∀ c ∈ word, isSpace c = false := h word List.mem_cons_self
    have hrest : Unspaced words := fun word hmem => h word (List.mem_cons_of_mem _ hmem)
    -- behind the word stands nothing, or the space that ends it
    obtain ⟨rest, htext, htail⟩ : ∃ rest, [space].intercalate (word :: words) = word ++ rest ∧
        ∀ inWord, wordCountFrom inWord rest = (filled words).length := by
      cases words with
      | nil =>
        refine ⟨[], by simp, fun inWord => ?_⟩
        cases inWord
        all_goals rfl
      | cons next words =>
        refine ⟨space :: [space].intercalate (next :: words), by simp, fun inWord => ?_⟩
        rw [wordCountFrom, if_pos (show isSpace space = true from rfl)]
        exact ih hrest
    rw [htext, wordCountFrom_false_word hword, htail, htail]
    cases word with
    | nil => rfl
    | cons c word => rfl

/-! ### Collapsing -/

theorem collapseFrom_word {word : Bytes} (h : ∀ c ∈ word, isSpace c = false) (out rest : Bytes) :
    collapseFrom out false (word ++ rest) = collapseFrom (out ++ word) false rest := by
  induction word generalizing out with
  | nil => rw [List.nil_append, List.append_nil]
  | cons c word ih =>
    have hc : ¬ isSpace c = true := by simp [h c List.mem_cons_self]
    rw [List.cons_append, collapseFrom, if_neg hc, if_neg Bool.false_ne_true,
      ih fun c hmem => h c (List.mem_cons_of_mem _ hmem), List.append_assoc]
    rfl

/-- A word behind what is left of the words before it. -/
def joinWord (out word : Bytes) : Bytes :=
  if word.isEmpty then out else if out.isEmpty then word else out ++ space :: word

theorem collapseFrom_pending_word {word : Bytes} (h : ∀ c ∈ word, isSpace c = false)
    (hne : word ≠ []) (out rest : Bytes) :
    collapseFrom out (decide (0 < out.length)) (word ++ rest)
      = collapseFrom (joinWord out word) false rest := by
  cases word with
  | nil => exact absurd rfl hne
  | cons c word =>
    have hc : ¬ isSpace c = true := by simp [h c List.mem_cons_self]
    have hword : ∀ c ∈ word, isSpace c = false := fun c hmem => h c (List.mem_cons_of_mem _ hmem)
    rw [List.cons_append, collapseFrom, if_neg hc]
    cases out with
    | nil => exact collapseFrom_word hword [c] rest
    | cons d out =>
      have hpending : decide (0 < (d :: out).length) = true := by simp
      rw [hpending, if_pos rfl, collapseFrom_word hword]
      simp [joinWord]

/-- `normaliseWhitespace` keeps the words that are not empty. -/
theorem collapseFrom_intercalate {words : List Bytes} (h : Unspaced words) (out : Bytes) :
    collapseFrom out (decide (0 < out.length)) ([space].intercalate words)
      = words.foldl joinWord out := by
  induction words generalizing out with
  | nil => rfl
  | cons word words ih =>
    have hword : ∀ c ∈ word, isSpace c = false := h word List.mem_cons_self
    have hrest : Unspaced words := fun word hmem => h word (List.mem_cons_of_mem _ hmem)
    -- a space makes the next word wait for one, if there is a word before it
    have hspace (out rest : Bytes) (pending : Bool)
        (hpending : pending = true → 0 < out.length) :
        collapseFrom out pending (space :: rest)
          = collapseFrom out (decide (0 < out.length)) rest := by
      rw [collapseFrom, if_pos (show isSpace space = true from rfl)]
      cases pending with
      | false => rfl
      | true => rw [Bool.true_or, decide_eq_true (hpending rfl)]
    rw [List.foldl_cons]
    -- an empty word leaves nothing, and the spaces around it become one
    by_cases hnil : word = []
    · subst hnil
      cases words with
      | nil => rfl
      | cons next words =>
        rw [List.intercalate_cons_cons, List.nil_append, List.singleton_append,
          hspace _ _ _ of_decide_eq_true]
        exact ih hrest out
    · cases words with
      | nil =>
        have hlast := collapseFrom_pending_word hword hnil out []
        rw [List.append_nil] at hlast
        rw [List.intercalate_singleton, hlast]
        rfl
      | cons next words =>
        rw [List.intercalate_cons_cons, List.append_assoc, List.singleton_append,
          collapseFrom_pending_word hword hnil, hspace _ _ _ (fun h => by cases h)]
        exact ih hrest _

theorem foldl_joinWord_filled (words : List Bytes) (out : Bytes) :
    words.foldl joinWord out = (filled words).foldl joinWord out := by
  induction words generalizing out with
  | nil => rfl
  | cons word words ih =>
    cases word with
    | nil => exact ih out
    | cons c word => exact ih (joinWord out (c :: word))

/-- Joining words that are not empty puts one space between two of them. -/
theorem foldl_joinWord {words : List Bytes} (h : ∀ word ∈ words, word ≠ []) {out : Bytes}
    (hout : out ≠ []) : words.foldl joinWord out = [space].intercalate (out :: words) := by
  induction words generalizing out with
  | nil => rw [List.intercalate_singleton, List.foldl_nil]
  | cons word words ih =>
    have hword : word ≠ [] := h word List.mem_cons_self
    have hjoin : joinWord out word = out ++ space :: word := by
      unfold joinWord
      rw [if_neg (by simp [hword]), if_neg (by simp [hout])]
    have hrest : ∀ word ∈ words, word ≠ [] := fun word hmem => h word (List.mem_cons_of_mem _ hmem)
    rw [List.foldl_cons, hjoin, ih hrest (by simp)]
    cases words with
    | nil => simp
    | cons next words => simp

theorem foldl_joinWord_nil {words : List Bytes} (h : ∀ word ∈ words, word ≠ []) :
    words.foldl joinWord [] = [space].intercalate words := by
  cases words with
  | nil => rfl
  | cons word words =>
    have hword : word ≠ [] := h word List.mem_cons_self
    have hjoin : joinWord [] word = word := by
      unfold joinWord
      rw [if_neg (by simp [hword])]
      rfl
    rw [List.foldl_cons, hjoin]
    exact foldl_joinWord (fun word hmem => h word (List.mem_cons_of_mem _ hmem)) hword

/-! ### Any text -/

/-- The words of a text: the pieces between blanks that are not empty. -/
def spaceWords (t : Bytes) : List Bytes := filled (t.splitOnP isSpace)

/-- A text whose blanks are all spaces. -/
def spaced (t : Bytes) : Bytes := t.map fun c => if isSpace c then space else c

theorem unspaced_splitOnP (t : Bytes) : Unspaced (t.splitOnP isSpace) := by
  induction t with
  | nil =>
    intro word hword
    rw [List.splitOnP_nil, List.mem_singleton] at hword
    rw [hword]
    exact fun c hc => absurd hc List.not_mem_nil
  | cons c t ih =>
    rw [List.splitOnP_cons_eq_if_modifyHead]
    split
    case isTrue hspace =>
      intro word hword
      rcases List.mem_cons.mp hword with rfl | hword
      · exact fun d hd => absurd hd List.not_mem_nil
      · exact ih word hword
    case isFalse hspace =>
      obtain ⟨first, rest, hpieces⟩ := List.exists_cons_of_ne_nil (List.splitOnP_ne_nil isSpace t)
      rw [hpieces] at ih ⊢
      intro word hword
      rcases List.mem_cons.mp hword with rfl | hword
      · intro d hd
        rcases List.mem_cons.mp hd with rfl | hd
        · simpa using hspace
        · exact ih first List.mem_cons_self d hd
      · exact ih word (List.mem_cons_of_mem _ hword)

/-- The pieces between blanks, with a space between two of them. -/
theorem spaced_eq (t : Bytes) : spaced t = [space].intercalate (t.splitOnP isSpace) := by
  induction t with
  | nil => rfl
  | cons c t ih =>
    obtain ⟨first, rest, hpieces⟩ := List.exists_cons_of_ne_nil (List.splitOnP_ne_nil isSpace t)
    rw [List.splitOnP_cons_eq_if_modifyHead, spaced, List.map_cons]
    rw [spaced, hpieces] at ih
    by_cases hspace : isSpace c = true
    · rw [if_pos hspace, if_pos hspace, hpieces, List.intercalate_cons_cons, ih]
      rfl
    · rw [if_neg hspace, if_neg hspace, hpieces, ih]
      cases rest with
      | nil => simp
      | cons next rest => simp

theorem isSpace_spaced (c : UInt8) : isSpace (if isSpace c then space else c) = isSpace c := by
  by_cases hspace : isSpace c = true
  · rw [if_pos hspace, hspace]
    rfl
  · rw [if_neg hspace]

/-- The loop of `wordCount` does not see which blank it is. -/
theorem wordCountFrom_spaced (inWord : Bool) (t : Bytes) :
    wordCountFrom inWord (spaced t) = wordCountFrom inWord t := by
  induction t generalizing inWord with
  | nil => rfl
  | cons c t ih =>
    have hrest := ih
    rw [spaced] at hrest ⊢
    rw [List.map_cons, wordCountFrom, wordCountFrom, isSpace_spaced, hrest, hrest]

/-- Nor does the loop of `normaliseWhitespace`. -/
theorem collapseFrom_spaced (out : Bytes) (pendingSpace : Bool) (t : Bytes) :
    collapseFrom out pendingSpace (spaced t) = collapseFrom out pendingSpace t := by
  induction t generalizing out pendingSpace with
  | nil => rfl
  | cons c t ih =>
    have hrest := ih
    rw [spaced] at hrest ⊢
    rw [List.map_cons, collapseFrom, collapseFrom, isSpace_spaced]
    by_cases hspace : isSpace c = true
    · rw [if_pos hspace, if_pos hspace, hrest]
    · rw [if_neg hspace, if_neg hspace, if_neg hspace, hrest, hrest]

theorem wordCountFrom_eq (t : Bytes) : wordCountFrom false t = (spaceWords t).length := by
  rw [← wordCountFrom_spaced, spaced_eq, wordCountFrom_intercalate (unspaced_splitOnP t)]
  rfl

/-- What is left of a text: its words with a single space between two of them. -/
theorem collapseFrom_eq (t : Bytes) :
    collapseFrom [] false t = [space].intercalate (spaceWords t) := by
  rw [← collapseFrom_spaced, spaced_eq]
  refine (collapseFrom_intercalate (unspaced_splitOnP t) []).trans ?_
  rw [foldl_joinWord_filled, foldl_joinWord_nil fun word hmem => ne_nil_of_mem_filled hmem]
  rfl

/-- The words of words between spaces. -/
theorem spaceWords_intercalate {words : List Bytes} (h : Unspaced words) :
    spaceWords ([space].intercalate words) = filled words := by
  induction words with
  | nil => rfl
  | cons word words ih =>
    have hword : ∀ c ∈ word, isSpace c = false := h word List.mem_cons_self
    have hrest : Unspaced words := fun word hmem => h word (List.mem_cons_of_mem _ hmem)
    cases words with
    | nil => rw [List.intercalate_singleton, spaceWords, List.splitOnP_eq_singleton hword]
    | cons next words =>
      have hpieces := List.splitOnP_append_cons word ([space].intercalate (next :: words))
        (show isSpace space = true from rfl)
      rw [List.splitOnP_eq_singleton hword] at hpieces
      rw [spaceWords, List.intercalate_cons_cons, List.append_assoc, List.singleton_append, hpieces,
        List.singleton_append]
      have htail := ih hrest
      rw [spaceWords] at htail
      cases word with
      | nil => exact htail
      | cons c word => exact congrArg (List.cons (c :: word)) htail

theorem filled_filled (words : List Bytes) : filled (filled words) = filled words := by
  rw [filled, filled, List.filter_filter]
  simp

theorem unspaced_spaceWords (t : Bytes) : Unspaced (spaceWords t) :=
  fun word hmem => unspaced_splitOnP t word (List.mem_of_mem_filter hmem)

/-- Collapsing keeps the words. -/
theorem spaceWords_collapse (t : Bytes) :
    spaceWords ([space].intercalate (spaceWords t)) = spaceWords t := by
  rw [spaceWords_intercalate (unspaced_spaceWords t), spaceWords, filled_filled]

/-! ### The pass over the array -/

/-- The writes of the loop of `normaliseWhitespace`, each with the index of the byte that was read
last before it: the byte being read, the byte being written, and what is written there. -/
def normaliseWrites (buf : Vector UInt8 kCapacity) (w : ℕ) (pendingSpace : Bool) (r : ℕ) :
    ℕ → List (ℕ × ℕ × UInt8)
  | 0 => []
  | k + 1 =>
    let c := readByte buf r
    if isSpace c then normaliseWrites buf w (pendingSpace || decide (0 < w)) (r + 1) k
    else if pendingSpace then
      (r, w, space) :: (r, w + 1, c) ::
        normaliseWrites ((buf.setIfInBounds w space).setIfInBounds (w + 1) c) (w + 2) false (r + 1) k
    else (r, w, c) :: normaliseWrites (buf.setIfInBounds w c) (w + 1) false (r + 1) k

/-- Making these writes, one after the other, is what the loop does to the array. -/
theorem foldl_normaliseWrites (buf : Vector UInt8 kCapacity) (w : ℕ) (pendingSpace : Bool)
    (r k : ℕ) :
    (normaliseWrites buf w pendingSpace r k).foldl (fun b e => b.setIfInBounds e.2.1 e.2.2) buf
      = (normaliseFrom buf w pendingSpace r k).1 := by
  induction k generalizing buf w pendingSpace r with
  | zero => rfl
  | succ k ih =>
    rw [normaliseWrites, normaliseFrom]
    by_cases hspace : isSpace (readByte buf r) = true
    · rw [if_pos hspace, if_pos hspace, ih]
    · rw [if_neg hspace, if_neg hspace]
      cases pendingSpace with
      | false => exact ih _ _ _ _
      | true => exact ih _ _ _ _

/-- Every write lands on a byte that has been read. -/
theorem normaliseWrites_behind {buf : Vector UInt8 kCapacity} {w : ℕ} {pendingSpace : Bool}
    {r : ℕ} (h : w + (if pendingSpace then 1 else 0) ≤ r) (k : ℕ) :
    ∀ e ∈ normaliseWrites buf w pendingSpace r k, e.2.1 ≤ e.1 := by
  induction k generalizing buf w pendingSpace r with
  | zero => exact fun e he => absurd he List.not_mem_nil
  | succ k ih =>
    rw [normaliseWrites]
    by_cases hspace : isSpace (readByte buf r) = true
    · rw [if_pos hspace]
      refine ih ?_
      -- a blank is read and not written
      have hpend : (if pendingSpace || decide (0 < w) then 1 else 0) ≤ 1 := by
        split <;> omega
      omega
    · rw [if_neg hspace]
      cases pendingSpace with
      | false =>
        have hw : w ≤ r := by simpa using h
        intro e he
        rcases List.mem_cons.mp he with rfl | he
        · exact hw
        · exact ih (by simpa using hw) e he
      | true =>
        have hw : w + 1 ≤ r := by simpa using h
        intro e he
        rcases List.mem_cons.mp he with rfl | he
        · exact Nat.le_of_succ_le hw
        · rcases List.mem_cons.mp he with rfl | he
          · exact hw
          · exact ih (by simpa using hw) e he

/-! ### `normaliseWhitespace` -/

/-- Two clean buffers with one text are one buffer. -/
theorem Clean.ext {s s' : SecureString} (h : s.Clean) (h' : s'.Clean) (htext : s.text = s'.text) :
    s = s' := by
  have hlen : s.len = s'.len := by rw [h.len_eq, h'.len_eq, htext]
  have hbuf : s.buf = s'.buf := by
    apply Vector.ext
    intro i hi
    have hget := (h.padded.get i hi).trans ((htext ▸ h'.padded.get i hi).symm)
    rw [Vector.getElem?_eq_getElem hi, Vector.getElem?_eq_getElem hi] at hget
    exact Option.some.inj hget
  cases s
  cases s'
  simp_all

/-- What `normaliseWhitespace` makes of a buffer with any content. The text becomes its words with
a single space between two of them; doing it again changes nothing; the words are the same, and
as many as `wordCount` said; everything behind the text is zero; and the writes of the pass over
the array, which are what it does to the array, land on bytes that have been read. -/
theorem normaliseWhitespace_canonical (s : SecureString) (h : s.Clean) :
    s.normaliseWhitespace.text = [space].intercalate (spaceWords s.text) ∧
    s.normaliseWhitespace.normaliseWhitespace = s.normaliseWhitespace ∧
    spaceWords s.normaliseWhitespace.text = spaceWords s.text ∧
    s.wordCount = (spaceWords s.text).length ∧
    s.normaliseWhitespace.wordCount = s.wordCount ∧
    (∀ i : Fin kCapacity, s.normaliseWhitespace.len ≤ i → s.normaliseWhitespace.buf.get i = 0) ∧
    (normaliseWrites s.buf 0 false 0 s.len).foldl (fun b e => b.setIfInBounds e.2.1 e.2.2) s.buf
      = (normaliseFrom s.buf 0 false 0 s.len).1 ∧
    ∀ e ∈ normaliseWrites s.buf 0 false 0 s.len, e.2.1 ≤ e.1 := by
  have hholds := Holds.normaliseWhitespace h
  have hclean := hholds.clean
  have htext : s.normaliseWhitespace.text = [space].intercalate (spaceWords s.text) := by
    rw [hholds.text_eq, collapseFrom_eq]
  have hwords : spaceWords s.normaliseWhitespace.text = spaceWords s.text := by
    rw [htext, spaceWords_collapse]
  refine ⟨htext, ?_, hwords, wordCountFrom_eq s.text, ?_, ?_, foldl_normaliseWrites _ _ _ _ _,
    normaliseWrites_behind (Nat.le_refl 0) s.len⟩
  · have hagain := Holds.normaliseWhitespace hclean
    apply Clean.ext hagain.clean hclean
    rw [hagain.text_eq, collapseFrom_eq, hwords, htext]
  · rw [wordCount, wordCount, wordCountFrom_eq, wordCountFrom_eq, hwords]
  · intro i hi
    rw [hclean.len_eq] at hi
    have hget := hclean.padded.get_padding hi i.isLt
    rw [Vector.getElem?_eq_getElem i.isLt] at hget
    exact Option.some.inj hget

/-- Two words between blanks of three kinds. -/
theorem normaliseWhitespace_canonical_blanks :
    let s := (new.appendChars (some [0x09, 0x61, 0x20, 0x0d, 0x0a, 0x62, 0x20])).2
    s.normaliseWhitespace.text = [0x61, 0x20, 0x62] := by
  have hclean := Clean.step_appendChars clean_new
    (some [0x09, 0x61, 0x20, 0x0d, 0x0a, 0x62, 0x20]) (by decide +kernel)
  exact (normaliseWhitespace_canonical _ hclean).1.trans (by decide +kernel)

end SecureString

end SignerOS
