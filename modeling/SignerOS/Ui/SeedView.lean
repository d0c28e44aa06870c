import SignerOS.Lib.Mask
import SignerOS.SecureStringTheorems

/-!
# The drawn grid

`SeedView::paintEvent` splits the text of the buffer by itself, into at most 32 cells, and draws
from the offsets it finds. Geometry, colours and fonts are left out.

* `wordSpans`, the loop that splits, and `getElem?_wordSpans`, what it finds of each slot;
* `letters_eq`, what is drawn from an offset;
* `drawn_grid`, the cells are the slots of the buffer.
-/

namespace SignerOS

open SecureString (space readByte)

/-! ## The widget -/

/-- What `paintEvent` reads of a `SeedView`; no source is a null pointer. -/
structure SeedView where
  source : Option SecureString := none
  masked : Bool := false
  cellCount : ℕ := 0
  errorWords : UInt32 := 0
  activeWord : ℤ := -1

/-- What stands in a cell: nothing, a block for each character, or the characters. -/
inductive Drawn
  | nothing
  | blocks (count : ℕ)
  | letters (chars : Bytes)
deriving DecidableEq, Repr

/-- One cell. The caret is drawn behind the word of the active one. -/
structure DrawnCell where
  number : ℕ
  isError : Bool
  isActive : Bool
  filled : Bool
  word : Drawn
deriving DecidableEq, Repr

namespace SeedView

/-- The length of `spans`. -/
def kMaxSpans : ℕ := 32

/-- The loop that fills `spans`, at byte `i` of the word that starts at `start`. -/
def wordSpansFrom (found start i : ℕ) : Bytes → List (ℕ × ℕ)
  | [] => if found < kMaxSpans then [(start, i - start)] else []
  | c :: cs =>
    if ¬ found < kMaxSpans then []
    else if c ≠ space then wordSpansFrom found start (i + 1) cs
    else (start, i - start) :: wordSpansFrom (found + 1) (i + 1) (i + 1) cs

/-- `spans`, up to `found`: where each word starts and how long it is. -/
def wordSpans (s : SecureString) : List (ℕ × ℕ) := wordSpansFrom 0 0 0 s.text

/-- `cellCount()`: the fixed count, or as many cells as the source has fields. -/
def cells (v : SeedView) : ℕ :=
  if 0 < v.cellCount then v.cellCount
  else
    match v.source with
    | none => 0
    | some s => if s.empty then 0 else s.slotCount

/-- The characters that are drawn, one by one, straight from the buffer. -/
def letters (s : SecureString) (start len : ℕ) : Bytes :=
  (List.range len).map fun k => readByte s.buf (start + k)

/-- The body of the loop of `paintEvent`. A span behind the last one found is all zeros. -/
def drawCell (v : SeedView) (s : SecureString) (spans : List (ℕ × ℕ)) (index : ℕ) : DrawnCell :=
  let span := spans.getD index (0, 0)
  let filled := decide (index < spans.length) && decide (0 < span.2)
  { number := index + 1
    isError := decide (index < kMaxSpans) && decide (v.errorWords &&& 1 <<< UInt32.ofNat index ≠ 0)
    isActive := decide (0 ≤ v.activeWord) && v.activeWord.toNat == index
    filled
    word :=
      if !filled then .nothing
      else if v.masked then .blocks span.2
      else .letters (letters s span.1 span.2) }

/-- `paintEvent`. -/
def paintEvent (v : SeedView) : List DrawnCell :=
  match v.source with
  | none => []
  | some s => if v.cells = 0 then [] else (List.range v.cells).map (v.drawCell s (wordSpans s))

/-! ## The splitter -/

/-- The loop finds what `slotSpan` finds, as long as there is room for it. -/
theorem getElem?_wordSpansFrom (found start i k : ℕ) (cs : Bytes) :
    (wordSpansFrom found start i cs)[k]? =
      if found + k < kMaxSpans then SecureString.slotSpanFrom (found + k) found start i cs
      else none := by
  induction cs generalizing found start i k with
  | nil =>
    rw [wordSpansFrom, SecureString.slotSpanFrom]
    by_cases hroom : found < kMaxSpans
    · rw [if_pos hroom]
      cases k with
      | zero =>
        show some (start, i - start) = if found < kMaxSpans then _ else none
        rw [if_pos hroom, if_pos (Nat.add_zero found).symm]
      | succ k =>
        have hother : found ≠ found + (k + 1) := by omega
        rw [if_neg hother, ite_self]
        rfl
    · rw [if_neg hroom, if_neg (by omega)]
      rfl
  | cons c cs ih =>
    rw [wordSpansFrom, SecureString.slotSpanFrom]
    by_cases hroom : found < kMaxSpans
    · rw [if_neg (not_not_intro hroom)]
      by_cases hc : c ≠ space
      · rw [if_pos hc, if_pos hc, ih]
      · rw [if_neg hc, if_neg hc]
        cases k with
        | zero =>
          show some (start, i - start) = if found < kMaxSpans then _ else none
          rw [if_pos hroom, if_pos (Nat.add_zero found).symm]
        | succ k =>
          have hother : found ≠ found + (k + 1) := by omega
          have hnext : found + 1 + k = found + (k + 1) := by omega
          rw [List.getElem?_cons_succ, ih, hnext, if_neg hother]
    · rw [if_pos hroom, if_neg (by omega)]
      rfl

theorem getElem?_wordSpans (s : SecureString) (k : ℕ) :
    (wordSpans s)[k]? = if k < kMaxSpans then s.slotSpan k else none := by
  rw [wordSpans, getElem?_wordSpansFrom, Nat.zero_add, SecureString.slotSpan]

/-- There is a span for each slot, up to the length of the array. -/
theorem length_wordSpans (s : SecureString) :
    (wordSpans s).length = min s.slotCount kMaxSpans := by
  have hlt (k : ℕ) : k < (wordSpans s).length ↔ k < min s.slotCount kMaxSpans := by
    rw [← not_iff_not, Nat.not_lt, ← List.getElem?_eq_none_iff, getElem?_wordSpans,
      SecureString.slotSpan_eq, SecureString.slotCount_eq]
    by_cases hroom : k < kMaxSpans
    · rw [if_pos hroom, Option.map_eq_none_iff, List.getElem?_eq_none_iff]
      omega
    · rw [if_neg hroom]
      exact iff_of_true rfl (by omega)
  have hself := (hlt (wordSpans s).length).not.mp (Nat.lt_irrefl _)
  have hmin := (hlt (min s.slotCount kMaxSpans)).not.mpr (Nat.lt_irrefl _)
  omega

/-! ## The cells -/

/-- What is drawn from an offset is the text there. -/
theorem letters_eq {s : SecureString} {start len : ℕ} (h : start + len ≤ s.text.length) :
    letters s start len = (s.text.drop start).take len := by
  refine List.ext_getElem? fun k => ?_
  rw [letters, List.getElem?_map, List.getElem?_take]
  by_cases hk : k < len
  · have htext : s.text[start + k]? = s.buf[start + k]? := by
      have hlen : start + k < s.len := by
        have := List.length_take_le s.len s.buf.toList
        rw [SecureString.text] at h
        omega
      rw [SecureString.text, List.getElem?_take_of_lt hlen, Vector.getElem?_toList]
    have hget : s.text[start + k]? = some (readByte s.buf (start + k)) := by
      rw [readByte, ← htext, List.getElem?_eq_getElem (by omega)]
      rfl
    rw [if_pos hk, List.getElem?_range hk, List.getElem?_drop, hget]
    rfl
  · rw [if_neg hk, List.getElem?_eq_none (by rw [List.length_range]; omega)]
    rfl

/-- How a word is shown. -/
def shown (v : SeedView) (word : Bytes) : Drawn :=
  if word = [] then .nothing else if v.masked then .blocks word.length else .letters word

theorem word_drawCell (v : SeedView) (s : SecureString) {index : ℕ} (h : index < kMaxSpans) :
    (v.drawCell s (wordSpans s) index).word = v.shown (s.words[index]?.getD []) := by
  have hspan := getElem?_wordSpans s index
  rw [if_pos h] at hspan
  unfold drawCell shown
  cases hword : s.words[index]? with
  | none =>
    rw [SecureString.slotSpan_of_none hword, List.getElem?_eq_none_iff] at hspan
    have hfilled : decide (index < (wordSpans s).length) = false := decide_eq_false (by omega)
    simp only [hfilled, Bool.false_and, Bool.not_false, if_true, Option.getD_none]
  | some word =>
    rw [SecureString.slotSpan_of_word hword] at hspan
    have hin : decide (index < (wordSpans s).length) = true :=
      decide_eq_true (List.getElem?_eq_some_iff.mp hspan).1
    have hget : (wordSpans s).getD index (0, 0) = (Slots.start space s.text index, word.length) := by
      rw [List.getD_eq_getElem?_getD, hspan]
      rfl
    have hletters : letters s (Slots.start space s.text index) word.length = word := by
      rw [letters_eq (Slots.start_add_length_le hword), Slots.take_drop_start hword]
    simp only [hin, hget, hletters, Bool.true_and, Option.getD_some]
    cases word with
    | nil => rfl
    | cons c cs => rfl

/-- There is no room for a span of a later cell. -/
theorem word_drawCell_of_le (v : SeedView) (s : SecureString) {index : ℕ} (h : kMaxSpans ≤ index) :
    (v.drawCell s (wordSpans s) index).word = .nothing := by
  have hlen := length_wordSpans s
  have hfilled : decide (index < (wordSpans s).length) = false := decide_eq_false (by omega)
  unfold drawCell
  simp only [hfilled, Bool.false_and, Bool.not_false, if_true]

/-- The splitter of the painter is that of the buffer: it finds the slots, up to the length of its
array, and each where `slotSpan` does. So every cell shows the word of the slot of its number, and
is outlined by the bit of that slot; behind the last span no word is drawn. -/
theorem drawn_grid (s : SecureString) :
    (wordSpans s).length = min s.slotCount kMaxSpans ∧
      (∀ i < (wordSpans s).length, (wordSpans s)[i]? = s.slotSpan i) ∧
      ∀ v : SeedView, v.source = some s → v.paintEvent.length = v.cells ∧
        ∀ (i : ℕ) (cell : DrawnCell), v.paintEvent[i]? = some cell → cell.number = i + 1 ∧
          (cell.isError = true ↔ i < kMaxSpans ∧ Mask.Has v.errorWords i) ∧
          (i < kMaxSpans → cell.word = v.shown (s.words[i]?.getD [])) ∧
          (kMaxSpans ≤ i → cell.word = .nothing) := by
  have hlen := length_wordSpans s
  refine ⟨hlen, ?_, ?_⟩
  · intro i hi
    rw [getElem?_wordSpans, if_pos (by omega)]
  · intro v hv
    have hpaint : v.paintEvent = (List.range v.cells).map (v.drawCell s (wordSpans s)) := by
      rw [paintEvent, hv]
      dsimp only
      by_cases hcells : v.cells = 0
      · rw [if_pos hcells, hcells]
        rfl
      · rw [if_neg hcells]
    rw [hpaint]
    refine ⟨by rw [List.length_map, List.length_range], fun i cell hcell => ?_⟩
    rw [List.getElem?_map, Option.map_eq_some_iff] at hcell
    obtain ⟨k, hk, rfl⟩ := hcell
    obtain ⟨hlt, hget⟩ := List.getElem?_eq_some_iff.mp hk
    rw [List.getElem_range] at hget
    subst hget
    refine ⟨rfl, ?_, word_drawCell v s, word_drawCell_of_le v s⟩
    show (decide (i < kMaxSpans) && decide _) = true ↔ _
    rw [Bool.and_eq_true, decide_eq_true_iff, decide_eq_true_iff]
    refine and_congr_right fun hi => ?_
    rw [ne_eq, Mask.and_eq_zero_iff hi, not_not]

end SeedView

end SignerOS
