import Mathlib.Data.List.DropRight
import Mathlib.Data.List.Induction
import SignerOS.SecureString

/-!
# What each operation makes of a `SecureString`

Every operation keeps `SecureString.Holds`: the text stands at the start of the array and
everything behind it is zero. Read as a grid, the text is a list of words.

* `SecureString.Holds`, and one theorem for each operation on what it makes of the text;
* `SecureString.words`, the text as a grid, and one theorem for each edit of the grid.
-/

namespace SignerOS

namespace SecureString

/-! ## What a buffer holds -/

/-- The buffer holds the text `t`, a terminator and zeros. -/
structure Holds (s : SecureString) (t : Bytes) : Prop where
  len_eq : s.len = t.length
  room : t.length < kCapacity
  padded : Buffer.Padded 0 s.buf t

/-- The buffer holds its text, and nothing else. -/
def Clean (s : SecureString) : Prop := s.Holds s.text

theorem holds_new : Holds new [] where
  len_eq := rfl
  room := by decide
  padded := Buffer.padded_replicate 0

@[simp] theorem clear_eq_new (s : SecureString) : s.clear = new := by
  have hbuf : Buffer.fill s.buf 0 kCapacity 0 = Vector.replicate kCapacity 0 := by
    refine Vector.ext fun j hj => ?_
    have hget := Buffer.getElem?_fill s.buf 0 kCapacity 0 hj
    rw [if_pos (by omega), Vector.getElem?_eq_getElem hj] at hget
    rw [Vector.getElem_replicate, Option.some.inj hget]
  rw [clear, hbuf, new]

@[simp] theorem text_new : new.text = [] := List.take_zero

theorem addSize_eq {a b : ℕ} (h : a + b < 2 ^ 64) : addSize a b = a + b := Nat.mod_eq_of_lt h

theorem fits_iff {len n : ℕ} (h : len + n + 1 < 2 ^ 64) :
    fits len n = true ↔ len + n < kCapacity := by
  rw [fits, addSize_eq (a := len) (b := n) (by omega), addSize_eq h, decide_eq_true_iff]
  omega

section
variable {s : SecureString} {t : Bytes}

theorem Holds.text_eq (h : Holds s t) : s.text = t := by
  rw [text, h.len_eq, h.padded.take_toList]

theorem Holds.clean (h : Holds s t) : s.Clean := by
  rw [Clean, h.text_eq]
  exact h

/-- One more zero behind the text changes nothing. -/
theorem holds_terminate {buf : Vector UInt8 kCapacity} (h : Buffer.Padded 0 buf t)
    (hroom : t.length < kCapacity) : Holds ⟨buf.setIfInBounds t.length 0, t.length⟩ t where
  len_eq := rfl
  room := hroom
  padded := h.terminate _ le_rfl

/-! ## The line -/

theorem Holds.append_of_room (h : Holds s t) (c : UInt8) (hroom : t.length + 1 < kCapacity) :
    (s.append c).1 = true ∧ Holds (s.append c).2 (t ++ [c]) := by
  have hnew : (t ++ [c]).length = t.length + 1 := List.length_append
  have hpad := holds_terminate (h.padded.write [c] (show t.length + 1 ≤ kCapacity by omega))
    (by omega)
  rw [append, h.len_eq, if_neg (by omega)]
  refine ⟨rfl, ?_⟩
  rw [← hnew]
  exact hpad

theorem Holds.append_of_full (h : Holds s t) (c : UInt8) (hfull : ¬ t.length + 1 < kCapacity) :
    s.append c = (false, s) := by
  rw [append, h.len_eq, if_pos (by omega)]

theorem Holds.appendChars_of_room (h : Holds s t) {cs : Bytes}
    (hroom : t.length + cs.length < kCapacity) :
    (s.appendChars (some cs)).1 = true ∧ Holds (s.appendChars (some cs)).2 (t ++ cs) := by
  have hcap : kCapacity = 320 := rfl
  have hnew : (t ++ cs).length = t.length + cs.length := List.length_append
  have hpad := holds_terminate (h.padded.write cs hroom.le) (by omega)
  have hfits : fits t.length cs.length = true := (fits_iff (by omega)).mpr hroom
  rw [appendChars, h.len_eq, hfits, addSize_eq (by omega), ← hnew]
  exact ⟨rfl, hpad⟩

theorem Holds.appendChars_of_full (h : Holds s t) {cs : Bytes}
    (hwrap : t.length + cs.length + 1 < 2 ^ 64) (hfull : ¬ t.length + cs.length < kCapacity) :
    s.appendChars (some cs) = (false, s) := by
  have hfits : fits t.length cs.length = false :=
    Bool.eq_false_iff.mpr fun hf => hfull ((fits_iff hwrap).mp hf)
  rw [appendChars, h.len_eq, hfits]
  rfl

theorem Holds.backspace (h : Holds s t) : Holds s.backspace t.dropLast := by
  rw [SecureString.backspace, h.len_eq]
  by_cases ht : t.length = 0
  · rw [if_pos ht]
    rw [List.length_eq_zero_iff.mp ht] at h ⊢
    exact h
  · have hroom := h.room
    have hpad := h.padded.truncate (t.length - 1) (by omega)
    have hone : t.length - (t.length - 1) = 1 := by omega
    rw [if_neg ht]
    rw [hone, ← List.dropLast_eq_take] at hpad
    exact ⟨List.length_dropLast.symm, by rw [List.length_dropLast]; omega, hpad⟩

theorem holds_dropTail {buf : Vector UInt8 kCapacity} (p : UInt8 → Bool)
    (h : Buffer.Padded 0 buf t) (hroom : t.length < kCapacity) :
    Holds (dropTail p buf t.length) (t.rdropWhile p) := by
  induction t using List.reverseRecOn generalizing buf with
  | nil => exact ⟨rfl, hroom, h⟩
  | append_singleton t c ih =>
    have hlen : (t ++ [c]).length = t.length + 1 := List.length_append
    -- the loop reads the last byte of the text
    have hread : readByte buf t.length = c := by
      rw [readByte, h.get_text (by omega), List.getElem?_concat_length]
      rfl
    rw [hlen, dropTail, hread]
    by_cases hc : p c = true
    · rw [if_pos hc, List.rdropWhile_concat_pos p t c hc]
      have hpad := h.truncate t.length (by omega)
      have hone : (t ++ [c]).length - t.length = 1 := by omega
      rw [hone, List.take_left] at hpad
      exact ih hpad (by omega)
    · rw [if_neg hc, List.rdropWhile_concat_neg p t c hc, ← hlen]
      exact ⟨rfl, hroom, h⟩

theorem Holds.backspaceWord (h : Holds s t) :
    Holds s.backspaceWord ((t.rdropWhile isBlank).rdropWhile fun c => !isBlank c) := by
  rw [SecureString.backspaceWord, h.len_eq]
  have hblank := holds_dropTail isBlank h.padded h.room
  have hword := holds_dropTail (fun c => !isBlank c) hblank.padded hblank.room
  rwa [← hblank.len_eq] at hword

/-! ### `normaliseWhitespace` -/

/-- What the loop of `normaliseWhitespace` makes of the rest of a text. -/
def collapseFrom (out : Bytes) (pendingSpace : Bool) : Bytes → Bytes
  | [] => out
  | c :: cs =>
    if isSpace c then collapseFrom out (pendingSpace || decide (0 < out.length)) cs
    else if pendingSpace then collapseFrom (out ++ [space, c]) false cs
    else collapseFrom (out ++ [c]) false cs

/-- The array while `normaliseWhitespace` reads byte `r` of `t`: what it has kept stands at the
start, and from `r` on nothing has been written yet. -/
structure Collapsing (t : Bytes) (buf : Vector UInt8 kCapacity) (out : Bytes)
    (pendingSpace : Bool) (r : ℕ) : Prop where
  behind : out.length + (if pendingSpace then 1 else 0) ≤ r
  kept : ∀ j < out.length, buf[j]? = out[j]?
  ahead : ∀ j, r ≤ j → j < kCapacity → buf[j]? = some (t[j]?.getD 0)

/-- A byte written where the loop has already read. -/
theorem Collapsing.push {buf : Vector UInt8 kCapacity} {out : Bytes} {pendingSpace : Bool}
    {r : ℕ} (h : Collapsing t buf out pendingSpace r) (c : UInt8) (r' : ℕ) (hr : out.length < r')
    (hr' : r ≤ r') (hN : out.length < kCapacity) :
    Collapsing t (buf.setIfInBounds out.length c) (out ++ [c]) false r' where
  behind := by
    rw [List.length_append, List.length_singleton]
    exact hr
  kept := by
    intro j hj
    rw [List.length_append, List.length_singleton] at hj
    by_cases hjw : j = out.length
    · rw [hjw, Vector.getElem?_setIfInBounds_self_of_lt hN, List.getElem?_concat_length]
    · rw [Vector.getElem?_setIfInBounds_ne (by omega), List.getElem?_append_left (by omega),
        h.kept j (by omega)]
  ahead := by
    intro j hj hjN
    rw [Vector.getElem?_setIfInBounds_ne (by omega), h.ahead j (by omega) hjN]

theorem Collapsing.run {buf : Vector UInt8 kCapacity} {out : Bytes} {pendingSpace : Bool}
    {r k : ℕ} (h : Collapsing t buf out pendingSpace r) (hk : r + k = t.length)
    (hroom : t.length < kCapacity) :
    (normaliseFrom buf out.length pendingSpace r k).2
        = (collapseFrom out pendingSpace (t.drop r)).length ∧
      Collapsing t (normaliseFrom buf out.length pendingSpace r k).1
        (collapseFrom out pendingSpace (t.drop r)) false t.length := by
  induction k generalizing buf out pendingSpace r with
  | zero =>
    have hr : r = t.length := hk
    rw [List.drop_of_length_le hr.ge, collapseFrom, normaliseFrom, ← hr]
    refine ⟨rfl, ?_, h.kept, h.ahead⟩
    have hbehind := h.behind
    show out.length + 0 ≤ r
    omega
  | succ k ih =>
    have hr : r < t.length := by omega
    have hbehind := h.behind
    -- byte `r` has not been written over yet
    have hread : readByte buf r = t[r] := by
      rw [readByte, h.ahead r le_rfl (by omega), List.getElem?_eq_getElem hr]
      rfl
    rw [normaliseFrom, hread, List.drop_eq_getElem_cons hr, collapseFrom]
    by_cases hspace : isSpace t[r] = true
    · rw [if_pos hspace, if_pos hspace]
      refine ih ⟨?_, h.kept, fun j hj hjN => h.ahead j (by omega) hjN⟩ (by omega)
      -- a blank is read and not written, so there is room for the space that waits
      have hpend : (if pendingSpace || decide (0 < out.length) then 1 else 0) ≤ 1 := by
        split <;> omega
      omega
    · rw [if_neg hspace, if_neg hspace]
      cases pendingSpace with
      | false =>
        have hout : out.length ≤ r := by simpa using hbehind
        have hnext := h.push t[r] (r + 1) (by omega) (by omega) (by omega)
        have hlen : (out ++ [t[r]]).length = out.length + 1 := List.length_append
        have hrun := ih hnext (by omega)
        rw [hlen] at hrun
        exact hrun
      | true =>
        have hout : out.length + 1 ≤ r := by simpa using hbehind
        have hsep := h.push space r (by omega) le_rfl (by omega)
        have hlen : (out ++ [space]).length = out.length + 1 := List.length_append
        have hnext := hsep.push t[r] (r + 1) (by omega) (by omega) (by omega)
        have hlen' : (out ++ [space] ++ [t[r]]).length = out.length + 2 := by
          rw [List.length_append, hlen]
          rfl
        have hrun := ih hnext (by omega)
        rw [hlen', hlen, List.append_assoc] at hrun
        exact hrun

theorem Holds.normaliseWhitespace (h : Holds s t) :
    Holds s.normaliseWhitespace (collapseFrom [] false t) := by
  have hstart : Collapsing t s.buf [] false 0 :=
    ⟨Nat.le_refl 0, fun j hj => absurd hj (Nat.not_lt_zero j), fun j _ hjN => h.padded.get j hjN⟩
  obtain ⟨hlen, hend⟩ := hstart.run (Nat.zero_add _) h.room
  rw [List.drop_zero] at hlen hend
  have hroom := h.room
  have hbehind : (collapseFrom [] false t).length ≤ t.length := hend.behind
  -- what the loop has kept is shorter than the text, and the rest is wiped
  have hpad : Buffer.Padded 0
      (Buffer.fill (normaliseFrom s.buf 0 false 0 t.length).1 (collapseFrom [] false t).length
        (t.length - (collapseFrom [] false t).length) 0) (collapseFrom [] false t) := by
    refine Buffer.padded_of_get (by omega) ?_ ?_
    · intro j hj
      rw [Buffer.getElem?_fill _ _ _ _ (by omega), if_neg (by omega)]
      exact hend.kept j hj
    · intro j hj hjN
      rw [Buffer.getElem?_fill _ _ _ _ hjN]
      by_cases hin : j < t.length
      · rw [if_pos (by omega)]
      · rw [if_neg (by omega)]
        refine (hend.ahead j (by omega) hjN).trans ?_
        rw [List.getElem?_eq_none (by omega)]
        rfl
  have hterm := holds_terminate hpad (by omega)
  unfold SecureString.normaliseWhitespace
  rw [h.len_eq]
  dsimp only
  dsimp only [List.length_nil] at hlen
  rw [hlen]
  exact hterm

/-! ### Inserting and erasing -/

theorem Holds.insertAt_of_room (h : Holds s t) {pos : ℕ} (hpos : pos ≤ t.length) (cs : Bytes)
    (hroom : t.length + cs.length < kCapacity) :
    (s.insertAt pos (some cs)).1 = true ∧
      Holds (s.insertAt pos (some cs)).2 (t.take pos ++ cs ++ t.drop pos) := by
  have hcap : kCapacity = 320 := rfl
  rw [insertAt, h.len_eq, if_neg (by omega)]
  by_cases hcs : cs.length = 0
  · rw [if_pos hcs, List.length_eq_zero_iff.mp hcs, List.append_nil, List.take_append_drop]
    exact ⟨rfl, h⟩
  · have hnew : (t.take pos ++ cs ++ t.drop pos).length = t.length + cs.length := by
      simp only [List.length_append, List.length_take, List.length_drop]
      omega
    have hpad := holds_terminate (h.padded.insert hpos cs hroom.le) (by omega)
    have hfits : fits t.length cs.length = true := (fits_iff (by omega)).mpr hroom
    rw [if_neg hcs, hfits, addSize_eq (by omega), ← hnew]
    exact ⟨rfl, hpad⟩

theorem Holds.insertAt_of_full (h : Holds s t) (pos : ℕ) {cs : Bytes}
    (hwrap : t.length + cs.length + 1 < 2 ^ 64) (hfull : ¬ t.length + cs.length < kCapacity) :
    s.insertAt pos (some cs) = (false, s) := by
  have hroom := h.room
  have hfits : fits t.length cs.length = false :=
    Bool.eq_false_iff.mpr fun hf => hfull ((fits_iff hwrap).mp hf)
  rw [insertAt, h.len_eq, hfits, if_neg (c := cs.length = 0) (by omega)]
  split <;> rfl

theorem Holds.eraseAt (h : Holds s t) (pos n : ℕ) (hpos : pos + n ≤ t.length) :
    Holds (s.eraseAt pos n) (t.take pos ++ t.drop (pos + n)) := by
  rw [SecureString.eraseAt, h.len_eq]
  by_cases hnone : t.length ≤ pos ∨ n = 0
  · have hn : n = 0 := by omega
    rw [if_pos hnone, hn, Nat.add_zero, List.take_append_drop]
    exact h
  · have hroom := h.room
    have hlen : (t.take pos ++ t.drop (pos + n)).length = t.length - n := by
      simp only [List.length_append, List.length_take, List.length_drop]
      omega
    have hpad := holds_terminate (h.padded.erase (by omega) hpos) (by omega)
    rw [if_neg hnone, Nat.min_eq_left (by omega)]
    dsimp only
    rw [hlen] at hpad
    exact hpad

/-! ## The grid -/

/-- The text read as words between single spaces. -/
def words (s : SecureString) : List Bytes := s.text.splitOn space

theorem Holds.words_eq (h : Holds s t) : s.words = t.splitOn space := by rw [words, h.text_eq]

theorem slotCount_eq (s : SecureString) : s.slotCount = s.words.length := by
  rw [slotCount, words, Slots.length_splitOn, Nat.add_comm]

/-- What the loop of `slotSpan` finds in the rest of a text, at byte `i` of the word `slot`. -/
theorem slotSpanFrom_eq {index slot start i : ℕ} (cs : Bytes) (hstart : start ≤ i)
    (hslot : slot ≤ index) :
    slotSpanFrom index slot start i cs = ((cs.splitOn space)[index - slot]?).map fun w =>
      if index = slot then (start, i - start + w.length)
      else (i + Slots.start space cs (index - slot), w.length) := by
  induction cs generalizing slot start i with
  | nil =>
    rw [slotSpanFrom, List.splitOn_nil]
    by_cases hin : slot = index
    · subst hin
      simp
    · obtain ⟨k, hk⟩ : ∃ k, index - slot = k + 1 := ⟨index - slot - 1, by omega⟩
      rw [if_neg hin, hk]
      rfl
  | cons c cs ih =>
    rw [slotSpanFrom]
    by_cases hc : c = space
    · subst hc
      rw [if_neg (by simp), Slots.splitOn_cons_self]
      by_cases hin : slot = index
      · subst hin
        simp
      · obtain ⟨k, hk⟩ : ∃ k, index - slot = k + 1 := ⟨index - slot - 1, by omega⟩
        have hnext : index - (slot + 1) = k := by omega
        rw [if_neg hin, ih le_rfl (by omega), hk, hnext, List.getElem?_cons_succ]
        refine Option.map_congr fun w _ => ?_
        rw [if_neg (Ne.symm hin), Slots.start, Slots.start, Slots.splitOn_cons_self,
          List.take_succ_cons, Slots.before, Slots.before, List.flatMap_cons, List.length_append]
        by_cases hlast : index = slot + 1
        · have hk0 : k = 0 := by omega
          rw [if_pos hlast, hk0]
          simp
        · rw [if_neg hlast]
          congr 1
          simp only [List.nil_append, List.length_singleton]
          omega
    · obtain ⟨w₀, ws, hws⟩ := List.exists_cons_of_ne_nil (List.splitOn_ne_nil space cs)
      rw [if_pos hc, ih (by omega) hslot, Slots.start, Slots.start, Slots.splitOn_cons_of_ne hc,
        hws, List.modifyHead_cons]
      by_cases hin : index = slot
      · subst hin
        rw [Nat.sub_self, List.getElem?_cons_zero, List.getElem?_cons_zero, Option.map_some,
          Option.map_some, if_pos rfl, if_pos rfl, List.length_cons]
        congr 2
        omega
      · obtain ⟨k, hk⟩ : ∃ k, index - slot = k + 1 := ⟨index - slot - 1, by omega⟩
        rw [hk, List.getElem?_cons_succ, List.getElem?_cons_succ]
        refine Option.map_congr fun w _ => ?_
        rw [if_neg hin, if_neg hin, List.take_succ_cons, List.take_succ_cons, Slots.before,
          Slots.before, List.flatMap_cons, List.flatMap_cons]
        congr 1
        simp only [List.length_append, List.length_cons]
        omega

/-- `slotSpan` finds each word of the text where it stands. -/
theorem slotSpan_eq (s : SecureString) (index : ℕ) :
    s.slotSpan index =
      (s.words[index]?).map fun w => (Slots.start space s.text index, w.length) := by
  rw [slotSpan, slotSpanFrom_eq _ le_rfl (Nat.zero_le index), words]
  refine Option.map_congr fun w _ => ?_
  rw [Nat.sub_zero index]
  by_cases hin : index = 0
  · subst hin
    rw [if_pos rfl, Slots.start, List.take_zero, Slots.before, List.flatMap_nil]
    simp
  · rw [if_neg hin, Nat.zero_add]

theorem slotSpan_of_word {index : ℕ} {w : Bytes} (hw : s.words[index]? = some w) :
    s.slotSpan index = some (Slots.start space s.text index, w.length) := by
  rw [slotSpan_eq, hw]
  rfl

theorem slotSpan_of_none {index : ℕ} (hw : s.words[index]? = none) :
    s.slotSpan index = none := by
  rw [slotSpan_eq, hw]
  rfl

theorem slotLength_eq (s : SecureString) (index : ℕ) :
    s.slotLength index = (s.words[index]?.getD []).length := by
  rw [slotLength, slotSpan_eq]
  cases s.words[index]? <;> rfl

theorem firstEmptySlot_eq (s : SecureString) :
    s.firstEmptySlot = s.words.findIdx fun w => w.isEmpty := by
  have hslot (i : ℕ) (hi : i < s.words.length) :
      (s.slotLength i == 0) = s.words[i].isEmpty := by
    rw [slotLength_eq, List.getElem?_eq_getElem hi, Option.getD_some]
    cases s.words[i] <;> rfl
  rw [firstEmptySlot, slotCount_eq]
  cases hfind : (List.range s.words.length).find? fun i => s.slotLength i == 0 with
  | none =>
    rw [List.find?_range_eq_none] at hfind
    symm
    rw [Option.getD_none, List.findIdx_eq_length]
    intro w hw
    obtain ⟨i, hi, rfl⟩ := List.mem_iff_getElem.mp hw
    simpa [hslot i hi] using hfind i hi
  | some i =>
    rw [List.find?_range_eq_some] at hfind
    obtain ⟨hempty, hi, hbefore⟩ := hfind
    rw [List.mem_range] at hi
    symm
    rw [Option.getD_some, List.findIdx_eq hi]
    refine ⟨by rw [← hslot i hi, hempty], fun j hj => ?_⟩
    simpa [hslot j (by omega)] using hbefore j hj

/-- The bytes of a word, cut to what `out` has room for. -/
theorem copySlot_eq (s : SecureString) (index : ℕ) {out : Bytes} (hout : out ≠ []) :
    s.copySlot index (some out) =
      (min (s.words[index]?.getD []).length (out.length - 1),
        some ((s.words[index]?.getD []).take (out.length - 1)
          ++ 0 :: out.drop (min (s.words[index]?.getD []).length (out.length - 1) + 1))) := by
  rw [copySlot, if_neg (fun h => hout (List.length_eq_zero_iff.mp h))]
  cases hw : s.words[index]? with
  | none =>
    rw [slotSpan_of_none hw, Option.getD_none, List.length_nil, Nat.zero_min, List.take_nil]
    rfl
  | some w =>
    have htake : (s.text.drop (Slots.start space s.text index)).take
        (min w.length (out.length - 1)) = w.take (out.length - 1) := by
      rw [Nat.min_comm, ← List.take_take, Slots.take_drop_start hw]
    rw [slotSpan_of_word hw]
    dsimp only
    rw [htake, Option.getD_some]

/-! ### Edits of one word -/

/-- Erasing the end of a word. -/
theorem Holds.eraseAt_slot (h : Holds s t) {index : ℕ} {w : Bytes}
    (hw : s.words[index]? = some w) {k : ℕ} (hk : k ≤ w.length) :
    Holds (s.eraseAt (Slots.start space s.text index + k) (w.length - k))
        (t.take (Slots.start space t index + k) ++ t.drop (Slots.start space t index + w.length)) ∧
      (s.eraseAt (Slots.start space s.text index + k) (w.length - k)).words
        = s.words.set index (w.take k) := by
  rw [h.words_eq] at hw
  have hlen := Slots.start_add_length_le hw
  have hend : Slots.start space t index + k + (w.length - k)
      = Slots.start space t index + w.length := by omega
  have herase := h.eraseAt (Slots.start space t index + k) (w.length - k) (by omega)
  have hsplice := Slots.splitOn_splice hw hk (x := []) List.not_mem_nil
  rw [List.append_nil, List.append_nil] at hsplice
  rw [h.text_eq, h.words_eq]
  rw [hend] at herase
  exact ⟨herase, by rw [herase.words_eq, hsplice]⟩

theorem Clean.appendToSlot_of_room (h : s.Clean) {index : ℕ} {w : Bytes}
    (hw : s.words[index]? = some w) {c : UInt8} (hc : c ≠ space)
    (hroom : s.text.length + 1 < kCapacity) :
    (s.appendToSlot index c).1 = true ∧ (s.appendToSlot index c).2.Clean ∧
      (s.appendToSlot index c).2.words = s.words.set index (w ++ [c]) := by
  have hlen := Slots.start_add_length_le hw
  obtain ⟨hok, hholds⟩ := Holds.insertAt_of_room h hlen [c] hroom
  have hsplice := Slots.splitOn_splice hw le_rfl (x := [c]) (by simpa using Ne.symm hc)
  rw [List.take_length] at hsplice
  rw [appendToSlot, if_neg hc, slotSpan_of_word hw]
  exact ⟨hok, hholds.clean, by rw [hholds.words_eq, hsplice, words]⟩

theorem Clean.appendToSlot_of_full (h : s.Clean) {index : ℕ} {w : Bytes}
    (hw : s.words[index]? = some w) {c : UInt8} (hc : c ≠ space)
    (hfull : ¬ s.text.length + 1 < kCapacity) : s.appendToSlot index c = (false, s) := by
  have hcap : kCapacity = 320 := rfl
  have hroom := h.room
  rw [appendToSlot, if_neg hc, slotSpan_of_word hw]
  refine Holds.insertAt_of_full h _ ?_ hfull
  show s.text.length + 1 + 1 < 2 ^ 64
  omega

theorem appendToSlot_of_refused {index : ℕ} {c : UInt8} (h : c = space ∨ s.words.length ≤ index) :
    s.appendToSlot index c = (false, s) := by
  rw [appendToSlot]
  by_cases hc : c = space
  · rw [if_pos hc]
  · have hindex : s.words.length ≤ index := h.resolve_left hc
    rw [if_neg hc, slotSpan_of_none (List.getElem?_eq_none hindex)]

theorem Clean.backspaceInSlot (h : s.Clean) {index : ℕ} {w : Bytes}
    (hw : s.words[index]? = some w) :
    (s.backspaceInSlot index).Clean ∧
      (s.backspaceInSlot index).words = s.words.set index w.dropLast := by
  rw [SecureString.backspaceInSlot, slotSpan_of_word hw]
  by_cases hlen : w.length = 0
  · have hwnil : w = [] := List.length_eq_zero_iff.mp hlen
    obtain ⟨hi, hget⟩ := List.getElem?_eq_some_iff.mp hw
    dsimp only
    rw [if_pos hlen, hwnil, List.dropLast_nil, ← hwnil, ← hget, List.set_getElem_self]
    exact ⟨h, rfl⟩
  · obtain ⟨hholds, hwords⟩ := Holds.eraseAt_slot h hw (k := w.length - 1) (by omega)
    have hpos : Slots.start space s.text index + w.length - 1
        = Slots.start space s.text index + (w.length - 1) := by omega
    have hone : w.length - (w.length - 1) = 1 := by omega
    rw [hone] at hholds hwords
    dsimp only
    rw [if_neg hlen, hpos, List.dropLast_eq_take]
    exact ⟨hholds.clean, hwords⟩

theorem Clean.clearSlot (h : s.Clean) {index : ℕ} {w : Bytes} (hw : s.words[index]? = some w) :
    (s.clearSlot index).Clean ∧ (s.clearSlot index).words = s.words.set index [] := by
  rw [SecureString.clearSlot, slotSpan_of_word hw]
  by_cases hlen : w.length = 0
  · have hwnil : w = [] := List.length_eq_zero_iff.mp hlen
    obtain ⟨hi, hget⟩ := List.getElem?_eq_some_iff.mp hw
    dsimp only
    rw [if_pos hlen, ← hwnil, ← hget, List.set_getElem_self]
    exact ⟨h, rfl⟩
  · obtain ⟨hholds, hwords⟩ := Holds.eraseAt_slot h hw (Nat.zero_le _)
    rw [Nat.add_zero, Nat.sub_zero] at hholds hwords
    dsimp only
    rw [if_neg hlen]
    exact ⟨hholds.clean, hwords⟩

theorem slot_edit_of_none {index : ℕ} (h : s.words.length ≤ index) :
    s.backspaceInSlot index = s ∧ s.clearSlot index = s := by
  have hspan := slotSpan_of_none (List.getElem?_eq_none h)
  rw [SecureString.backspaceInSlot, SecureString.clearSlot, hspan]
  exact ⟨rfl, rfl⟩

theorem setSlot_of_refused {index : ℕ} {cs : Bytes}
    (h : space ∈ cs ∨ s.words.length ≤ index) : s.setSlot index (some cs) = (false, s) := by
  rw [setSlot]
  by_cases hcs : space ∈ cs
  · have hany : cs.any (· == space) = true := List.any_eq_true.mpr ⟨space, hcs, beq_self_eq_true _⟩
    rw [hany]
    rfl
  · have hindex : s.words.length ≤ index := h.resolve_left hcs
    rw [slotSpan_of_none (List.getElem?_eq_none hindex)]
    exact ite_self _

/-- A word that may go into a slot gets past the first two tests. -/
theorem setSlot_of_word {index : ℕ} {w cs : Bytes} (hw : s.words[index]? = some w)
    (hcs : space ∉ cs) :
    s.setSlot index (some cs) =
      (s.eraseAt (Slots.start space s.text index) w.length).insertAt
        (Slots.start space s.text index) (some cs) := by
  have hany : ¬ cs.any (· == space) = true := by
    rw [List.any_eq_true]
    rintro ⟨c, hc, heq⟩
    exact hcs (eq_of_beq heq ▸ hc)
  rw [setSlot, if_neg hany, slotSpan_of_word hw]

theorem Clean.setSlot_of_room (h : s.Clean) {index : ℕ} {w cs : Bytes}
    (hw : s.words[index]? = some w) (hcs : space ∉ cs)
    (hroom : s.text.length - w.length + cs.length < kCapacity) :
    (s.setSlot index (some cs)).1 = true ∧ (s.setSlot index (some cs)).2.Clean ∧
      (s.setSlot index (some cs)).2.words = s.words.set index cs := by
  have hlen := Slots.start_add_length_le hw
  obtain ⟨herased, -⟩ := Holds.eraseAt_slot h hw (Nat.zero_le _)
  rw [Nat.add_zero, Nat.sub_zero] at herased
  -- the old word is cut out, and the new one goes where it stood
  have hfront : (s.text.take (Slots.start space s.text index)).length
      = Slots.start space s.text index := by
    rw [List.length_take]
    omega
  have hback : (s.text.drop (Slots.start space s.text index + w.length)).length
      = s.text.length - (Slots.start space s.text index + w.length) := List.length_drop
  have hfits : Slots.start space s.text index ≤ (s.text.take (Slots.start space s.text index)
      ++ s.text.drop (Slots.start space s.text index + w.length)).length := by
    rw [List.length_append]
    omega
  obtain ⟨hok, hholds⟩ := herased.insertAt_of_room hfits cs (by rw [List.length_append]; omega)
  have htake : (s.text.take (Slots.start space s.text index)
      ++ s.text.drop (Slots.start space s.text index + w.length)).take
        (Slots.start space s.text index) = s.text.take (Slots.start space s.text index) :=
    List.take_left' hfront
  have hdrop : (s.text.take (Slots.start space s.text index)
      ++ s.text.drop (Slots.start space s.text index + w.length)).drop
        (Slots.start space s.text index)
      = s.text.drop (Slots.start space s.text index + w.length) :=
    List.drop_left' hfront
  rw [htake, hdrop] at hholds
  have hsplice := Slots.splitOn_splice hw (Nat.zero_le _) (x := cs) hcs
  rw [Nat.add_zero] at hsplice
  rw [setSlot_of_word hw hcs]
  refine ⟨hok, hholds.clean, ?_⟩
  rw [hholds.words_eq, hsplice, words, List.take_zero, List.nil_append]

/-- A word there is no room for leaves its slot empty. -/
theorem Clean.setSlot_of_full (h : s.Clean) {index : ℕ} {w cs : Bytes}
    (hw : s.words[index]? = some w) (hcs : space ∉ cs)
    (hwrap : s.text.length - w.length + cs.length + 1 < 2 ^ 64)
    (hfull : ¬ s.text.length - w.length + cs.length < kCapacity) :
    (s.setSlot index (some cs)).1 = false ∧ (s.setSlot index (some cs)).2.Clean ∧
      (s.setSlot index (some cs)).2.words = s.words.set index [] := by
  have hlen := Slots.start_add_length_le hw
  obtain ⟨herased, hwords⟩ := Holds.eraseAt_slot h hw (Nat.zero_le _)
  rw [Nat.add_zero, Nat.sub_zero] at herased hwords
  have hnew : (s.text.take (Slots.start space s.text index)
      ++ s.text.drop (Slots.start space s.text index + w.length)).length
      = s.text.length - w.length := by
    simp only [List.length_append, List.length_take, List.length_drop]
    omega
  rw [setSlot_of_word hw hcs,
    herased.insertAt_of_full _ (by rw [hnew]; omega) (by rw [hnew]; exact hfull)]
  exact ⟨rfl, herased.clean, hwords⟩

/-! ### The number of words -/

theorem Clean.setSlotCount_of_le (h : s.Clean) {count : ℕ} (hpos : 0 < count)
    (hle : count ≤ s.words.length) :
    (s.setSlotCount count).1 = true ∧ (s.setSlotCount count).2.Clean ∧
      (s.setSlotCount count).2.words = s.words.take count := by
  rw [setSlotCount, if_neg (by omega), slotCount_eq]
  by_cases heq : s.words.length = count
  · dsimp only
    rw [if_pos heq, List.take_of_length_le heq.le]
    exact ⟨rfl, h, rfl⟩
  · -- the text is cut behind the last word that stays
    have hlast : count - 1 < s.words.length := by omega
    obtain ⟨w, hw⟩ : ∃ w, s.words[count - 1]? = some w := ⟨_, List.getElem?_eq_getElem hlast⟩
    have hlen := Slots.start_add_length_le hw
    have hroom := h.room
    have htake := Slots.splitOn_take hw
    have hpred : count - 1 + 1 = count := by omega
    have hkeep : (s.text.take (Slots.start space s.text (count - 1) + w.length)).length
        = Slots.start space s.text (count - 1) + w.length := by
      rw [List.length_take]
      omega
    have hpad := holds_terminate (Buffer.Padded.truncate h.padded _ hlen) (by rw [hkeep]; omega)
    rw [hkeep, ← h.len_eq] at hpad
    rw [hpred] at htake
    dsimp only
    rw [if_neg heq, if_neg (by omega), slotSpan_of_word hw]
    exact ⟨rfl, hpad.clean, by rw [hpad.words_eq, htake, words]⟩

theorem Clean.setSlotCount_of_room (h : s.Clean) {count : ℕ} (hlt : s.words.length < count)
    (hroom : s.text.length + (count - s.words.length) < kCapacity) :
    (s.setSlotCount count).1 = true ∧ (s.setSlotCount count).2.Clean ∧
      (s.setSlotCount count).2.words
        = s.words ++ List.replicate (count - s.words.length) [] := by
  have hcap : kCapacity = 320 := rfl
  have hfits : fits s.text.length (count - s.words.length) = true :=
    (fits_iff (by omega)).mpr hroom
  have hnew : (s.text ++ List.replicate (count - s.words.length) space).length
      = s.text.length + (count - s.words.length) := by
    rw [List.length_append, List.length_replicate]
  have hpad := holds_terminate (h.padded.write (List.replicate (count - s.words.length) space)
    (by rw [List.length_replicate]; omega)) (by omega)
  rw [hnew] at hpad
  rw [setSlotCount, if_neg (by omega), slotCount_eq]
  dsimp only
  rw [if_neg (by omega), if_pos hlt, h.len_eq, hfits, addSize_eq (by omega)]
  have hwords : (s.text ++ List.replicate (count - s.words.length) space).splitOn space = _ :=
    Slots.splitOn_append_replicate s.text (count - s.words.length)
  exact ⟨rfl, hpad.clean, hpad.words_eq.trans hwords⟩

theorem Clean.setSlotCount_of_full (h : s.Clean) {count : ℕ} (hlt : s.words.length < count)
    (hwrap : s.text.length + (count - s.words.length) + 1 < 2 ^ 64)
    (hfull : ¬ s.text.length + (count - s.words.length) < kCapacity) :
    s.setSlotCount count = (false, s) := by
  have hfits : fits s.text.length (count - s.words.length) = false :=
    Bool.eq_false_iff.mpr fun hf => hfull ((fits_iff (by omega)).mp hf)
  rw [setSlotCount, if_neg (by omega), slotCount_eq]
  dsimp only
  rw [if_neg (by omega), if_pos hlt, h.len_eq, hfits]
  rfl

end

end SecureString

end SignerOS
