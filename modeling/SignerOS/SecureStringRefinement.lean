import SignerOS.SecureStringTheorems
import SignerOS.Lib.Runs

/-!
# A `SecureString` over runs of operations

* `SecureString.Clean.step_of_noWrap`, an operation whose sums of `size_t` do not wrap keeps the
  array clean;
* `SecureString.no_removed_byte_survives`, the array behind the text is zero throughout every
  run of operations;
* `SecureString.RefinesWords`, the operations of the grid as operations on a list of words;
* `SecureString.reachable_refinesWords`, every buffer a run can reach is such a grid.
-/

namespace SignerOS

namespace SecureString

/-! ## Runs -/

/-- The public operations that change a buffer. -/
inductive Op
  | append (c : UInt8)
  | appendChars (chars : Option Bytes)
  | assign (chars : Option Bytes)
  | backspace
  | backspaceWord
  | clear
  | normaliseWhitespace
  | setSlotCount (count : ℕ)
  | appendToSlot (index : ℕ) (c : UInt8)
  | backspaceInSlot (index : ℕ)
  | clearSlot (index : ℕ)
  | setSlot (index : ℕ) (chars : Option Bytes)

def step (s : SecureString) : Op → SecureString
  | .append c => (s.append c).2
  | .appendChars chars => (s.appendChars chars).2
  | .assign chars => (s.assign chars).2
  | .backspace => s.backspace
  | .backspaceWord => s.backspaceWord
  | .clear => s.clear
  | .normaliseWhitespace => s.normaliseWhitespace
  | .setSlotCount count => (s.setSlotCount count).2
  | .appendToSlot index c => (s.appendToSlot index c).2
  | .backspaceInSlot index => s.backspaceInSlot index
  | .clearSlot index => s.clearSlot index
  | .setSlot index chars => (s.setSlot index chars).2

/-- The length or count an operation adds to the length of the text. -/
def Op.added : Op → ℕ
  | .appendChars (some cs) => cs.length
  | .assign (some cs) => cs.length
  | .setSlotCount count => count
  | .setSlot _ (some cs) => cs.length
  | _ => 0

/-- Adding the operation's length or count to the length of the text does not wrap. -/
def Small (s : SecureString) (op : Op) : Prop := s.len + op.added + 1 < 2 ^ 64

instance (s : SecureString) (op : Op) : Decidable (Small s op) :=
  inferInstanceAs (Decidable (_ < _))

/-! ## Calls that test for room -/

/-- A call of one of the functions that add to the length of the text. -/
inductive Call
  | append (c : UInt8)
  | appendChars (chars : Option Bytes)
  | insertAt (pos : ℕ) (chars : Option Bytes)
  | setSlotCount (count : ℕ)

/-- The call an operation makes, and the buffer it makes it on. -/
def Op.call (s : SecureString) : Op → Option (SecureString × Call)
  | .append c => some (s, .append c)
  | .appendChars chars => some (s, .appendChars chars)
  | .assign chars => some (s.clear, .appendChars chars)
  | .setSlotCount count => some (s, .setSlotCount count)
  | .appendToSlot index c =>
    if c = space then none
    else (s.slotSpan index).map fun span => (s, .insertAt (span.1 + span.2) (some [c]))
  | .setSlot index (some cs) =>
    if cs.any (· == space) then none
    else (s.slotSpan index).map fun span =>
      (s.eraseAt span.1 span.2, .insertAt span.1 (some cs))
  | _ => none

/-- The same, one case for each operation that makes a call. -/
inductive Op.Makes (s : SecureString) : Op → SecureString → Call → Prop
  | append (c : UInt8) : Makes s (.append c) s (.append c)
  | appendChars (chars : Option Bytes) : Makes s (.appendChars chars) s (.appendChars chars)
  | assign (chars : Option Bytes) : Makes s (.assign chars) s.clear (.appendChars chars)
  | setSlotCount (count : ℕ) : Makes s (.setSlotCount count) s (.setSlotCount count)
  | appendToSlot (index : ℕ) (c : UInt8) (span : ℕ × ℕ) (hc : c ≠ space)
      (hspan : s.slotSpan index = some span) :
      Makes s (.appendToSlot index c) s (.insertAt (span.1 + span.2) (some [c]))
  | setSlot (index : ℕ) (cs : Bytes) (span : ℕ × ℕ) (hcs : ¬ cs.any (· == space))
      (hspan : s.slotSpan index = some span) :
      Makes s (.setSlot index (some cs)) (s.eraseAt span.1 span.2) (.insertAt span.1 (some cs))

theorem Op.makes_of_call {s s' : SecureString} {op : Op} {call : Call}
    (h : op.call s = some (s', call)) : op.Makes s s' call := by
  cases op with
  | append c =>
    cases h
    exact .append c
  | appendChars chars =>
    cases h
    exact .appendChars chars
  | assign chars =>
    rw [Op.call, Option.some.injEq, Prod.mk.injEq] at h
    obtain ⟨rfl, rfl⟩ := h
    exact .assign chars
  | setSlotCount count =>
    cases h
    exact .setSlotCount count
  | appendToSlot index c =>
    rw [Op.call] at h
    split_ifs at h with hc
    obtain ⟨span, hspan, heq⟩ := Option.map_eq_some_iff.mp h
    cases heq
    exact .appendToSlot index c span hc hspan
  | setSlot index chars =>
    cases chars with
    | none => cases h
    | some cs =>
      rw [Op.call] at h
      split_ifs at h with hcs
      obtain ⟨span, hspan, heq⟩ := Option.map_eq_some_iff.mp h
      cases heq
      exact .setSlot index cs span hcs hspan
  | _ => cases h

/-- The sum the call's test for room takes does not wrap. -/
def Call.NoWrap (s : SecureString) : Call → Prop
  | .append _ => True
  | .appendChars none => True
  | .appendChars (some cs) => s.len + cs.length + 1 < 2 ^ 64
  | .insertAt _ none => True
  | .insertAt pos (some cs) => s.len < pos ∨ s.len + cs.length + 1 < 2 ^ 64
  | .setSlotCount count => s.len + (count - s.slotCount) + 1 < 2 ^ 64

/-- No call of the operation wraps. -/
def NoWrap (s : SecureString) (op : Op) : Prop :=
  ∀ s' call, op.call s = some (s', call) → call.NoWrap s'

theorem len_eraseAt_le (s : SecureString) (pos n : ℕ) : (s.eraseAt pos n).len ≤ s.len := by
  rw [eraseAt]
  split
  · exact le_rfl
  · exact Nat.sub_le _ _

/-- An operation whose own number does not wrap makes no call that does. -/
theorem Clean.noWrap {s : SecureString} (h : s.Clean) {op : Op} (hsmall : Small s op) :
    NoWrap s op := by
  have hlen : s.len + op.added + 1 < 2 ^ 64 := hsmall
  intro s' call hcall
  cases Op.makes_of_call hcall with
  | append c => trivial
  | appendChars chars =>
    cases chars with
    | none => trivial
    | some cs => exact hlen
  | assign chars =>
    cases chars with
    | none => trivial
    | some cs =>
      show 0 + cs.length + 1 < 2 ^ 64
      change s.len + cs.length + 1 < 2 ^ 64 at hlen
      omega
  | setSlotCount count =>
    show s.len + (count - s.slotCount) + 1 < 2 ^ 64
    change s.len + count + 1 < 2 ^ 64 at hlen
    omega
  | appendToSlot index c span _ _ =>
    have hcap : kCapacity = 320 := rfl
    have hroom := h.room
    rw [← h.len_eq] at hroom
    exact Or.inr (show s.len + 1 + 1 < 2 ^ 64 by omega)
  | setSlot index cs span _ _ =>
    have herase := len_eraseAt_le s span.1 span.2
    change s.len + cs.length + 1 < 2 ^ 64 at hlen
    exact Or.inr (by omega)

section
variable {s : SecureString}

theorem Clean.step_append (h : s.Clean) (c : UInt8) : (s.append c).2.Clean := by
  by_cases hroom : s.text.length + 1 < kCapacity
  · exact (Holds.append_of_room h c hroom).2.clean
  · rw [Holds.append_of_full h c hroom]
    exact h

theorem Clean.step_appendChars (h : s.Clean) (chars : Option Bytes)
    (hwrap : ∀ cs, chars = some cs → s.text.length + cs.length + 1 < 2 ^ 64) :
    (s.appendChars chars).2.Clean := by
  cases chars with
  | none => exact h
  | some cs =>
    by_cases hroom : s.text.length + cs.length < kCapacity
    · exact (Holds.appendChars_of_room h hroom).2.clean
    · rw [Holds.appendChars_of_full h (hwrap cs rfl) hroom]
      exact h

theorem Clean.step_setSlotCount (h : s.Clean) (count : ℕ)
    (hwrap : s.text.length + (count - s.words.length) + 1 < 2 ^ 64) :
    (s.setSlotCount count).2.Clean := by
  by_cases hpos : count = 0
  · rw [setSlotCount, if_pos hpos]
    exact h
  · by_cases hle : count ≤ s.words.length
    · exact (h.setSlotCount_of_le (by omega) hle).2.1
    · by_cases hroom : s.text.length + (count - s.words.length) < kCapacity
      · exact (h.setSlotCount_of_room (by omega) hroom).2.1
      · rw [h.setSlotCount_of_full (by omega) hwrap hroom]
        exact h

theorem Clean.step_appendToSlot (h : s.Clean) (index : ℕ) (c : UInt8) :
    (s.appendToSlot index c).2.Clean := by
  cases hw : s.words[index]? with
  | none =>
    rw [appendToSlot_of_refused (Or.inr (List.getElem?_eq_none_iff.mp hw))]
    exact h
  | some w =>
    by_cases hc : c = space
    · rw [appendToSlot_of_refused (Or.inl hc)]
      exact h
    · by_cases hroom : s.text.length + 1 < kCapacity
      · exact (h.appendToSlot_of_room hw hc hroom).2.1
      · rw [h.appendToSlot_of_full hw hc hroom]
        exact h

theorem Clean.step_setSlot (h : s.Clean) (index : ℕ) (chars : Option Bytes)
    (hwrap : ∀ cs w, chars = some cs → s.words[index]? = some w → space ∉ cs →
      s.text.length - w.length + cs.length + 1 < 2 ^ 64) :
    (s.setSlot index chars).2.Clean := by
  cases chars with
  | none => exact h
  | some cs =>
    cases hw : s.words[index]? with
    | none =>
      rw [setSlot_of_refused (Or.inr (List.getElem?_eq_none_iff.mp hw))]
      exact h
    | some w =>
      by_cases hcs : space ∈ cs
      · rw [setSlot_of_refused (Or.inl hcs)]
        exact h
      · by_cases hroom : s.text.length - w.length + cs.length < kCapacity
        · exact (h.setSlot_of_room hw hcs hroom).2.1
        · exact (h.setSlot_of_full hw hcs (hwrap cs w rfl hw hcs) hroom).2.1

theorem Clean.step_slot (h : s.Clean) (index : ℕ) :
    (s.backspaceInSlot index).Clean ∧ (s.clearSlot index).Clean := by
  cases hw : s.words[index]? with
  | none =>
    obtain ⟨hback, hclear⟩ := slot_edit_of_none (List.getElem?_eq_none_iff.mp hw)
    rw [hback, hclear]
    exact ⟨h, h⟩
  | some w => exact ⟨(h.backspaceInSlot hw).1, (h.clearSlot hw).1⟩

theorem clean_new : new.Clean := holds_new.clean

/-- Every operation that makes no call that wraps leaves a clean buffer clean. -/
theorem Clean.step_of_noWrap (h : s.Clean) {op : Op} (hwrap : NoWrap s op) :
    (s.step op).Clean := by
  cases op with
  | append c => exact h.step_append c
  | appendChars chars =>
    refine h.step_appendChars chars fun cs hcs => ?_
    subst hcs
    rw [← h.len_eq]
    exact hwrap _ _ rfl
  | assign chars =>
    show (s.clear.appendChars chars).2.Clean
    rw [clear_eq_new]
    -- `assign` appends to a cleared buffer
    refine clean_new.step_appendChars chars fun cs hcs => ?_
    subst hcs
    rw [text_new]
    exact hwrap _ _ rfl
  | backspace => exact (Holds.backspace h).clean
  | backspaceWord => exact (Holds.backspaceWord h).clean
  | clear =>
    show s.clear.Clean
    rw [clear_eq_new]
    exact clean_new
  | normaliseWhitespace => exact (Holds.normaliseWhitespace h).clean
  | setSlotCount count =>
    refine h.step_setSlotCount count ?_
    rw [← h.len_eq, ← slotCount_eq]
    exact hwrap _ _ rfl
  | appendToSlot index c => exact h.step_appendToSlot index c
  | backspaceInSlot index => exact (h.step_slot index).1
  | clearSlot index => exact (h.step_slot index).2
  | setSlot index chars =>
    refine h.step_setSlot index chars fun cs w hcs hw hspace => ?_
    subst hcs
    -- the word is inserted where the old one was cut out
    have hlen := Slots.start_add_length_le hw
    have herased : (s.eraseAt (Slots.start space s.text index) w.length).len
        = s.text.length - w.length := by
      have hholds := (Holds.eraseAt_slot h hw (Nat.zero_le _)).1
      rw [Nat.add_zero, Nat.sub_zero] at hholds
      rw [hholds.len_eq, List.length_append, List.length_take, List.length_drop]
      omega
    have hcall : Op.call s (.setSlot index (some cs)) = some
        (s.eraseAt (Slots.start space s.text index) w.length,
          .insertAt (Slots.start space s.text index) (some cs)) := by
      have hany : ¬ cs.any (· == space) = true := by simpa using hspace
      rw [Op.call, if_neg hany, slotSpan_of_word hw]
      rfl
    rcases hwrap _ _ hcall with hpos | hsum
    · omega
    · rwa [herased] at hsum

/-- Every operation leaves a clean buffer clean. -/
theorem Clean.step (h : s.Clean) {op : Op} (hsmall : Small s op) : (s.step op).Clean :=
  h.step_of_noWrap (h.noWrap hsmall)

end

/-- A buffer that some run of operations leads to. -/
def Reachable (s : SecureString) : Prop :=
  ∃ ops, Runs.Along step Small new ops ∧ Runs.run step new ops = s

theorem Reachable.clean {s : SecureString} (h : s.Reachable) : s.Clean := by
  obtain ⟨ops, halong, rfl⟩ := h
  exact halong.invariant (fun s op hs hsmall => hs.step hsmall) clean_new

/-! ## No removed byte survives -/

/-- At every point of every run, the text is shorter than the array and every byte of the
array behind it is zero. -/
theorem no_removed_byte_survives (ops : List Op) (h : Runs.Along step Small new ops) :
    (Runs.run step new ops).len ≤ kCapacity - 1 ∧
      ∀ i : Fin kCapacity, (Runs.run step new ops).len ≤ i →
        (Runs.run step new ops).buf[i] = 0 := by
  have hclean : (Runs.run step new ops).Clean := Reachable.clean ⟨ops, h, rfl⟩
  have hroom := hclean.room
  rw [← hclean.len_eq] at hroom
  refine ⟨by omega, fun i hi => ?_⟩
  rw [hclean.len_eq] at hi
  have hget := hclean.padded.get_padding hi i.isLt
  rw [Vector.getElem?_eq_getElem i.isLt] at hget
  exact Option.some.inj hget

/-- Two words typed, the first one cleared, and the grid cut to one word. -/
def someEdits : List Op :=
  [.setSlotCount 2, .setSlot 1 (some [0x7a, 0x6f, 0x6f]), .appendToSlot 0 0x61, .clearSlot 0,
    .setSlotCount 1]

theorem someEdits_small : Runs.Along step Small new someEdits := by decide +kernel

theorem no_removed_byte_survives_someEdits :
    (Runs.run step new someEdits).len ≤ kCapacity - 1 ∧
      ∀ i : Fin kCapacity, (Runs.run step new someEdits).len ≤ i →
        (Runs.run step new someEdits).buf[i] = 0 :=
  no_removed_byte_survives someEdits someEdits_small

/-! ## The grid refines a list of words -/

/-- The operations of the grid on the list of the words of the text. -/
structure RefinesWords (s : SecureString) : Prop where
  slotCount : s.slotCount = s.words.length
  slotSpan : ∀ index, s.slotSpan index =
    (s.words[index]?).map fun w => (Slots.start space s.text index, w.length)
  /-- The word stands where `slotSpan` says. -/
  span : ∀ index w, s.words[index]? = some w →
    (s.text.drop (Slots.start space s.text index)).take w.length = w
  slotLength : ∀ index, s.slotLength index = (s.words[index]?.getD []).length
  /-- The word, cut to what `out` has room for, and a terminator. -/
  copySlot : ∀ index out, out ≠ [] → s.copySlot index (some out) =
    (min (s.words[index]?.getD []).length (out.length - 1),
      some ((s.words[index]?.getD []).take (out.length - 1)
        ++ 0 :: out.drop (min (s.words[index]?.getD []).length (out.length - 1) + 1)))
  firstEmptySlot : s.firstEmptySlot = s.words.findIdx fun w => w.isEmpty
  appendToSlot_refused : ∀ index c, c = space ∨ s.words.length ≤ index →
    s.appendToSlot index c = (false, s)
  appendToSlot : ∀ index w c, s.words[index]? = some w → c ≠ space →
    s.text.length + 1 < kCapacity →
      (s.appendToSlot index c).1 = true ∧
        (s.appendToSlot index c).2.words = s.words.set index (w ++ [c])
  appendToSlot_full : ∀ index w c, s.words[index]? = some w → c ≠ space →
    ¬ s.text.length + 1 < kCapacity → s.appendToSlot index c = (false, s)
  backspaceInSlot : ∀ index w, s.words[index]? = some w →
    (s.backspaceInSlot index).words = s.words.set index w.dropLast
  clearSlot : ∀ index w, s.words[index]? = some w →
    (s.clearSlot index).words = s.words.set index []
  /-- A word that is not there is neither shortened nor cleared. -/
  slot_refused : ∀ index, s.words.length ≤ index →
    s.backspaceInSlot index = s ∧ s.clearSlot index = s
  setSlot_null : ∀ index, s.setSlot index none = (false, s)
  setSlot_refused : ∀ index cs, space ∈ cs ∨ s.words.length ≤ index →
    s.setSlot index (some cs) = (false, s)
  setSlot : ∀ index w cs, s.words[index]? = some w → space ∉ cs →
    s.text.length - w.length + cs.length < kCapacity →
      (s.setSlot index (some cs)).1 = true ∧
        (s.setSlot index (some cs)).2.words = s.words.set index cs
  /-- A word there is no room for leaves its slot empty. -/
  setSlot_full : ∀ index w cs, s.words[index]? = some w → space ∉ cs →
    s.text.length + cs.length + 1 < 2 ^ 64 →
    ¬ s.text.length - w.length + cs.length < kCapacity →
      (s.setSlot index (some cs)).1 = false ∧
        (s.setSlot index (some cs)).2.words = s.words.set index []
  setSlotCount : ∀ count, 1 ≤ count → s.text.length + (count - s.words.length) < kCapacity →
    (s.setSlotCount count).1 = true ∧
      (s.setSlotCount count).2.words
        = s.words.take count ++ List.replicate (count - s.words.length) []
  setSlotCount_full : ∀ count, 1 ≤ count → s.text.length + count + 1 < 2 ^ 64 →
    ¬ s.text.length + (count - s.words.length) < kCapacity → s.setSlotCount count = (false, s)

theorem Clean.refinesWords {s : SecureString} (h : s.Clean) : s.RefinesWords where
  slotCount := slotCount_eq s
  slotSpan := slotSpan_eq s
  span := fun _ _ hw => Slots.take_drop_start hw
  slotLength := slotLength_eq s
  copySlot := fun index _ hout => copySlot_eq s index hout
  firstEmptySlot := firstEmptySlot_eq s
  appendToSlot_refused := fun _ _ hrefused => appendToSlot_of_refused hrefused
  appendToSlot := by
    intro index w c hw hc hroom
    obtain ⟨hok, -, hwords⟩ := h.appendToSlot_of_room hw hc hroom
    exact ⟨hok, hwords⟩
  appendToSlot_full := fun _ _ _ hw hc hfull => h.appendToSlot_of_full hw hc hfull
  backspaceInSlot := fun _ _ hw => (h.backspaceInSlot hw).2
  clearSlot := fun _ _ hw => (h.clearSlot hw).2
  slot_refused := fun _ hindex => slot_edit_of_none hindex
  setSlot_null := fun _ => rfl
  setSlot_refused := fun _ _ hrefused => setSlot_of_refused hrefused
  setSlot := by
    intro index w cs hw hcs hroom
    obtain ⟨hok, -, hwords⟩ := h.setSlot_of_room hw hcs hroom
    exact ⟨hok, hwords⟩
  setSlot_full := by
    intro index w cs hw hcs hwrap hfull
    obtain ⟨hok, -, hwords⟩ := h.setSlot_of_full hw hcs (by omega) hfull
    exact ⟨hok, hwords⟩
  setSlotCount := by
    intro count hpos hroom
    by_cases hle : count ≤ s.words.length
    · obtain ⟨hok, -, hwords⟩ := h.setSlotCount_of_le hpos hle
      have hsub : count - s.words.length = 0 := by omega
      rw [hsub, List.replicate_zero, List.append_nil]
      exact ⟨hok, hwords⟩
    · obtain ⟨hok, -, hwords⟩ := h.setSlotCount_of_room (by omega) hroom
      rw [List.take_of_length_le (by omega)]
      exact ⟨hok, hwords⟩
  setSlotCount_full := by
    intro count _ hwrap hfull
    have hroom := h.room
    exact h.setSlotCount_of_full (by omega) (by omega) hfull

/-- Every buffer a run leads to is a grid of words. -/
theorem reachable_refinesWords (s : SecureString) (h : s.Reachable) : s.RefinesWords :=
  h.clean.refinesWords

theorem reachable_refinesWords_someEdits : (Runs.run step new someEdits).RefinesWords :=
  reachable_refinesWords (Runs.run step new someEdits) ⟨someEdits, someEdits_small, rfl⟩

def fiveLetters : SecureString := (new.appendChars (some [0x61, 0x62, 0x63, 0x64, 0x65])).2

/-- A null pointer is refused at an index in range, and a count whose sum with the length of the
text wraps is not refused, though there is no room for it. -/
theorem grid_null_and_wrapped_count :
    (0 < new.words.length ∧ new.setSlot 0 none = (false, new)) ∧
      (fiveLetters.setSlotCount (2 ^ 64 - 1)).1 = true ∧
      (fiveLetters.setSlotCount (2 ^ 64 - 1)).2.words.length ≠ 2 ^ 64 - 1 := by
  have hcount : fiveLetters.slotCount = 1 := by decide +kernel
  have hfits : fits fiveLetters.len (2 ^ 64 - 1 - 1) = true := by decide +kernel
  refine ⟨⟨by decide +kernel, rfl⟩, ?_, ?_⟩
  · rw [SecureString.setSlotCount, hcount]
    dsimp only
    rw [if_neg (by omega), if_neg (by omega), if_pos (by omega), hfits]
    rfl
  · -- no buffer has more words than it has bytes and one more
    intro h
    rw [SecureString.words, Slots.length_splitOn] at h
    have hle := (fiveLetters.setSlotCount (2 ^ 64 - 1)).2.text.count_le_length (a := space)
    have htext : (fiveLetters.setSlotCount (2 ^ 64 - 1)).2.text.length ≤ 320 := by
      rw [SecureString.text, List.length_take, Vector.length_toList]
      exact Nat.min_le_right _ _
    omega

end SecureString

end SignerOS
