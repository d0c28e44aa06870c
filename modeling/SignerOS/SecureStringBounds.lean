import SignerOS.Lib.Traced
import SignerOS.SecureStringRefinement

/-!
# Where a `SecureString` is written

The functions that add to the text test for room with a sum of `size_t`. They are written here a
second time with every index they write; what a program does after the first write outside the
array is not defined, and only whether there is one is asked for.

* `Call.run` and `result_run`, the functions with their writes, and that they are the same functions;
* `Call.Safe`, no write is outside the array, and `setSlotCount` refuses exactly what it has to;
* `safe_iff`, that is so exactly if the sum does not wrap;
* `capacity_guards`, over runs of operations.
-/

namespace SignerOS

namespace SecureString

/-! ## The functions, with what they write -/

/-- What a function returns, and the array and the length it leaves. -/
structure Ran where
  ok : Bool
  array : Traced UInt8 kCapacity
  len : ℕ

namespace Ran

/-- The function changes nothing. -/
def unchanged (ok : Bool) (s : SecureString) : Ran := ⟨ok, .start s.buf, s.len⟩

def result (r : Ran) : Bool × SecureString := (r.ok, ⟨r.array.cells, r.len⟩)

end Ran

/-- `append(char)`. -/
def appendTraced (s : SecureString) (c : UInt8) : Ran :=
  if kCapacity ≤ s.len + 1 then .unchanged false s
  else ⟨true, ((Traced.start s.buf).put s.len c).put (s.len + 1) 0, s.len + 1⟩

/-- `append(const char *, std::size_t)`. -/
def appendCharsTraced (s : SecureString) (chars : Option Bytes) : Ran :=
  match chars with
  | none => .unchanged false s
  | some cs =>
    if !fits s.len cs.length then .unchanged false s
    else
      let len := addSize s.len cs.length
      ⟨true, ((Traced.start s.buf).writeFrom s.len cs).put len 0, len⟩

def insertAtTraced (s : SecureString) (pos : ℕ) (chars : Option Bytes) : Ran :=
  match chars with
  | none => .unchanged false s
  | some cs =>
    if s.len < pos then .unchanged false s
    else if cs.length = 0 then .unchanged true s
    else if !fits s.len cs.length then .unchanged false s
    else
      let len := addSize s.len cs.length
      let shifted := (Traced.start s.buf).moveUp pos cs.length (s.len - pos)
      ⟨true, (shifted.writeFrom pos cs).put len 0, len⟩

def setSlotCountTraced (s : SecureString) (count : ℕ) : Ran :=
  if count = 0 then .unchanged false s
  else
    let cur := s.slotCount
    if cur = count then .unchanged true s
    else if cur < count then
      let add := count - cur
      if !fits s.len add then .unchanged false s
      else
        let len := addSize s.len add
        ⟨true, ((Traced.start s.buf).fill s.len add space).put len 0, len⟩
    else
      match s.slotSpan (count - 1) with
      | none => .unchanged false s
      | some (start, len) =>
        let keep := start + len
        ⟨true, ((Traced.start s.buf).fill keep (s.len - keep) 0).put keep 0, keep⟩

def Call.run (s : SecureString) : Call → Ran
  | .append c => s.appendTraced c
  | .appendChars chars => s.appendCharsTraced chars
  | .insertAt pos chars => s.insertAtTraced pos chars
  | .setSlotCount count => s.setSlotCountTraced count

/-- What the functions do when their writes are not asked for. -/
def Call.perform (s : SecureString) : Call → Bool × SecureString
  | .append c => s.append c
  | .appendChars chars => s.appendChars chars
  | .insertAt pos chars => s.insertAt pos chars
  | .setSlotCount count => s.setSlotCount count

/-- They are the same functions. -/
theorem result_run (s : SecureString) (call : Call) : (call.run s).result = call.perform s := by
  cases call with
  | append c =>
    dsimp only [Call.run, Call.perform, appendTraced, append]
    split_ifs <;> rfl
  | appendChars chars =>
    cases chars with
    | none => rfl
    | some cs =>
      dsimp only [Call.run, Call.perform, appendCharsTraced, appendChars]
      split_ifs
      · rfl
      · rw [Ran.result, Traced.cells_put, Traced.cells_writeFrom]
        rfl
  | insertAt pos chars =>
    cases chars with
    | none => rfl
    | some cs =>
      dsimp only [Call.run, Call.perform, insertAtTraced, insertAt]
      split_ifs
      · rfl
      · rfl
      · rfl
      · rw [Ran.result, Traced.cells_put, Traced.cells_writeFrom, Traced.cells_moveUp]
        rfl
  | setSlotCount count =>
    dsimp only [Call.run, Call.perform, setSlotCountTraced, setSlotCount]
    split_ifs
    · rfl
    · rfl
    · rfl
    · rw [Ran.result, Traced.cells_put, Traced.cells_fill]
      rfl
    · cases s.slotSpan (count - 1) with
      | none => rfl
      | some span =>
        dsimp only
        rw [Ran.result, Traced.cells_put, Traced.cells_fill]
        rfl

/-- An operation that makes a call leaves what the call leaves. -/
theorem step_of_call {s s' : SecureString} {op : Op} {call : Call}
    (h : op.call s = some (s', call)) : s.step op = (call.run s').result.2 := by
  rw [result_run]
  cases Op.makes_of_call h with
  | append c => rfl
  | appendChars chars => rfl
  | assign chars => rfl
  | setSlotCount count => rfl
  | appendToSlot index c span hc hspan =>
    show (s.appendToSlot index c).2 = _
    rw [appendToSlot, if_neg hc, hspan]
    rfl
  | setSlot index cs span hcs hspan =>
    show (s.setSlot index (some cs)).2 = _
    rw [setSlot, if_neg hcs, hspan]
    rfl

/-! ## What a call has to do -/

/-- The text of the first `count` words, empty ones added where there are fewer. -/
def textOfCount (s : SecureString) (count : ℕ) : Bytes :=
  [space].intercalate (s.words.take count ++ List.replicate (count - s.words.length) [])

/-- `setSlotCount` refuses no words at all, and a text that has no room with its terminator. -/
def Call.Answers (s : SecureString) : Call → Prop
  | .setSlotCount count =>
    (s.setSlotCount count).1 = false ↔ count = 0 ∨ kCapacity < (s.textOfCount count).length + 1
  | _ => True

/-- No write is outside the array, and the call answers what it has to. -/
structure Call.Safe (s : SecureString) (call : Call) : Prop where
  inside : (call.run s).array.Inside
  answers : call.Answers s

/-- The lengths and counts are of type `size_t`. -/
def Call.Sized : Call → Prop
  | .append _ => True
  | .appendChars chars => ∀ cs, chars = some cs → cs.length < 2 ^ 64
  | .insertAt pos chars => pos < 2 ^ 64 ∧ ∀ cs, chars = some cs → cs.length < 2 ^ 64
  | .setSlotCount count => count < 2 ^ 64

section
variable {s : SecureString}

theorem Clean.len_lt (h : s.Clean) : s.len < kCapacity := h.len_eq ▸ h.room

/-- A sum that wraps is small, and the test is passed. -/
theorem fits_of_wrap {len n : ℕ} (hlen : len < kCapacity) (hn : n < 2 ^ 64)
    (hwrap : ¬ len + n + 1 < 2 ^ 64) : fits len n = true := by
  have hcap : kCapacity = 320 := rfl
  have hsum : addSize (addSize len n) 1 = len + n + 1 - 2 ^ 64 := by
    rw [addSize, addSize, Nat.mod_add_mod, Nat.mod_eq_sub_mod (by omega)]
    exact Nat.mod_eq_of_lt (by omega)
  rw [fits, hsum]
  exact decide_eq_true (by omega)

theorem fits_eq_false {len n : ℕ} (hwrap : len + n + 1 < 2 ^ 64) (hfull : ¬ len + n < kCapacity) :
    fits len n = false :=
  Bool.eq_false_iff.mpr fun hf => hfull ((fits_iff hwrap).mp hf)

theorem inside_unchanged (ok : Bool) (s : SecureString) : (Ran.unchanged ok s).array.Inside :=
  Traced.inside_start s.buf

theorem Clean.inside_append (h : s.Clean) (c : UInt8) : (s.appendTraced c).array.Inside := by
  have hlen := h.len_lt
  unfold appendTraced
  split
  · exact inside_unchanged false s
  · exact Traced.inside_put.mpr
      ⟨Traced.inside_put.mpr ⟨Traced.inside_start s.buf, hlen⟩, by omega⟩

theorem Clean.inside_appendChars_iff (h : s.Clean) {cs : Bytes} (hsize : cs.length < 2 ^ 64) :
    (s.appendCharsTraced (some cs)).array.Inside ↔ s.len + cs.length + 1 < 2 ^ 64 := by
  have hcap : kCapacity = 320 := rfl
  have hlen := h.len_lt
  rw [appendCharsTraced]
  by_cases hwrap : s.len + cs.length + 1 < 2 ^ 64
  · refine iff_of_true ?_ hwrap
    by_cases hroom : s.len + cs.length < kCapacity
    · rw [(fits_iff hwrap).mpr hroom, addSize_eq (by omega)]
      exact Traced.inside_put.mpr
        ⟨Traced.inside_writeFrom.mpr ⟨Traced.inside_start s.buf, Or.inr hroom.le⟩, hroom⟩
    · rw [fits_eq_false hwrap hroom]
      exact inside_unchanged false s
  · refine iff_of_false ?_ hwrap
    rw [fits_of_wrap hlen hsize hwrap]
    intro hinside
    rcases (Traced.inside_writeFrom.mp (Traced.inside_put.mp hinside).1).2 with hnil | hend
    · rw [hnil, List.length_nil] at hwrap
      omega
    · omega

theorem Clean.inside_insertAt_iff (h : s.Clean) (pos : ℕ) {cs : Bytes}
    (hsize : cs.length < 2 ^ 64) :
    (s.insertAtTraced pos (some cs)).array.Inside ↔
      s.len < pos ∨ s.len + cs.length + 1 < 2 ^ 64 := by
  have hcap : kCapacity = 320 := rfl
  have hlen := h.len_lt
  rw [insertAtTraced]
  by_cases hpos : s.len < pos
  · rw [if_pos hpos]
    exact iff_of_true (inside_unchanged false s) (Or.inl hpos)
  rw [if_neg hpos]
  by_cases hcs : cs.length = 0
  · rw [if_pos hcs]
    exact iff_of_true (inside_unchanged true s) (Or.inr (by omega))
  rw [if_neg hcs]
  have hne : cs ≠ [] := fun hnil => hcs (by rw [hnil, List.length_nil])
  by_cases hwrap : s.len + cs.length + 1 < 2 ^ 64
  · refine iff_of_true ?_ (Or.inr hwrap)
    by_cases hroom : s.len + cs.length < kCapacity
    · rw [(fits_iff hwrap).mpr hroom, addSize_eq (by omega)]
      have hshift := Traced.inside_moveUp.mpr
        ⟨Traced.inside_start s.buf, Or.inr (show pos + cs.length + (s.len - pos) ≤ kCapacity by omega)⟩
      exact Traced.inside_put.mpr ⟨Traced.inside_writeFrom.mpr ⟨hshift, Or.inr (by omega)⟩, hroom⟩
    · rw [fits_eq_false hwrap hroom]
      exact inside_unchanged false s
  · refine iff_of_false ?_ (by omega)
    rw [fits_of_wrap hlen hsize hwrap]
    intro hinside
    have hend := (Traced.inside_writeFrom.mp (Traced.inside_put.mp hinside).1).2.resolve_left hne
    omega

/-! ### The number of words -/

theorem Clean.length_textOfCount_of_le (h : s.Clean) {count : ℕ} (hpos : 0 < count)
    (hle : count ≤ s.words.length) : (s.textOfCount count).length < kCapacity := by
  have hroom := h.room
  obtain ⟨w, hw⟩ : ∃ w, s.words[count - 1]? = some w :=
    ⟨_, List.getElem?_eq_getElem (by omega)⟩
  have hpred : count - 1 + 1 = count := by omega
  have hnone : count - s.words.length = 0 := by omega
  have hwords := Slots.splitOn_take hw
  rw [hpred] at hwords
  rw [textOfCount, hnone, List.replicate_zero, List.append_nil, words, ← hwords,
    List.intercalate_splitOn, List.length_take]
  omega

theorem length_textOfCount_of_lt {count : ℕ} (hlt : s.words.length < count) :
    (s.textOfCount count).length = s.text.length + (count - s.words.length) := by
  rw [textOfCount, List.take_of_length_le (by omega), words, ← Slots.splitOn_append_replicate,
    List.intercalate_splitOn, List.length_append, List.length_replicate]

/-- The count is taken, and the writes are inside, for as many words as there are or fewer. -/
theorem Clean.setSlotCount_of_few (h : s.Clean) {count : ℕ} (hle : count ≤ s.words.length) :
    (s.setSlotCountTraced count).array.Inside ∧ Call.Answers s (.setSlotCount count) := by
  have hlen := h.len_lt
  by_cases hzero : count = 0
  · subst hzero
    exact ⟨inside_unchanged false s, iff_of_true rfl (Or.inl rfl)⟩
  have hroom := h.length_textOfCount_of_le (by omega) hle
  have hok := (h.setSlotCount_of_le (by omega) hle).1
  refine ⟨?_, iff_of_false (by rw [hok]; decide) (by omega)⟩
  rw [setSlotCountTraced, if_neg hzero, slotCount_eq]
  dsimp only
  by_cases hsame : s.words.length = count
  · rw [if_pos hsame]
    exact inside_unchanged true s
  · obtain ⟨w, hw⟩ : ∃ w, s.words[count - 1]? = some w :=
      ⟨_, List.getElem?_eq_getElem (by omega)⟩
    have hend := Slots.start_add_length_le hw
    rw [← h.len_eq] at hend
    rw [if_neg hsame, if_neg (by omega), slotSpan_of_word hw]
    exact Traced.inside_put.mpr
      ⟨Traced.inside_fill.mpr ⟨Traced.inside_start s.buf, Or.inr (by omega)⟩, by omega⟩

/-- More words than there are: every one of them is one more byte. -/
theorem Clean.setSlotCount_of_many (h : s.Clean) {count : ℕ} (hlt : s.words.length < count)
    (hwrap : s.len + (count - s.words.length) + 1 < 2 ^ 64) :
    (s.setSlotCountTraced count).array.Inside ∧ Call.Answers s (.setSlotCount count) := by
  have hlen := h.len_lt
  have hroomlen := length_textOfCount_of_lt hlt
  rw [← h.len_eq] at hroomlen
  rw [setSlotCountTraced, if_neg (by omega), slotCount_eq]
  dsimp only
  rw [if_neg (by omega), if_pos hlt]
  by_cases hroom : s.len + (count - s.words.length) < kCapacity
  · have hok := (h.setSlotCount_of_room hlt (by rw [← h.len_eq]; exact hroom)).1
    rw [(fits_iff hwrap).mpr hroom, addSize_eq (by omega)]
    refine ⟨?_, iff_of_false (by rw [hok]; decide) (by omega)⟩
    exact Traced.inside_put.mpr
      ⟨Traced.inside_fill.mpr ⟨Traced.inside_start s.buf, Or.inr hroom.le⟩, hroom⟩
  · have hrefused := h.setSlotCount_of_full hlt (by rw [← h.len_eq]; exact hwrap)
      (by rw [← h.len_eq]; exact hroom)
    rw [fits_eq_false hwrap hroom]
    exact ⟨inside_unchanged false s, iff_of_true (by rw [hrefused]) (Or.inr (by omega))⟩

/-- A count whose sum wraps is taken, and written where there is no room for it. -/
theorem Clean.not_inside_setSlotCount (h : s.Clean) {count : ℕ} (hsize : count < 2 ^ 64)
    (hwrap : ¬ s.len + (count - s.words.length) + 1 < 2 ^ 64) :
    ¬ (s.setSlotCountTraced count).array.Inside := by
  have hcap : kCapacity = 320 := rfl
  have hlen := h.len_lt
  rw [setSlotCountTraced, if_neg (by omega), slotCount_eq]
  dsimp only
  rw [if_neg (by omega), if_pos (by omega), fits_of_wrap hlen (by omega) hwrap]
  intro hinside
  have hend := (Traced.inside_fill.mp (Traced.inside_put.mp hinside).1).2
  omega

/-! ## Calls whose sum does not wrap -/

theorem Clean.safe (h : s.Clean) {call : Call} (hwrap : call.NoWrap s) : call.Safe s := by
  cases call with
  | append c => exact ⟨h.inside_append c, trivial⟩
  | appendChars chars =>
    cases chars with
    | none => exact ⟨inside_unchanged false s, trivial⟩
    | some cs =>
      have hsum : s.len + cs.length + 1 < 2 ^ 64 := hwrap
      exact ⟨(h.inside_appendChars_iff (by omega)).mpr hsum, trivial⟩
  | insertAt pos chars =>
    refine ⟨?_, trivial⟩
    cases chars with
    | none => exact inside_unchanged false s
    | some cs =>
      rcases hwrap with hpos | hsum
      · rw [Call.run, insertAtTraced, if_pos hpos]
        exact inside_unchanged false s
      · exact (h.inside_insertAt_iff pos (by omega)).mpr (Or.inr hsum)
  | setSlotCount count =>
    have hsum : s.len + (count - s.words.length) + 1 < 2 ^ 64 := by
      rw [← slotCount_eq]
      exact hwrap
    by_cases hle : count ≤ s.words.length
    · obtain ⟨hinside, hanswers⟩ := h.setSlotCount_of_few hle
      exact ⟨hinside, hanswers⟩
    · obtain ⟨hinside, hanswers⟩ := h.setSlotCount_of_many (by omega) hsum
      exact ⟨hinside, hanswers⟩

/-- A call does what it has to exactly if its sum does not wrap. -/
theorem Clean.safe_iff (h : s.Clean) {call : Call} (hsize : call.Sized) :
    call.Safe s ↔ call.NoWrap s := by
  refine ⟨fun hsafe => ?_, h.safe⟩
  cases call with
  | append c => trivial
  | appendChars chars =>
    cases chars with
    | none => trivial
    | some cs => exact (h.inside_appendChars_iff (hsize cs rfl)).mp hsafe.inside
  | insertAt pos chars =>
    cases chars with
    | none => trivial
    | some cs => exact (h.inside_insertAt_iff pos (hsize.2 cs rfl)).mp hsafe.inside
  | setSlotCount count =>
    by_contra hwrap
    refine h.not_inside_setSlotCount hsize (fun hsum => hwrap ?_) hsafe.inside
    show s.len + (count - s.slotCount) + 1 < 2 ^ 64
    rw [slotCount_eq]
    exact hsum

end

/-- Every call an operation makes does what it has to. -/
def SafeStep (s : SecureString) (op : Op) : Prop :=
  ∀ s' call, op.call s = some (s', call) → call.Safe s'

/-- The buffer a call is made on is clean if the operation's is. -/
theorem Clean.of_call {s s' : SecureString} (h : s.Clean) {op : Op} {call : Call}
    (hcall : op.call s = some (s', call)) : s'.Clean := by
  cases Op.makes_of_call hcall with
  | append c => exact h
  | appendChars chars => exact h
  | assign chars =>
    rw [clear_eq_new]
    exact clean_new
  | setSlotCount count => exact h
  | appendToSlot index c span _ _ => exact h
  | setSlot index cs span _ hspan =>
    cases hw : s.words[index]? with
    | none =>
      rw [slotSpan_of_none hw] at hspan
      cases hspan
    | some w =>
      -- the old word is cut out first
      have hholds := (Holds.eraseAt_slot h hw (Nat.zero_le _)).1
      rw [Nat.add_zero, Nat.sub_zero] at hholds
      rw [slotSpan_of_word hw, Option.some.injEq] at hspan
      rw [← hspan]
      exact hholds.clean

/-- In every run whose sums do not wrap, no call writes outside the array and `setSlotCount` refuses
exactly no words at all and a text without room; and in the state the run leads to, a further call
with any arguments does so exactly if its own sum does not wrap. -/
theorem capacity_guards (ops : List Op) (h : Runs.Along step NoWrap new ops) :
    Runs.Along step SafeStep new ops ∧
      ∀ call : Call, call.Sized →
        (call.Safe (Runs.run step new ops) ↔ call.NoWrap (Runs.run step new ops)) := by
  have hstep (s : SecureString) (op : Op) (hs : s.Clean) (hwrap : NoWrap s op) :
      (s.step op).Clean := hs.step_of_noWrap hwrap
  refine ⟨h.along hstep ?_ clean_new, fun call hsize => ?_⟩
  · intro s op hs hwrap s' call hcall
    exact (hs.of_call hcall).safe (hwrap s' call hcall)
  · exact (h.invariant hstep clean_new).safe_iff hsize

/-- A grid of one word is widened to twenty-four. -/
theorem capacity_guards_someEdits :
    Runs.Along step NoWrap new someEdits ∧ Runs.Along step SafeStep new someEdits ∧
      Call.Safe (Runs.run step new someEdits) (.setSlotCount 24) := by
  have hwrap : Runs.Along step NoWrap new someEdits :=
    someEdits_small.along (fun _ _ hs hsmall => hs.step hsmall)
      (fun _ _ hs hsmall => hs.noWrap hsmall) clean_new
  have hsize : Call.Sized (.setSlotCount 24) := show 24 < 2 ^ 64 by omega
  have hclean : (Runs.run step new someEdits).Clean :=
    hwrap.invariant (fun _ _ hs hw => hs.step_of_noWrap hw) clean_new
  have hsum : Call.NoWrap (Runs.run step new someEdits) (.setSlotCount 24) := by
    have hcap : kCapacity = 320 := rfl
    have hlen := hclean.len_lt
    show (Runs.run step new someEdits).len + (24 - _) + 1 < 2 ^ 64
    omega
  obtain ⟨hrun, hcall⟩ := capacity_guards someEdits hwrap
  exact ⟨hwrap, hrun, (hcall _ hsize).mpr hsum⟩

/-- Five letters, and the largest count there is: the sum wraps to 4, so the count is taken, and
separators are written over the end of the array. -/
theorem count_written_outside :
    fiveLetters.Reachable ∧ (fiveLetters.setSlotCount (2 ^ 64 - 1)).1 = true ∧
      kCapacity < (fiveLetters.textOfCount (2 ^ 64 - 1)).length + 1 ∧
      ¬ (Call.run fiveLetters (.setSlotCount (2 ^ 64 - 1))).array.Inside := by
  have hreachable : fiveLetters.Reachable :=
    ⟨[.appendChars (some [0x61, 0x62, 0x63, 0x64, 0x65])], by decide +kernel, rfl⟩
  have hlen : fiveLetters.len = 5 := by decide +kernel
  have hcount : fiveLetters.slotCount = 1 := by decide +kernel
  have hwords : fiveLetters.words.length = 1 := by rw [← slotCount_eq, hcount]
  have hcap : kCapacity = 320 := rfl
  refine ⟨hreachable, ?_, ?_, ?_⟩
  · have hfits : fits fiveLetters.len (2 ^ 64 - 1 - 1) = true :=
      fits_of_wrap (by omega) (by omega) (by omega)
    rw [SecureString.setSlotCount, if_neg (by omega), hcount]
    dsimp only
    rw [if_neg (by omega), if_pos (by omega), hfits]
    rfl
  · rw [length_textOfCount_of_lt (by omega)]
    omega
  · exact hreachable.clean.not_inside_setSlotCount (by omega) (by omega)

end SecureString

end SignerOS
