import SignerOS.Lib.Mask
import SignerOS.SecureStringTheorems

/-!
# The cells that hold no word

`bip39UnknownSlots` suspects every cell that is typed, and then walks the word list once, clearing
the cells that a word accounts for.

* `has_suspectSlots` and `has_clearWord`, the loops over the cells;
* `has_wordLoop`, the loop over the list, which ends early when nothing is left to clear;
* `has_unknownSlots`, one bit of the mask;
* `unknown_slots`, what the mask says of a grid.
-/

namespace SignerOS

namespace PsbtEngine

/-! ## The function -/

/-- The first loop: a bit for each cell that is typed and not in progress. -/
def suspectSlots (mnemonic : SecureString) (inProgressSlot : ℤ) (limit : ℕ) : UInt32 :=
  (List.range limit).foldl (fun unknown i =>
    if 0 ≤ inProgressSlot ∧ inProgressSlot.toNat = i then unknown
    else if 0 < mnemonic.slotLength i then unknown ||| 1 <<< UInt32.ofNat i
    else unknown) 0

/-- One cell, for one word of the list: its bit is cleared where the word is what is typed. -/
def clearCell (mnemonic : SecureString) (word : Bytes) (unknown : UInt32) (i : ℕ) : UInt32 :=
  if unknown &&& 1 <<< UInt32.ofNat i = 0 then unknown
  else
    match mnemonic.slotSpan i with
    | none => unknown
    | some (start, len) =>
      if len ≠ word.length then unknown
      else if (mnemonic.text.drop start).take word.length = word then
        unknown &&& ~~~ (1 <<< UInt32.ofNat i)
      else unknown

/-- The cells, for one word of the list. -/
def clearWord (mnemonic : SecureString) (limit : ℕ) (word : Bytes) (unknown : UInt32) : UInt32 :=
  (List.range limit).foldl (clearCell mnemonic word) unknown

/-- The loop over the list, with so many indices left from `w` on. -/
def wordLoop (mnemonic : SecureString) (limit : ℕ) (getWord : ℕ → Option Bytes) :
    ℕ → ℕ → UInt32 → UInt32
  | 0, _, unknown => unknown
  | left + 1, w, unknown =>
    if unknown = 0 then unknown
    else
      match getWord w with
      | none => wordLoop mnemonic limit getWord left (w + 1) unknown
      | some word =>
        wordLoop mnemonic limit getWord left (w + 1) (clearWord mnemonic limit word unknown)

/-- `bip39UnknownSlots`. The list is what `bip39_get_wordlist` gives, and the word of each index
what `bip39_get_word` does. -/
def bip39UnknownSlots (wordlist : Option (ℕ → Option Bytes)) (mnemonic : SecureString)
    (inProgressSlot : ℤ) : UInt32 :=
  let cellCount := mnemonic.slotCount
  if cellCount = 0 then 0
  else
    let limit := if cellCount < 32 then cellCount else 32
    let unknown := suspectSlots mnemonic inProgressSlot limit
    if unknown = 0 then 0
    else
      match wordlist with
      | none => unknown
      | some getWord => wordLoop mnemonic limit getWord 2048 0 unknown

/-! ## The loops -/

section
variable {mnemonic : SecureString} {limit : ℕ}

theorem has_suspectSlots (inProgressSlot : ℤ) (hlimit : limit ≤ 32) {i : ℕ} :
    Mask.Has (suspectSlots mnemonic inProgressSlot limit) i ↔
      i < limit ∧ inProgressSlot ≠ i ∧ 0 < mnemonic.slotLength i := by
  have hset (unknown : UInt32) (i j : ℕ) (hi : i < 32) :
      Mask.Has (if 0 ≤ inProgressSlot ∧ inProgressSlot.toNat = i then unknown
        else if 0 < mnemonic.slotLength i then unknown ||| 1 <<< UInt32.ofNat i else unknown) j ↔
      Mask.Has unknown j ∨ j = i ∧ inProgressSlot ≠ i ∧ 0 < mnemonic.slotLength i := by
    have hprogress : 0 ≤ inProgressSlot ∧ inProgressSlot.toNat = i ↔ inProgressSlot = i := by omega
    split_ifs with hin hlen
    · simp [hprogress.mp hin]
    · rw [Mask.has_or hi]
      simp [mt hprogress.mpr hin, hlen]
    · simp [hlen]
  unfold suspectSlots
  rw [Mask.has_foldl_set hlimit hset]
  exact or_iff_right Mask.not_has_zero

theorem has_clearCell (word : Bytes) (unknown : UInt32) (i j : ℕ) (hi : i < 32) :
    Mask.Has (clearCell mnemonic word unknown i) j ↔
      Mask.Has unknown j ∧ ¬ (j = i ∧ mnemonic.words[i]? = some word) := by
  unfold clearCell
  by_cases hbit : unknown &&& 1 <<< UInt32.ofNat i = 0
  · -- there is nothing to clear
    rw [if_pos hbit]
    have hunset := (Mask.and_eq_zero_iff hi).mp hbit
    refine (and_iff_left_of_imp fun hj => ?_).symm
    rintro ⟨rfl, -⟩
    exact hunset hj
  rw [if_neg hbit]
  cases htyped : mnemonic.words[i]? with
  | none =>
    rw [SecureString.slotSpan_of_none htyped]
    simp
  | some typed =>
    rw [SecureString.slotSpan_of_word htyped]
    dsimp only
    by_cases hlen : typed.length = word.length
    · rw [if_neg (not_not_intro hlen), ← hlen, Slots.take_drop_start htyped]
      by_cases heq : typed = word
      · rw [if_pos heq, Mask.has_and_not hi]
        simp [heq]
      · rw [if_neg heq]
        simp [heq]
    · have hne : typed ≠ word := fun heq => hlen (congrArg List.length heq)
      rw [if_pos hlen]
      simp [hne]

/-- A word clears the cells it stands in. -/
theorem has_clearWord (hlimit : limit ≤ 32) (word : Bytes) {unknown : UInt32} {i : ℕ} :
    Mask.Has (clearWord mnemonic limit word unknown) i ↔
      Mask.Has unknown i ∧ ¬ (i < limit ∧ mnemonic.words[i]? = some word) :=
  Mask.has_foldl_clear hlimit (has_clearCell word)

/-- What the loop over the list leaves is what no word of the indices it had left stands in. -/
theorem has_wordLoop (hlimit : limit ≤ 32) (getWord : ℕ → Option Bytes) (left w : ℕ)
    {unknown : UInt32} {i : ℕ} :
    Mask.Has (wordLoop mnemonic limit getWord left w unknown) i ↔
      Mask.Has unknown i ∧ ∀ k, w ≤ k → k < w + left → ∀ word, getWord k = some word →
        ¬ (i < limit ∧ mnemonic.words[i]? = some word) := by
  induction left generalizing w unknown with
  | zero =>
    refine (and_iff_left fun k hle hlt => ?_).symm
    omega
  | succ left ih =>
    -- the indices that are left are this one and the next ones
    have hsplit (P : ℕ → Prop) : (∀ k, w ≤ k → k < w + (left + 1) → P k) ↔
        P w ∧ ∀ k, w + 1 ≤ k → k < w + 1 + left → P k := by
      constructor
      · intro h
        exact ⟨h w le_rfl (by omega), fun k hle hlt => h k (by omega) (by omega)⟩
      · rintro ⟨hw, h⟩ k hle hlt
        rcases Nat.eq_or_lt_of_le hle with rfl | hlt'
        · exact hw
        · exact h k hlt' (by omega)
    rw [hsplit, wordLoop]
    split_ifs with hzero
    · -- nothing is left to clear
      have hnone := Mask.eq_zero_iff.mp hzero i
      exact ⟨fun h => absurd h hnone, fun h => absurd h.1 hnone⟩
    · cases hword : getWord w with
      | none =>
        dsimp only
        rw [ih]
        simp
      | some word =>
        dsimp only
        rw [ih, has_clearWord hlimit, and_assoc]
        refine and_congr_right fun _ => and_congr_left fun _ => ?_
        simp

end

/-! ## What the mask says -/

/-- The word is in the list, and can be read. -/
def ListWord (wordlist : Option (ℕ → Option Bytes)) (word : Bytes) : Prop :=
  ∃ getWord, wordlist = some getWord ∧ ∃ w < 2048, getWord w = some word

theorem not_listWord_none (word : Bytes) : ¬ ListWord none word := by
  rintro ⟨getWord, hnone, -⟩
  exact Option.some_ne_none getWord hnone.symm

/-- The cell holds something, and is not in progress. -/
def TypedSlot (mnemonic : SecureString) (inProgressSlot : ℤ) (i : ℕ) : Prop :=
  ∃ typed, mnemonic.words[i]? = some typed ∧ typed ≠ [] ∧ inProgressSlot ≠ i

/-- What the cell holds, where it is not in progress, is no word of the list. -/
def UnknownSlot (wordlist : Option (ℕ → Option Bytes)) (mnemonic : SecureString)
    (inProgressSlot : ℤ) (i : ℕ) : Prop :=
  ∃ typed, mnemonic.words[i]? = some typed ∧ typed ≠ [] ∧ inProgressSlot ≠ i ∧
    ¬ ListWord wordlist typed

section
variable {wordlist : Option (ℕ → Option Bytes)} {mnemonic : SecureString} {inProgressSlot : ℤ}
  {i : ℕ}

/-- The cells that are suspected at first. -/
theorem has_suspectSlots_iff (inProgressSlot : ℤ) {limit : ℕ} (hlimit : limit ≤ 32)
    (hi : i < limit ↔ i < mnemonic.words.length) :
    Mask.Has (suspectSlots mnemonic inProgressSlot limit) i ↔
      TypedSlot mnemonic inProgressSlot i := by
  rw [has_suspectSlots inProgressSlot hlimit, hi, SecureString.slotLength_eq]
  constructor
  · rintro ⟨hlt, hne, hlen⟩
    rw [List.getElem?_eq_getElem hlt, Option.getD_some] at hlen
    exact ⟨_, List.getElem?_eq_getElem hlt, List.ne_nil_of_length_pos hlen, hne⟩
  · rintro ⟨typed, htyped, hnil, hne⟩
    rw [htyped, Option.getD_some]
    exact ⟨(List.getElem?_eq_some_iff.mp htyped).1, hne, List.length_pos_of_ne_nil hnil⟩

theorem unknownSlot_iff :
    UnknownSlot wordlist mnemonic inProgressSlot i ↔ TypedSlot mnemonic inProgressSlot i ∧
      ∀ typed, mnemonic.words[i]? = some typed → ¬ ListWord wordlist typed := by
  constructor
  · rintro ⟨typed, htyped, hnil, hne, hword⟩
    refine ⟨⟨typed, htyped, hnil, hne⟩, fun typed' htyped' => ?_⟩
    obtain rfl := Option.some.inj (htyped.symm.trans htyped')
    exact hword
  · rintro ⟨⟨typed, htyped, hnil, hne⟩, hword⟩
    exact ⟨typed, htyped, hnil, hne, hword typed htyped⟩

theorem has_unknownSlots (hi : i < 32) :
    Mask.Has (bip39UnknownSlots wordlist mnemonic inProgressSlot) i ↔
      UnknownSlot wordlist mnemonic inProgressSlot i := by
  have hcount := SecureString.slotCount_eq mnemonic
  have hpos : mnemonic.slotCount ≠ 0 := by
    unfold SecureString.slotCount
    omega
  -- the cells that the loops go over are the first 32
  obtain ⟨limit, hlimit⟩ : ∃ limit, limit =
      if mnemonic.slotCount < 32 then mnemonic.slotCount else 32 := ⟨_, rfl⟩
  have hle : limit ≤ 32 := by split_ifs at hlimit <;> omega
  have hlt : i < limit ↔ i < mnemonic.words.length := by split_ifs at hlimit <;> omega
  have hsuspect := has_suspectSlots_iff inProgressSlot hle hlt
  unfold bip39UnknownSlots
  rw [if_neg hpos, ← hlimit, unknownSlot_iff]
  dsimp only
  split_ifs with hzero
  · -- nothing is suspected
    have hnone := hsuspect.not.mp (Mask.eq_zero_iff.mp hzero i)
    exact ⟨fun h => absurd h Mask.not_has_zero, fun h => absurd h.1 hnone⟩
  · cases wordlist with
    | none =>
      rw [hsuspect]
      exact (and_iff_left fun typed _ => not_listWord_none typed).symm
    | some getWord =>
      dsimp only
      rw [has_wordLoop hle, hsuspect]
      refine and_congr_right fun htypedSlot => ?_
      obtain ⟨typed, htyped, -⟩ := htypedSlot
      have hin := hlt.mpr (List.getElem?_eq_some_iff.mp htyped).1
      constructor
      · rintro hloop typed' htyped' ⟨list, hlist, w, hw, hget⟩
        obtain rfl := Option.some.inj hlist
        exact hloop w (Nat.zero_le w) (by omega) typed' hget ⟨hin, htyped'⟩
      · intro hword k _ hk word hget hcell
        exact hword word hcell.2 ⟨getWord, rfl, k, by omega, hget⟩

end

/-- Of the first 32 cells the mask names those that hold something other than a word of the list,
the one in progress apart, and all that hold something when there is no list. Where it names none,
a complete grid is words of the list. -/
theorem unknown_slots (wordlist : Option (ℕ → Option Bytes)) (mnemonic : SecureString)
    (inProgressSlot : ℤ) :
    let unknown := bip39UnknownSlots wordlist mnemonic inProgressSlot
    (∀ i < 32, Mask.Has unknown i ↔ UnknownSlot wordlist mnemonic inProgressSlot i) ∧
    (wordlist = none → ∀ i < 32, Mask.Has unknown i ↔ TypedSlot mnemonic inProgressSlot i) ∧
    (mnemonic.slotCount ≤ 32 → (∀ typed ∈ mnemonic.words, typed ≠ []) →
      (∀ i < mnemonic.slotCount, inProgressSlot ≠ i) → unknown = 0 →
        ∀ typed ∈ mnemonic.words, ListWord wordlist typed) := by
  intro unknown
  refine ⟨fun i hi => has_unknownSlots hi, ?_, ?_⟩
  · rintro rfl i hi
    refine (has_unknownSlots hi).trans (unknownSlot_iff.trans (and_iff_left ?_))
    exact fun typed _ => not_listWord_none typed
  · intro hcount hfilled hnone hzero typed htyped
    obtain ⟨i, hi, hget⟩ := List.getElem_of_mem htyped
    rw [← SecureString.slotCount_eq] at hi
    have hcell : mnemonic.words[i]? = some typed := List.getElem?_eq_some_iff.mpr ⟨_, hget⟩
    have hnot := (has_unknownSlots (by omega)).not.mp (Mask.eq_zero_iff.mp hzero i)
    by_contra hword
    exact hnot ⟨typed, hcell, hfilled typed htyped, hnone i hi, hword⟩

end PsbtEngine

end SignerOS
