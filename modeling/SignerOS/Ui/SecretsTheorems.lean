import SignerOS.Ui.Shared

/-!
# What the buffers hold

The operations of a `Secret` as the screens use them, by the text and the words they leave.
-/

namespace SignerOS

/-! ## Comparing -/

namespace Secret

variable {s s' : Secret}

theorem empty_iff : s.empty = true ↔ s.text = [] := by
  rw [empty, SecureString.empty, beq_iff_eq, s.clean.len_eq, List.length_eq_zero_iff]
  rfl

/-- Differences collected by `|` vanish only together. -/
theorem foldl_xor_eq_zero (pairs : List (UInt8 × UInt8)) (diff : UInt8) :
    pairs.foldl (fun diff p => diff ||| (p.1 ^^^ p.2)) diff = 0 ↔
      diff = 0 ∧ ∀ p ∈ pairs, p.1 = p.2 := by
  induction pairs generalizing diff with
  | nil => simp
  | cons p pairs ih =>
    rw [List.foldl_cons, ih, UInt8.or_eq_zero_iff, UInt8.xor_eq_zero_iff]
    simp [and_assoc]

theorem zip_eq_iff {α : Type} {l l' : List α} (h : l.length = l'.length) :
    (∀ p ∈ l.zip l', p.1 = p.2) ↔ l = l' := by
  induction l generalizing l' with
  | nil =>
    rw [List.length_eq_zero_iff.mp h.symm]
    simp
  | cons a l ih =>
    cases l' with
    | nil => simp at h
    | cons b l' =>
      have hlen : l.length = l'.length := by simpa using h
      rw [List.zip_cons_cons, List.forall_mem_cons, ih hlen, List.cons.injEq]

/-- `equals` says whether the texts are the same. -/
theorem equals_iff : s.equals s' = true ↔ s.text = s'.text := by
  rw [equals, SecureString.equals, Bool.and_eq_true, beq_iff_eq, beq_iff_eq, s.clean.len_eq,
    s'.clean.len_eq, foldl_xor_eq_zero]
  constructor
  · rintro ⟨hlen, -, hzip⟩
    exact (zip_eq_iff hlen).mp hzip
  · intro h
    have hlen : s.str.text.length = s'.str.text.length := congrArg List.length h
    exact ⟨hlen, rfl, (zip_eq_iff hlen).mpr h⟩

/-! ## Texts -/

/-- A buffer is what its text says, since the rest of the array is zero. -/
theorem ext_text (h : s.text = s'.text) : s = s' := by
  have hclean : s.str.Holds s.text := s.clean
  have hclean' : s'.str.Holds s.text := by
    rw [h]
    exact s'.clean
  have hbuf : s.str.buf = s'.str.buf := by
    refine Vector.ext fun j hj => ?_
    have hget := (hclean.padded.get j hj).trans (hclean'.padded.get j hj).symm
    rw [Vector.getElem?_eq_getElem hj, Vector.getElem?_eq_getElem hj] at hget
    exact Option.some.inj hget
  have hlen : s.str.len = s'.str.len := hclean.len_eq.trans hclean'.len_eq.symm
  refine ext_str ?_
  cases hs : s.str
  cases hs' : s'.str
  rw [hs, hs'] at hbuf hlen
  exact congrArg₂ SecureString.mk hbuf hlen

theorem text_eq_nil_iff : s.text = [] ↔ s = wiped :=
  ⟨fun h => ext_text (h.trans text_wiped.symm), fun h => h ▸ text_wiped⟩

/-- The text an operation leaves, by what its `SecureString` holds then. -/
theorem text_perform {op : SecureString.Op} (hadded : op.added ≤ kCapacity) {t : Bytes}
    (h : (s.str.step op).Holds t) : (s.perform op hadded).text = t := by
  rw [text, str_perform]
  exact h.text_eq

theorem text_append_of_room (c : UInt8) (h : s.text.length + 1 < kCapacity) :
    (s.append c).1 = true ∧ (s.append c).2.text = s.text ++ [c] := by
  obtain ⟨happended, hholds⟩ := SecureString.Holds.append_of_room s.clean c h
  exact ⟨happended, text_perform _ hholds⟩

theorem append_of_full (c : UInt8) (h : ¬ s.text.length + 1 < kCapacity) :
    (s.append c).1 = false ∧ (s.append c).2 = s := by
  have hfull := SecureString.Holds.append_of_full s.clean c h
  refine ⟨congrArg Prod.fst hfull, ext_str ?_⟩
  exact (s.str_perform (.append c) _).trans (congrArg Prod.snd hfull)

theorem text_backspace (s : Secret) : s.backspace.text = s.text.dropLast :=
  text_perform _ (SecureString.Holds.backspace s.clean)

/-- What `backspaceWord` leaves of a text. -/
def beforeLastWord (text : Bytes) : Bytes :=
  (text.rdropWhile SecureString.isBlank).rdropWhile fun c => !SecureString.isBlank c

theorem text_backspaceWord (s : Secret) : s.backspaceWord.text = beforeLastWord s.text :=
  text_perform _ (SecureString.Holds.backspaceWord s.clean)

theorem text_normaliseWhitespace (s : Secret) :
    s.normaliseWhitespace.text = SecureString.collapseFrom [] false s.text :=
  text_perform _ (SecureString.Holds.normaliseWhitespace s.clean)

/-- A phrase that is copied is the text then. -/
theorem text_assign {p : Phrase} (h : (s.assign p).1 = true) : (s.assign p).2.text = p.text := by
  have hclear : s.str.assign (some p.text) = SecureString.new.appendChars (some p.text) := by
    rw [SecureString.assign, SecureString.clear_eq_new]
  by_cases hroom : ([] : Bytes).length + p.text.length < kCapacity
  · have hholds := (SecureString.holds_new.appendChars_of_room hroom).2
    refine text_perform _ ?_
    show SecureString.Holds (s.str.assign (some p.text)).2 p.text
    rw [hclear]
    exact hholds
  · -- there was no room, and nothing was copied
    have hle := p.length_text_le
    have hcap : kCapacity = 320 := rfl
    have hfull := SecureString.holds_new.appendChars_of_full
      (by rw [List.length_nil]; omega) hroom
    have hrefused : (s.assign p).1 = false := by
      show (s.str.assign (some p.text)).1 = false
      rw [hclear, hfull]
    rw [hrefused] at h
    cases h

/-- A text that is empty has no trailing word. -/
theorem copyTrailingWord_wiped (capacity : ℕ) : wiped.copyTrailingWord capacity = [] := by
  unfold copyTrailingWord SecureString.copyTrailingWord SecureString.trailingWordLength
  have htext : wiped.str.text = [] := text_wiped
  rw [htext]
  dsimp only
  split
  · simp
  · simp

end Secret

namespace SecretBuffers

variable (b : SecretBuffers)

/-- The passphrase is empty, or the same as its confirmation. -/
def PassphraseReady : Prop :=
  b.passphrase.text = [] ∨ b.passphrase.text = b.passphraseConfirm.text

@[simp] theorem mnemonic_dropConfirmation : b.dropConfirmation.mnemonic = b.mnemonic := by
  unfold dropConfirmation
  split_ifs <;> rfl

@[simp] theorem passphrase_dropConfirmation : b.dropConfirmation.passphrase = b.passphrase := by
  unfold dropConfirmation
  split_ifs <;> rfl

@[simp] theorem verification_dropConfirmation :
    b.dropConfirmation.verification = b.verification := by
  unfold dropConfirmation
  split_ifs <;> rfl

end SecretBuffers

end SignerOS
