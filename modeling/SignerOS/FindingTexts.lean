import SignerOS.Findings
import SignerOS.Lib.Indexed
import SignerOS.Lib.Decimal

/-!
# Which findings warn of an account

A finding is a text. One that warns of the account an output pays to begins with the number of
the output. No other check writes such a text, and what is written about one output is not about
another.

* `Elsewhere`, checks whose texts begin otherwise, and `keylessChecks_elsewhere`;
* `accountWarning_keyedChecks_iff`, when an output is warned of.
-/

namespace SignerOS

open Decimal (isDigit_of_mem_toString toString_toList_inj toList_toString_ne_nil)

/-! ## Numbers in a text -/

/-- A number ends where the space begins. -/
theorem numbered_prefix_iff {m n : ℕ} {s t : List Char} :
    (toString m).toList ++ ' ' :: s <+: (toString n).toList ++ ' ' :: t ↔ m = n ∧ s <+: t := by
  have hdigits (k : ℕ) (cs : List Char) :
      ((toString k).toList ++ ' ' :: cs).takeWhile Char.isDigit = (toString k).toList := by
    rw [List.takeWhile_append_of_pos fun _ h => isDigit_of_mem_toString h,
      List.takeWhile_cons_of_neg (by decide), List.append_nil]
  constructor
  · intro h
    obtain ⟨rest, h⟩ := h
    rw [List.append_assoc, List.cons_append] at h
    have hnumber := congrArg (List.takeWhile Char.isDigit) h
    rw [hdigits, hdigits] at hnumber
    rw [hnumber, List.append_cancel_left_eq, List.cons.injEq] at h
    exact ⟨toString_toList_inj hnumber, rest, h.2⟩
  · rintro ⟨rfl, h⟩
    rw [List.prefix_append_right_inj, List.cons_prefix_cons]
    exact ⟨rfl, h⟩

/-! ## How a text begins -/

/-- The text begins with another letter than one about an output. -/
def Elsewhere (text : String) : Prop := ∃ c, text.toList.head? = some c ∧ c ≠ 'O'

theorem Elsewhere.append {text : String} (h : Elsewhere text) (text' : String) :
    Elsewhere (text ++ text') := by
  obtain ⟨c, hc, hne⟩ := h
  refine ⟨c, ?_, hne⟩
  rw [String.toList_append, List.head?_append, hc]
  rfl

theorem elsewhere_literal {text : String} {c : Char} {cs : List Char}
    (h : text = String.ofList (c :: cs)) (hne : c ≠ 'O') : Elsewhere text := by
  refine ⟨c, ?_, hne⟩
  rw [h, String.toList_ofList]
  rfl

theorem elsewhere_number (n : ℕ) : Elsewhere (toString n) := by
  have hne := toList_toString_ne_nil n
  refine ⟨_, List.head?_eq_some_head hne, fun hO => ?_⟩
  have hdigit := isDigit_of_mem_toString (List.head_mem hne)
  rw [hO] at hdigit
  exact absurd hdigit (by decide)

/-! ## The checks made of every PSBT -/

/-- None of the calls writes a text about an output. -/
def AllElsewhere (calls : List Check) : Prop := ∀ c ∈ calls, Elsewhere c.finding.text

section
variable {calls calls' : List Check}

theorem allElsewhere_nil : AllElsewhere [] := fun _ h => absurd h List.not_mem_nil

theorem allElsewhere_add {severity : Severity} {text : String} (h : Elsewhere text) :
    AllElsewhere [.add severity text] :=
  List.forall_mem_singleton.mpr h

theorem allElsewhere_block {reason text : String} (h : Elsewhere text) :
    AllElsewhere [.block reason text] :=
  List.forall_mem_singleton.mpr h

theorem allElsewhere_append :
    AllElsewhere (calls ++ calls') ↔ AllElsewhere calls ∧ AllElsewhere calls' :=
  List.forall_mem_append

theorem allElsewhere_checkIf {c : Prop} [Decidable c] (h : AllElsewhere calls) :
    AllElsewhere (checkIf c calls) := by
  unfold checkIf
  split
  · exact h
  · exact allElsewhere_nil

end

theorem countCheck_elsewhere (s : TxSummary) (p : InputInfo → Bool) (severity : Severity)
    (text : String) : AllElsewhere (countCheck s p severity text) :=
  allElsewhere_checkIf (allElsewhere_add ((elsewhere_number _).append _))

theorem missingCheck_elsewhere (s : TxSummary) : AllElsewhere (missingCheck s) := by
  apply allElsewhere_checkIf
  apply allElsewhere_block
  repeat with_reducible apply Elsewhere.append
  exact elsewhere_number _

theorem derivationCheck_elsewhere (s : TxSummary) : AllElsewhere (derivationCheck s) := by
  unfold derivationCheck
  split_ifs
  · apply allElsewhere_block
    repeat with_reducible apply Elsewhere.append
    exact elsewhere_literal rfl (by decide)
  · apply allElsewhere_add
    repeat with_reducible apply Elsewhere.append
    exact elsewhere_number _
  · exact allElsewhere_nil

theorem feeShareCheck_elsewhere (s : TxSummary) : AllElsewhere (feeShareCheck s) := by
  unfold feeShareCheck
  dsimp only
  split_ifs
  · apply allElsewhere_add
    repeat with_reducible apply Elsewhere.append
    exact elsewhere_literal rfl (by decide)
  · apply allElsewhere_add
    repeat with_reducible apply Elsewhere.append
    exact elsewhere_literal rfl (by decide)
  · exact allElsewhere_nil

theorem feeRateCheck_elsewhere (s : TxSummary) : AllElsewhere (feeRateCheck s) := by
  unfold feeRateCheck
  split_ifs
  · exact allElsewhere_add ((elsewhere_literal rfl (by decide)).append _)
  · exact allElsewhere_add (elsewhere_literal rfl (by decide))
  · exact allElsewhere_add (elsewhere_literal rfl (by decide))
  · exact allElsewhere_nil

theorem feeCheck_elsewhere (s : TxSummary) : AllElsewhere (feeCheck s) := by
  unfold feeCheck
  split
  · rw [allElsewhere_append, allElsewhere_append]
    refine ⟨⟨?_, ?_⟩, feeRateCheck_elsewhere s⟩
    · exact allElsewhere_checkIf
        (allElsewhere_add ((elsewhere_literal rfl (by decide)).append _))
    · split
      · exact feeShareCheck_elsewhere s
      · exact allElsewhere_nil
  · exact allElsewhere_nil

theorem sighashChecks_elsewhere (s : TxSummary) : AllElsewhere (sighashChecks s) := by
  have hone (i : ℕ) (sighash : UInt32) : AllElsewhere (sighashCheck i sighash) := by
    unfold sighashCheck
    split
    · exact allElsewhere_nil
    · apply allElsewhere_add
      repeat with_reducible apply Elsewhere.append
      exact elsewhere_literal rfl (by decide)
  intro c hc
  obtain ⟨calls, hcalls, hmem⟩ := List.mem_flatten.mp hc
  obtain ⟨i, hi, rfl⟩ := List.mem_mapIdx.mp hcalls
  exact hone _ _ c hmem

/-- None of the checks made of every PSBT is about an output. -/
theorem keylessChecks_elsewhere (loose : Bool) (s : TxSummary) :
    AllElsewhere (keylessChecks loose s) := by
  have hloose : AllElsewhere (looseParseCheck loose) :=
    allElsewhere_checkIf (allElsewhere_add ((elsewhere_literal rfl (by decide)).append _))
  have hin : AllElsewhere (noInputsCheck s) :=
    allElsewhere_checkIf (allElsewhere_block (elsewhere_literal rfl (by decide)))
  have hout : AllElsewhere (noOutputsCheck s) :=
    allElsewhere_checkIf (allElsewhere_block (elsewhere_literal rfl (by decide)))
  have hfinal : AllElsewhere (finalisedCheck s) :=
    allElsewhere_checkIf (allElsewhere_block ((elsewhere_literal rfl (by decide)).append _))
  have hexceed : AllElsewhere (exceedCheck s) :=
    allElsewhere_checkIf (allElsewhere_block ((elsewhere_literal rfl (by decide)).append _))
  have hlock : AllElsewhere (locktimeCheck s) :=
    allElsewhere_checkIf
      (allElsewhere_add (((elsewhere_literal rfl (by decide)).append _).append _))
  simp only [keylessChecks, allElsewhere_append]
  exact ⟨⟨⟨⟨⟨⟨⟨⟨⟨⟨⟨⟨⟨hloose, hin⟩, hout⟩, hfinal⟩, missingCheck_elsewhere s⟩, hexceed⟩,
    derivationCheck_elsewhere s⟩, feeCheck_elsewhere s⟩, sighashChecks_elsewhere s⟩,
    countCheck_elsewhere _ _ _ _⟩, countCheck_elsewhere _ _ _ _⟩, countCheck_elsewhere _ _ _ _⟩,
    hlock⟩, countCheck_elsewhere _ _ _ _⟩

/-! ## Texts about an output -/

/-- The text begins with the number of an output and a letter. -/
def Numbered (n : ℕ) (c : Char) (text : String) : Prop :=
  "Output ".toList ++ ((toString n).toList ++ ' ' :: [c]) <+: text.toList

theorem prefix_append_text {p : List Char} {text : String} (h : p <+: text.toList)
    (text' : String) : p <+: (text ++ text').toList := by
  rw [String.toList_append]
  exact h.trans (List.prefix_append _ _)

theorem Numbered.append {n : ℕ} {c : Char} {text : String} (h : Numbered n c text)
    (text' : String) : Numbered n c (text ++ text') :=
  prefix_append_text h text'

theorem numbered_literal {n : ℕ} {text : String} {c : Char} {cs : List Char}
    (h : text = String.ofList (' ' :: c :: cs)) :
    Numbered n c ("Output " ++ toString n ++ text) := by
  refine ⟨cs, ?_⟩
  rw [h, String.toList_append, String.toList_append, String.toList_ofList]
  simp

/-- A text is about one output. -/
theorem Numbered.inj {m n : ℕ} {c d : Char} {text : String} (h : Numbered m c text)
    (h' : Numbered n d text) : m = n ∧ c = d := by
  rcases List.prefix_or_prefix_of_prefix h h' with hle | hle
  · rw [List.prefix_append_right_inj, numbered_prefix_iff] at hle
    exact ⟨hle.1, (List.cons_prefix_cons.mp hle.2).1⟩
  · rw [List.prefix_append_right_inj, numbered_prefix_iff] at hle
    exact ⟨hle.1.symm, (List.cons_prefix_cons.mp hle.2).1.symm⟩

theorem Numbered.not_elsewhere {n : ℕ} {c : Char} {text : String} (h : Numbered n c text) :
    ¬ Elsewhere text := by
  rintro ⟨d, hd, hne⟩
  obtain ⟨rest, hrest⟩ := h
  rw [← hrest] at hd
  exact hne (Option.some.inj hd).symm

/-! ## The checks made with a key -/

/-- A warning that money goes to another account, about the output at index `i`. -/
def AccountWarning (i : ℕ) (f : Finding) : Prop :=
  f.severity = .warning ∧
    ("Output " ++ toString (i + 1) ++ " returns ").toList <+: f.text.toList

theorem numbered_of_returns {i : ℕ} {text : String}
    (h : ("Output " ++ toString (i + 1) ++ " returns ").toList <+: text.toList) :
    Numbered (i + 1) 'r' text :=
  (numbered_literal rfl : Numbered (i + 1) 'r' _).trans h

/-- Some call warns of the account of the output at index `i`. -/
def Warns (i : ℕ) (calls : List Check) : Prop := ∃ c ∈ calls, AccountWarning i c.finding

theorem warns_append {i : ℕ} {calls calls' : List Check} :
    Warns i (calls ++ calls') ↔ Warns i calls ∨ Warns i calls' := by
  simp only [Warns, List.mem_append, or_and_right, exists_or]

theorem AllElsewhere.not_warns {calls : List Check} (h : AllElsewhere calls) (i : ℕ) :
    ¬ Warns i calls := by
  rintro ⟨c, hc, hwarning⟩
  exact (numbered_of_returns hwarning.2).not_elsewhere (h c hc)

theorem signableCheck_elsewhere (fingerprint : String) (s : TxSummary) :
    AllElsewhere (signableCheck fingerprint s) := by
  unfold signableCheck
  split_ifs
  · apply allElsewhere_add
    repeat with_reducible apply Elsewhere.append
    exact elsewhere_literal rfl (by decide)
  · apply allElsewhere_add
    repeat with_reducible apply Elsewhere.append
    exact elsewhere_literal rfl (by decide)
  · exact allElsewhere_nil

theorem noChangeCheck_elsewhere (s : TxSummary) : AllElsewhere (noChangeCheck s) := by
  apply allElsewhere_checkIf
  apply allElsewhere_add
  repeat with_reducible apply Elsewhere.append
  exact elsewhere_literal rfl (by decide)

/-- The ownership finding of an output begins with a bracket after its number. -/
theorem not_warns_ownershipCheck (i j : ℕ) (out : OutputInfo) :
    ¬ Warns i (ownershipCheck j out) := by
  have hother {text : String} (h : Numbered (j + 1) '(' text) :
      ¬ Numbered (i + 1) 'r' text :=
    fun hr => absurd (hr.inj h).2 (by decide)
  rintro ⟨c, hc, hwarning⟩
  refine hother ?_ (numbered_of_returns hwarning.2)
  unfold ownershipCheck at hc
  split at hc
  · rw [List.mem_singleton.mp hc, Check.finding]
    dsimp only
    repeat with_reducible first | apply numbered_literal | apply Numbered.append
    exact rfl
  · rw [List.mem_singleton.mp hc, Check.finding]
    dsimp only
    repeat with_reducible first | apply numbered_literal | apply Numbered.append
    exact rfl
  · exact absurd hc List.not_mem_nil

/-- When the branch and account findings of an output warn of its account. -/
def PaysElsewhere (accounts : List String) (out : OutputInfo) : Prop :=
  out.ownership = .verified ∧ pathAccountPrefix out.derivation ≠ "" ∧ accounts ≠ [] ∧
    pathAccountPrefix out.derivation ∉ accounts

theorem warns_checkIf {i : ℕ} {c : Prop} [Decidable c] {calls : List Check} :
    Warns i (checkIf c calls) ↔ c ∧ Warns i calls := by
  unfold checkIf
  split
  · rename_i h
    exact (and_iff_right h).symm
  · rename_i h
    exact iff_of_false (fun hw => absurd hw (by simp [Warns])) fun hw => h hw.1

theorem warns_warning_iff {i : ℕ} {text : String} :
    Warns i [.add .warning text] ↔
      ("Output " ++ toString (i + 1) ++ " returns ").toList <+: text.toList := by
  simp [Warns, AccountWarning, Check.finding]

theorem warns_driftCheck_iff (accounts : List String) (i j : ℕ) (out : OutputInfo) :
    Warns i (driftCheck accounts j out) ↔ i = j ∧ PaysElsewhere accounts out := by
  unfold driftCheck
  by_cases hv : out.ownership ≠ .verified ∨ out.derivation.isEmpty
  · rw [if_pos hv]
    refine iff_of_false (fun h => absurd h (by simp [Warns])) fun h => ?_
    rcases hv with hown | hempty
    · exact hown h.2.1
    · rw [PaysElsewhere, String.isEmpty_iff.mp hempty] at h
      exact h.2.2.1 rfl
  · rw [if_neg hv]
    obtain ⟨hown, -⟩ := not_or.mp hv
    dsimp only
    rw [warns_append, warns_checkIf, warns_checkIf, warns_warning_iff, warns_warning_iff]
    have hbranch {text : String} (h : Numbered (j + 1) 'i' text) :
        ¬ ("Output " ++ toString (i + 1) ++ " returns ").toList <+: text.toList :=
      fun hr => absurd ((numbered_of_returns hr).inj h).2 (by decide)
    have haccount {text : String}
        (h : ("Output " ++ toString (j + 1) ++ " returns ").toList <+: text.toList) :
        ("Output " ++ toString (i + 1) ++ " returns ").toList <+: text.toList ↔ i = j := by
      constructor
      · intro hr
        exact Nat.succ.inj ((numbered_of_returns hr).inj (numbered_of_returns h)).1
      · rintro rfl
        exact h
    rw [iff_false_intro (hbranch ?_), and_false, false_or, haccount ?_, PaysElsewhere]
    · simp [not_not.mp hown, and_comm]
    · repeat with_reducible first | exact List.prefix_rfl | apply prefix_append_text
    · repeat with_reducible first | apply numbered_literal | apply Numbered.append
      exact rfl

theorem warns_flatten_mapIdx {α : Type} {i : ℕ} {f : ℕ → α → List Check} {l : List α} :
    Warns i (l.mapIdx f).flatten ↔ ∃ j a, l[j]? = some a ∧ Warns i (f j a) := by
  constructor
  · rintro ⟨c, hc, hwarning⟩
    obtain ⟨calls, hcalls, hmem⟩ := List.mem_flatten.mp hc
    obtain ⟨j, hj, rfl⟩ := List.mem_mapIdx.mp hcalls
    exact ⟨j, l[j], List.getElem?_eq_getElem hj, c, hmem, hwarning⟩
  · rintro ⟨j, a, ha, c, hmem, hwarning⟩
    obtain ⟨hj, rfl⟩ := List.getElem?_eq_some_iff.mp ha
    exact ⟨c, List.mem_flatten.mpr ⟨_, List.mem_mapIdx.mpr ⟨j, hj, rfl⟩, hmem⟩, hwarning⟩

/-- The findings made with a key warn of the account of an output exactly when it is verified and
its account is not among those of the inputs. -/
theorem warns_keyedChecks_iff (fingerprint : String) (s : TxSummary) (i : ℕ) :
    Warns i (keyedChecks fingerprint s)
      ↔ ∃ out, s.outputs[i]? = some out ∧ PaysElsewhere (inputAccounts s) out := by
  have hsignable := (signableCheck_elsewhere fingerprint s).not_warns i
  have hchange := (noChangeCheck_elsewhere s).not_warns i
  have hown : ¬ Warns i (ownershipChecks s) := by
    rw [ownershipChecks, warns_flatten_mapIdx]
    rintro ⟨j, out, -, h⟩
    exact not_warns_ownershipCheck i j out h
  rw [keyedChecks, warns_append, warns_append, warns_append, or_iff_right (by simp [*]),
    driftChecks, warns_flatten_mapIdx]
  simp only [warns_driftCheck_iff]
  constructor
  · rintro ⟨j, out, hout, rfl, h⟩
    exact ⟨out, hout, h⟩
  · rintro ⟨out, hout, h⟩
    exact ⟨i, out, hout, rfl, h⟩

end SignerOS
