import SignerOS.Gate
import SignerOS.Engine

/-!
# The books of a summary

How the totals of a summary follow from the inputs and outputs it lists. Four functions of
the engine write these fields; what they have in common is stated here once, in the 64-bit
arithmetic they use.

* `Books`, the totals of any summary, and `books_summarise`;
* `FeeBooks`, the fee of a summary that describes a transaction;
* `Keyless`, a summary that claims nothing on the strength of a key;
* `Books.exact`, the totals in unbounded integers, when the amounts sum below `2 ^ 64`.
-/

namespace SignerOS

open WrapSum (wrapSum exactSum)

/-- The engine says the output is our own. -/
def OutputInfo.isVerified (out : OutputInfo) : Bool := out.ownership == .verified

namespace TxSummary

/-- The amounts of the inputs. -/
def inputAmounts (s : TxSummary) : List UInt64 := s.inputs.map InputInfo.amountSat

/-- The amounts of the outputs. -/
def outputAmounts (s : TxSummary) : List UInt64 := s.outputs.map OutputInfo.amountSat

/-- The amounts of the outputs that are verified change. -/
def changeAmounts (s : TxSummary) : List UInt64 :=
  (s.outputs.filter OutputInfo.isVerified).map OutputInfo.amountSat

/-- The amounts of the other outputs. -/
def paymentAmounts (s : TxSummary) : List UInt64 :=
  (s.outputs.filter fun out => !out.isVerified).map OutputInfo.amountSat

end TxSummary

/-- The totals follow from what is listed. -/
structure Books (s : TxSummary) : Prop where
  totalIn : s.totalInSat = wrapSum s.inputAmounts
  totalOut : s.totalOutSat = wrapSum s.outputAmounts
  change : s.verifiedChangeSat = wrapSum s.changeAmounts
  leaving : s.leavingSat =
    if s.verifiedChangeSat ≤ s.totalOutSat then s.totalOutSat - s.verifiedChangeSat else 0
  signable : s.signableInputs = s.inputs.countP InputInfo.canSign

/-- The fee follows from the totals. -/
structure FeeBooks (s : TxSummary) : Prop where
  known : s.feeKnown = true ↔
    (∀ i ∈ s.inputs, i.amountKnown = true) ∧ s.totalOutSat ≤ s.totalInSat
  fee : s.feeKnown = true → s.feeSat = s.totalInSat - s.totalOutSat

/-- Nothing in the summary rests on a key. -/
structure Keyless (s : TxSummary) : Prop where
  unchecked : s.ownershipChecked = false
  unsigned : ∀ i ∈ s.inputs, i.canSign = false
  unverified : ∀ o ∈ s.outputs, o.ownership = .thirdParty ∨ o.ownership = .claimed

/-! ## The empty and the incomplete summary -/

theorem books_empty : Books {} := ⟨rfl, rfl, rfl, rfl, rfl⟩

theorem keyless_empty : Keyless {} :=
  ⟨rfl, fun _ h => absurd h List.not_mem_nil, fun _ h => absurd h List.not_mem_nil⟩

/-! ## Without a key -/

/-- Without verified outputs nothing is change, and everything leaves. -/
theorem Keyless.changeAmounts {s : TxSummary} (h : Keyless s) : s.changeAmounts = [] := by
  unfold TxSummary.changeAmounts
  rw [List.map_eq_nil_iff, List.filter_eq_nil_iff]
  intro out hout hv
  rcases h.unverified out hout with ho | ho <;> simp [OutputInfo.isVerified, ho] at hv

theorem Keyless.change {s : TxSummary} (h : Keyless s) (hb : Books s) :
    s.verifiedChangeSat = 0 := by
  rw [hb.change, h.changeAmounts]
  rfl

theorem Keyless.leaving {s : TxSummary} (h : Keyless s) (hb : Books s) :
    s.leavingSat = s.totalOutSat := by
  rw [hb.leaving, h.change hb, if_pos (UInt64.le_iff_toNat_le.mpr (Nat.zero_le _))]
  exact UInt64.sub_zero _

/-! ## The summary of a described PSBT -/

section
variable {w : Wally} {network : Network} {key : ExtKey} {psbt : Psbt} {tx : Tx}

theorem keyless_describe : Keyless (describe w network psbt tx) := by
  refine ⟨rfl, ?_, ?_⟩
  · show ∀ i ∈ describeInputs w network psbt tx, _
    rw [describeInputs, Indexed.forall_mem_mapIdx]
    exact fun _ _ _ => rfl
  · show ∀ o ∈ describeOutputs w network psbt tx, _
    rw [describeOutputs, Indexed.forall_mem_mapIdx]
    exact fun _ _ _ => (outputInfo_ownership w network _ _).symm

theorem feeBooks_describe : FeeBooks (describe w network psbt tx) := by
  -- the fee is known if every amount is, and the outputs do not exceed the inputs
  have hknown : (describe w network psbt tx).feeKnown
      = ((describe w network psbt tx).inputs.all InputInfo.amountKnown
        && decide ((describe w network psbt tx).totalOutSat
          ≤ (describe w network psbt tx).totalInSat)) := rfl
  refine ⟨?_, fun h => ?_⟩
  · rw [hknown, Bool.and_eq_true, List.all_eq_true, decide_eq_true_iff]
  · show (if (describe w network psbt tx).feeKnown then _ else _) = _
    rw [if_pos h]
    rfl

/-! ## The summary under a key -/

theorem evaluateInput_amountSat (ourFp : String) (i : ℕ) (info : InputInfo) :
    (evaluateInput w key ourFp psbt i info).amountSat = info.amountSat := by
  show (evaluateInput w key ourFp psbt i info).fileView.amountSat = info.fileView.amountSat
  rw [evaluateInput_fileView]

theorem evaluateOutput_amountSat (ourFp : String) (i : ℕ) (info : OutputInfo) :
    (evaluateOutput w key ourFp psbt tx i info).amountSat = info.amountSat := by
  show (evaluateOutput w key ourFp psbt tx i info).fileView.amountSat = info.fileView.amountSat
  rw [evaluateOutput_fileView]

theorem evaluateOutput_isOpReturn (ourFp : String) (i : ℕ) (info : OutputInfo) :
    (evaluateOutput w key ourFp psbt tx i info).isOpReturn = info.isOpReturn := by
  show (evaluateOutput w key ourFp psbt tx i info).fileView.isOpReturn = info.fileView.isOpReturn
  rw [evaluateOutput_fileView]

/-- An input is signable exactly when its key derives. -/
theorem evaluateInput_canSign (ourFp : String) {i : ℕ} {inp : PsbtInput} {info : InputInfo}
    (hi : psbt.inputs[i]? = some inp) (hinfo : info.canSign = false) :
    (evaluateInput w key ourFp psbt i info).canSign = inputSignable w key psbt i := by
  unfold evaluateInput
  rw [hi]
  dsimp only
  cases ourKeypath ourFp inp <;> cases hs : inputSignable w key psbt i <;> simp [hinfo]

/-- An output that is verified was reached by the output loop. -/
theorem outputEvaluated_of_verified (ourFp : String) {i : ℕ} {info : OutputInfo}
    (hinfo : info.ownership = .thirdParty ∨ info.ownership = .claimed)
    (hv : (evaluateOutput w key ourFp psbt tx i info).isVerified = true) :
    outputEvaluated psbt tx i (evaluateOutput w key ourFp psbt tx i info) = true := by
  -- an output the loop has passed over would still be what the file claims
  have hskip : evaluateOutput w key ourFp psbt tx i info = info → False := by
    intro hself
    rw [hself] at hv
    rcases hinfo with ho | ho <;> simp [OutputInfo.isVerified, ho] at hv
  unfold outputEvaluated
  rw [evaluateOutput_isOpReturn]
  cases hpo : psbt.outputs[i]? with
  | none => exact (hskip (evaluateOutput_eq_self ourFp (Or.inl hpo))).elim
  | some po =>
    cases hout : tx.outputs[i]? with
    | none => exact (hskip (evaluateOutput_eq_self ourFp (Or.inr (Or.inl hout)))).elim
    | some out =>
      cases hop : info.isOpReturn with
      | true => exact (hskip (evaluateOutput_eq_self ourFp (Or.inr (Or.inr hop)))).elim
      | false =>
        simp [(List.getElem?_eq_some_iff.mp hpo).1, (List.getElem?_eq_some_iff.mp hout).1]

/-- `evaluateSignability` keeps the books of a summary it is given without a key. -/
theorem books_evaluateSignability {slot : KeySlot} {s : TxSummary} (hs : Keyless s)
    (hin : s.totalInSat = wrapSum s.inputAmounts) (hout : s.totalOutSat = wrapSum s.outputAmounts)
    (hlen : s.inputs.length = psbt.inputs.length) :
    Books (evaluateSignability w slot psbt tx s) := by
  unfold evaluateSignability
  cases hr : slot.resident with
  | none =>
    have hchange : wrapSum s.changeAmounts = 0 := by
      rw [hs.changeAmounts]
      rfl
    refine ⟨hin, hout, hchange.symm, ?_, ?_⟩
    · -- nothing is change, so everything leaves
      show s.totalOutSat = if (0 : UInt64) ≤ s.totalOutSat then s.totalOutSat - 0 else 0
      rw [if_pos (UInt64.le_iff_toNat_le.mpr (Nat.zero_le _))]
      exact (UInt64.sub_zero _).symm
    · show 0 = s.inputs.countP InputInfo.canSign
      exact (List.countP_eq_zero.mpr fun i hi => by simp [hs.unsigned i hi]).symm
  | some key =>
    dsimp only
    generalize masterFingerprint w slot = ourFp
    refine ⟨?_, ?_, ?_, rfl, ?_⟩
    · show s.totalInSat = wrapSum ((s.inputs.mapIdx _).map InputInfo.amountSat)
      rw [Indexed.map_mapIdx_eq_map fun i info _ => evaluateInput_amountSat ourFp i info]
      exact hin
    · show s.totalOutSat = wrapSum ((s.outputs.mapIdx _).map OutputInfo.amountSat)
      rw [Indexed.map_mapIdx_eq_map fun i info _ => evaluateOutput_amountSat ourFp i info]
      exact hout
    · -- an output that is verified is one the loop has counted
      show wrapSum _ = wrapSum (((s.outputs.mapIdx (evaluateOutput w key ourFp psbt tx)).filter
        OutputInfo.isVerified).map OutputInfo.amountSat)
      rw [← WrapSum.wrapSum_map_ite, List.mapIdx_mapIdx, Indexed.map_mapIdx]
      refine congrArg wrapSum (Indexed.mapIdx_congr_iff.mpr fun i info hinfo => ?_)
      show (if outputEvaluated psbt tx i _ && OutputInfo.isVerified _ then _ else _) = _
      cases hv : (evaluateOutput w key ourFp psbt tx i info).isVerified with
      | false => simp
      | true =>
        have hinfo' := hs.unverified info (List.mem_of_getElem? hinfo)
        rw [outputEvaluated_of_verified ourFp hinfo' hv]
        rfl
    · -- the summary lists one input for each input map, so the bound of the loop is moot
      show (List.range (min s.inputs.length psbt.inputs.length)).countP _
        = (s.inputs.mapIdx _).countP _
      rw [hlen, min_self, ← hlen]
      refine (Indexed.countP_mapIdx fun i info hinfo => ?_).symm
      have hi : i < psbt.inputs.length := hlen ▸ (List.getElem?_eq_some_iff.mp hinfo).1
      exact evaluateInput_canSign ourFp (List.getElem?_eq_getElem hi)
        (hs.unsigned info (List.mem_of_getElem? hinfo))

/-! ## The summary as a whole -/

theorem Books.deriveFindings {s : TxSummary} (h : Books s) (slot : KeySlot) (loose : Bool) :
    Books (deriveFindings w slot loose s) := by
  rw [deriveFindings_eq]
  exact ⟨h.totalIn, h.totalOut, h.change, h.leaving, h.signable⟩

theorem books_summarise (w : Wally) (network : Network) (loose : Bool) (slot : KeySlot)
    (psbt : Psbt) : Books (summarise w network loose slot psbt) := by
  cases hx : w.psbtExtract psbt .nonFinal with
  | none =>
    rw [summarise_of_no_extract hx]
    refine ⟨rfl, rfl, rfl, ?_, rfl⟩
    show (0 : UInt64) = if (0 : UInt64) ≤ 0 then 0 - 0 else 0
    decide
  | some tx =>
    rw [summarise_of_extract hx]
    refine (books_evaluateSignability keyless_describe rfl rfl ?_).deriveFindings slot loose
    show (describeInputs w network psbt tx).length = _
    rw [describeInputs, List.length_mapIdx]

theorem fileView_summarise (network : Network) (slot : KeySlot) (loose : Bool)
    (hx : w.psbtExtract psbt .nonFinal = some tx) :
    (summarise w network loose slot psbt).inputs.map InputInfo.fileView
        = (describeInputs w network psbt tx).map InputInfo.fileView ∧
      (summarise w network loose slot psbt).outputs.map OutputInfo.fileView
        = (describeOutputs w network psbt tx).map OutputInfo.fileView := by
  have h : (evaluateSignability w slot psbt tx (describe w network psbt tx)).fileView
      = (describe w network psbt tx).fileView := fileView_evaluateSignability _
  rw [summarise_of_extract hx, deriveFindings_eq]
  exact ⟨congrArg TxSummary.inputs h, congrArg TxSummary.outputs h⟩

/-- The amounts of the summary are the ones of the PSBT. -/
theorem summarise_inputAmounts {slot : KeySlot} (loose : Bool)
    (hx : w.psbtExtract psbt .nonFinal = some tx) :
    (summarise w network loose slot psbt).inputAmounts
      = (inputSources psbt tx).map AmountSource.amountSat := by
  have h := congrArg (List.map InputInfo.amountSat)
    (fileView_summarise network slot loose hx).1
  rw [List.map_map, List.map_map] at h
  exact h.trans describeInputs_amountSat

theorem summarise_outputAmounts {slot : KeySlot} (loose : Bool)
    (hx : w.psbtExtract psbt .nonFinal = some tx) :
    (summarise w network loose slot psbt).outputAmounts = tx.outputs.map TxOutput.satoshi := by
  have h := congrArg (List.map OutputInfo.amountSat)
    (fileView_summarise network slot loose hx).2
  rw [List.map_map, List.map_map] at h
  exact h.trans describeOutputs_amountSat

/-- The fee is decided by the file alone. -/
theorem feeBooks_fileView {s : TxSummary} : FeeBooks s.fileView ↔ FeeBooks s := by
  have hknown : (∀ i ∈ s.fileView.inputs, i.amountKnown = true)
      ↔ ∀ i ∈ s.inputs, i.amountKnown = true := by
    show (∀ i ∈ s.inputs.map InputInfo.fileView, i.amountKnown = true) ↔ _
    rw [List.forall_mem_map]
    rfl
  constructor
  · exact fun h => ⟨h.known.trans (and_congr_left' hknown), h.fee⟩
  · exact fun h => ⟨h.known.trans (and_congr_left' hknown.symm), h.fee⟩

theorem feeBooks_summarise {slot : KeySlot} (loose : Bool)
    (hx : w.psbtExtract psbt .nonFinal = some tx) :
    FeeBooks (summarise w network loose slot psbt) := by
  have h : FeeBooks (evaluateSignability w slot psbt tx (describe w network psbt tx)) := by
    rw [← feeBooks_fileView, fileView_evaluateSignability, feeBooks_fileView]
    exact feeBooks_describe
  rw [summarise_of_extract hx, deriveFindings_eq]
  exact ⟨h.known, h.fee⟩

theorem keyless_summarise {slot : KeySlot} (loose : Bool) (h : slot.resident = none) :
    Keyless (summarise w network loose slot psbt) := by
  cases hx : w.psbtExtract psbt .nonFinal with
  | none =>
    rw [summarise_of_no_extract hx]
    exact ⟨rfl, keyless_empty.unsigned, keyless_empty.unverified⟩
  | some tx =>
    have hs : Keyless (describe w network psbt tx) := keyless_describe
    rw [summarise_of_extract hx, deriveFindings_eq, evaluateSignability, h]
    exact ⟨rfl, hs.unsigned, hs.unverified⟩

end

/-! ## `clearKey` -/

theorem unclaim_ownership (out : OutputInfo) :
    (PsbtEngine.unclaim out).ownership = .thirdParty ∨
      (PsbtEngine.unclaim out).ownership = .claimed := by
  unfold PsbtEngine.unclaim
  dsimp only
  split
  · exact Or.inl rfl
  · exact Or.inr rfl

theorem keyless_clearedSummary (s : TxSummary) : Keyless (PsbtEngine.clearedSummary s) := by
  refine ⟨rfl, ?_, ?_⟩
  · show ∀ i ∈ s.inputs.map _, _
    rw [List.forall_mem_map]
    exact fun _ _ => rfl
  · show ∀ o ∈ s.outputs.map PsbtEngine.unclaim, _
    rw [List.forall_mem_map]
    exact fun out _ => unclaim_ownership out

theorem clearedSummary_inputAmounts (s : TxSummary) :
    (PsbtEngine.clearedSummary s).inputAmounts = s.inputAmounts := by
  show (s.inputs.map _).map InputInfo.amountSat = _
  rw [List.map_map]
  rfl

theorem clearedSummary_outputAmounts (s : TxSummary) :
    (PsbtEngine.clearedSummary s).outputAmounts = s.outputAmounts := by
  show (s.outputs.map PsbtEngine.unclaim).map OutputInfo.amountSat = _
  rw [List.map_map]
  rfl

/-- Clearing the key keeps the books. -/
theorem Books.cleared {s : TxSummary} (h : Books s) : Books (PsbtEngine.clearedSummary s) := by
  have hk := keyless_clearedSummary s
  have hchange : wrapSum (PsbtEngine.clearedSummary s).changeAmounts = 0 := by
    rw [hk.changeAmounts]
    rfl
  refine ⟨?_, ?_, hchange.symm, ?_, ?_⟩
  · rw [clearedSummary_inputAmounts]
    exact h.totalIn
  · rw [clearedSummary_outputAmounts]
    exact h.totalOut
  · show s.totalOutSat = if (0 : UInt64) ≤ s.totalOutSat then s.totalOutSat - 0 else 0
    rw [if_pos (UInt64.le_iff_toNat_le.mpr (Nat.zero_le _))]
    exact (UInt64.sub_zero _).symm
  · exact (List.countP_eq_zero.mpr fun i hi => by simp [hk.unsigned i hi]).symm

theorem FeeBooks.cleared {s : TxSummary} (h : FeeBooks s) :
    FeeBooks (PsbtEngine.clearedSummary s) := by
  have hknown : (∀ i ∈ (PsbtEngine.clearedSummary s).inputs, i.amountKnown = true)
      ↔ ∀ i ∈ s.inputs, i.amountKnown = true := by
    show (∀ i ∈ s.inputs.map fun info => { info with canSign := false },
      InputInfo.amountKnown i = true) ↔ _
    rw [List.forall_mem_map]
  exact ⟨h.known.trans (and_congr_left' hknown.symm), h.fee⟩

/-! ## In unbounded integers -/

/-- The amounts listed sum below `2 ^ 64`. -/
structure SumsFit (s : TxSummary) : Prop where
  inputs : exactSum s.inputAmounts < 2 ^ 64
  outputs : exactSum s.outputAmounts < 2 ^ 64

/-- The totals are the sums and differences they stand for. -/
structure ExactBooks (s : TxSummary) : Prop where
  totalIn : s.totalInSat.toNat = exactSum s.inputAmounts
  totalOut : s.totalOutSat.toNat = exactSum s.outputAmounts
  change : s.verifiedChangeSat.toNat = exactSum s.changeAmounts
  change_le : s.verifiedChangeSat.toNat ≤ s.totalOutSat.toNat
  leaving : s.leavingSat.toNat = s.totalOutSat.toNat - s.verifiedChangeSat.toNat
  payments : s.leavingSat.toNat = exactSum s.paymentAmounts

theorem Books.exact {s : TxSummary} (h : Books s) (hfit : SumsFit s) : ExactBooks s := by
  -- an output is change or it is a payment
  have hsplit : exactSum s.changeAmounts + exactSum s.paymentAmounts = exactSum s.outputAmounts :=
    WrapSum.exactSum_filter_add _ _ _
  have hin : s.totalInSat.toNat = exactSum s.inputAmounts := by
    rw [h.totalIn, WrapSum.toNat_wrapSum_of_lt hfit.inputs]
  have hout : s.totalOutSat.toNat = exactSum s.outputAmounts := by
    rw [h.totalOut, WrapSum.toNat_wrapSum_of_lt hfit.outputs]
  have hfits := hfit.outputs
  have hchange : s.verifiedChangeSat.toNat = exactSum s.changeAmounts := by
    rw [h.change, WrapSum.toNat_wrapSum_of_lt (by omega)]
  have hle : s.verifiedChangeSat.toNat ≤ s.totalOutSat.toNat := by omega
  have hleaving : s.leavingSat.toNat = s.totalOutSat.toNat - s.verifiedChangeSat.toNat := by
    rw [h.leaving, if_pos (UInt64.le_iff_toNat_le.mpr hle),
      UInt64.toNat_sub_of_le _ _ (UInt64.le_iff_toNat_le.mpr hle)]
  exact ⟨hin, hout, hchange, hle, hleaving, by omega⟩

end SignerOS
