import SignerOS.Findings
import SignerOS.Verdict
import SignerOS.Lib.Indexed

/-!
# What the signing gate decides

`safeToSign` is the outcome of a walk over some twenty checks. This file reads it back as a
condition on the PSBT and the resident key:

* `deriveFindings_eq`, the walk's effect on the summary in closed form;
* `allow_keylessChecks` and `allow_keyedChecks`, which checks can close the gate, and when;
* `FileGate`, `NoMismatch` and `SafeGate`, the same on the PSBT, and
  `safeToSign_summarise_iff`, that `resummarise` computes it.
-/

namespace SignerOS

open WrapSum (wrapSum)

/-! ## The walk over the checks -/

/-- None of the calls closes the gate. -/
def allow (calls : List Check) : Bool := calls.all fun c => !c.blocks

/-- The reason recorded once the calls are performed: the first one given, unless there was
one before. -/
def recordedReason (before : String) (calls : List Check) : String :=
  calls.foldl (fun r c => if r.isEmpty then c.reason.getD r else r) before

@[simp] theorem allow_nil : allow [] = true := rfl

@[simp] theorem allow_cons_add (severity : Severity) (text : String) (cs : List Check) :
    allow (.add severity text :: cs) = allow cs := rfl

@[simp] theorem allow_cons_block (reason text : String) (cs : List Check) :
    allow (.block reason text :: cs) = false := rfl

@[simp] theorem allow_append (cs cs' : List Check) :
    allow (cs ++ cs') = (allow cs && allow cs') := List.all_append

/-- The calls made over a list of items leave the gate open when each item's do. -/
theorem allow_flatten_mapIdx {α : Type} (f : ℕ → α → List Check) (l : List α) :
    allow (l.mapIdx f).flatten = true
      ↔ ∀ i a, l[i]? = some a → allow (f i a) = true := by
  unfold allow
  rw [List.all_flatten, List.all_eq_true]
  exact Indexed.forall_mem_mapIdx

theorem allow_checkIf (c : Prop) [Decidable c] (calls : List Check) :
    allow (checkIf c calls) = true ↔ (c → allow calls = true) := by
  by_cases h : c <;> simp [checkIf, h]

/-- The effect of performing the calls, in closed form. -/
theorem foldl_apply (calls : List Check) (s : TxSummary) :
    calls.foldl Check.apply s =
      { s with
        findings := s.findings ++ calls.map Check.finding
        safeToSign := s.safeToSign && allow calls
        blockReason := recordedReason s.blockReason calls } := by
  induction calls generalizing s with
  | nil => simp [recordedReason]
  | cons c calls ih =>
    rw [List.foldl_cons, ih]
    cases c with
    | add severity text =>
      simp [Check.apply, Check.finding, allow, Check.blocks, recordedReason, Check.reason]
    | block reason text =>
      simp [Check.apply, Check.finding, allow, Check.blocks, recordedReason, Check.reason]

/-- `deriveFindings`, in closed form. -/
theorem deriveFindings_eq (w : Wally) (slot : KeySlot) (loose : Bool) (s : TxSummary) :
    deriveFindings w slot loose s =
      { s with
        findings := s.findings ++ (checks w slot loose s).map Check.finding
        safeToSign := allow (checks w slot loose s)
        blockReason := recordedReason "" (checks w slot loose s) } := by
  rw [deriveFindings, foldl_apply]
  simp

theorem safeToSign_deriveFindings (w : Wally) (slot : KeySlot) (loose : Bool) (s : TxSummary) :
    (deriveFindings w slot loose s).safeToSign = allow (checks w slot loose s) := by
  rw [deriveFindings_eq]

/-! ## Which checks can close the gate -/

theorem allow_countCheck (s : TxSummary) (p : InputInfo → Bool) (severity : Severity)
    (text : String) : allow (countCheck s p severity text) = true := by
  unfold countCheck
  rw [allow_checkIf]
  exact fun _ => rfl

theorem allow_feeCheck (s : TxSummary) : allow (feeCheck s) = true := by
  have hzero (text : String) : allow (checkIf (s.feeSat = 0) [.add .warning text]) = true :=
    (allow_checkIf _ _).mpr fun _ => rfl
  have hshare : allow (feeShareCheck s) = true := by
    unfold feeShareCheck
    dsimp only
    split_ifs <;> rfl
  have hrate : allow (feeRateCheck s) = true := by
    unfold feeRateCheck
    split_ifs <;> rfl
  unfold feeCheck
  split_ifs <;> simp [hzero, hshare, hrate]

theorem allow_sighashChecks (s : TxSummary) : allow (sighashChecks s) = true := by
  rw [sighashChecks, allow_flatten_mapIdx]
  intro i info _
  unfold sighashCheck
  by_cases h : info.sighash = 0 ∨ info.sighash = 0x01
  · rw [if_pos h, allow_nil]
  · rw [if_neg h]
    rfl

theorem missingAmounts_eq_zero {s : TxSummary} :
    missingAmounts s = 0 ↔ ∀ i ∈ s.inputs, i.amountKnown = true := by
  simp [missingAmounts, List.countP_eq_zero]

/-- The checks made of every PSBT leave the gate open exactly here. -/
theorem allow_keylessChecks (loose : Bool) (s : TxSummary) :
    allow (keylessChecks loose s) = true ↔
      s.inputs ≠ [] ∧ s.outputs ≠ [] ∧ s.alreadyFinalised = false ∧
        (∀ i ∈ s.inputs, i.amountKnown = true) ∧ s.totalOutSat ≤ s.totalInSat ∧
        0 < s.inputsWithDerivation := by
  have hloose : allow (looseParseCheck loose) = true :=
    (allow_checkIf _ _).mpr fun _ => rfl
  have hlock : allow (locktimeCheck s) = true := (allow_checkIf _ _).mpr fun _ => rfl
  have hin : allow (noInputsCheck s) = true ↔ s.inputs ≠ [] := by
    rw [noInputsCheck, allow_checkIf]
    simp
  have hout : allow (noOutputsCheck s) = true ↔ s.outputs ≠ [] := by
    rw [noOutputsCheck, allow_checkIf]
    simp
  have hfin : allow (finalisedCheck s) = true ↔ s.alreadyFinalised = false := by
    rw [finalisedCheck, allow_checkIf]
    simp
  have hmiss : allow (missingCheck s) = true ↔ missingAmounts s = 0 := by
    rw [missingCheck, allow_checkIf]
    simp
  have hexc : allow (exceedCheck s) = true
      ↔ ¬ (s.totalInSat < s.totalOutSat ∧ missingAmounts s = 0) := by
    rw [exceedCheck, allow_checkIf]
    simp
  have hder : allow (derivationCheck s) = true
      ↔ s.inputs = [] ∨ 0 < s.inputsWithDerivation := by
    unfold derivationCheck
    split_ifs with h1 h2
    · have hi : s.inputs ≠ [] := by simpa using h1.1
      simp [hi, h1.2]
    · simp only [allow_cons_add, allow_nil, true_iff]
      exact Or.inr (Nat.pos_of_ne_zero fun h0 => h1 ⟨h2.1, h0⟩)
    · simp only [allow_nil, true_iff]
      by_cases hi : s.inputs = []
      · exact Or.inl hi
      · refine Or.inr (Nat.pos_of_ne_zero fun h0 => h1 ⟨?_, h0⟩)
        simpa using hi
  -- of the fourteen checks these six can close the gate
  simp only [keylessChecks, allow_append, Bool.and_eq_true, hloose, hin, hout, hfin, hmiss, hexc,
    hder, allow_feeCheck, allow_sighashChecks, withSigsCheck, nonStandardCheck, taprootCheck,
    rbfCheck, allow_countCheck, hlock, true_and, and_true, ← missingAmounts_eq_zero]
  constructor
  · intro h
    obtain ⟨⟨⟨⟨⟨hi, ho⟩, hf⟩, hm⟩, hx⟩, hd⟩ := h
    -- the totals are compared only when no amount is missing
    refine ⟨hi, ho, hf, hm, ?_, hd.resolve_left hi⟩
    exact UInt64.not_lt.mp fun hlt => hx ⟨hlt, hm⟩
  · intro h
    obtain ⟨hi, ho, hf, hm, hx, hd⟩ := h
    exact ⟨⟨⟨⟨⟨hi, ho⟩, hf⟩, hm⟩, fun h => UInt64.not_lt.mpr hx h.1⟩, Or.inr hd⟩

/-- Of the checks made with a key, only an output that is not ours closes the gate. -/
theorem allow_keyedChecks (fingerprint : String) (s : TxSummary) :
    allow (keyedChecks fingerprint s) = true ↔ ∀ o ∈ s.outputs, o.ownership ≠ .mismatch := by
  have hsign : allow (signableCheck fingerprint s) = true := by
    unfold signableCheck
    split_ifs <;> rfl
  have hno : allow (noChangeCheck s) = true := (allow_checkIf _ _).mpr fun _ => rfl
  have hdrift : allow (driftChecks s) = true := by
    rw [driftChecks, allow_flatten_mapIdx]
    intro i o _
    unfold driftCheck
    split_ifs
    · rfl
    · rw [allow_append, Bool.and_eq_true]
      exact ⟨(allow_checkIf _ _).mpr fun _ => rfl, (allow_checkIf _ _).mpr fun _ => rfl⟩
  have hone (i : ℕ) (o : OutputInfo) :
      allow (ownershipCheck i o) = true ↔ o.ownership ≠ .mismatch := by
    unfold ownershipCheck
    cases o.ownership <;> simp
  have hown : allow (ownershipChecks s) = true ↔ ∀ o ∈ s.outputs, o.ownership ≠ .mismatch := by
    rw [ownershipChecks, allow_flatten_mapIdx, Indexed.forall_mem_iff_index]
    simp only [hone]
  simp [keyedChecks, hsign, hno, hdrift, hown]

/-! ## The gate, as a condition on the PSBT and the key -/

/-- `wally_psbt_is_finalized` succeeded and said so. -/
def isFinalised (w : Wally) (psbt : Psbt) : Bool :=
  match w.psbtIsFinalized psbt with
  | some finalised => finalised != 0
  | none => false

/-- Where the amount of each input is taken from. -/
def inputSources (psbt : Psbt) (tx : Tx) : List AmountSource :=
  psbt.inputs.mapIdx fun i inp => amountSource tx.inputs[i]? inp

/-- The total of the inputs, as the engine accumulates it. -/
def totalIn (psbt : Psbt) (tx : Tx) : UInt64 :=
  wrapSum ((inputSources psbt tx).map AmountSource.amountSat)

/-- The total of the outputs, as the engine accumulates it. -/
def totalOut (tx : Tx) : UInt64 := wrapSum (tx.outputs.map TxOutput.satoshi)

/-- What the gate asks of the file alone. -/
structure FileGate (w : Wally) (psbt : Psbt) (tx : Tx) : Prop where
  hasInputs : psbt.inputs ≠ []
  hasOutputs : tx.outputs ≠ []
  notFinalised : isFinalised w psbt = false
  amountsKnown : ∀ src ∈ inputSources psbt tx, src.known = true
  totals : totalOut tx ≤ totalIn psbt tx
  derivation : ∃ inp ∈ psbt.inputs, hasDerivation inp = true

/-- No output of the transaction is a `mismatch` under the key. -/
def NoMismatch (w : Wally) (key : ExtKey) (psbt : Psbt) (tx : Tx) : Prop :=
  ∀ (i : ℕ) po out, psbt.outputs[i]? = some po → tx.outputs[i]? = some out →
    isOpReturnScript out.script = false → changeVerdict w key po out ≠ .mismatch

/-- What `safeToSign` stands for, under the key that is resident, if one is. -/
def SafeGate (w : Wally) (resident : Option ExtKey) (psbt : Psbt) : Prop :=
  ∃ tx, w.psbtExtract psbt .nonFinal = some tx ∧ FileGate w psbt tx ∧
    ∀ key, resident = some key → NoMismatch w key psbt tx

section
variable {w : Wally} {resident : Option ExtKey} {psbt : Psbt} {tx : Tx}

theorem SafeGate.fileGate (h : SafeGate w resident psbt)
    (hx : w.psbtExtract psbt .nonFinal = some tx) : FileGate w psbt tx := by
  obtain ⟨tx', hx', hfile, -⟩ := h
  have htx : tx' = tx := Option.some.inj (hx'.symm.trans hx)
  exact htx ▸ hfile

theorem SafeGate.noMismatch (h : SafeGate w resident psbt)
    (hx : w.psbtExtract psbt .nonFinal = some tx) {key : ExtKey} (hkey : resident = some key) :
    NoMismatch w key psbt tx := by
  obtain ⟨tx', hx', -, hno⟩ := h
  have htx : tx' = tx := Option.some.inj (hx'.symm.trans hx)
  exact htx ▸ hno key hkey

end

/-- Some input of the PSBT is signable with the key. -/
def SomeSignable (w : Wally) (key : ExtKey) (psbt : Psbt) : Prop :=
  ∃ i < psbt.inputs.length, inputSignable w key psbt i = true

/-- What has to hold for `wally_psbt_sign_bip32` to be called. -/
def SigningGate (w : Wally) (key : ExtKey) (psbt : Psbt) : Prop :=
  SafeGate w (some key) psbt ∧ SomeSignable w key psbt

/-! ### The summary of a described PSBT -/

section
variable {w : Wally} {network : Network} {psbt : Psbt} {tx : Tx}

theorem outputInfo_amountSat (po : Option PsbtOutput) (out : TxOutput) :
    (outputInfo w network po out).amountSat = out.satoshi := by
  unfold outputInfo
  split <;> rfl

theorem outputInfo_isOpReturn (po : Option PsbtOutput) (out : TxOutput) :
    (outputInfo w network po out).isOpReturn = isOpReturnScript out.script := by
  unfold outputInfo
  split
  · rename_i h
    exact h.symm
  · rename_i h
    exact (Bool.eq_false_iff.mpr h).symm

/-- Without a key an output is `claimed` or a `thirdParty`'s. -/
theorem outputInfo_ownership (w : Wally) (network : Network) (po : Option PsbtOutput)
    (out : TxOutput) :
    (outputInfo w network po out).ownership = .claimed ∨
      (outputInfo w network po out).ownership = .thirdParty := by
  unfold outputInfo
  split
  · exact Or.inr rfl
  · dsimp only
    split
    · exact Or.inl rfl
    · exact Or.inr rfl

theorem describeInputs_amountSat :
    (describeInputs w network psbt tx).map InputInfo.amountSat
      = (inputSources psbt tx).map AmountSource.amountSat := by
  rw [describeInputs, inputSources, Indexed.map_mapIdx, Indexed.map_mapIdx]
  rfl

theorem describeInputs_amountKnown (w : Wally) (network : Network) (psbt : Psbt) (tx : Tx) :
    (describeInputs w network psbt tx).map InputInfo.amountKnown
      = (inputSources psbt tx).map AmountSource.known := by
  rw [describeInputs, inputSources, Indexed.map_mapIdx, Indexed.map_mapIdx]
  rfl

theorem describeOutputs_amountSat :
    (describeOutputs w network psbt tx).map OutputInfo.amountSat
      = tx.outputs.map TxOutput.satoshi :=
  Indexed.map_mapIdx_eq_map fun _ out _ => outputInfo_amountSat _ out

theorem describe_totalInSat : (describe w network psbt tx).totalInSat = totalIn psbt tx :=
  congrArg wrapSum describeInputs_amountSat

theorem describe_totalOutSat : (describe w network psbt tx).totalOutSat = totalOut tx :=
  congrArg wrapSum describeOutputs_amountSat

theorem describe_alreadyFinalised :
    (describe w network psbt tx).alreadyFinalised = isFinalised w psbt := rfl

/-- Every amount is known in the summary exactly when it is at its source. -/
theorem describe_amountsKnown :
    (∀ i ∈ (describe w network psbt tx).inputs, i.amountKnown = true)
      ↔ ∀ src ∈ inputSources psbt tx, src.known = true := by
  have hmap := describeInputs_amountKnown w network psbt tx
  have key : (∀ b ∈ (describeInputs w network psbt tx).map InputInfo.amountKnown, b = true)
      ↔ ∀ b ∈ (inputSources psbt tx).map AmountSource.known, b = true := by rw [hmap]
  rw [List.forall_mem_map, List.forall_mem_map] at key
  exact key

/-- The checks made of every PSBT leave the gate open exactly when the file passes it. -/
theorem allow_keylessChecks_describe (loose : Bool) :
    allow (keylessChecks loose (describe w network psbt tx)) = true ↔ FileGate w psbt tx := by
  have hi : (describe w network psbt tx).inputs ≠ [] ↔ psbt.inputs ≠ [] := by
    show describeInputs w network psbt tx ≠ [] ↔ _
    rw [describeInputs, ne_eq, List.mapIdx_eq_nil_iff]
  have ho : (describe w network psbt tx).outputs ≠ [] ↔ tx.outputs ≠ [] := by
    show describeOutputs w network psbt tx ≠ [] ↔ _
    rw [describeOutputs, ne_eq, List.mapIdx_eq_nil_iff]
  have hd : 0 < (describe w network psbt tx).inputsWithDerivation
      ↔ ∃ inp ∈ psbt.inputs, hasDerivation inp = true := List.countP_pos_iff
  rw [allow_keylessChecks, hi, ho, hd, describe_amountsKnown, describe_alreadyFinalised,
    describe_totalInSat, describe_totalOutSat]
  constructor
  · intro h
    obtain ⟨hi, ho, hf, hknown, htotals, hder⟩ := h
    exact ⟨hi, ho, hf, hknown, htotals, hder⟩
  · intro h
    exact ⟨h.hasInputs, h.hasOutputs, h.notFinalised, h.amountsKnown, h.totals, h.derivation⟩

end

/-! ### The summary under a key -/

/-- An input without what a key adds to it. -/
def InputInfo.fileView (info : InputInfo) : InputInfo :=
  { info with canSign := false, fingerprint := "", derivation := "" }

/-- An output without what a key adds to it. -/
def OutputInfo.fileView (info : OutputInfo) : OutputInfo :=
  { info with claimedFingerprint := "", derivation := "", ownership := .thirdParty }

/-- A summary without what a key adds to it. -/
def TxSummary.fileView (s : TxSummary) : TxSummary :=
  { s with
    inputs := s.inputs.map InputInfo.fileView
    outputs := s.outputs.map OutputInfo.fileView
    signableInputs := 0
    verifiedChangeSat := 0
    leavingSat := 0
    ownershipChecked := false }

theorem countCheck_fileView (s : TxSummary) (p : InputInfo → Bool) (severity : Severity)
    (text : String) (hp : ∀ info : InputInfo, p info.fileView = p info) :
    countCheck s.fileView p severity text = countCheck s p severity text := by
  have hcount : s.fileView.inputs.countP p = s.inputs.countP p := by
    show (s.inputs.map InputInfo.fileView).countP p = _
    rw [List.countP_map]
    exact congrArg (s.inputs.countP ·) (funext hp)
  rw [countCheck, countCheck, hcount]

/-- The checks made of every PSBT read nothing a key adds. -/
theorem keylessChecks_fileView (loose : Bool) (s : TxSummary) :
    keylessChecks loose s.fileView = keylessChecks loose s := by
  have hin : s.fileView.inputs = s.inputs.map InputInfo.fileView := rfl
  have hempty : s.fileView.inputs.isEmpty = s.inputs.isEmpty := by rw [hin, List.isEmpty_map]
  have hlen : s.fileView.inputs.length = s.inputs.length := by rw [hin, List.length_map]
  have hmiss : missingAmounts s.fileView = missingAmounts s := by
    rw [missingAmounts, hin, List.countP_map]
    rfl
  have hnoin : noInputsCheck s.fileView = noInputsCheck s := by
    simp only [noInputsCheck, hempty]
  have hnoout : noOutputsCheck s.fileView = noOutputsCheck s := by
    have h : s.fileView.outputs.isEmpty = s.outputs.isEmpty := by
      show (s.outputs.map OutputInfo.fileView).isEmpty = _
      rw [List.isEmpty_map]
    simp only [noOutputsCheck, h]
  have hmissing : missingCheck s.fileView = missingCheck s := by
    simp only [missingCheck, hmiss, hlen]
  have hexceed : exceedCheck s.fileView = exceedCheck s := by
    simp only [exceedCheck, hmiss]
    rfl
  have hder : derivationCheck s.fileView = derivationCheck s := by
    simp only [derivationCheck, hempty, hlen]
    rfl
  have hsig : sighashChecks s.fileView = sighashChecks s := by
    rw [sighashChecks, sighashChecks, hin, Indexed.mapIdx_map]
    rfl
  -- the four counts are over properties a key does not touch
  simp only [keylessChecks, hnoin, hnoout, hmissing, hexceed, hder, hsig, withSigsCheck,
    nonStandardCheck, taprootCheck, rbfCheck]
  rw [countCheck_fileView _ _ _ _ fun _ => rfl, countCheck_fileView _ _ _ _ fun _ => rfl,
    countCheck_fileView _ _ _ _ fun _ => rfl, countCheck_fileView _ _ _ _ fun _ => rfl]
  rfl

section
variable {w : Wally} {network : Network} {key : ExtKey} {slot : KeySlot} {psbt : Psbt} {tx : Tx}

theorem evaluateInput_fileView (ourFp : String) (i : ℕ) (info : InputInfo) :
    (evaluateInput w key ourFp psbt i info).fileView = info.fileView := by
  unfold evaluateInput
  cases psbt.inputs[i]? with
  | none => rfl
  | some inp =>
    dsimp only
    cases ourKeypath ourFp inp <;> cases inputSignable w key psbt i <;> rfl

theorem evaluateOutput_fileView (ourFp : String) (i : ℕ) (info : OutputInfo) :
    (evaluateOutput w key ourFp psbt tx i info).fileView = info.fileView := by
  unfold evaluateOutput
  split
  · split <;> rfl
  · rfl

/-- `evaluateSignability` changes nothing the file alone decides. -/
theorem fileView_evaluateSignability (s : TxSummary) :
    (evaluateSignability w slot psbt tx s).fileView = s.fileView := by
  unfold evaluateSignability
  cases slot.resident with
  | none => rfl
  | some key =>
    have hin : (s.inputs.mapIdx (evaluateInput w key (masterFingerprint w slot) psbt)).map
        InputInfo.fileView = s.inputs.map InputInfo.fileView :=
      Indexed.map_mapIdx_eq_map fun i info _ => evaluateInput_fileView _ i info
    have hout : (s.outputs.mapIdx (evaluateOutput w key (masterFingerprint w slot) psbt tx)).map
        OutputInfo.fileView = s.outputs.map OutputInfo.fileView :=
      Indexed.map_mapIdx_eq_map fun i info _ => evaluateOutput_fileView _ i info
    simp only [TxSummary.fileView, hin, hout]

theorem keylessChecks_evaluateSignability (loose : Bool) (s : TxSummary) :
    keylessChecks loose (evaluateSignability w slot psbt tx s) = keylessChecks loose s := by
  rw [← keylessChecks_fileView, fileView_evaluateSignability, keylessChecks_fileView]

/-- An output with an output map gets the verdict of its entries. -/
theorem evaluateOutput_ownership {i : ℕ} {po : PsbtOutput} {out : TxOutput} {info : OutputInfo}
    (hpo : psbt.outputs[i]? = some po) (hout : tx.outputs[i]? = some out)
    (hop : info.isOpReturn = false) :
    (evaluateOutput w key (masterFingerprint w (.hold key)) psbt tx i info).ownership
      = changeVerdict w key po out := by
  unfold evaluateOutput
  rw [hpo, hout]
  simp only [hop, Bool.false_eq_true, if_false]
  exact scanOutput_ownership po out info.claimedFingerprint

/-- Any other output is left as it was. -/
theorem evaluateOutput_eq_self (ourFp : String) {i : ℕ} {info : OutputInfo}
    (h : psbt.outputs[i]? = none ∨ tx.outputs[i]? = none ∨ info.isOpReturn = true) :
    evaluateOutput w key ourFp psbt tx i info = info := by
  unfold evaluateOutput
  rcases h with h | h | h
  · rw [h]
  · rw [h]
    cases psbt.outputs[i]? <;> rfl
  · simp only [h, if_true]
    split <;> rfl

theorem evaluateSignability_inputs :
    (evaluateSignability w (.hold key) psbt tx (describe w network psbt tx)).inputs =
      psbt.inputs.mapIdx fun i inp =>
        evaluateInput w key (masterFingerprint w (.hold key)) psbt i
          (inputInfo w network tx.inputs[i]? inp) := by
  show (describeInputs w network psbt tx).mapIdx
    (evaluateInput w key (masterFingerprint w (.hold key)) psbt) = _
  rw [describeInputs, List.mapIdx_mapIdx]
  rfl

theorem evaluateSignability_outputs :
    (evaluateSignability w (.hold key) psbt tx (describe w network psbt tx)).outputs =
      tx.outputs.mapIdx fun i out =>
        evaluateOutput w key (masterFingerprint w (.hold key)) psbt tx i
          (outputInfo w network psbt.outputs[i]? out) := by
  show (describeOutputs w network psbt tx).mapIdx
    (evaluateOutput w key (masterFingerprint w (.hold key)) psbt tx) = _
  rw [describeOutputs, List.mapIdx_mapIdx]
  rfl

theorem evaluateSignability_signableInputs :
    (evaluateSignability w (.hold key) psbt tx (describe w network psbt tx)).signableInputs
      = (List.range psbt.inputs.length).countP (inputSignable w key psbt) := by
  show (List.range (min (describeInputs w network psbt tx).length psbt.inputs.length)).countP
    (inputSignable w key psbt) = _
  rw [describeInputs, List.length_mapIdx, min_self]

/-- Under a key no output of the summary is a `mismatch` exactly when none is one by the
verdict of its entries. -/
theorem no_mismatch_iff :
    (∀ o ∈ (evaluateSignability w (.hold key) psbt tx (describe w network psbt tx)).outputs,
        o.ownership ≠ .mismatch) ↔ NoMismatch w key psbt tx := by
  rw [evaluateSignability_outputs, Indexed.forall_mem_mapIdx]
  constructor
  · intro h i po out hpo hout hop
    have hret : (outputInfo w network psbt.outputs[i]? out).isOpReturn = false := by
      rw [outputInfo_isOpReturn, hop]
    rw [← evaluateOutput_ownership hpo hout hret]
    exact h i out hout
  · intro h i out hout
    -- an output the loop passes over keeps what the file claims, which is no mismatch
    cases hpo : psbt.outputs[i]? with
    | none =>
      rw [evaluateOutput_eq_self _ (Or.inl hpo)]
      rcases outputInfo_ownership w network none out with h' | h' <;> simp [h']
    | some po =>
      cases hop : isOpReturnScript out.script with
      | true =>
        rw [evaluateOutput_eq_self _ (Or.inr (Or.inr (by rw [outputInfo_isOpReturn, hop])))]
        rcases outputInfo_ownership w network (some po) out with h' | h' <;>
          simp [h']
      | false =>
        have hret : (outputInfo w network (some po) out).isOpReturn = false := by
          rw [outputInfo_isOpReturn, hop]
        rw [evaluateOutput_ownership hpo hout hret]
        exact h i po out hpo hout hop

theorem summarise_of_extract {loose : Bool} (hx : w.psbtExtract psbt .nonFinal = some tx) :
    summarise w network loose slot psbt
      = deriveFindings w slot loose
          (evaluateSignability w slot psbt tx (describe w network psbt tx)) := by
  rw [summarise, hx]

theorem summarise_of_no_extract {loose : Bool} (hx : w.psbtExtract psbt .nonFinal = none) :
    summarise w network loose slot psbt = incompleteSummary w psbt := by
  rw [summarise, hx]

/-- `resummarise` computes the gate. -/
theorem safeToSign_summarise_iff (loose : Bool) :
    (summarise w network loose slot psbt).safeToSign = true ↔ SafeGate w slot.resident psbt := by
  unfold SafeGate
  cases hx : w.psbtExtract psbt .nonFinal with
  | none => simp [summarise_of_no_extract hx, incompleteSummary]
  | some tx =>
    simp only [Option.some.injEq, exists_eq_left']
    -- the keyless checks see the file's description, the keyed ones the verdicts
    rw [summarise_of_extract hx, safeToSign_deriveFindings, checks, allow_append, Bool.and_eq_true,
      keylessChecks_evaluateSignability, allow_keylessChecks_describe]
    cases hr : slot.resident with
    | none =>
      rw [SecureObject.resident_eq_none.mp hr]
      simp
    | some key =>
      rw [SecureObject.eq_hold_of_resident hr]
      simp [allow_keyedChecks, no_mismatch_iff]

/-- The signable inputs of the summary are counted over the inputs of the PSBT. -/
theorem signableInputs_summarise {loose : Bool} (hx : w.psbtExtract psbt .nonFinal = some tx) :
    (summarise w network loose (.hold key) psbt).signableInputs
      = (List.range psbt.inputs.length).countP (inputSignable w key psbt) := by
  rw [summarise_of_extract hx, deriveFindings_eq]
  show (evaluateSignability w (.hold key) psbt tx (describe w network psbt tx)).signableInputs = _
  exact evaluateSignability_signableInputs

theorem signableInputs_summarise_ne_zero {loose : Bool}
    (hx : w.psbtExtract psbt .nonFinal = some tx) :
    (summarise w network loose (.hold key) psbt).signableInputs ≠ 0
      ↔ SomeSignable w key psbt := by
  rw [signableInputs_summarise hx, ← Nat.pos_iff_ne_zero, List.countP_pos_iff]
  simp [SomeSignable]

/-- What `sign` reads off a summary made for this PSBT and this key. -/
theorem signingGate_iff_summarise (network : Network) (loose : Bool) :
    ((summarise w network loose (.hold key) psbt).safeToSign = true
        ∧ (summarise w network loose (.hold key) psbt).signableInputs ≠ 0)
      ↔ SigningGate w key psbt := by
  unfold SigningGate
  rw [safeToSign_summarise_iff, SecureObject.resident_hold]
  refine and_congr_right ?_
  intro hsafe
  obtain ⟨tx, hx, -, -⟩ := hsafe
  exact signableInputs_summarise_ne_zero hx

end

end SignerOS
