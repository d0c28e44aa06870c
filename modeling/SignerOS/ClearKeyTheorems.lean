import SignerOS.GateTheorems
import SignerOS.Bookkeeping

/-!
# What `clearKey` leaves behind

`clearKey` takes back what a key added to the summary field by field. It resets `canSign`,
the ownership of the outputs and the totals; it leaves the findings, the gate, and the
fingerprints and paths the evaluation has put in the place of the file's.

* `KeyAddsNothing`, a key that adds no finding and relabels nothing;
* `clearedSummary_summarise`, the cleared summary beside the one without a key;
* `clear_restores_iff`, when they are the same;
* `key_undone_iff`, the same for a session that loads a file, enters a key and clears it.
-/

namespace SignerOS

/-! ## A key that leaves no trace -/

section
variable (w : Wally) (key : ExtKey) (psbt : Psbt) (tx : Tx)

/-- The derivation shown for an input under a key. -/
def inputDerivation (inp : PsbtInput) : String :=
  ((ourKeypath (masterFingerprint w (.hold key)) inp).getD (inputHint inp)).2

/-- The accounts a PSBT is spent from under a key that signs all its inputs. -/
def spentAccounts : List String :=
  psbt.inputs.foldl (fun accounts inp => addAccount accounts true (inputDerivation w key inp)) []

/-- A path of ours on an unusual branch, or in an account nothing is spent from. -/
def Drifts (accounts : List String) (path : String) : Prop :=
  path ≠ "" ∧
    ((pathChainElement path ≠ "" ∧ pathChainElement path ≠ "0" ∧ pathChainElement path ≠ "1") ∨
      (pathAccountPrefix path ≠ "" ∧ accounts ≠ [] ∧ pathAccountPrefix path ∉ accounts))

/-- An output the evaluation looks at: it has an output map and is not an `OP_RETURN`. -/
structure Evaluated (i : ℕ) (po : PsbtOutput) (out : TxOutput) : Prop where
  map : psbt.outputs[i]? = some po
  output : tx.outputs[i]? = some out
  spendable : isOpReturnScript out.script = false

/-- The key adds no finding to the summary and relabels nothing in it: it signs every input,
every output is verified change or not its business, there is change if there is more than
one output, the change stays in the accounts that are spent from, and the entries that name
the key are the ones the file shows anyway. -/
structure KeyAddsNothing : Prop where
  hints : ∀ inp ∈ psbt.inputs, ∀ own,
    ourKeypath (masterFingerprint w (.hold key)) inp = some own → own = inputHint inp
  claims : ∀ i po out, Evaluated psbt tx i po out → ∀ path, changePath w key po out = some path →
    outputClaim po = some (masterFingerprint w (.hold key), path)
  signs : psbt.inputs ≠ [] ∧ ∀ i < psbt.inputs.length, inputSignable w key psbt i = true
  settled : ∀ i po out, Evaluated psbt tx i po out →
    changeVerdict w key po out ≠ .mismatch ∧ changeVerdict w key po out ≠ .unverifiable
  change : tx.outputs.length ≤ 1 ∨
    ∃ i po out, Evaluated psbt tx i po out ∧ changeVerdict w key po out = .verified
  stays : ∀ i po out, Evaluated psbt tx i po out → changeVerdict w key po out = .verified →
    ∀ path, changePath w key po out = some path → ¬ Drifts (spentAccounts w key psbt) path

end

/-! ## When the keyed checks find nothing -/

theorem flatten_mapIdx_eq_nil {α : Type} {f : ℕ → α → List Check} {l : List α} :
    (l.mapIdx f).flatten = [] ↔ ∀ i a, l[i]? = some a → f i a = [] := by
  rw [List.flatten_eq_nil_iff]
  exact Indexed.forall_mem_mapIdx

theorem checkIf_eq_nil {c : Prop} [Decidable c] {call : Check} : checkIf c [call] = [] ↔ ¬ c := by
  by_cases h : c <;> simp [checkIf, h]

theorem signableCheck_eq_nil {fingerprint : String} {s : TxSummary} :
    signableCheck fingerprint s = []
      ↔ s.signableInputs ≠ 0 ∧ s.inputs.length ≤ s.signableInputs := by
  unfold signableCheck
  split_ifs with h1 h2
  · simp [h1]
  · exact iff_of_false id fun h => Nat.not_le.mpr h2 h.2
  · exact iff_of_true rfl ⟨h1, Nat.not_lt.mp h2⟩

theorem ownershipCheck_eq_nil {i : ℕ} {out : OutputInfo} :
    ownershipCheck i out = [] ↔ out.ownership ≠ .mismatch ∧ out.ownership ≠ .unverifiable := by
  unfold ownershipCheck
  cases out.ownership <;> simp

theorem driftCheck_eq_nil {accounts : List String} {i : ℕ} {out : OutputInfo} :
    driftCheck accounts i out = []
      ↔ (out.ownership = .verified → ¬ Drifts accounts out.derivation) := by
  unfold driftCheck Drifts
  by_cases hv : out.ownership = .verified
  · by_cases hd : out.derivation = ""
    · simp [hv, hd]
    · rw [if_neg (by simp [hv, hd])]
      simp only [List.append_eq_nil_iff, checkIf_eq_nil, hv, forall_const]
      simp [hd]
  · simp [hv]

section
variable {w : Wally} {network : Network} {key : ExtKey} {psbt : Psbt} {tx : Tx}

/-! ### The evaluated summary, entry by entry -/

theorem Evaluated.evaluateOutput_eq {i : ℕ} {po : PsbtOutput} {out : TxOutput}
    (h : Evaluated psbt tx i po out) :
    evaluateOutput w key (masterFingerprint w (.hold key)) psbt tx i
        (outputInfo w network psbt.outputs[i]? out)
      = match changePath w key po out with
        | none =>
          { outputInfo w network psbt.outputs[i]? out with
            ownership := changeVerdict w key po out }
        | some path =>
          { outputInfo w network psbt.outputs[i]? out with
            claimedFingerprint := masterFingerprint w (.hold key)
            derivation := path
            ownership := changeVerdict w key po out } := by
  -- the loop passes over an `OP_RETURN`
  have hret : (outputInfo w network psbt.outputs[i]? out).isOpReturn = false := by
    rw [outputInfo_isOpReturn, h.spendable]
  have hown : (evaluateOutput w key (masterFingerprint w (.hold key)) psbt tx i
      (outputInfo w network psbt.outputs[i]? out)).ownership = changeVerdict w key po out :=
    evaluateOutput_ownership h.map h.output hret
  generalize outputInfo w network psbt.outputs[i]? out = info at hret hown ⊢
  unfold evaluateOutput at hown ⊢
  rw [h.map, h.output] at hown ⊢
  simp only [hret, Bool.false_eq_true, if_false] at hown ⊢
  rw [hown]
  have hshows := scanOutput_shows w key po out info.claimedFingerprint
  have hempty := hshows.path_eq_empty
  rw [← shownPath_eq_none] at hempty
  have hpath := hshows.path
  have hclaim := hshows.claim
  simp only [← shownPath_eq_none] at hclaim
  change _ = (changePath w key po out).getD "" at hpath
  change _ ↔ changePath w key po out = none at hempty
  change _ = if changePath w key po out = none then _ else _ at hclaim
  -- the loop leaves its path empty exactly when it shows no entry
  cases hcp : changePath w key po out with
  | none =>
    rw [hcp] at hclaim hempty
    simp [hclaim, String.isEmpty_iff.mpr (hempty.mpr rfl)]
  | some path =>
    rw [hcp] at hclaim hempty hpath
    have hne : (scanOutput w key (masterFingerprint w (.hold key)) po out
        info.claimedFingerprint).verdictPath.isEmpty = false := by
      rw [Bool.eq_false_iff, ne_eq, String.isEmpty_iff, hempty]
      simp
    simp only [hclaim, hne, Bool.false_eq_true, if_false, reduceCtorEq]
    rw [hpath]
    rfl

theorem Evaluated.ownership {i : ℕ} {po : PsbtOutput} {out : TxOutput}
    (h : Evaluated psbt tx i po out) :
    (evaluateOutput w key (masterFingerprint w (.hold key)) psbt tx i
      (outputInfo w network psbt.outputs[i]? out)).ownership = changeVerdict w key po out := by
  rw [h.evaluateOutput_eq]
  split <;> rfl

/-- An output the evaluation does not look at stays as the file has it. -/
theorem evaluateOutput_of_not_evaluated {i : ℕ} {out : TxOutput} (hout : tx.outputs[i]? = some out)
    (h : ¬ ∃ po, Evaluated psbt tx i po out) :
    evaluateOutput w key (masterFingerprint w (.hold key)) psbt tx i
        (outputInfo w network psbt.outputs[i]? out)
      = outputInfo w network psbt.outputs[i]? out := by
  cases hpo : psbt.outputs[i]? with
  | none => exact evaluateOutput_eq_self _ (Or.inl hpo)
  | some po =>
    cases hret : isOpReturnScript out.script with
    | false => exact absurd ⟨po, hpo, hout, hret⟩ h
    | true =>
      refine evaluateOutput_eq_self _ (Or.inr (Or.inr ?_))
      rw [outputInfo_isOpReturn, hret]

/-- What holds of every evaluated output, when it holds of what the file claims anyway. -/
theorem forall_outputs_iff {P : ℕ → OutputInfo → Prop}
    (hother : ∀ i info, info.ownership = .claimed ∨ info.ownership = .thirdParty → P i info) :
    (∀ i info, (evaluateSignability w (.hold key) psbt tx
        (describe w network psbt tx)).outputs[i]? = some info → P i info)
      ↔ ∀ i po out, Evaluated psbt tx i po out →
        P i (evaluateOutput w key (masterFingerprint w (.hold key)) psbt tx i
          (outputInfo w network psbt.outputs[i]? out)) := by
  rw [evaluateSignability_outputs]
  simp only [List.getElem?_mapIdx, Option.map_eq_some_iff]
  constructor
  · exact fun h i po out he => h i _ ⟨out, he.output, rfl⟩
  · intro h i info hinfo
    obtain ⟨out, hout, rfl⟩ := hinfo
    by_cases he : ∃ po, Evaluated psbt tx i po out
    · obtain ⟨po, he⟩ := he
      exact h i po out he
    · rw [evaluateOutput_of_not_evaluated hout he]
      exact hother i _ (outputInfo_ownership w network _ _)

theorem evaluateInput_derivation (i : ℕ) {inp : PsbtInput} (txin : Option TxInput)
    (hi : psbt.inputs[i]? = some inp) :
    (evaluateInput w key (masterFingerprint w (.hold key)) psbt i
      (inputInfo w network txin inp)).derivation = inputDerivation w key inp := by
  unfold evaluateInput inputDerivation
  rw [hi]
  dsimp only
  cases ourKeypath (masterFingerprint w (.hold key)) inp <;>
    cases inputSignable w key psbt i <;> rfl

/-- Under a key that signs every input, the accounts are those of all of them. -/
theorem inputAccounts_evaluateSignability
    (hsigns : ∀ i < psbt.inputs.length, inputSignable w key psbt i = true) :
    inputAccounts (evaluateSignability w (.hold key) psbt tx (describe w network psbt tx))
      = spentAccounts w key psbt := by
  have hshown : (psbt.inputs.mapIdx fun i inp =>
        evaluateInput w key (masterFingerprint w (.hold key)) psbt i
          (inputInfo w network tx.inputs[i]? inp)).map (fun info => (info.canSign, info.derivation))
      = psbt.inputs.map fun inp => (true, inputDerivation w key inp) := by
    refine Indexed.map_mapIdx_eq_map fun i inp hi => ?_
    have hlt := (List.getElem?_eq_some_iff.mp hi).1
    rw [evaluateInput_derivation i _ hi, evaluateInput_canSign _ hi rfl, hsigns i hlt]
  -- the accounts are collected from two fields of each input
  have hfold (infos : List InputInfo) :
      infos.foldl (fun accounts info => addAccount accounts info.canSign info.derivation) []
        = (infos.map fun info => (info.canSign, info.derivation)).foldl
          (fun accounts p => addAccount accounts p.1 p.2) [] := by
    rw [List.foldl_map]
  rw [inputAccounts, hfold, evaluateSignability_inputs, hshown, List.foldl_map]
  rfl

/-! ### The four keyed checks -/

theorem signableCheck_evaluateSignability_eq_nil (fingerprint : String) :
    signableCheck fingerprint
        (evaluateSignability w (.hold key) psbt tx (describe w network psbt tx)) = []
      ↔ psbt.inputs ≠ [] ∧ ∀ i < psbt.inputs.length, inputSignable w key psbt i = true := by
  have hlen : (evaluateSignability w (.hold key) psbt tx
      (describe w network psbt tx)).inputs.length = psbt.inputs.length := by
    rw [evaluateSignability_inputs, List.length_mapIdx]
  have hle := (List.range psbt.inputs.length).countP_le_length (p := inputSignable w key psbt)
  rw [List.length_range] at hle
  have hall : (List.range psbt.inputs.length).countP (inputSignable w key psbt)
        = psbt.inputs.length
      ↔ ∀ i < psbt.inputs.length, inputSignable w key psbt i = true := by
    have h := List.countP_eq_length (p := inputSignable w key psbt)
      (l := List.range psbt.inputs.length)
    rw [List.length_range] at h
    rw [h]
    exact forall_congr' fun i => by rw [List.mem_range]
  rw [signableCheck_eq_nil, evaluateSignability_signableInputs, hlen, ← hall,
    ← List.length_pos_iff]
  omega

theorem ownershipChecks_evaluateSignability_eq_nil :
    ownershipChecks (evaluateSignability w (.hold key) psbt tx (describe w network psbt tx)) = []
      ↔ ∀ i po out, Evaluated psbt tx i po out →
        changeVerdict w key po out ≠ .mismatch ∧ changeVerdict w key po out ≠ .unverifiable := by
  have hother (_ : ℕ) (info : OutputInfo)
      (h : info.ownership = .claimed ∨ info.ownership = .thirdParty) :
      info.ownership ≠ .mismatch ∧ info.ownership ≠ .unverifiable := by
    rcases h with h | h <;> simp [h]
  rw [ownershipChecks, flatten_mapIdx_eq_nil]
  simp only [ownershipCheck_eq_nil]
  rw [forall_outputs_iff hother]
  exact forall₃_congr fun i po out => forall_congr' fun he => by rw [he.ownership]

theorem noChangeCheck_evaluateSignability_eq_nil :
    noChangeCheck (evaluateSignability w (.hold key) psbt tx (describe w network psbt tx)) = []
      ↔ tx.outputs.length ≤ 1 ∨
        ∃ i po out, Evaluated psbt tx i po out ∧ changeVerdict w key po out = .verified := by
  have hlen : (evaluateSignability w (.hold key) psbt tx
      (describe w network psbt tx)).outputs.length = tx.outputs.length := by
    rw [evaluateSignability_outputs, List.length_mapIdx]
  have hother (_ : ℕ) (info : OutputInfo)
      (h : info.ownership = .claimed ∨ info.ownership = .thirdParty) :
      info.ownership ≠ .verified := by
    rcases h with h | h <;> simp [h]
  -- no output is counted as change exactly when none is verified by its entries
  have hnone : (evaluateSignability w (.hold key) psbt tx
        (describe w network psbt tx)).outputs.countP (fun o => o.ownership == .verified) = 0
      ↔ ∀ i po out, Evaluated psbt tx i po out → changeVerdict w key po out ≠ .verified := by
    rw [List.countP_eq_zero, Indexed.forall_mem_iff_index]
    simp only [beq_iff_eq]
    rw [forall_outputs_iff hother]
    exact forall₃_congr fun i po out => forall_congr' fun he => by rw [he.ownership]
  rw [noChangeCheck, checkIf_eq_nil, hnone, hlen, not_and_or, Nat.not_lt, or_comm]
  push Not
  rfl

theorem driftChecks_evaluateSignability_eq_nil
    (hsigns : ∀ i < psbt.inputs.length, inputSignable w key psbt i = true) :
    driftChecks (evaluateSignability w (.hold key) psbt tx (describe w network psbt tx)) = []
      ↔ ∀ i po out, Evaluated psbt tx i po out → changeVerdict w key po out = .verified →
        ∀ path, changePath w key po out = some path →
          ¬ Drifts (spentAccounts w key psbt) path := by
  have hother (_ : ℕ) (info : OutputInfo)
      (h : info.ownership = .claimed ∨ info.ownership = .thirdParty)
      (hv : info.ownership = .verified) : ¬ Drifts (spentAccounts w key psbt) info.derivation := by
    rcases h with h | h <;> simp [h] at hv
  rw [driftChecks, flatten_mapIdx_eq_nil, inputAccounts_evaluateSignability hsigns]
  simp only [driftCheck_eq_nil]
  rw [forall_outputs_iff hother]
  refine forall₃_congr fun i po out => forall_congr' fun he => ?_
  rw [he.ownership]
  refine forall_congr' fun hv => ?_
  -- a verified output shows the path it was verified on
  obtain ⟨path, hpath⟩ := changePath_of_verified hv
  rw [he.evaluateOutput_eq, hpath]
  simp

/-- The keyed checks find nothing exactly under a key of which the four things hold. -/
theorem keyedChecks_eq_nil (fingerprint : String) :
    keyedChecks fingerprint (evaluateSignability w (.hold key) psbt tx
        (describe w network psbt tx)) = []
      ↔ (psbt.inputs ≠ [] ∧ ∀ i < psbt.inputs.length, inputSignable w key psbt i = true) ∧
        (∀ i po out, Evaluated psbt tx i po out →
          changeVerdict w key po out ≠ .mismatch ∧ changeVerdict w key po out ≠ .unverifiable) ∧
        (tx.outputs.length ≤ 1 ∨
          ∃ i po out, Evaluated psbt tx i po out ∧ changeVerdict w key po out = .verified) ∧
        (∀ i po out, Evaluated psbt tx i po out → changeVerdict w key po out = .verified →
          ∀ path, changePath w key po out = some path →
            ¬ Drifts (spentAccounts w key psbt) path) := by
  rw [keyedChecks, List.append_eq_nil_iff, List.append_eq_nil_iff, List.append_eq_nil_iff,
    signableCheck_evaluateSignability_eq_nil, ownershipChecks_evaluateSignability_eq_nil,
    noChangeCheck_evaluateSignability_eq_nil, and_assoc, and_assoc]
  refine and_congr_right fun hsigns => ?_
  rw [driftChecks_evaluateSignability_eq_nil hsigns.2]

/-! ## The cleared summary beside the one without a key -/

/-- The calls `deriveFindings` makes on top under a key. -/
def addedChecks (w : Wally) (network : Network) (key : ExtKey) (psbt : Psbt) (tx : Tx) :
    List Check :=
  keyedChecks (masterFingerprint w (.hold key))
    (evaluateSignability w (.hold key) psbt tx (describe w network psbt tx))

theorem checks_hold (network : Network) (loose : Bool) :
    checks w (.hold key) loose
        (evaluateSignability w (.hold key) psbt tx (describe w network psbt tx))
      = keylessChecks loose (describe w network psbt tx) ++ addedChecks w network key psbt tx := by
  rw [checks, keylessChecks_evaluateSignability]
  rfl

theorem checks_clear (network : Network) (loose : Bool) :
    checks w .clear loose (evaluateSignability w .clear psbt tx (describe w network psbt tx))
      = keylessChecks loose (describe w network psbt tx) := by
  rw [checks, keylessChecks_evaluateSignability]
  exact List.append_nil _

theorem recordedReason_append (before : String) (calls calls' : List Check) :
    recordedReason before (calls ++ calls')
      = recordedReason (recordedReason before calls) calls' :=
  List.foldl_append

/-- An output that shows a path of the key is relabelled with the key's fingerprint, which
is not empty. -/
theorem masterFingerprint_ne_empty_of_changePath {po : PsbtOutput} {out : TxOutput} {path : String}
    (h : changePath w key po out = some path) : masterFingerprint w (.hold key) ≠ "" := by
  have hne : (changeEntries po).filterMap (entryShown w key (changeTarget po out)) ≠ [] := by
    intro hnil
    rw [changePath, shownPath_eq_none.mpr hnil] at h
    exact absurd h (by simp)
  obtain ⟨p, hp⟩ := List.exists_mem_of_ne_nil _ hne
  obtain ⟨item, -, hitem⟩ := List.mem_filterMap.mp hp
  have hnames : NamesMaster w key item := by
    by_contra hnot
    rw [entryShown, if_neg hnot] at hitem
    exact absurd hitem (by simp)
  obtain ⟨fp, -, hfp⟩ := hnames
  rw [masterFingerprint, SecureObject.resident_hold, Option.bind_some, hfp]
  exact hexOf_fingerprint_ne_empty fp

theorem keypathEntry_fst_ne_empty {item : KeypathItem} {claim : String × String}
    (h : keypathEntry item = some claim) : claim.1 ≠ "" := by
  obtain ⟨fp, -, rfl⟩ := Option.map_eq_some_iff.mp h
  exact hexOf_fingerprint_ne_empty fp

theorem outputClaim_fst_ne_empty {po : PsbtOutput} {claim : String × String}
    (h : outputClaim po = some claim) : claim.1 ≠ "" := by
  obtain ⟨items, -, hhead⟩ := List.exists_of_findSome?_eq_some h
  obtain ⟨item, -, hitem⟩ := Option.bind_eq_some_iff.mp hhead
  exact keypathEntry_fst_ne_empty hitem

/-- An output the key has said nothing about is cleared to itself. -/
theorem unclaim_outputInfo (i : ℕ) (out : TxOutput) :
    PsbtEngine.unclaim (outputInfo w network psbt.outputs[i]? out)
      = outputInfo w network psbt.outputs[i]? out := by
  unfold outputInfo PsbtEngine.unclaim
  split
  · rfl
  · dsimp only
    cases hclaim : psbt.outputs[i]?.bind outputClaim with
    | none => rfl
    | some claim =>
      obtain ⟨po, -, hpo⟩ := Option.bind_eq_some_iff.mp hclaim
      have hne := outputClaim_fst_ne_empty hpo
      simp [String.isEmpty_iff, hne]

/-- An input is as the file has it exactly when the entry that names the key is the one
shown without it. -/
theorem clearedInput_eq_iff (w : Wally) (network : Network) (key : ExtKey) (i : ℕ)
    {inp : PsbtInput} (txin : Option TxInput)
    (hi : psbt.inputs[i]? = some inp) :
    { evaluateInput w key (masterFingerprint w (.hold key)) psbt i
          (inputInfo w network txin inp) with
        canSign := false } = inputInfo w network txin inp
      ↔ ∀ own, ourKeypath (masterFingerprint w (.hold key)) inp = some own →
        own = inputHint inp := by
  unfold evaluateInput
  rw [hi]
  dsimp only
  cases hown : ourKeypath (masterFingerprint w (.hold key)) inp with
  | none =>
    refine iff_of_true ?_ fun own h => absurd h (by simp)
    cases inputSignable w key psbt i <;> rfl
  | some own =>
    simp only [Option.some.injEq, forall_eq']
    constructor
    · intro h
      have hfp := congrArg InputInfo.fingerprint h
      have hder := congrArg InputInfo.derivation h
      exact Prod.ext hfp hder
    · intro h
      subst h
      cases inputSignable w key psbt i <;> rfl

/-- An output relabelled with another claim is cleared to what the file has exactly when it is
the claim the file makes. -/
theorem unclaim_relabelled_eq_iff {po : PsbtOutput} {out : TxOutput} {fp path : String}
    {verdict : OutputOwnership} (hspend : isOpReturnScript out.script = false) (hfp : fp ≠ "") :
    PsbtEngine.unclaim
        { outputInfo w network (some po) out with
          claimedFingerprint := fp, derivation := path, ownership := verdict }
        = outputInfo w network (some po) out
      ↔ outputClaim po = some (fp, path) := by
  unfold outputInfo PsbtEngine.unclaim
  simp only [hspend, Bool.false_eq_true, if_false, Option.bind_some, String.isEmpty_iff, hfp]
  constructor
  · intro h
    have hfst : fp = ((outputClaim po).map Prod.fst).getD "" :=
      congrArg OutputInfo.claimedFingerprint h
    have hsnd : path = ((outputClaim po).map Prod.snd).getD "" := congrArg OutputInfo.derivation h
    cases hclaim : outputClaim po with
    | none =>
      rw [hclaim] at hfst
      exact absurd hfst hfp
    | some claim =>
      rw [hclaim] at hfst hsnd
      exact congrArg some (Prod.ext hfst.symm hsnd.symm)
  · intro h
    simp only [h]
    rfl

/-- An output is as the file has it exactly when the key shows no entry for it, or the one
the file claims anyway. -/
theorem clearedOutput_eq_iff (w : Wally) (network : Network) (key : ExtKey) {i : ℕ}
    {out : TxOutput} (hout : tx.outputs[i]? = some out) :
    PsbtEngine.unclaim (evaluateOutput w key (masterFingerprint w (.hold key)) psbt tx i
        (outputInfo w network psbt.outputs[i]? out)) = outputInfo w network psbt.outputs[i]? out
      ↔ ∀ po, Evaluated psbt tx i po out → ∀ path, changePath w key po out = some path →
        outputClaim po = some (masterFingerprint w (.hold key), path) := by
  by_cases he : ∃ po, Evaluated psbt tx i po out
  · obtain ⟨po, he⟩ := he
    -- there is one output map at an index
    have hone (po' : PsbtOutput) (he' : Evaluated psbt tx i po' out) : po' = po :=
      Option.some.inj (he'.map.symm.trans he.map)
    rw [he.evaluateOutput_eq]
    cases hpath : changePath w key po out with
    | none =>
      refine iff_of_true (unclaim_outputInfo i out) fun po' he' path h => ?_
      rw [hone po' he', hpath] at h
      exact absurd h (by simp)
    | some path =>
      have hfp := masterFingerprint_ne_empty_of_changePath hpath
      dsimp only
      rw [he.map, unclaim_relabelled_eq_iff he.spendable hfp]
      constructor
      · intro h po' he' path' h'
        rw [hone po' he'] at h' ⊢
        rw [hpath] at h'
        rw [h, Option.some.inj h']
      · exact fun h => h po he path hpath
  · rw [evaluateOutput_of_not_evaluated hout he]
    exact iff_of_true (unclaim_outputInfo i out) fun po he' => absurd ⟨po, he'⟩ he

/-- The summary of a file whose key has been cleared, beside the one of the file without a
key. -/
theorem clearedSummary_summarise (network : Network) (loose : Bool)
    (hx : w.psbtExtract psbt .nonFinal = some tx) :
    PsbtEngine.clearedSummary (summarise w network loose (.hold key) psbt) =
      { summarise w network loose .clear psbt with
        inputs := psbt.inputs.mapIdx fun i inp =>
          { evaluateInput w key (masterFingerprint w (.hold key)) psbt i
              (inputInfo w network tx.inputs[i]? inp) with canSign := false }
        outputs := tx.outputs.mapIdx fun i out =>
          PsbtEngine.unclaim (evaluateOutput w key (masterFingerprint w (.hold key)) psbt tx i
            (outputInfo w network psbt.outputs[i]? out))
        findings := (summarise w network loose .clear psbt).findings
          ++ (addedChecks w network key psbt tx).map Check.finding
        safeToSign := (summarise w network loose .clear psbt).safeToSign
          && allow (addedChecks w network key psbt tx)
        blockReason := recordedReason (summarise w network loose .clear psbt).blockReason
          (addedChecks w network key psbt tx) } := by
  have hinputs : (evaluateSignability w (.hold key) psbt tx
        (describe w network psbt tx)).inputs.map (fun info => { info with canSign := false })
      = psbt.inputs.mapIdx fun i inp =>
        { evaluateInput w key (masterFingerprint w (.hold key)) psbt i
            (inputInfo w network tx.inputs[i]? inp) with canSign := false } := by
    rw [evaluateSignability_inputs, Indexed.map_mapIdx]
  have houtputs : (evaluateSignability w (.hold key) psbt tx
        (describe w network psbt tx)).outputs.map PsbtEngine.unclaim
      = tx.outputs.mapIdx fun i out =>
        PsbtEngine.unclaim (evaluateOutput w key (masterFingerprint w (.hold key)) psbt tx i
          (outputInfo w network psbt.outputs[i]? out)) := by
    rw [evaluateSignability_outputs, Indexed.map_mapIdx]
  rw [summarise_of_extract hx, summarise_of_extract hx, deriveFindings_eq, deriveFindings_eq,
    checks_hold, checks_clear, recordedReason_append, allow_append, List.map_append,
    ← List.append_assoc, PsbtEngine.clearedSummary]
  simp only [hinputs, houtputs]
  rfl

/-- Clearing the key restores the summary exactly when the key has added nothing to it. -/
theorem clear_restores_iff (network : Network) (loose : Bool)
    (hx : w.psbtExtract psbt .nonFinal = some tx) :
    PsbtEngine.clearedSummary (summarise w network loose (.hold key) psbt)
        = summarise w network loose .clear psbt
      ↔ KeyAddsNothing w key psbt tx := by
  have hinputs : (summarise w network loose .clear psbt).inputs
      = psbt.inputs.mapIdx fun i inp => inputInfo w network tx.inputs[i]? inp := by
    rw [summarise_of_extract hx, deriveFindings_eq]
    rfl
  have houtputs : (summarise w network loose .clear psbt).outputs
      = tx.outputs.mapIdx fun i out => outputInfo w network psbt.outputs[i]? out := by
    rw [summarise_of_extract hx, deriveFindings_eq]
    rfl
  have hadded : addedChecks w network key psbt tx = [] ↔ _ :=
    keyedChecks_eq_nil (masterFingerprint w (.hold key))
  rw [clearedSummary_summarise network loose hx]
  constructor
  · intro h
    -- read off field by field: inputs, outputs, findings
    have hin := (congrArg TxSummary.inputs h).trans hinputs
    have hout := (congrArg TxSummary.outputs h).trans houtputs
    have hfindings := congrArg TxSummary.findings h
    have hnil : addedChecks w network key psbt tx = [] := by
      simpa using hfindings
    obtain ⟨hsigns, hsettled, hchange, hstays⟩ := hadded.mp hnil
    refine ⟨?_, ?_, hsigns, hsettled, hchange, hstays⟩
    · intro inp hinp
      obtain ⟨i, hi⟩ := List.mem_iff_getElem?.mp hinp
      exact (clearedInput_eq_iff w network key i _ hi).mp (Indexed.mapIdx_congr_iff.mp hin i inp hi)
    · intro i po out he
      exact (clearedOutput_eq_iff w network key he.output).mp
        (Indexed.mapIdx_congr_iff.mp hout i out he.output) po he
  · intro h
    -- with no finding added the gate and its reason are the same as well
    have hnil := hadded.mpr ⟨h.signs, h.settled, h.change, h.stays⟩
    have hin := Indexed.mapIdx_congr_iff.mpr fun i inp hi =>
      (clearedInput_eq_iff w network key i tx.inputs[i]? hi).mpr
        (h.hints inp (List.mem_of_getElem? hi))
    have hout := Indexed.mapIdx_congr_iff.mpr fun i out ho =>
      (clearedOutput_eq_iff w network key ho).mpr
        fun po he => h.claims i po out he
    rw [hin, hout, hnil, ← hinputs, ← houtputs]
    simp only [List.map_nil, List.append_nil, allow_nil, Bool.and_true]
    rfl

/-- A PSBT that does not describe a transaction is summarised alike with and without a key. -/
theorem clearedSummary_of_no_extract (network : Network) (loose : Bool)
    (hx : w.psbtExtract psbt .nonFinal = none) :
    PsbtEngine.clearedSummary (summarise w network loose (.hold key) psbt)
      = summarise w network loose .clear psbt := by
  rw [summarise_of_no_extract hx, summarise_of_no_extract hx]
  rfl

end

/-! ## Sessions -/

namespace Session

open PsbtEngine (clearedSummary)

/-- The operation drops the key: it is `clearKey`, or a setter that fails. -/
def Op.Drops (w : Wally) (network : Network) (op : Op) : Prop :=
  op = .clearKey ∨ ∃ err, op.derived w network = some (.error err)

/-- Dropping the key clears the summary. -/
theorem summary_of_drops {w : Wally} {s : Session} {op : Op} (h : op.Drops w s.engine.network) :
    (s.step w op).engine.summary = clearedSummary s.engine.summary := by
  rcases h with rfl | ⟨err, h⟩
  · rfl
  · rw [step_of_derived h]
    rfl

/-- Entering a key and dropping it leaves the cleared summary of the PSBT under that key. -/
theorem summary_of_enter_drop {w : Wally} {s : Session} {enter close : Op} {key : ExtKey}
    (henter : enter.derived w s.engine.network = some (.ok key))
    (hclose : close.Drops w s.engine.network) {psbt : Psbt} (hpsbt : s.engine.psbt = some psbt) :
    ((s.step w enter).step w close).engine.summary
      = clearedSummary (summarise w s.engine.network s.engine.looseParse (.hold key) psbt) := by
  -- the summary is made again under the key that is entered
  have hstep : s.step w enter = ⟨.hold key, { s.engine with
      summary := summarise w s.engine.network s.engine.looseParse (.hold key) psbt }⟩ := by
    rw [step_of_derived henter, PsbtEngine.enterKey_of_loaded w s.engine key hpsbt]
  rw [hstep]
  exact summary_of_drops hclose

/-- With no PSBT there is no summary a key could leave anything in. -/
theorem summary_of_enter_drop_unloaded {w : Wally} {s : Session} {enter close : Op} {key : ExtKey}
    (henter : enter.derived w s.engine.network = some (.ok key))
    (hclose : close.Drops w s.engine.network) (hpsbt : s.engine.psbt = none) :
    ((s.step w enter).step w close).engine.summary
      = clearedSummary (clearedSummary s.engine.summary) := by
  have hstep : s.step w enter = ⟨.hold key, s.engine.clearKey.2⟩ := by
    rw [step_of_derived henter, PsbtEngine.enterKey_of_unloaded w s.engine key hpsbt]
  rw [hstep]
  exact summary_of_drops hclose

/-- Loading a file, entering a key and dropping it leaves the summary that loading the file
without a key gives exactly when the key adds nothing to it. -/
theorem key_undone_iff (w : Wally) (s : Session) (path : String) (file : FileNode)
    (enter close : Op) (key : ExtKey)
    (henter : enter.derived w s.engine.network = some (.ok key))
    (hclose : close.Drops w s.engine.network) :
    (Runs.run (step w) s [.load path file, enter, close]).engine.summary
        = (step w { s with slot := .clear } (.load path file)).engine.summary
      ↔ ∀ psbt, (s.step w (.load path file)).engine.psbt = some psbt →
        ∀ tx, w.psbtExtract psbt .nonFinal = some tx → KeyAddsNothing w key psbt tx := by
  have hrun : Runs.run (step w) s [.load path file, enter, close]
      = ((s.step w (.load path file)).step w enter).step w close := rfl
  rw [hrun]
  -- the two loads find the same PSBT, and differ in the key they summarise it with
  rcases PsbtEngine.load_cases w s.engine path file with ⟨err, h⟩ | ⟨psbt, loose, h⟩
  · have hload (slot : KeySlot) : step w { s with slot := slot } (.load path file)
        = ⟨slot, s.engine.unload⟩ := congrArg (Session.mk slot) (congrArg Prod.snd (h slot))
    rw [hload .clear, show s.step w (.load path file) = _ from hload s.slot,
      summary_of_enter_drop_unloaded (s := ⟨s.slot, s.engine.unload⟩) henter hclose rfl]
    exact iff_of_true rfl fun psbt hpsbt => by cases hpsbt
  · have hload (slot : KeySlot) : step w { s with slot := slot } (.load path file)
        = ⟨slot, s.engine.loaded w slot path psbt loose⟩ :=
      congrArg (Session.mk slot) (congrArg Prod.snd (h slot))
    rw [hload .clear, show s.step w (.load path file) = _ from hload s.slot,
      summary_of_enter_drop (s := ⟨s.slot, s.engine.loaded w s.slot path psbt loose⟩)
        henter hclose rfl]
    simp only [PsbtEngine.loaded, Option.some.injEq, forall_eq']
    cases hx : w.psbtExtract psbt .nonFinal with
    | none => exact iff_of_true (clearedSummary_of_no_extract _ loose hx) fun tx h => by cases h
    | some tx =>
      simp only [Option.some.injEq, forall_eq']
      exact clear_restores_iff s.engine.network loose hx

theorem keyAddsNothing_taprootPsbt :
    KeyAddsNothing taprootLibrary default taprootPsbt paymentTx := by
  have hempty {i : ℕ} {po : PsbtOutput} {out : TxOutput}
      (he : Evaluated taprootPsbt paymentTx i po out) : po = {} :=
    List.mem_singleton.mp (List.mem_of_getElem? he.map)
  refine ⟨fun inp hinp own h => ?_, fun i po out he path h => ?_, by decide,
    fun i po out he => ?_, Or.inl (by decide), fun i po out he h => ?_⟩
  · cases List.mem_singleton.mp hinp
    cases h
  · cases hempty he
    cases h
  · cases hempty he
    exact ⟨nofun, nofun⟩
  · cases hempty he
    cases h

theorem key_undone_taproot :
    (Runs.run (step taprootLibrary) (start .mainnet) (keyedSession ++ [.clearKey])).engine.summary
      = (Runs.run (step taprootLibrary) (start .mainnet) (keyedSession.take 1)).engine.summary :=
  (key_undone_iff taprootLibrary (start .mainnet) "/data/payment.psbt"
    (.regular 4 [.data [0x41, 0x41, 0x41, 0x41]]) (.setKeyFromXprv "xprv") .clearKey default rfl
    (Or.inl rfl)).mpr fun psbt hpsbt tx hx => by
      cases hpsbt
      cases hx
      exact keyAddsNothing_taprootPsbt

/-! ### A decoy output

The output carries a derivation path of the master that is entered, and pays another key.
Entering the key closes the gate; clearing it does not open the gate again. -/

/-- The P2TR script of the key the decoy's path derives. -/
def derivedScript : Bytes := 0x51 :: 0x20 :: List.replicate 32 0x03

def decoyMap : PsbtOutput := { taprootLeafPaths := [someKeypath] }

def decoyPsbt : Psbt := { taprootPsbt with outputs := [decoyMap] }

def decoyLibrary : Wally :=
  { taprootLibrary with
    psbtFromBase64 := fun _ _ => some decoyPsbt
    bip32KeyGetFingerprint := fun _ => someKeypath.fingerprint
    bip32KeyFromParentPath := fun key _ _ => some key
    scriptpubkeyGetType := fun _ => .p2tr
    scriptpubkeyP2trFromBytes := fun _ => some derivedScript }

theorem decoyPsbt_fileGate : FileGate decoyLibrary decoyPsbt paymentTx :=
  ⟨by decide, by decide, by decide, by decide, by decide, _, List.mem_singleton_self _, rfl⟩

theorem gate_closed_after_clearKey :
    (Runs.run (step decoyLibrary) (start .mainnet)
        (keyedSession ++ [.clearKey])).engine.summary.safeToSign = false ∧
      (Runs.run (step decoyLibrary) (start .mainnet)
        (keyedSession.take 1)).engine.summary.safeToSign = true := by
  constructor
  · show (summarise decoyLibrary .mainnet false (.hold default) decoyPsbt).safeToSign = false
    rw [Bool.eq_false_iff, ne_eq, safeToSign_summarise_iff]
    intro hsafe
    obtain ⟨tx, hx, -, hno⟩ := hsafe
    cases hx
    exact hno default rfl 0 decoyMap ⟨900, taprootScript⟩ rfl rfl (by decide) (by decide)
  · show (summarise decoyLibrary .mainnet false .clear decoyPsbt).safeToSign = true
    rw [safeToSign_summarise_iff]
    exact ⟨paymentTx, rfl, decoyPsbt_fileGate, fun key h => by cases h⟩

end Session

end SignerOS
