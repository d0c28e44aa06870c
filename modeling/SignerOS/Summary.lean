import SignerOS.Vsize
import SignerOS.Lib.WrapSum

/-!
# The summary of a PSBT

`TxSummary` and the three functions of `PsbtEngine` that fill it: `resummarise` describes
what the file says (`describe` here), `evaluateSignability` adds what the resident key
proves about it, and `deriveFindings` turns both into findings and the signing gate.

The explicit amount field of a PSBT input is read under `#ifndef WALLY_ABI_NO_ELEMENTS`;
the build leaves that ABI at its default, so the branch is compiled in.
-/

namespace SignerOS

open WrapSum (wrapSum)

/-! ## The data -/

/-- `InputInfo`. -/
structure InputInfo where
  outpoint : String := ""
  address : String := ""
  scriptType : String := ""
  derivation : String := ""
  fingerprint : String := ""
  amountSat : UInt64 := 0
  amountKnown : Bool := false
  canSign : Bool := false
  alreadyFinal : Bool := false
  existingSignatures : ℕ := 0
  sequence : UInt32 := 0
  sighash : UInt32 := 0
deriving DecidableEq, Repr

/-- `OutputInfo`. -/
structure OutputInfo where
  address : String := ""
  scriptType : String := ""
  derivation : String := ""
  claimedFingerprint : String := ""
  amountSat : UInt64 := 0
  ownership : OutputOwnership := .thirdParty
  isOpReturn : Bool := false
  opReturnHex : String := ""
deriving DecidableEq, Repr

inductive Severity
  | info | warning | danger
deriving DecidableEq, Repr

structure Finding where
  severity : Severity
  text : String
deriving DecidableEq, Repr

/-- `TxSummary`. -/
structure TxSummary where
  psbtVersion : UInt32 := 0
  txVersion : UInt32 := 0
  locktime : UInt32 := 0
  txid : String := ""
  inputs : List InputInfo := []
  outputs : List OutputInfo := []
  totalInSat : UInt64 := 0
  totalOutSat : UInt64 := 0
  feeSat : UInt64 := 0
  feeKnown : Bool := false
  verifiedChangeSat : UInt64 := 0
  leavingSat : UInt64 := 0
  ownershipChecked : Bool := false
  estimatedVsize : ℕ := 0
  feeRate : Float := 0.0
  signableInputs : ℕ := 0
  inputsWithDerivation : ℕ := 0
  alreadyFinalised : Bool := false
  findings : List Finding := []
  safeToSign : Bool := false
  blockReason : String := ""

/-! ## What the file says about its inputs -/

/-- Where the amount of an input is taken from, in the order `resummarise` tries them. -/
inductive AmountSource
  | witnessUtxo (utxo : TxOutput)
  | nonWitnessUtxo (prevout : TxOutput)
  | explicitAmount (satoshi : UInt64)
  | missing
deriving DecidableEq, Repr

namespace AmountSource

/-- `info.amountSat`. -/
def amountSat : AmountSource → UInt64
  | witnessUtxo o | nonWitnessUtxo o => o.satoshi
  | explicitAmount a => a
  | missing => 0

/-- `info.amountKnown`. -/
def known : AmountSource → Bool
  | missing => false
  | _ => true

/-- The script being spent, which an explicit amount says nothing about. -/
def script : AmountSource → Bytes
  | witnessUtxo o | nonWitnessUtxo o => o.script
  | explicitAmount _ | missing => []

end AmountSource

/-- The `if` chain of `resummarise` over one input. A non-witness UTXO whose outputs do not
reach `vout` gives nothing, and keeps the explicit amount from being looked at. -/
def amountSource (txin : Option TxInput) (inp : PsbtInput) : AmountSource :=
  match inp.witnessUtxo with
  | some utxo => .witnessUtxo utxo
  | none =>
    match inp.utxo, txin with
    | some prev, some ti =>
      match prev.outputs[ti.index.toNat]? with
      | some prevout => .nonWitnessUtxo prevout
      | none => .missing
    | _, _ => if inp.hasAmount then .explicitAmount inp.amount else .missing

/-- The first keypath of an input, shown as a hint of who owns it before there is a key. -/
def inputHint (inp : PsbtInput) : String × String :=
  match inp.keypaths with
  | [] => ("", "")
  | item :: _ => (keypathEntry item).getD ("", "")

/-- Does the input say where its key lives, in either of the two maps? -/
def hasDerivation (inp : PsbtInput) : Bool :=
  !inp.keypaths.isEmpty || !inp.taprootLeafPaths.isEmpty

/-- The input loop of `resummarise`. -/
def inputInfo (w : Wally) (network : Network) (txin : Option TxInput) (inp : PsbtInput) :
    InputInfo :=
  let source := amountSource txin inp
  let decoded :=
    if source.script.isEmpty then ("(previous output not provided)", "unknown")
    else addressForScript w network source.script
  let hint := inputHint inp
  { outpoint :=
      match txin with
      | some ti => txidToDisplay ti.txhash ++ ":" ++ toString ti.index.toNat
      | none => ""
    sequence := (txin.map TxInput.sequence).getD 0
    amountSat := source.amountSat
    amountKnown := source.known
    address := decoded.1
    scriptType := decoded.2
    existingSignatures := inp.signatures.length
    alreadyFinal := inp.finalWitness.isSome
    sighash := inp.sighash
    fingerprint := hint.1
    derivation := hint.2 }

/-! ## What the file says about its outputs -/

/-- `OP_RETURN` is the first byte. -/
def isOpReturnScript (spk : Bytes) : Bool := spk.head? == some 0x6a

/-- What the output map claims: the first entry of the first map that has a readable one. -/
def outputClaim (po : PsbtOutput) : Option (String × String) :=
  [po.keypaths, po.taprootLeafPaths].findSome? fun items => items.head?.bind keypathEntry

/-- The output loop of `resummarise`. -/
def outputInfo (w : Wally) (network : Network) (po : Option PsbtOutput) (out : TxOutput) :
    OutputInfo :=
  if isOpReturnScript out.script then
    { amountSat := out.satoshi
      isOpReturn := true
      scriptType := "op-return"
      address := "OP_RETURN (data, unspendable)"
      opReturnHex := hexOf out.script.tail }
  else
    let decoded := addressForScript w network out.script
    let claim := po.bind outputClaim
    { amountSat := out.satoshi
      address := decoded.1
      scriptType := decoded.2
      claimedFingerprint := (claim.map Prod.fst).getD ""
      derivation := (claim.map Prod.snd).getD ""
      ownership := if claim.isSome then .claimed else .thirdParty }

/-! ## `resummarise`, before any key -/

/-- The fields `resummarise` fills before it extracts the transaction. -/
def summaryHeader (w : Wally) (psbt : Psbt) : TxSummary :=
  { psbtVersion := psbt.version
    txVersion := ((w.psbtGetTxVersion psbt).map Nat.toUInt32).getD 0
    locktime := ((w.psbtGetLocktime psbt).map Nat.toUInt32).getD 0
    alreadyFinalised :=
      match w.psbtIsFinalized psbt with
      | some finalised => finalised != 0
      | none => false }

/-- What `resummarise` leaves when the PSBT does not describe a transaction. -/
def incompleteSummary (w : Wally) (psbt : Psbt) : TxSummary :=
  { summaryHeader w psbt with
    findings := [⟨.danger, "This PSBT does not describe a complete transaction, so it cannot "
      ++ "be displayed or signed safely."⟩]
    safeToSign := false
    blockReason := "the PSBT is missing fields required to build the transaction" }

/-- The inputs of the summary, one for each input map. -/
def describeInputs (w : Wally) (network : Network) (psbt : Psbt) (tx : Tx) : List InputInfo :=
  psbt.inputs.mapIdx fun i inp => inputInfo w network tx.inputs[i]? inp

/-- The outputs of the summary, one for each output of the transaction. -/
def describeOutputs (w : Wally) (network : Network) (psbt : Psbt) (tx : Tx) : List OutputInfo :=
  tx.outputs.mapIdx fun i out => outputInfo w network psbt.outputs[i]? out

/-- `resummarise` up to the call of `evaluateSignability`. -/
def describe (w : Wally) (network : Network) (psbt : Psbt) (tx : Tx) : TxSummary :=
  let inputs := describeInputs w network psbt tx
  let outputs := describeOutputs w network psbt tx
  let totalIn := wrapSum (inputs.map InputInfo.amountSat)
  let totalOut := wrapSum (outputs.map OutputInfo.amountSat)
  let feeKnown := inputs.all InputInfo.amountKnown && decide (totalOut ≤ totalIn)
  let feeSat := if feeKnown then totalIn - totalOut else 0
  let vsize := estimateVsize w psbt tx
  { summaryHeader w psbt with
    txid := ((w.txGetTxid tx).map txidToDisplay).getD ""
    inputs := inputs
    inputsWithDerivation := psbt.inputs.countP hasDerivation
    totalInSat := totalIn
    outputs := outputs
    totalOutSat := totalOut
    feeKnown := feeKnown
    feeSat := feeSat
    estimatedVsize := vsize
    feeRate := if feeKnown ∧ 0 < vsize then feeSat.toFloat / (Float.ofNat vsize) else 0.0 }

/-! ## `evaluateSignability` -/

/-- `PsbtEngine::masterFingerprint`: empty without a key, or when it cannot be computed. -/
def masterFingerprint (w : Wally) (slot : KeySlot) : String :=
  match slot.resident.bind w.bip32KeyGetFingerprint with
  | some fp => hexOf fp.toList
  | none => ""

/-- Can the resident key sign this input? -/
def inputSignable (w : Wally) (key : ExtKey) (psbt : Psbt) (i : ℕ) : Bool :=
  (w.psbtGetInputBip32KeyFrom psbt i key).isSome

/-- The first entry of `keypaths` that names our master. -/
def ourKeypath (ourFp : String) (inp : PsbtInput) : Option (String × String) :=
  inp.keypaths.findSome? fun item =>
    match keypathEntry item with
    | some (fp, path) => if fp = ourFp then some (fp, path) else none
    | none => none

/-- The input loop of `evaluateSignability`, for the input at index `i`. -/
def evaluateInput (w : Wally) (key : ExtKey) (ourFp : String) (psbt : Psbt) (i : ℕ)
    (info : InputInfo) : InputInfo :=
  match psbt.inputs[i]? with
  | none => info
  | some inp =>
    let info := if inputSignable w key psbt i then { info with canSign := true } else info
    match ourKeypath ourFp inp with
    | some (fp, path) => { info with fingerprint := fp, derivation := path }
    | none => info

/-- The locals of the keypath loop over one output. -/
structure ChangeScan where
  anyVerified : Bool := false
  anyMismatch : Bool := false
  anyUnverifiable : Bool := false
  verdictPath : String := ""
  claimedFingerprint : String
deriving DecidableEq, Repr

/-- What the loop compares a derived key with. -/
structure ChangeTarget where
  spk : Bytes
  redeem : Option Bytes
  witnessScript : Option Bytes
  hasTaprootTree : Bool

/-- The output of the transaction and the scripts its map supplies. -/
def changeTarget (po : PsbtOutput) (out : TxOutput) : ChangeTarget where
  spk := out.script
  redeem := psbtField po.psbtFields kPsbtOutRedeemScript
  witnessScript := psbtField po.psbtFields kPsbtOutWitnessScript
  hasTaprootTree := !po.taprootTree.isEmpty

/-- The verdict on the public key derived along the elements of one entry. -/
def deriveVerdict (w : Wally) (key : ExtKey) (target : ChangeTarget) (elems : List UInt32) :
    Option OutputOwnership :=
  (w.bip32KeyFromParentPath key elems .keyPublic).map fun child =>
    ownershipForScript w child.pubKey target.spk target.redeem target.witnessScript
      target.hasTaprootTree

/-- One iteration of the keypath loop. -/
def scanEntry (w : Wally) (key : ExtKey) (ourFp : String) (target : ChangeTarget)
    (scan : ChangeScan) (item : KeypathItem) : ChangeScan :=
  -- `j < n && !anyVerified`: once verified, neither loop looks at another entry
  if scan.anyVerified then scan
  else
    match keypathEntry item with
    | none => scan
    | some (fp, path) =>
      if fp ≠ ourFp then scan
      else
        match keypathElements item with
        | none => { scan with anyUnverifiable := true }
        | some elems =>
          match deriveVerdict w key target elems with
          | none => { scan with anyUnverifiable := true }
          | some verdict =>
            let scan :=
              match verdict with
              | .verified => { scan with anyVerified := true }
              | .mismatch => { scan with anyMismatch := true }
              | _ => { scan with anyUnverifiable := true }
            { scan with
              verdictPath :=
                if scan.verdictPath.isEmpty || scan.anyVerified then path else scan.verdictPath
              claimedFingerprint := fp }

/-- The two maps the loop walks, one after the other. -/
def changeEntries (po : PsbtOutput) : List KeypathItem := po.keypaths ++ po.taprootLeafPaths

/-- The keypath loop over one output. -/
def scanOutput (w : Wally) (key : ExtKey) (ourFp : String) (po : PsbtOutput) (out : TxOutput)
    (claimed : String) : ChangeScan :=
  (changeEntries po).foldl (scanEntry w key ourFp (changeTarget po out))
    { claimedFingerprint := claimed }

/-- The precedence in which the loop's flags are merged. -/
def ChangeScan.ownership (scan : ChangeScan) : OutputOwnership :=
  if scan.anyVerified then .verified
  else if scan.anyMismatch then .mismatch
  else if scan.anyUnverifiable then .unverifiable
  else .thirdParty

/-- The output loop of `evaluateSignability`, for the output at index `i`. -/
def evaluateOutput (w : Wally) (key : ExtKey) (ourFp : String) (psbt : Psbt) (tx : Tx) (i : ℕ)
    (info : OutputInfo) : OutputInfo :=
  match psbt.outputs[i]?, tx.outputs[i]? with
  | some po, some out =>
    if info.isOpReturn then info
    else
      let scan := scanOutput w key ourFp po out info.claimedFingerprint
      { info with
        claimedFingerprint := scan.claimedFingerprint
        ownership := scan.ownership
        derivation := if scan.verdictPath.isEmpty then info.derivation else scan.verdictPath }
  | _, _ => info

/-- Did the output loop reach this output? -/
def outputEvaluated (psbt : Psbt) (tx : Tx) (i : ℕ) (info : OutputInfo) : Bool :=
  decide (i < psbt.outputs.length) && decide (i < tx.outputs.length) && !info.isOpReturn

/-- `PsbtEngine::evaluateSignability`. -/
def evaluateSignability (w : Wally) (slot : KeySlot) (psbt : Psbt) (tx : Tx) (s : TxSummary) :
    TxSummary :=
  let s :=
    { s with
      signableInputs := 0, verifiedChangeSat := 0, leavingSat := s.totalOutSat
      ownershipChecked := false }
  match slot.resident with
  | none => s
  | some key =>
    let ourFp := masterFingerprint w slot
    let signable :=
      (List.range (min s.inputs.length psbt.inputs.length)).countP (inputSignable w key psbt)
    let outputs := s.outputs.mapIdx (evaluateOutput w key ourFp psbt tx)
    let verifiedChange := wrapSum (outputs.mapIdx fun i out =>
      if outputEvaluated psbt tx i out && out.ownership == .verified then out.amountSat else 0)
    { s with
      ownershipChecked := true
      inputs := s.inputs.mapIdx (evaluateInput w key ourFp psbt)
      signableInputs := signable
      outputs := outputs
      verifiedChangeSat := verifiedChange
      leavingSat := if verifiedChange ≤ s.totalOutSat then s.totalOutSat - verifiedChange else 0 }

end SignerOS
