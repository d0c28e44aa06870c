import SignerOS.Summary

/-!
# The findings and the signing gate

`PsbtEngine::deriveFindings` walks a fixed series of checks. Each one reads the summary and
appends findings with its two lambdas, `add` and `block`; none of them reads what `add` and
`block` write, so a check is the list of calls it makes (`Check`) and `deriveFindings`
performs the calls of all of them in order. `keylessChecks` are the checks made of every
PSBT, `keyedChecks` the ones made once a key is resident.
-/

namespace SignerOS

/-- A call of `add` or of `block`. -/
inductive Check
  | add (severity : Severity) (text : String)
  | block (reason text : String)
deriving DecidableEq, Repr

namespace Check

/-- The finding a call appends. -/
def finding : Check → Finding
  | add severity text => ⟨severity, text⟩
  | block _ text => ⟨.danger, text⟩

/-- Does the call close the gate? -/
def blocks : Check → Bool
  | add _ _ => false
  | block _ _ => true

/-- The reason a call gives for closing the gate. -/
def reason : Check → Option String
  | add _ _ => none
  | block reason _ => some reason

/-- The effect of a call on the summary. -/
def apply (s : TxSummary) : Check → TxSummary
  | add severity text => { s with findings := s.findings ++ [⟨severity, text⟩] }
  | block reason text =>
    { s with
      safeToSign := false
      blockReason := if s.blockReason.isEmpty then reason else s.blockReason
      findings := s.findings ++ [⟨.danger, text⟩] }

end Check

/-- The calls of a check that is made when `c` holds. -/
def checkIf (c : Prop) [Decidable c] (calls : List Check) : List Check := if c then calls else []

/-! ## The checks made of every PSBT -/

def looseParseCheck (looseParse : Bool) : List Check :=
  checkIf looseParse [.add .warning <|
    "This PSBT is not strictly spec-conformant; it was accepted in "
      ++ "permissive mode. Treat everything below with extra suspicion."]

def noInputsCheck (s : TxSummary) : List Check :=
  checkIf s.inputs.isEmpty [.block "the PSBT has no inputs" "This PSBT has no inputs."]

def noOutputsCheck (s : TxSummary) : List Check :=
  checkIf s.outputs.isEmpty [.block "the PSBT has no outputs" "This PSBT has no outputs."]

def finalisedCheck (s : TxSummary) : List Check :=
  checkIf s.alreadyFinalised [.block "the PSBT is already finalised" <|
    "This PSBT is already finalised. There is nothing left to sign, "
      ++ "and adding a signature would invalidate it."]

/-- The inputs whose amount is not known. -/
def missingAmounts (s : TxSummary) : ℕ := s.inputs.countP fun i => !i.amountKnown

def missingCheck (s : TxSummary) : List Check :=
  checkIf (0 < missingAmounts s)
    [.block "the PSBT does not include the UTXO for every input" <|
      toString (missingAmounts s) ++ " of " ++ toString s.inputs.length
        ++ " inputs come with no previous output, so the amount being spent - "
        ++ "and therefore the fee - cannot be verified. Ask the wallet that "
        ++ "created this PSBT to include witness_utxo or non_witness_utxo for "
        ++ "every input, then try again."]

def exceedCheck (s : TxSummary) : List Check :=
  checkIf (s.totalInSat < s.totalOutSat ∧ missingAmounts s = 0)
    [.block "outputs exceed inputs" <|
      "The outputs spend more than the inputs provide. This "
        ++ "transaction is invalid."]

def derivationCheck (s : TxSummary) : List Check :=
  if !s.inputs.isEmpty ∧ s.inputsWithDerivation = 0 then
    [.block "the PSBT carries no BIP32 derivation paths" <|
      "No input says which key should sign it: this PSBT has no BIP32 "
        ++ "derivation fields at all. That is not a wrong-wallet problem - no "
        ++ "signer could sign this file. Ask the wallet that created it to "
        ++ "include the master fingerprint and derivation path for every "
        ++ "input, then bring it back."]
  else if !s.inputs.isEmpty ∧ s.inputsWithDerivation < s.inputs.length then
    [.add .warning <|
      toString (s.inputs.length - s.inputsWithDerivation) ++ " of "
        ++ toString s.inputs.length ++ " input(s) carry no "
        ++ "BIP32 derivation path, so no key can be matched to them. They will be "
        ++ "left unsigned and another signer will have to complete them."]
  else []

/-- The fee as a percentage of the total input, in doubles as the source computes it. -/
def feePercent (s : TxSummary) : Float :=
  100.0 * s.feeSat.toFloat / s.totalInSat.toFloat

def feeShareCheck (s : TxSummary) : List Check :=
  let pct := feePercent s
  if 25.0 ≤ pct then
    [.add .danger <|
      "The fee is " ++ formatOneDecimal pct ++ "% of the total input value ("
        ++ formatSat s.feeSat ++ " sat). That is "
        ++ "extremely high - confirm it is intentional before signing."]
  else if 5.0 ≤ pct then
    [.add .warning <| "The fee is " ++ formatOneDecimal pct ++ "% of the total input value."]
  else []

def feeRateCheck (s : TxSummary) : List Check :=
  if 1000.0 < s.feeRate then
    [.add .danger <|
      "The fee rate is above 1000 sat/vB. Fee rates that high are "
        ++ "almost always a mistake or an attack."]
  else if 100.0 < s.feeRate then [.add .warning "The fee rate is above 100 sat/vB."]
  else if 0.0 < s.feeRate ∧ s.feeRate < 1.0 then
    [.add .warning "The fee rate is below 1 sat/vB; this may never confirm."]
  else []

def feeCheck (s : TxSummary) : List Check :=
  if s.feeKnown then
    checkIf (s.feeSat = 0) [.add .warning <|
      "The fee is zero. This transaction will not be relayed or mined "
        ++ "unless it is part of a package/CPFP arrangement."]
      ++ (if 0 < s.totalInSat then feeShareCheck s else [])
      ++ feeRateCheck s
  else []

/-- The sighash finding of the input at index `i`. -/
def sighashCheck (i : ℕ) (sighash : UInt32) : List Check :=
  if sighash = 0 ∨ sighash = 0x01 then []
  else
    -- ANYONECANPAY is a flag on top of the base mode in the low five bits
    let anyoneCanPay := sighash &&& 0x80 ≠ 0
    let base := sighash &&& 0x1f
    let severity : Severity := if anyoneCanPay ∨ base ≠ 0x01 then .danger else .warning
    [.add severity <|
      "Input " ++ toString (i + 1) ++ " requests sighash " ++ hexByte sighash.toUInt8
        ++ (if base = 0x02 then " (NONE: the signature commits to no outputs at all)"
            else if base = 0x03 then " (SINGLE: the signature commits to only one output)"
            else "")
        ++ (if anyoneCanPay then " with ANYONECANPAY (other inputs can be added afterwards)"
            else "")
        ++ ". Do not sign this unless you know exactly why it is needed."]

def sighashChecks (s : TxSummary) : List Check :=
  (s.inputs.mapIdx fun i info => sighashCheck i info.sighash).flatten

/-- A finding about how many inputs have a property, when there are any. -/
def countCheck (s : TxSummary) (p : InputInfo → Bool) (severity : Severity) (text : String) :
    List Check :=
  let n := s.inputs.countP p
  checkIf (0 < n) [.add severity (toString n ++ text)]

def withSigsCheck (s : TxSummary) : List Check :=
  countCheck s (fun i => decide (0 < i.existingSignatures)) .info
    " input(s) already carry a signature from another signer."

def nonStandardCheck (s : TxSummary) : List Check :=
  countCheck s (fun i => i.scriptType == "non-standard" || i.scriptType == "unknown") .warning
    (" input(s) spend a script SignerOS cannot decode into an address. "
      ++ "The fee estimate for them is approximate.")

def taprootCheck (s : TxSummary) : List Check :=
  countCheck s (fun i => i.scriptType == "p2tr") .info
    " taproot input(s): the size estimate assumes key-path spends."

def locktimeCheck (s : TxSummary) : List Check :=
  checkIf (s.locktime ≠ 0)
    [.add .info <| "This transaction has locktime " ++ toString s.locktime.toNat ++ "."]

def rbfCheck (s : TxSummary) : List Check :=
  countCheck s (fun i => decide (i.sequence < 0xfffffffe)) .info
    " input(s) signal replaceability (RBF) or a relative timelock."

/-- The part of `deriveFindings` before `if (masterKey().valid())`. -/
def keylessChecks (looseParse : Bool) (s : TxSummary) : List Check :=
  looseParseCheck looseParse ++ noInputsCheck s ++ noOutputsCheck s ++ finalisedCheck s
    ++ missingCheck s ++ exceedCheck s ++ derivationCheck s ++ feeCheck s ++ sighashChecks s
    ++ withSigsCheck s ++ nonStandardCheck s ++ taprootCheck s ++ locktimeCheck s ++ rbfCheck s

/-! ## The checks made once a key is resident -/

def signableCheck (fingerprint : String) (s : TxSummary) : List Check :=
  if s.signableInputs = 0 then
    [.add .danger <|
      "None of the inputs can be signed with the key you entered. The "
        ++ "derivation paths in this PSBT belong to a master key other than "
        ++ fingerprint ++ ": a different wallet, a different "
        ++ "passphrase, or the wrong network."]
  else if s.signableInputs < s.inputs.length then
    [.add .info <|
      "You can sign " ++ toString s.signableInputs ++ " of " ++ toString s.inputs.length
        ++ " inputs; the rest belong to other signers."]
  else []

/-- The ownership finding of the output at index `i`. -/
def ownershipCheck (i : ℕ) (out : OutputInfo) : List Check :=
  match out.ownership with
  | .mismatch =>
    [.block "an output claims to be your change but is not" <|
      "Output " ++ toString (i + 1) ++ " (" ++ out.address
        ++ ") carries a derivation path for THIS wallet ("
        ++ out.claimedFingerprint ++ " " ++ out.derivation ++ "), but the key "
        ++ "that path produces does not control that address. The file is "
        ++ "describing money as change that would not come back to you. "
        ++ "Signing is blocked."]
  | .unverifiable =>
    [.add .warning <|
      "Output " ++ toString (i + 1) ++ " (" ++ out.address
        ++ ") claims to be your change, but this PSBT does not include what "
        ++ "is needed to prove it (the script behind a multisig or taproot "
        ++ "output). Treat it as a payment out unless you know otherwise."]
  | _ => []

def ownershipChecks (s : TxSummary) : List Check := (s.outputs.mapIdx ownershipCheck).flatten

def noChangeCheck (s : TxSummary) : List Check :=
  checkIf (s.outputs.countP (fun o => o.ownership == .verified) = 0 ∧ 1 < s.outputs.length)
    [.add .warning <|
      "None of the outputs is verifiably your own change. If you expected "
        ++ "change to come back to this wallet, stop and check the destination "
        ++ "addresses."]

/-- One iteration of the loop that collects the accounts, over an input's `canSign` and
`derivation`. -/
def addAccount (accounts : List String) (canSign : Bool) (derivation : String) : List String :=
  if !canSign || derivation.isEmpty then accounts
  else
    let acct := pathAccountPrefix derivation
    if acct.isEmpty || accounts.contains acct then accounts else accounts ++ [acct]

/-- The accounts the signable inputs are spent from, each once, in the order they come. -/
def inputAccounts (s : TxSummary) : List String :=
  s.inputs.foldl (fun accounts info => addAccount accounts info.canSign info.derivation) []

/-- The branch and account findings of the output at index `i`. -/
def driftCheck (accounts : List String) (i : ℕ) (out : OutputInfo) : List Check :=
  if out.ownership ≠ .verified ∨ out.derivation.isEmpty then []
  else
    let chain := pathChainElement out.derivation
    let acct := pathAccountPrefix out.derivation
    checkIf (!chain.isEmpty ∧ chain ≠ "0" ∧ chain ≠ "1")
      [.add .warning <|
        "Output " ++ toString (i + 1) ++ " is your key, but on branch " ++ chain ++ " of "
          ++ out.derivation ++ " rather than the usual receive (0) "
          ++ "or change (1) branch."]
    ++ checkIf (!acct.isEmpty ∧ !accounts.isEmpty ∧ !accounts.contains acct)
      [.add .warning <|
        "Output " ++ toString (i + 1) ++ " returns " ++ formatBtc out.amountSat
          ++ " BTC to account " ++ acct ++ " of this seed, while the coins are being spent from "
          ++ accounts.headD "" ++ ". It is still your money, but it will "
          ++ "not appear in the wallet you spent from."]

def driftChecks (s : TxSummary) : List Check :=
  (s.outputs.mapIdx (driftCheck (inputAccounts s))).flatten

/-- The part of `deriveFindings` under `if (masterKey().valid())`. -/
def keyedChecks (fingerprint : String) (s : TxSummary) : List Check :=
  signableCheck fingerprint s ++ ownershipChecks s ++ noChangeCheck s ++ driftChecks s

/-! ## `deriveFindings` and `resummarise` -/

/-- All the calls `deriveFindings` makes. -/
def checks (w : Wally) (slot : KeySlot) (looseParse : Bool) (s : TxSummary) : List Check :=
  keylessChecks looseParse s
    ++ (if slot.valid then keyedChecks (masterFingerprint w slot) s else [])

/-- `PsbtEngine::deriveFindings`. -/
def deriveFindings (w : Wally) (slot : KeySlot) (looseParse : Bool) (s : TxSummary) :
    TxSummary :=
  (checks w slot looseParse s).foldl Check.apply { s with safeToSign := true, blockReason := "" }

/-- `PsbtEngine::resummarise` of a loaded PSBT. -/
def summarise (w : Wally) (network : Network) (looseParse : Bool) (slot : KeySlot)
    (psbt : Psbt) : TxSummary :=
  match w.psbtExtract psbt .nonFinal with
  | none => incompleteSummary w psbt
  | some tx =>
    deriveFindings w slot looseParse
      (evaluateSignability w slot psbt tx (describe w network psbt tx))

end SignerOS
