import SignerOS.Ownership

/-!
# The size estimate

`PsbtEngine::estimateVsize`: the virtual size the transaction will have once its inputs are
signed, estimated per input from the script it spends. It feeds the displayed fee rate.
-/

namespace SignerOS

/-- A 71-byte low-R signature and its sighash byte. -/
def kDerSigLen : ℕ := 72
def kCompressedPubkeyLen : ℕ := 33

def pushOverhead (dataLen : ℕ) : ℕ :=
  if dataLen < 76 then 1 else if dataLen < 256 then 2 else 3

def varintLen (v : ℕ) : ℕ :=
  if v < 0xfd then 1 else if v ≤ 0xffff then 3 else if v ≤ 0xffffffff then 5 else 9

/-- `multisigM`: the `m` of an m-of-n script that starts with `OP_m`. -/
def multisigM (script : Bytes) : ℕ :=
  match script with
  | [] => 0
  | op :: _ => if 0x51 ≤ op ∧ op ≤ 0x60 then op.toNat - 0x50 else 0

/-- The witness of a multisig spend: the item count, the empty item `CHECKMULTISIG` pops,
the signatures and the script itself. -/
def multisigWitness (script : Bytes) : ℕ :=
  let m := multisigM script
  let sigs := if 0 < m then m else 1
  varintLen (sigs + 2) + 1 + sigs * (1 + kDerSigLen) + pushOverhead script.length + script.length

/-- What one input adds to the transaction when it is signed. -/
structure InputCost where
  extraScriptSig : ℕ := 0
  witnessBytes : ℕ := 0
  segwit : Bool := false

/-- The scriptPubKey an input spends, as `estimateVsize` finds it; empty when the PSBT does
not carry it. -/
def spentScript (txin : Option TxInput) (inp : PsbtInput) : Bytes :=
  match inp.witnessUtxo with
  | some utxo => utxo.script
  | none =>
    match inp.utxo, txin with
    | some prev, some ti => ((prev.outputs[ti.index.toNat]?).map TxOutput.script).getD []
    | _, _ => []

/-- The witness of a key spend: the item count, a signature and a public key. -/
def keyWitness : ℕ := 1 + (1 + kDerSigLen) + (1 + kCompressedPubkeyLen)

/-- The witness assumed for a script hash whose script is not known. -/
def unknownScriptWitness : ℕ := 1 + 1 + (1 + kDerSigLen) + 1 + 34

/-- The `switch` of `estimateVsize` over the type of the script being spent. -/
def inputCost (type : ScriptType) (signingScript scriptCode : Bytes) : InputCost :=
  let scriptWitness :=
    if scriptCode.isEmpty then unknownScriptWitness else multisigWitness scriptCode
  match type with
  | .p2wpkh => { witnessBytes := keyWitness, segwit := true }
  | .p2tr => { witnessBytes := 1 + 1 + 65, segwit := true }
  | .p2wsh => { witnessBytes := scriptWitness, segwit := true }
  | .p2sh =>
    if isWitnessV0Pkh signingScript then
      { extraScriptSig := 1 + signingScript.length, witnessBytes := keyWitness, segwit := true }
    else if isWitnessV0Sh signingScript then
      { extraScriptSig := 1 + signingScript.length, witnessBytes := scriptWitness, segwit := true }
    else
      let m := multisigM signingScript
      let sigs := if 0 < m then m else 1
      { extraScriptSig := 1 + sigs * (1 + kDerSigLen) + pushOverhead signingScript.length
          + signingScript.length }
  | .p2pkh => { extraScriptSig := (1 + kDerSigLen) + (1 + kCompressedPubkeyLen) }
  -- an unknown script is assumed to be a single-signature segwit input
  | .unknown | .opReturn | .multisig => { witnessBytes := keyWitness, segwit := true }

/-- `PsbtEngine::estimateVsize`. -/
def estimateVsize (w : Wally) (psbt : Psbt) (unsignedTx : Tx) : ℕ :=
  match w.txGetVsize unsignedTx with
  | none | some 0 => 0
  | some baseSize =>
    let costs := psbt.inputs.mapIdx fun i inp =>
      let spk := spentScript unsignedTx.inputs[i]? inp
      let signingScript := (w.psbtGetInputSigningScript psbt i).getD []
      let scriptCode :=
        if signingScript.isEmpty then []
        else (w.psbtGetInputScriptcode psbt i signingScript).getD []
      let type := if spk.isEmpty then .unknown else w.scriptpubkeyGetType spk
      inputCost type signingScript scriptCode
    let extraScriptSig := (costs.map InputCost.extraScriptSig).sum
    let witnessBytes := (costs.map InputCost.witnessBytes).sum
    let anySegwit := costs.any InputCost.segwit
    let weight := baseSize * 4 + extraScriptSig * 4 + (if anySegwit then 2 + witnessBytes else 0)
    (weight + 3) / 4

end SignerOS
