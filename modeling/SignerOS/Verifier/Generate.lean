import SignerOS.Verifier.Addresses

/-!
# The fixture

`generate` of `make_test_data.py`, which writes an unsigned PSBT, a second one whose change is
forged, and what the signer and `verify` are to find; and `generate_to_temp`, the part of the
self-check that reads the first one back.
-/

namespace SignerOS

namespace Verifier

/-! ## What is written -/

/-- An entry of `expected["outputs"]`. -/
structure ExpectedOutput where
  value : ℤ
  address : String
  mine : Bool
  path : Option String := none
deriving DecidableEq, Repr

/-- `expected.json`. -/
structure Fixture extends Expected where
  masterFingerprint : String
  outputs : List ExpectedOutput
  totalIn : ℤ
  totalOut : ℤ
  fee : ℤ
  psbtFile : String
  mnemonicFile : String
  forgedChangeFile : String
  forgedChangeAddress : String
  unsignedPsbtHex : String
deriving DecidableEq, Repr

/-- The files of the fixture. -/
structure Generated where
  psbt : Bytes
  attackPsbt : Bytes
  mnemonic : String
  expected : Fixture
deriving DecidableEq, Repr

/-! ## The keys -/

def inPaths (coin : ℤ) : List String :=
  ["m/84'/" ++ toString coin ++ "'/0'/0/0", "m/84'/" ++ toString coin ++ "'/0'/0/1"]

def changePath (coin : ℤ) : String := "m/84'/" ++ toString coin ++ "'/0'/1/0"

def inValues : List ℤ := [150000, 90000]

def sendValue : ℤ := 200000

def changeValue : ℤ := 38000

/-- The keys of `generate`, by their public ones. -/
structure FixtureKeys where
  coin : ℤ
  fp : Bytes
  inPubs : List Bytes
  changePub : Bytes
  destPub : Bytes
  thiefPub : Bytes
deriving DecidableEq, Repr

section
variable (py : Python)

def fixtureKeys (network : String) : Except Thrown FixtureKeys := do
  let coin ← coinType network
  let net := netKeys network
  let master := HDKey.fromSeed py.hmacSha512 (bip39Seed py testMnemonic) net
  let fp ← master.fingerprint py.sha256
  let pubOf (path : String) : Except Thrown Bytes := do
    (← master.derivePath py.hmacSha512 py.sha256 py.int path).pub
  let inPubs ← (inPaths coin).mapM pubOf
  let changePub ← pubOf (changePath coin)
  let ofText (text : String) := HDKey.fromSeed py.hmacSha512 text.toUTF8.toList net
  let destPub ← (ofText "signeros-destination-not-our-wallet").pub
  let thiefPub ← (ofText "signeros-change-forgery-attacker").pub
  return { coin, fp, inPubs, changePub, destPub, thiefPub }

/-! ## The transactions -/

def fakeTxid (i : ℕ) : Bytes :=
  dsha256 py.sha256 ("signeros-fixture-input-" ++ toString i).toUTF8.toList

/-- `tx` and `attack_tx`, which pay their change to one key or another. -/
def fixtureTx (k : FixtureKeys) (changePub : Bytes) : Tx where
  version := 2
  locktime := 0
  vin := (List.range k.inPubs.length).map fun i =>
    { txidLe := fakeTxid py i, vout := i, sequence := 0xFFFFFFFD }
  vout := [⟨sendValue, p2wpkhScript py.sha256 k.destPub⟩,
    ⟨changeValue, p2wpkhScript py.sha256 changePub⟩]

def inputsMeta (k : FixtureKeys) : List InputMeta :=
  (k.inPubs.zip (inValues.zip (inPaths k.coin))).map fun (pubkey, value, path) =>
    { pubkey, fingerprint := k.fp, path
      witnessUtxo := ⟨value, p2wpkhScript py.sha256 pubkey⟩ }

def outputsMeta (k : FixtureKeys) : List OutputMeta :=
  [none, some { pubkey := k.changePub, fingerprint := k.fp, path := changePath k.coin }]

/-- One entry of `expected["inputs"]`. -/
def expectedInput (network : String) (e : String × Bytes × ℤ) : Except Thrown ExpectedInput := do
  let (path, pubkey, value) := e
  return { path, pubkey := hexOf pubkey, value, address := ← p2wpkhAddress py.sha256 pubkey network }

def generate (network : String) : Except Thrown Generated := do
  let k ← fixtureKeys py network
  let tx := fixtureTx py k k.changePub
  let psbt ← (buildPsbt py.int tx (inputsMeta py k) (outputsMeta k)).mapError Raised.thrown
  let attackTx := fixtureTx py k k.thiefPub
  let attackPsbt ←
    (buildPsbt py.int attackTx (inputsMeta py k) (outputsMeta k)).mapError Raised.thrown
  let txidUnsigned ← (tx.txid py.sha256).mapError Raised.thrown
  let inputs ← ((inPaths k.coin).zip (k.inPubs.zip inValues)).mapM (expectedInput py network)
  let expected : Fixture := {
    network, mnemonic := testMnemonic, masterFingerprint := hexOf k.fp, txidUnsigned, inputs
    outputs := [
      { value := sendValue, address := ← p2wpkhAddress py.sha256 k.destPub network, mine := false },
      { value := changeValue, address := ← p2wpkhAddress py.sha256 k.changePub network
        mine := true, path := some (changePath k.coin) }]
    totalIn := inValues.sum
    totalOut := sendValue + changeValue
    fee := inValues.sum - (sendValue + changeValue)
    psbtFile := "test_unsigned.psbt"
    mnemonicFile := "test_mnemonic.txt"
    forgedChangeFile := "forged_change.psbt.bad"
    forgedChangeAddress := ← p2wpkhAddress py.sha256 k.thiefPub network
    unsignedPsbtHex := hexOf psbt }
  return { psbt, attackPsbt, mnemonic := testMnemonic ++ "\n", expected }

/-! ## Reading it back -/

def parseTxout (raw : Bytes) : Except Raised TxOut := readFrom parseTxOut raw

/-- `assert`. -/
def assertThat (p : Prop) [Decidable p] (message : String) : Except Thrown Unit :=
  if p then .ok () else .error (.assertionError message)

/-- `in_map[key]`. -/
def Dict.get (m : Dict) (key : Bytes) : Except Thrown Bytes :=
  match m.lookup key with
  | some value => .ok value
  | none => .error .keyError

/-- One turn of the loop of `generate_to_temp`. -/
def checkInMap (inMap : Dict) (expIn : ExpectedInput) : Except Thrown Unit := do
  let utxo ← (parseTxout (← inMap.get [psbtInWitnessUtxo])).mapError Raised.thrown
  assertThat (utxo.value = expIn.value) "witness utxo value mismatch"
  let wanted := psbtInBip32Derivation :: (← py.fromhex expIn.pubkey)
  assertThat ((inMap.lookup wanted).isSome = true) "missing bip32 derivation"

/-- What `generate_to_temp` does with the fixture. -/
def checkGenerated (g : Generated) : Except Thrown Bool := do
  let (_, ins, outs, unsigned) ← (parsePsbt py.b64decode g.psbt).mapError Raised.thrown
  let tx ← (parseTx unsigned).mapError Raised.thrown
  let txid ← (tx.txid py.sha256).mapError Raised.thrown
  assertThat (txid = g.expected.txidUnsigned) "txid mismatch"
  assertThat (ins.length = g.expected.inputs.length) "input count mismatch"
  assertThat (outs.length = g.expected.outputs.length) "output count mismatch"
  let _ ← (ins.zip g.expected.inputs).mapM fun e => checkInMap py e.1 e.2
  return true

def generateToTemp : Except Thrown Bool := do checkGenerated py (← generate py "testnet")

end

end Verifier

end SignerOS
