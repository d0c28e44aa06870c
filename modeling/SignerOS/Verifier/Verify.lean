import SignerOS.Verifier.EcdsaTheorems
import SignerOS.Verifier.Sighash
import SignerOS.Verifier.Signature

/-!
# The verdict of the verifier

`verify` of `make_test_data.py`: what the signer wrote is read back, its transaction is compared
with the one that was generated, and every input has to carry a signature that is accepted. What it
uses of Python's library is a parameter; what it prints comes with the exit code.
-/

namespace SignerOS

namespace Verifier

/-- What is used of Python's library. -/
structure Python where
  sha256 : Sha256
  hmacSha256 : Bytes → Bytes → Bytes
  hmacSha512 : HmacSha512
  /-- The password, the salt and the number of turns. -/
  pbkdf2HmacSha512 : Bytes → Bytes → ℕ → Bytes
  int : List Char → Except Raised ℤ
  b64decode : String → Except Raised Bytes
  fromhex : String → Except Thrown Bytes
  /-- The text of an exception. -/
  str : Thrown → String

/-- What is raised on the way to a signature, among the errors of the functions on keys. -/
def Rejected.thrown : Rejected → Thrown
  | .valueError message => .valueError message
  | .indexError => .indexError
  | .overflowError => .overflowError

/-- An entry of `expected["inputs"]`. -/
structure ExpectedInput where
  path : String
  pubkey : String
  value : ℤ
  address : String
deriving DecidableEq, Repr

/-- What is read of `expected.json`. -/
structure Expected where
  network : String
  mnemonic : String
  txidUnsigned : String
  inputs : List ExpectedInput
deriving DecidableEq, Repr

def testMnemonic : String :=
  "abandon abandon abandon abandon abandon abandon abandon abandon abandon abandon abandon about"

def psbtInPartialSig : UInt8 := 0x02

/-- `sorted(..)` of the names that begin with `signed_` and end with `.psbt`. -/
def candidates (listdir : List String) : List String :=
  (listdir.filter fun f =>
    "signed_".toList.isPrefixOf f.toList && ".psbt".toList.isSuffixOf f.toList).mergeSort
      fun a b => decide (a ≤ b)

/-- `os.path.join`, for a name that has no slash. -/
def joinPath (dir name : String) : String :=
  if dir.toList.getLast?.all (· == '/') then dir ++ name else dir ++ "/" ++ name

/-- `os.path.basename`. -/
def baseName (path : String) : String := String.ofList ((path.toList.splitOn '/').getLastD [])

/-- `script_code`. -/
def p2pkhScript (hash : Bytes) : Bytes := [0x76, 0xa9, 0x14] ++ hash ++ [0x88, 0xac]

/-- `sig[-1]`. -/
def lastByte (sig : Bytes) : Except Thrown UInt8 :=
  match sig.getLast? with
  | some b => .ok b
  | none => .error .indexError

/-- What is printed for a signature that is accepted. -/
def validLine (idx : ℕ) (expIn : ExpectedInput) (ours sig64 : Bytes) : String :=
  let note := if ours = sig64 then "identical" else "different (non-deterministic k?)"
  "VERIFY: input " ++ toString idx ++ " signature VALID for " ++ expIn.address ++ " (path " ++
    expIn.path ++ "), RFC6979 " ++ note

/-- What is printed once the transaction has been compared. -/
def txidLine (txid : String) : String := "VERIFY: txid=" ++ txid ++ " matches the unsigned fixture"

/-- What is printed at the end, if no input has failed. -/
def passLine (checked inputs : ℕ) : String :=
  "VERIFY: PASS " ++ toString checked ++ "/" ++ toString inputs ++
    " input signatures independently verified"

/-- What is said of all inputs, behind what has been printed. -/
def verdict (out : List String) (inputs : ℕ) (results : List (Bool × String)) : List String × ℕ :=
  let failures := results.countP fun r => !r.1
  let checked := results.countP fun r => r.1
  if failures ≠ 0 then
    (out ++ ["VERIFY: FAIL " ++ toString failures ++ " of " ++ toString inputs ++
      " inputs failed"], 1)
  else
    (out ++ [passLine checked inputs], 0)

section
variable (py : Python) (turns : ℕ)

def bip39Seed (mnemonic : String) (passphrase : String := "") : Bytes :=
  py.pbkdf2HmacSha512 mnemonic.toUTF8.toList ("mnemonic" ++ passphrase).toUTF8.toList 2048

/-- The key of the mnemonic, for the network of the fixture. -/
def Expected.master (expected : Expected) : HDKey :=
  HDKey.fromSeed py.hmacSha512 (bip39Seed py expected.mnemonic)
    (if expected.network = "mainnet" then "mainnet" else "testnet")

/-- What is done with the numbers of a signature. -/
def checkSig64 (expected : Expected) (tx : Tx) (idx : ℕ) (expIn : ExpectedInput)
    (wantPub sig64 : Bytes) : Except Thrown (Bool × String) := do
  let scriptCode := p2pkhScript (hash160 py.sha256 wantPub)
  let digest ← tx.bip143Sighash py.sha256 idx scriptCode expIn.value 0x01
  if ¬ (← ecdsaVerify wantPub digest sig64) then
    return (false, "VERIFY: FAIL input " ++ toString idx ++ " signature does not verify against " ++
      "the BIP143 sighash we computed independently")
  else
    let privKey ← (expected.master py).derivePath py.hmacSha512 py.sha256 py.int expIn.path
    let ours ← ecdsaSign py.hmacSha256 turns privKey.priv digest
    return (true, validLine idx expIn ours sig64)

/-- What is done with a signature that is there. -/
def checkSig (expected : Expected) (tx : Tx) (idx : ℕ) (expIn : ExpectedInput)
    (wantPub sig : Bytes) : Except Thrown (Bool × String) := do
  let sighashByte ← lastByte sig
  if sighashByte ≠ 0x01 then
    return (false, "VERIFY: FAIL input " ++ toString idx ++ " signature has sighash 0x" ++
      hexOf [sighashByte] ++ ", expected SIGHASH_ALL")
  else
    match derToSig64 sig.dropLast with
    | .error exc =>
      return (false, "VERIFY: FAIL input " ++ toString idx ++ " signature is not valid DER: " ++
        py.str exc.thrown)
    | .ok sig64 => checkSig64 py turns expected tx idx expIn wantPub sig64

/-- One turn of the loop over the inputs: whether the signature is accepted, and what is printed. -/
def checkInput (expected : Expected) (tx : Tx) (idx : ℕ) (inMap : Dict) (expIn : ExpectedInput) :
    Except Thrown (Bool × String) := do
  let wantPub ← py.fromhex expIn.pubkey
  -- no key of a map is empty
  match inMap.find? fun e => e.1.head? == some psbtInPartialSig && e.1.tail == wantPub with
  | none =>
    return (false, "VERIFY: FAIL input " ++ toString idx ++ " carries no signature for pubkey " ++
      expIn.pubkey)
  | some (_, sig) => checkSig py turns expected tx idx expIn wantPub sig

/-- What is left of `verify` once the file has been parsed. -/
def verifyParsed (expected : Expected) (ins : List Dict) (unsigned : Bytes) :
    Except Thrown (List String × ℕ) := do
  let tx ← (parseTx unsigned).mapError Raised.thrown
  let txid ← (tx.txid py.sha256).mapError Raised.thrown
  if txid ≠ expected.txidUnsigned then
    return (["VERIFY: FAIL the signed PSBT describes a different transaction (" ++ txid ++
      ", expected " ++ expected.txidUnsigned ++ ")"], 1)
  else
    let out := [txidLine txid]
    if ins.length ≠ expected.inputs.length then
      return (out ++ ["VERIFY: FAIL expected " ++ toString expected.inputs.length ++
        " inputs, found " ++ toString ins.length], 1)
    else
      let results ← (ins.zip expected.inputs).zipIdx.mapM fun e =>
        checkInput py turns expected tx e.2 e.1.1 e.1.2
      return verdict (out ++ results.map Prod.snd) ins.length results

/-- What is printed, and the exit code; `read` has the files. -/
def verify (expected : Expected) (outDir : String) (listdir : List String)
    (read : String → Bytes) (signedPath : Option String) : Except Thrown (List String × ℕ) :=
  match signedPath.or ((candidates listdir).getLast?.map (joinPath outDir)) with
  | none => return (["VERIFY: FAIL no signed_*.psbt in " ++ outDir], 1)
  | some path =>
    let out := ["VERIFY: file=" ++ baseName path]
    match parsePsbt py.b64decode (read path) with
    | .error exc =>
      return (out ++ ["VERIFY: FAIL cannot parse the signed PSBT: " ++ py.str exc.thrown], 1)
    | .ok (_, ins, _, unsigned) => do
      let (printed, code) ← verifyParsed py turns expected ins unsigned
      return (out ++ printed, code)

end

end Verifier

end SignerOS
