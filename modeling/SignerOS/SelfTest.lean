import SignerOS.Entropy
import SignerOS.FileList
import SignerOS.Lib.Fallible
import SignerOS.Ui.Secrets
import SignerOS.UnknownSlots
import SignerOS.Writers

/-!
# The self-test

`runSelfTest`: the kiosk's program without its screens. It inspects a PSBT, makes a wallet export,
requires that a forged change output is refused, signs, writes the result, reads it back, and
prints what it finds. The build and the test in the virtual machine rest on its status.

It may end at every step, with a reason (`Failure`). What the machine answers is a parameter
(`Outside`); files are created on the disk of the model, and read as the machine gives them.
-/

namespace SignerOS.SelfTest

open Files (Disk)
open Fallible (require ofExcept mapError leaving)

/-- `SelfTestOptions`. -/
structure SelfTestOptions where
  dataDir : String := "/mnt/data"
  psbtPath : String := ""
  mnemonicFile : String := ""
  blockedPsbtPath : String := ""
  network : String := "mainnet"
  writeFinalTx : Bool := false
  keepOutput : Bool := true
deriving DecidableEq, Repr

/-- What the machine answers during a self-test. -/
structure Outside where
  /-- `wally_init` succeeds. -/
  wallyInit : Bool
  /-- How many bytes `/dev/urandom` gives for the 32 it is asked for, unless it cannot be opened. -/
  urandom : Option ℕ
  buildVersion : Option UInt32
  allPagesLocked : Bool
  /-- The `errno` of `socket(AF_INET, SOCK_STREAM, 0)`, unless there is a socket. -/
  socketErrno : Option ℕ
  procNet : Bool
  entries : Option (List DirEntry)
  psbtFile : FileNode
  blockedFile : FileNode
  /-- The result, as it is read back. -/
  readBack : FileNode
  /-- The `read` of the mnemonic file, unless it cannot be opened. -/
  mnemonicFile : Option ReadAnswer
  /-- The successive answers of `kernelEntropyReady`. -/
  kernelReady : ℕ → Bool
  /-- The sources, at each call of `finalise`. -/
  sources : ℕ → EntropySources
  write : PsbtEngine.WriteEnv

/-- What a self-test reads and leaves: its output, the key slot and the disk. -/
structure Machine where
  lines : List String
  slot : KeySlot
  files : Disk Char

def Machine.emit (m : Machine) (line : String) : Machine :=
  { m with lines := m.lines ++ ["SELFTEST: " ++ line] }

/-- A part of the self-test, which may end it. -/
abbrev Part (ε α : Type) := Fallible Machine ε α

section
variable {ε : Type}

def emit (line : String) : Part ε Unit := Fallible.modify fun m => m.emit line

def yesNo (b : Bool) : String := if b then "yes" else "no"

/-! ## Reasons -/

/-- Why `runWalletChecks` fails. -/
inductive WalletFailure
  | build (err : String)
  | emptyKeyOrAddress (standard : String)
  | emptyKey (standard : String)
  | keyOrigin (standard : String)
  | noCosigners
  | keyResident
  | marker (found : String)
  | word
deriving DecidableEq, Repr

def WalletFailure.text : WalletFailure → String
  | .build err => err
  | .emptyKeyOrAddress standard => standard ++ " produced an empty xpub or address"
  | .emptyKey standard => standard ++ " produced an empty xpub"
  | .keyOrigin standard =>
    standard ++ " has a key origin that does not match its own fingerprint, path and key"
  | .noCosigners => "the export carries no multisig cosigner keys"
  | .keyResident => "a master private key was still resident after the export"
  | .marker found => "the export text contains '" ++ found ++ "'"
  | .word => "the export text contains a word of the mnemonic"

/-- Why the self-test fails. -/
inductive Failure
  | library
  | unknownNetwork (network : String)
  | noCandidate (dir : String)
  | load (err : String)
  | feeUnknown
  | refused (reason : String)
  | noMnemonicFile
  | mnemonicFile (err : String)
  | grid (err : String)
  | fileNames (err : String)
  | entropy (err : String)
  | wallet (why : WalletFailure)
  | walletOfAccountOne (why : WalletFailure)
  | blockedFile (err : String)
  | blockedKey (err : String)
  | mismatchMissed
  | forgeryNotBlocked
  | forgerySigned
  | key (err : String)
  | nothingSignable
  | changeMismatch (output : ℕ)
  | refusedWithKey (reason : String)
  | sign (err : String)
  | noSignature
  | txidChanged (before after : String)
  | write (err : String)
  | outputMissing
  | readBack (err : String)
  | readBackSignatures
  | readBackTxid
deriving DecidableEq, Repr

def Failure.text : Failure → String
  | .library => "libwally-core failed to initialise"
  | .unknownNetwork network => "unknown network '" ++ network ++ "'"
  | .noCandidate dir => "no unsigned *.psbt file found in " ++ dir
  | .load err => "load: " ++ err
  | .feeUnknown => "the fee could not be determined from this PSBT"
  | .refused reason => "safety gate refused the PSBT: " ++ reason
  | .noMnemonicFile => "no --mnemonic-file given, so there is nothing to sign with"
  | .mnemonicFile err => "mnemonic file: " ++ err
  | .grid err => "mnemonic grid: " ++ err
  | .fileNames err => "file names: " ++ err
  | .entropy err => "entropy: " ++ err
  | .wallet why => "wallet export: " ++ why.text
  | .walletOfAccountOne why => "wallet export (account 1): " ++ why.text
  | .blockedFile err => "change-attack fixture: " ++ err
  | .blockedKey err => "change-attack fixture key: " ++ err
  | .mismatchMissed => "a forged change output was NOT identified as a mismatch"
  | .forgeryNotBlocked => "a forged change output did not block signing"
  | .forgerySigned => "the engine signed a PSBT with a forged change output"
  | .key err => "key: " ++ err
  | .nothingSignable => "this key can sign none of the inputs"
  | .changeMismatch output =>
    "output " ++ toString output ++ " claims to be our change but is not"
  | .refusedWithKey reason => "safety gate refused the PSBT once the key was known: " ++ reason
  | .sign err => "sign: " ++ err
  | .noSignature => "signing reported success but added no signatures"
  | .txidChanged before after =>
    "the txid changed while signing (before=" ++ before ++ " after=" ++ after ++ ")"
  | .write err => "write: " ++ err
  | .outputMissing => "the output file is missing or empty after writing"
  | .readBack err => "the file we wrote does not parse: " ++ err
  | .readBackSignatures => "the file we wrote contains fewer signatures than we added"
  | .readBackTxid => "the file we wrote describes a different transaction"

/-! ## The process -/

/-- `networkFromString`. -/
def networkFromString (s : String) : Option Network :=
  if s = "mainnet" ∨ s = "bitcoin" ∨ s = "main" then some .mainnet
  else if s = "testnet" ∨ s = "test" ∨ s = "testnet3" ∨ s = "testnet4" then some .testnet
  else if s = "signet" then some .signet
  else if s = "regtest" then some .regtest
  else none

/-- `PsbtEngine::initLibrary`: the warning, unless it fails. -/
def initLibrary (o : Outside) : Option String :=
  if o.wallyInit then
    match o.urandom with
    | none =>
      some ("warning: /dev/urandom is unavailable; secp256k1 context is "
        ++ "unblinded (signing is still deterministic per RFC6979)")
    | some got =>
      if got = 32 then some ""
      else
        some ("warning: could not read 32 bytes from /dev/urandom; "
          ++ "secp256k1 context is unblinded (signing is still deterministic per RFC6979)")
  else none

/-- `PsbtEngine::libraryVersion`. -/
def libraryVersion : Option UInt32 → String
  | none => "unknown"
  | some v =>
    let part (shift : UInt32) := toString (v >>> shift &&& 0xff).toNat
    snprintf 32 (part 16 ++ "." ++ part 8 ++ "." ++ part 0)

/-- `reportNetworkAbsence`. -/
def reportNetworkAbsence (o : Outside) : Part ε Unit := do
  match o.socketErrno with
  | none => emit "socket-af-inet=AVAILABLE (this system has a network stack)"
  | some errno =>
    emit ("socket-af-inet=unavailable errno=" ++ toString errno
      ++ if errno = 38 then " (ENOSYS: the syscall does not exist)" else "")
  emit ("proc-net=" ++ if o.procNet then "present" else "absent")

/-- `readMnemonicFile`. The text fits, for no more of the file is read than does. -/
def readMnemonicFile (path : String) : Option ReadAnswer → Except String SecureString
  | none => .error ("cannot open " ++ path)
  | some (.got []) | some .interrupted | some .failed => .error ("cannot read " ++ path)
  | some (.got bytes) =>
    let out := (SecureString.new.clear.appendChars (some (bytes.take (kCapacity - 1)))).2
    let out := out.normaliseWhitespace
    -- a file of blanks: nothing has been written to `*err`
    if out.empty then .error "" else .ok out

/-! ## File names and the grid -/

/-- `runFileNameChecks`. -/
def runFileNameChecks (files : Disk Char) : Part String Unit := do
  require (sanitiseFileName "mywallet" ".txt" == "mywallet.txt")
    "a plain name did not get the extension"
  require (sanitiseFileName "mywallet.txt" ".txt" == "mywallet.txt")
    "an extension already present was doubled"
  require (sanitiseFileName "cold storage 2026" ".psbt" == "cold storage 2026.psbt")
    "spaces inside a name were not kept"
  require (sanitiseFileName "../../etc/passwd" ".txt" == "passwd.txt")
    "a relative path was not reduced to its last component"
  require (sanitiseFileName "/etc/passwd" ".txt" == "passwd.txt")
    "an absolute path was not reduced to its last component"
  require (sanitiseFileName ".." ".txt" == "") "\"..\" did not reduce to nothing"
  require (sanitiseFileName ".hidden" ".txt" == "hidden.txt") "a leading dot was kept"
  require (sanitiseFileName "a*b?c|d" ".txt" == "abcd.txt") "wildcard characters survived"
  require (sanitiseFileName "tab\there" ".txt" == "tabhere.txt") "a control character survived"
  require (sanitiseFileName "  padded  " ".txt" == "padded.txt") "surrounding spaces survived"
  require (sanitiseFileName "///" ".txt" == "")
    "a name of nothing but slashes did not reduce to nothing"
  require (sanitiseFileName "" ".txt" == "") "an empty name did not stay empty"
  require (freeFileName files "/proc" "self" "" == "self-2")
    "freeFileName did not step past an existing name"
  require (freeFileName files "/proc" "definitely-not-here" "" == "definitely-not-here")
    "freeFileName renamed something that was free"

/-- `typeInto`. -/
def typeInto (s : SecureString) (cell : ℕ) (word : String) : SecureString :=
  word.toUTF8.toList.foldl (fun s c => (s.appendToSlot cell c).2) s

def wordlistOf (lib : Bip39) : Option (ℕ → Option Bytes) :=
  lib.wordlist.map fun words i => words[i]?.map Word.letters

/-- The words of the second grid of `runGridChecks`. -/
def kWords : List String := List.replicate 11 "abandon" ++ ["about"]

/-- `runGridChecks`. -/
def runGridChecks (w : Wally) (lib : Bip39) : Part String Unit := do
  let sized := SecureString.new.setSlotCount 12
  let s := sized.2
  require (sized.1 && s.slotCount == 12 && s.len == 11) "12 empty cells are not 11 separators"
  require (s.wordCount == 0 && s.firstEmptySlot == 0) "an empty grid does not report itself empty"
  let s := typeInto (typeInto s 0 "abandon") 11 "about"
  require (s.slotCount == 12 && s.firstEmptySlot == 1) "a gap between two filled cells collapsed"
  require (s.slotLength 11 == 5) "the last cell moved when an earlier one was empty"
  let s := typeInto s 5 "ability"
  require (s.slotLength 11 == 5 && s.slotLength 0 == 7)
    "filling a middle cell disturbed its neighbours"
  let s := s.clearSlot 5
  require (s.slotCount == 12 && s.slotLength 11 == 5) "clearing a middle cell removed it"
  let restored := s.setSlot 5 (some "ability".toUTF8.toList)
  let s := restored.2
  require (restored.1 && s.slotLength 5 == 7) "setSlot did not restore a cleared cell"
  let spaced := s.appendToSlot 3 SecureString.space
  require (!spaced.1) "a separator was accepted as a character"
  let spaced := spaced.2.setSlot 3 (some "a b".toUTF8.toList)
  require (!spaced.1) "a separator was accepted as a character"
  let s := spaced.2
  require (s.slotCount == 12) "a rejected edit changed the grid anyway"
  let shrunk := s.setSlotCount 6
  let s := shrunk.2
  require (shrunk.1 && s.slotCount == 6) "the grid did not shrink"
  require ((List.range 6).all fun i =>
      kCapacity ≤ s.len + i || SecureString.readByte s.buf (s.len + i) == 0)
    "shrinking left the dropped words behind the terminator"
  let s := (SecureString.new.setSlotCount 12).2
  let s := kWords.zipIdx.foldl (fun s word => typeInto s word.2 word.1) s
  require (s.wordCount == s.slotCount) "a full grid still reports an empty cell"
  ofExcept (PsbtEngine.bip39Validate w (cStr s.text))
  require (PsbtEngine.bip39UnknownSlots (wordlistOf lib) s (-1) == 0)
    "a valid mnemonic was reported as holding unknown words"
  emit "grid-complete-is-canonical=yes"
  let s := (SecureString.new.setSlotCount 4).2
  let s := typeInto (typeInto (typeInto s 0 "abandon") 1 "qqqq") 3 "aban"
  require (PsbtEngine.bip39UnknownSlots (wordlistOf lib) s (-1) == 0b1010)
    "bip39UnknownSlots did not name exactly the bad cells"
  require (PsbtEngine.bip39UnknownSlots (wordlistOf lib) s 3 == 0b0010)
    "the cell being typed was judged as finished"
  emit "grid-unknown-word-detection=yes"

/-! ## Entropy -/

/-- The loop that waits for the kernel's pool, from the question number `i` on: the number of the
next question. -/
def awaitPool (ready : ℕ → Bool) : (left i : ℕ) → ℕ
  | 0, i => i
  | left + 1, i => if ready i then i + 1 else awaitPool ready left (i + 1)

/-- Waiting for the pool, where nothing else can be counted. -/
def awaitKernelPool (o : Outside) : Part ε Unit :=
  if !o.kernelReady 1 && !(o.sources 0).cpuHasRdseed then do
    emit "entropy-waiting-for-kernel-pool=yes"
    emit ("entropy-kernel-pool-ready-after-wait="
      ++ yesNo (o.kernelReady (awaitPool o.kernelReady 100 2)))
  else pure ()

/-- A row of the table of policy cases. -/
structure PolicyCase where
  name : String
  kernelOk : Bool
  kernelReady : Bool
  rdseed : ℕ
  rdrand : ℕ
  allowed : Bool

def policyCases : List PolicyCase :=
  [⟨"seeded kernel alone", true, true, 0, 0, true⟩,
    ⟨"unseeded kernel + rdrand alone", true, false, 0, 32, false⟩,
    ⟨"unseeded kernel + rdseed", true, false, 32, 0, true⟩,
    ⟨"unreadable kernel + rdseed", false, false, 32, 0, true⟩,
    ⟨"seeded kernel + rdrand", true, true, 0, 32, true⟩,
    ⟨"jitter and the operator only", true, false, 0, 0, false⟩,
    ⟨"nothing at all", false, false, 0, 0, false⟩]

def PolicyCase.report (c : PolicyCase) : EntropyReport :=
  { kernelOk := c.kernelOk, kernelWasReady := c.kernelReady, rdseedWords := c.rdseed,
    rdrandWords := c.rdrand }

/-- The rows on which the policy and the sanity check answer wrongly, if one does. -/
def runPolicyChecks : Part String Unit := do
  policyCases.forM fun c => require (entropyPolicySatisfied c.report == c.allowed)
    ("the entropy policy answered wrongly for: " ++ c.name)
  emit ("entropy-policy-cases=" ++ toString policyCases.length ++ " ok")
  require (cpuWordsLookSane [0x0123456789abcdef, 2, 3, 4])
    "cpuWordsLookSane rejected a run of distinct words"
  require (!cpuWordsLookSane [0, 0, 0, 0]) "cpuWordsLookSane accepted all zeroes"
  require (!cpuWordsLookSane [~~~0, ~~~0, ~~~0, ~~~0]) "cpuWordsLookSane accepted all ones"
  require (!cpuWordsLookSane [7, 7, 7, 7]) "cpuWordsLookSane accepted a stuck register"
  require (!cpuWordsLookSane [1, 2, ~~~0, 4])
    "cpuWordsLookSane accepted a run containing all-ones"
  require (!cpuWordsLookSane [1, 2, 3, 1]) "cpuWordsLookSane accepted a repeated word"
  require (!cpuWordsLookSane [0x0123456789abcdef])
    "cpuWordsLookSane accepted a run it could not check"
  require (!cpuWordsLookSane []) "cpuWordsLookSane accepted an empty run"
  emit "entropy-cpu-sanity=ok"

/-- A call of `finalise` for so many bytes: the pool afterwards, the report and the bytes. -/
def draw (hmac : Digest → Bytes → Option Digest) (m : EntropySources) (pool : EntropyPool)
    (bytes : ℕ) : Part String (EntropyPool × EntropyReport × Bytes) :=
  let r := pool.finalise hmac m (some (List.replicate bytes 0)) bytes
  if r.ok then pure (r.pool, r.report.getD {}, r.out.getD []) else Fallible.fail (r.err.getD "")

/-- One turn of the loop that generates mnemonics. -/
def generateMnemonic (w : Wally) (lib : Bip39) (hmac : Digest → Bytes → Option Digest)
    (m : EntropySources) (pool : EntropyPool) (words : WordCount) : Part String EntropyPool := do
  let (pool, _, entropy) ← draw hmac m pool words.entropyBytes
  let (made, generated) := mnemonicFromEntropy w lib entropy .wiped
  ofExcept made
  require (generated.wordCount == words.toNat) "a generated mnemonic had the wrong word count"
  ofExcept (PsbtEngine.bip39Validate w (cStr generated.text))
  emit ("entropy-generated-mnemonic-words=" ++ toString words.toNat ++ " valid=yes")
  return pool

/-- `runEntropyChecks`. -/
def runEntropyChecks (w : Wally) (lib : Bip39) (sha512 : Bytes → Digest)
    (hmac : Digest → Bytes → Option Digest) (o : Outside) : Part String Unit := do
  let m := o.sources 0
  emit ("entropy-kernel-ready=" ++ yesNo (o.kernelReady 0)
    ++ " cpu-rdseed=" ++ yesNo m.cpuHasRdseed ++ " cpu-rdrand=" ++ yesNo m.cpuHasRdrand)
  awaitKernelPool o
  runPolicyChecks
  let (pool, report, a) ← draw hmac m (EntropyPool.reset sha512) 32
  emit ("entropy-sources=" ++ report.describe)
  let (pool, _, b) ← draw hmac (o.sources 1) pool 32
  require (a != b) "two draws from the entropy pool were identical"
  emit "entropy-draws-differ=yes"
  require (a.any (· != 0)) "the entropy pool produced all zeroes"
  let pool ← generateMnemonic w lib hmac (o.sources 2) pool .twelve
  let _ ← generateMnemonic w lib hmac (o.sources 3) pool .twentyFour

/-! ## The wallet export -/

/-- `std::string::find`. -/
def contains (text pattern : String) : Bool :=
  text.toList.tails.any fun tail => pattern.toList.isPrefixOf tail

/-- The words of a mnemonic as the scan reads them: what stands between spaces, cut to the array it
is read into. -/
def scannedWords (mnemonic : SecureString) : List String :=
  (mnemonic.text.splitOnP fun c => c == SecureString.space || c == 0).map fun word =>
    cStr (word.take 31)

/-- The markers of an extended private key. -/
def privateMarkers : List String := ["xprv", "tprv", "zprv", "vprv", "yprv", "uprv"]

/-- `runWalletChecks`. -/
def runWalletChecks (w : Wally) (net : Network) (mnemonic : SecureString) (account : UInt32)
    (tag : String) : Part WalletFailure Unit := do
  let we ← fun m =>
    match buildWalletExport w m.slot (cStr mnemonic.text) "" net account with
    | (.ok (), we, slot) => (.ok we, { m with slot })
    | (.error err, _, slot) => (.error (.build err), { m with slot })
  emit ("wallet-fingerprint" ++ tag ++ "=" ++ we.fingerprint)
  we.accounts.forM fun a => do
    emit ("wallet-account" ++ tag ++ "=" ++ a.standard ++ " path=" ++ a.path ++ " xpub=" ++ a.xpub
      ++ " first=" ++ a.firstAddress)
    require (!a.xpub.isEmpty && !a.firstAddress.isEmpty) (.emptyKeyOrAddress a.standard)
    emit ("wallet-descriptor" ++ tag ++ "=" ++ a.descriptor)
  we.cosigners.forM fun c => do
    emit ("wallet-cosigner" ++ tag ++ "=" ++ c.standard ++ " path=" ++ c.path ++ " xpub=" ++ c.xpub)
    require (!c.xpub.isEmpty) (.emptyKey c.standard)
    require (c.keyOrigin == "[" ++ we.fingerprint ++ "/" ++ c.pathHardened ++ "]" ++ c.xpub)
      (.keyOrigin c.standard)
  require (!we.cosigners.isEmpty) .noCosigners
  let m ← Fallible.get
  require (!m.slot.valid) .keyResident
  let rendered := renderWalletExport we "selftest"
  privateMarkers.forM fun marker => require (!contains rendered marker) (.marker marker)
  (scannedWords mnemonic).forM fun word =>
    require (!(3 ≤ word.length && contains rendered word)) .word
  emit ("wallet-export-has-no-secrets" ++ tag ++ "=yes bytes=" ++ toString rendered.length)

end

/-! ## The test -/

/-- A `PsbtEngine` on the stack: its destructor clears the key. -/
def withEngine {α : Type} (net : Network) (body : PsbtEngine → Part Failure α) : Part Failure α :=
  leaving (body { network := net }) fun m => { m with slot := .clear }

def load (w : Wally) (engine : PsbtEngine) (path : String) (file : FileNode)
    (why : String → Failure) : Part Failure PsbtEngine := fun m =>
  match engine.load w m.slot path file with
  | (.ok (), engine) => (.ok engine, m)
  | (.error err, _) => (.error (why err), m)

def setKeyFromMnemonic (w : Wally) (engine : PsbtEngine) (mnemonic : SecureString)
    (why : String → Failure) : Part Failure PsbtEngine := fun m =>
  match engine.setKeyFromMnemonic w (cStr mnemonic.text) "" with
  | (.ok (), slot, engine) => (.ok engine, { m with slot })
  | (.error err, slot, _) => (.error (why err), { m with slot })

def severityName : Severity → String
  | .danger => "DANGER"
  | .warning => "WARN"
  | .info => "INFO"

/-- The PSBT to sign: the one that is named, or the first that is listed and is not a result. -/
def locatePsbt (opt : SelfTestOptions) (o : Outside) : Part Failure String := do
  if opt.psbtPath ≠ "" then pure opt.psbtPath
  else
    let files := listPsbtFiles opt.dataDir o.entries
    emit ("candidates=" ++ toString files.length ++ " dir=" ++ opt.dataDir)
    match files.find? fun f => !f.isSignerOutput with
    | some f => pure f.path
    | none => Fallible.fail (.noCandidate opt.dataDir)

/-- What is printed of the summary before there is a key, and what it must not say. -/
def inspect (s : TxSummary) : Part Failure Unit := do
  emit ("psbt-version=" ++ toString s.psbtVersion.toNat ++ " tx-version="
    ++ toString s.txVersion.toNat ++ " locktime=" ++ toString s.locktime.toNat)
  emit ("txid=" ++ s.txid)
  emit ("inputs=" ++ toString s.inputs.length ++ " outputs=" ++ toString s.outputs.length
    ++ " with-derivation=" ++ toString s.inputsWithDerivation)
  s.inputs.zipIdx.forM fun (inp, i) => emit ("input[" ++ toString i ++ "] " ++ inp.outpoint
    ++ " type=" ++ inp.scriptType
    ++ " amount=" ++ (if inp.amountKnown then formatSat inp.amountSat else "UNKNOWN")
    ++ " addr=" ++ inp.address
    ++ " path=" ++ if inp.derivation.isEmpty then "-" else inp.derivation)
  s.outputs.zipIdx.forM fun (out, i) => emit ("output[" ++ toString i ++ "] " ++ out.address
    ++ " type=" ++ out.scriptType ++ " amount=" ++ formatSat out.amountSat
    ++ " owner=" ++ ownershipName out.ownership
    ++ if out.derivation.isEmpty then "" else " path=" ++ out.derivation)
  emit ("total-in=" ++ formatSat s.totalInSat ++ " total-out=" ++ formatSat s.totalOutSat)
  require s.feeKnown .feeUnknown
  emit ("fee=" ++ formatSat s.feeSat ++ " sat (" ++ formatBtc s.feeSat ++ " BTC)")
  emit ("vsize=" ++ toString s.estimatedVsize ++ " feerate=" ++ formatFeeRate s.feeRate ++ " sat/vB")
  s.findings.forM fun f => emit ("finding=" ++ severityName f.severity ++ " " ++ f.text)
  require s.safeToSign (.refused s.blockReason)
  emit "safe-to-sign=yes"

/-- The forged change output, which has to be refused. -/
def blockedCheck (w : Wally) (opt : SelfTestOptions) (o : Outside) (net : Network)
    (mnemonic : SecureString) : Part Failure Unit :=
  if opt.blockedPsbtPath = "" then pure ()
  else withEngine net fun attack => do
    let attack ← load w attack opt.blockedPsbtPath o.blockedFile .blockedFile
    let attack ← setKeyFromMnemonic w attack mnemonic .blockedKey
    require (attack.summary.outputs.any fun out => out.ownership == .mismatch) .mismatchMissed
    require (!attack.summary.safeToSign) .forgeryNotBlocked
    let m ← Fallible.get
    match attack.sign w m.slot with
    | (.ok _, _) => Fallible.fail .forgerySigned
    | (.error _, attack) =>
      emit ("change-attack-blocked=yes reason=" ++ attack.summary.blockReason)

/-- What is printed of the summary once there is a key, and what it must not say. -/
def inspectWithKey (w : Wally) (engine : PsbtEngine) : Part Failure Unit := do
  let m ← Fallible.get
  emit ("fingerprint=" ++ masterFingerprint w m.slot)
  let s := engine.summary
  emit ("signable=" ++ toString s.signableInputs ++ "/" ++ toString s.inputs.length)
  require (s.signableInputs != 0) .nothingSignable
  s.outputs.zipIdx.forM fun (out, i) => do
    emit ("output-verified[" ++ toString i ++ "] owner=" ++ ownershipName out.ownership
      ++ if out.derivation.isEmpty then "" else " path=" ++ out.derivation)
    require (out.ownership != .mismatch) (.changeMismatch (i + 1))
  emit ("verified-change=" ++ formatSat s.verifiedChangeSat ++ " leaving-wallet="
    ++ formatSat s.leavingSat)
  s.findings.forM fun f => emit ("finding-verified=" ++ severityName f.severity ++ " " ++ f.text)
  require s.safeToSign (.refusedWithKey s.blockReason)

/-- Signing: the engine afterwards, and how many signatures were added. -/
def signPsbt (w : Wally) (engine : PsbtEngine) : Part Failure (PsbtEngine × ℕ) := do
  let txidBefore := engine.summary.txid
  let m ← Fallible.get
  match engine.sign w m.slot with
  | (.error err, _) => Fallible.fail (.sign err)
  | (.ok added, engine) =>
    emit ("signatures-added=" ++ toString added)
    require (added != 0) .noSignature
    require (engine.summary.txid == txidBefore) (.txidChanged txidBefore engine.summary.txid)
    emit "txid-stable=yes"
    return (engine, added)

/-- `st_size` of a file that is there. -/
def sizeOf (files : Disk Char) (path : String) : Option ℕ :=
  match files path with
  | some (.file content) => some content.length
  | some .directory => some 4096
  | some .danglingLink | none => none

/-- Writing: the paths of the result and of the transaction. -/
def writeOutput (w : Wally) (opt : SelfTestOptions) (o : Outside) (engine : PsbtEngine) :
    Part Failure (String × Option String) := do
  let m ← Fallible.get
  let written := engine.writeResult w o.write m.files opt.dataDir "" opt.writeFinalTx
  Fallible.modify fun m => { m with files := written.files }
  match written.result with
  | .error err => Fallible.fail (.write err)
  | .ok () =>
    let outPsbt := written.psbtPath.getD ""
    emit ("wrote=" ++ outPsbt)
    match written.txPath with
    | some outTx => emit ("wrote-final-tx=" ++ outTx)
    | none => pure ()
    match sizeOf written.files outPsbt with
    | some (size + 1) => emit ("output-bytes=" ++ toString (size + 1))
    | some 0 | none => Fallible.fail .outputMissing
    return (outPsbt, written.txPath)

/-- Reading back what was written, with an engine of its own. -/
def readBackCheck (w : Wally) (o : Outside) (net : Network) (outPsbt txidBefore : String)
    (added : ℕ) : Part Failure Unit :=
  withEngine net fun verify => do
    let verify ← load w verify outPsbt o.readBack .readBack
    let sigs := (verify.summary.inputs.map InputInfo.existingSignatures).sum
    emit ("readback-signatures=" ++ toString sigs)
    require (added ≤ sigs) .readBackSignatures
    require (verify.summary.txid == txidBefore) .readBackTxid
    emit "readback-txid-matches=yes"

/-- `::unlink` of what was written. -/
def unlinkOutput (outPsbt : String) (outTx : Option String) (files : Disk Char) : Disk Char :=
  let files := files.unlink outPsbt
  match outTx with
  | some outTx => files.unlink outTx
  | none => files

section
variable (w : Wally) (lib : Bip39) (sha512 : Bytes → Digest) (hmac : Digest → Bytes → Option Digest)
  (opt : SelfTestOptions) (o : Outside)

/-- The checks that are made before there is a key to sign with. -/
def preflight (net : Network) : Part Failure SecureString := do
  require (opt.mnemonicFile ≠ "") .noMnemonicFile
  let mnemonic ← mapError .mnemonicFile (ofExcept (readMnemonicFile opt.mnemonicFile o.mnemonicFile))
  emit ("mnemonic-words=" ++ toString mnemonic.wordCount)
  mapError .grid (runGridChecks w lib)
  let m ← Fallible.get
  mapError .fileNames (runFileNameChecks m.files)
  mapError .entropy (runEntropyChecks w lib sha512 hmac o)
  mapError .wallet (runWalletChecks w net mnemonic 0 "")
  mapError .walletOfAccountOne (runWalletChecks w net mnemonic 1 "-acct1")
  return mnemonic

/-- What is done with the engine of the test. -/
def testEngine (net : Network) (path : String) (engine : PsbtEngine) : Part Failure Unit := do
  let engine ← load w engine path o.psbtFile .load
  inspect engine.summary
  let mnemonic ← preflight w lib sha512 hmac opt o net
  blockedCheck w opt o net mnemonic
  let engine ← setKeyFromMnemonic w engine mnemonic .key
  inspectWithKey w engine
  let txidBefore := engine.summary.txid
  let (engine, added) ← signPsbt w engine
  let (outPsbt, outTx) ← writeOutput w opt o engine
  readBackCheck w o net outPsbt txidBefore added
  if !opt.keepOutput then
    Fallible.modify fun m => { m with files := unlinkOutput outPsbt outTx m.files }
    emit "output-removed=yes"

/-- The test up to the line that says how it ends. -/
def testSteps : Part Failure Unit := do
  match initLibrary o with
  | none => Fallible.fail .library
  | some warning => if warning ≠ "" then emit ("note=" ++ warning)
  emit ("libwally=" ++ libraryVersion o.buildVersion)
  emit ("pages-locked=" ++ yesNo o.allPagesLocked)
  reportNetworkAbsence o
  match networkFromString opt.network with
  | none => Fallible.fail (.unknownNetwork opt.network)
  | some net =>
    emit ("network=" ++ networkName net)
    let path ← locatePsbt opt o
    emit ("psbt=" ++ path)
    withEngine net (testEngine w lib sha512 hmac opt o net path)

/-- `runSelfTest`, on this disk: whether it passes, or why it does not, and what it leaves. -/
def runSelfTest (files : Disk Char) : Except Failure Unit × Machine :=
  match testSteps w lib sha512 hmac opt o ((⟨[], .clear, files⟩ : Machine).emit "begin") with
  | (.ok (), m) => (.ok (), m.emit "PASS")
  | (.error why, m) => (.error why, m.emit ("FAIL " ++ why.text))

end

end SignerOS.SelfTest
