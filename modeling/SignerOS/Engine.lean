import SignerOS.Findings
import SignerOS.FileNames

/-!
# `PsbtEngine`

One PSBT and its summary. The master key is not part of the engine: it lives in the
process-wide slot, which every operation that reads or writes it takes as an argument and,
where it writes it, returns.
-/

namespace SignerOS

/-! ## Reading the file -/

/-- `kMaxPsbtBytes`: 1 MiB. -/
def kMaxPsbtBytes : ℕ := 1 <<< 20

/-- What one `read` does: bytes (none at the end of the file), an interruption, an error. -/
inductive ReadResult
  | data (bytes : Bytes)
  | eintr
  | error
deriving DecidableEq, Repr

/-- What is found under a path when it is opened for reading. The reads of a regular file
are listed in the order they are made; past the last of them the file is at its end. -/
inductive FileNode
  | missing
  | unstatable
  | notRegular
  | regular (stSize : ℕ) (reads : List ReadResult)
deriving DecidableEq, Repr

/-- The read loop: until `want` bytes are there, the file ends or a read fails. -/
def readLoop (want : ℕ) (got : Bytes) : List ReadResult → Option Bytes
  | [] => some got
  | r :: rest =>
    if want ≤ got.length then some got
    else
      match r with
      | .error => none
      | .eintr => readLoop want got rest
      | .data bytes =>
        -- no bytes is the end of the file
        if bytes.isEmpty then some got
        else readLoop want (got ++ bytes.take (want - got.length)) rest

/-- `readFileCapped`. -/
def readFileCapped (path : String) (cap : ℕ) : FileNode → Except String Bytes
  | .missing => .error ("cannot open " ++ path)
  | .unstatable => .error ("cannot stat " ++ path)
  | .notRegular => .error (path ++ " is not a regular file")
  | .regular stSize reads =>
    if cap < stSize then
      .error (path ++ " is larger than the " ++ toString (cap / 1024) ++ " KiB limit for a PSBT")
    else
      match readLoop stSize [] reads with
      | none => .error ("read error on " ++ path)
      | some bytes => .ok bytes

/-! ## The engine -/

/-- The members of `PsbtEngine`. -/
structure PsbtEngine where
  network : Network
  psbt : Option Psbt := none
  sourcePath : String := ""
  sourceName : String := ""
  summary : TxSummary := {}
  looseParse : Bool := false

/-- The name of a file, from its path. -/
def baseName (path : String) : String := String.ofList (lastComponent path.toList)

/-- `kMagic`. -/
def kMagic : Bytes := [0x70, 0x73, 0x62, 0x74, 0xff]

/-- The bytes `parse` drops from a file that is not the binary form. -/
def isBase64Blank (c : UInt8) : Bool :=
  c == 0x20 || c == 0x0a || c == 0x0d || c == 0x09 || c == 0x00

def isBase64Char (c : UInt8) : Bool :=
  (0x41 ≤ c && c ≤ 0x5a) || (0x61 ≤ c && c ≤ 0x7a) || (0x30 ≤ c && c ≤ 0x39)
    || c == 0x2b || c == 0x2f || c == 0x3d

/-- Strict first; what only the permissive parse accepts is loose. -/
def strictThenLoose (parse : ParseFlag → Option Psbt) : Option (Psbt × Bool) :=
  match parse .strict with
  | some psbt => some (psbt, false)
  | none => (parse .permissive).map fun psbt => (psbt, true)

/-- libwally's two parsers behind the detection of the binary form. -/
def parseForm (w : Wally) (data : Bytes) : Except String (Option (Psbt × Bool)) :=
  if kMagic <+: data then .ok (strictThenLoose (w.psbtFromBytes data))
  else
    let b64 := data.filter fun c => !isBase64Blank c
    if !b64.all isBase64Char then
      .error ("this file is neither a binary PSBT (it does not start "
        ++ "with the psbt magic) nor base64 text")
    else if b64.isEmpty then .error "the file contains no PSBT data"
    else
      let text := String.ofList (b64.map fun c => Char.ofNat c.toNat)
      .ok (strictThenLoose (w.psbtFromBase64 text))

/-- `PsbtEngine::parse`: the PSBT, and whether it took the permissive parse. -/
def parse (w : Wally) (data : Bytes) : Except String (Psbt × Bool) :=
  match parseForm w data with
  | .error err => .error err
  | .ok none => .error "libwally could not parse this as a BIP174/BIP370 PSBT"
  | .ok (some (psbt, wasLoose)) =>
    match w.psbtIsElements psbt with
    | some (_ + 1) =>
      .error ("this is an Elements/Liquid PSET, not a Bitcoin PSBT. "
        ++ "SignerOS does not sign confidential transactions.")
    | _ => .ok (psbt, wasLoose)

namespace PsbtEngine

variable (w : Wally)

/-- `PsbtEngine::unload`. -/
def unload (e : PsbtEngine) : PsbtEngine := { network := e.network }

/-- `PsbtEngine::resummarise`. -/
def resummarise (slot : KeySlot) (e : PsbtEngine) : PsbtEngine :=
  match e.psbt with
  | none => { e with summary := {} }
  | some psbt => { e with summary := summarise w e.network e.looseParse slot psbt }

/-- `PsbtEngine::load`. -/
def load (slot : KeySlot) (e : PsbtEngine) (path : String) (file : FileNode) :
    Except String Unit × PsbtEngine :=
  let e := e.unload
  match readFileCapped path kMaxPsbtBytes file with
  | .error err => (.error err, e)
  | .ok raw =>
    if raw.isEmpty then (.error "the file is empty", e)
    else
      match parse w raw with
      | .error err => (.error err, e)
      | .ok (psbt, wasLoose) =>
        (.ok (), resummarise w slot
          { e with
            sourcePath := path, sourceName := baseName path
            psbt := some psbt, looseParse := wasLoose })

/-! ### Keys -/

/-- What `clearKey` leaves of an output: what the file claims and nothing more. -/
def unclaim (out : OutputInfo) : OutputInfo :=
  { out with ownership := if out.claimedFingerprint.isEmpty then .thirdParty else .claimed }

/-- The part of `clearKey` that touches the summary. -/
def clearedSummary (s : TxSummary) : TxSummary :=
  { s with
    inputs := s.inputs.map fun info => { info with canSign := false }
    outputs := s.outputs.map unclaim
    signableInputs := 0
    verifiedChangeSat := 0
    leavingSat := s.totalOutSat
    ownershipChecked := false }

/-- `PsbtEngine::clearKey`. -/
def clearKey (e : PsbtEngine) : KeySlot × PsbtEngine :=
  (.clear, { e with summary := clearedSummary e.summary })

/-- `bip39Validate`. -/
def bip39Validate (mnemonic : String) : Except String Unit :=
  match w.bip39MnemonicValidate mnemonic with
  | none => .error "the BIP39 wordlist is unavailable"
  | some true => .ok ()
  | some false =>
    .error ("that is not a valid BIP39 mnemonic: either a word is not in "
      ++ "the wordlist, or the checksum does not match. Check the "
      ++ "word count (12, 15, 18, 21 or 24) and the spelling.")

/-- The key `setKeyFromMnemonic` derives. A `SecureString` argument is the text it holds. -/
def masterFromMnemonic (network : Network) (mnemonic passphrase : String) :
    Except String ExtKey :=
  match bip39Validate w mnemonic with
  | .error err => .error err
  | .ok () =>
    let pass := if passphrase.isEmpty then none else some passphrase
    match w.bip39MnemonicToSeed512 mnemonic pass with
    | none => .error "could not derive a seed from that mnemonic"
    | some seed =>
      match w.bip32KeyFromSeed seed (networkBip32Version network true) with
      | none => .error "could not derive the BIP32 master key from the seed"
      | some key => .ok key

/-- The key `setKeyFromXprv` reads. -/
def masterFromXprv (xprv : String) : Except String ExtKey :=
  match w.bip32KeyFromBase58 xprv with
  | none =>
    .error ("that is not a valid extended private key (xprv/tprv). "
      ++ "Check for a transcription error.")
  | some key =>
    if key.privKey[0] ≠ bip32FlagKeyPrivate then
      .error ("that is an extended *public* key. Signing needs the private "
        ++ "key (xprv/tprv) or the mnemonic.")
    else .ok key

/-- What both setters do: clear the key, derive the new one, and resummarise with it. Every
failure leaves the slot cleared. -/
def enterKey (e : PsbtEngine) (derived : Except String ExtKey) :
    Except String Unit × KeySlot × PsbtEngine :=
  let e := e.clearKey.2
  match derived with
  | .error err => (.error err, .clear, e)
  | .ok key =>
    let slot : KeySlot := .hold key
    (.ok (), slot, if e.psbt.isSome then resummarise w slot e else e)

/-- `PsbtEngine::setKeyFromMnemonic`. -/
def setKeyFromMnemonic (e : PsbtEngine) (mnemonic passphrase : String) :
    Except String Unit × KeySlot × PsbtEngine :=
  enterKey w e (masterFromMnemonic w e.network mnemonic passphrase)

/-- `PsbtEngine::setKeyFromXprv`. -/
def setKeyFromXprv (e : PsbtEngine) (xprv : String) : Except String Unit × KeySlot × PsbtEngine :=
  enterKey w e (masterFromXprv w xprv)

/-! ### Signing -/

/-- The refusals of `sign`, in order. What they let through is the PSBT and the key that
`wally_psbt_sign_bip32` is called with. -/
def signGate (slot : KeySlot) (e : PsbtEngine) : Except String (Psbt × ExtKey) :=
  match e.psbt with
  | none => .error "no PSBT is loaded"
  | some psbt =>
    if !slot.valid then .error "no signing key has been entered"
    else if !e.summary.safeToSign then
      .error ("refusing to sign: "
        ++ (if e.summary.blockReason.isEmpty then "this PSBT failed the safety checks"
            else e.summary.blockReason))
    else if e.summary.signableInputs = 0 then
      .error ("none of the inputs can be signed with this key, so there is "
        ++ "nothing to do")
    else .ok (psbt, slot.storage)

/-- The signatures `sign` counts before and after the call. -/
def countSignatures (psbt : Psbt) : ℕ := (psbt.inputs.map fun inp => inp.signatures.length).sum

/-- `PsbtEngine::sign`: the number of signatures added, or the error. -/
def sign (slot : KeySlot) (e : PsbtEngine) : Except String ℕ × PsbtEngine :=
  match signGate slot e with
  | .error err => (.error err, e)
  | .ok (psbt, key) =>
    let before := countSignatures psbt
    let (rc, psbt) := w.psbtSignBip32 psbt key
    -- the PSBT is signed in place: from here on the engine holds what the call left
    let e := { e with psbt := some psbt }
    if rc ≠ wallyOk then
      (.error ("libwally rejected the signing operation (error " ++ toString rc ++ ")"), e)
    else
      let after := countSignatures psbt
      if after ≤ before then
        (.error ("no signature was added. The key derives to public keys that "
          ++ "do not appear in this PSBT's derivation paths."), e)
      else (.ok (after - before), resummarise w slot e)

end PsbtEngine

end SignerOS
