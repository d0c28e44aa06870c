import SignerOS.Verifier.Bech32
import SignerOS.Verifier.Verify

/-!
# What the verifier expects of an export

The addresses of `make_test_data.py`, and `wallet_expect`, which prints the account keys of a
mnemonic: the lines that the signer's own have to be the same as.
-/

namespace SignerOS

namespace Verifier

/-! ## Networks -/

/-- `HRP`. -/
def hrp : String → Except Thrown String
  | "mainnet" => .ok "bc"
  | "testnet" => .ok "tb"
  | "signet" => .ok "tb"
  | "regtest" => .ok "bcrt"
  | _ => .error .keyError

/-- `COIN_TYPE`. -/
def coinType : String → Except Thrown ℤ
  | "mainnet" => .ok 0
  | "testnet" => .ok 1
  | "signet" => .ok 1
  | "regtest" => .ok 1
  | _ => .error .keyError

/-- `B58_P2PKH_VERSION`. -/
def b58P2pkhVersion : String → Except Thrown UInt8
  | "mainnet" => .ok 0x00
  | "testnet" => .ok 0x6F
  | "signet" => .ok 0x6F
  | "regtest" => .ok 0x6F
  | _ => .error .keyError

/-- `B58_P2SH_VERSION`. -/
def b58P2shVersion : String → Except Thrown UInt8
  | "mainnet" => .ok 0x05
  | "testnet" => .ok 0xC4
  | "signet" => .ok 0xC4
  | "regtest" => .ok 0xC4
  | _ => .error .keyError

/-- `net_keys`, the network of the keys. -/
def netKeys (network : String) : String := if network = "mainnet" then "mainnet" else "testnet"

/-! ## Addresses -/

section
variable (sha256 : Sha256)

def p2wpkhScript (pubkey : Bytes) : Bytes := [0x00, 0x14] ++ hash160 sha256 pubkey

def p2wpkhAddress (pubkey : Bytes) (net : String) : Except Thrown String := do
  bech32Encode (← hrp net) 0 (hash160 sha256 pubkey)

def p2pkhAddress (pubkey : Bytes) (net : String) : Except Thrown String := do
  return b58checkEncode sha256 ((← b58P2pkhVersion net) :: hash160 sha256 pubkey)

def p2shP2wpkhAddress (pubkey : Bytes) (net : String) : Except Thrown String := do
  let redeem := p2wpkhScript sha256 pubkey
  return b58checkEncode sha256 ((← b58P2shVersion net) :: hash160 sha256 redeem)

def taggedHash (tag : String) (msg : Bytes) : Bytes :=
  let t := (sha256 tag.toUTF8.toList).toList
  (sha256 (t ++ t ++ msg)).toList

/-- `output_point` of `p2tr_address`. -/
def outputPoint (pubkey : Bytes) : Except Thrown Point := do
  let xOnly := pubkey.tail
  let point ← decompress (0x02 :: xOnly)
  let t := Der.natOf (taggedHash sha256 "TapTweak" xOnly)
  if t ≥ N then .error (.valueError "taproot tweak out of range")
  else return ptAdd (some point) (ptMul t)

def p2trAddress (pubkey : Bytes) (net : String) : Except Thrown String := do
  let outputPoint ← outputPoint sha256 pubkey
  bech32Encode (← hrp net) 1 (← compress outputPoint).tail

/-! ## The lines -/

/-- `EXPORT_STANDARDS`. -/
def exportStandards : List (ℕ × String × (Bytes → String → Except Thrown String)) := [
  (84, "BIP84", p2wpkhAddress sha256),
  (86, "BIP86", p2trAddress sha256),
  (49, "BIP49", p2shP2wpkhAddress sha256),
  (44, "BIP44", p2pkhAddress sha256)]

end

/-- `MULTISIG_STANDARDS`. -/
def multisigStandards : List (ℕ × String) := [(2, "BIP48/2h"), (1, "BIP48/1h")]

section
variable (py : Python)

/-- One turn of the loop over `EXPORT_STANDARDS`. -/
def accountLine (master : HDKey) (network : String) (coin accountIndex : ℤ)
    (std : ℕ × String × (Bytes → String → Except Thrown String)) : Except Thrown String := do
  let (purpose, name, addressOf) := std
  let path := "m/" ++ toString purpose ++ "'/" ++ toString coin ++ "'/" ++ toString accountIndex ++ "'"
  let acct ← master.derivePath py.hmacSha512 py.sha256 py.int path
  let first ← acct.derivePath py.hmacSha512 py.sha256 py.int "0/0"
  return name ++ " " ++ path ++ " " ++ (← acct.xpub py.sha256) ++ " " ++
    (← addressOf (← first.pub) network)

/-- One turn of the loop over `MULTISIG_STANDARDS`. -/
def cosignerLine (master : HDKey) (coin accountIndex : ℤ) (std : ℕ × String) :
    Except Thrown String := do
  let (scriptType, name) := std
  let path := "m/48'/" ++ toString coin ++ "'/" ++ toString accountIndex ++ "'/" ++
    toString scriptType ++ "'"
  return name ++ " " ++ path ++ " " ++
    (← (← master.derivePath py.hmacSha512 py.sha256 py.int path).xpub py.sha256)

/-- What `wallet_expect` prints; an empty mnemonic is as good as none. -/
def walletExpect (network : String) (mnemonic : Option String) (passphrase : String)
    (accountIndex : ℤ) (part : String) : Except Thrown (List String) := do
  let coin ← coinType network
  let mnemonic := (mnemonic.filter (· ≠ "")).getD testMnemonic
  let master := HDKey.fromSeed py.hmacSha512 (bip39Seed py mnemonic passphrase) (netKeys network)
  let fingerprint := "fingerprint " ++ hexOf (← master.fingerprint py.sha256)
  let lines ←
    if part = "cosigners" then multisigStandards.mapM (cosignerLine py master coin accountIndex)
    else (exportStandards py.sha256).mapM (accountLine py master network coin accountIndex)
  return fingerprint :: lines

end

end Verifier

end SignerOS
