import Mathlib.Data.Int.Notation
import SignerOS.Common

/-!
# libwally-core

libwally-core is linked into the program and is not part of the repository. Its data
structures are described here by the fields the program reads, and its functions are the
fields of `Wally`, a parameter of the whole model: nothing is assumed about them beyond
what their types say. A call that can fail returns an `Option`, `none` standing for every
return code other than `WALLY_OK`.

What libwally keeps in a structure and the program never looks at is carried along as
`others`, so that two PSBTs it tells apart are two values here as well.
-/

namespace SignerOS

/-! ## Transactions -/

/-- `wally_tx_output`. -/
structure TxOutput where
  satoshi : UInt64
  script : Bytes
deriving DecidableEq, Repr

/-- `wally_tx_input`. -/
structure TxInput where
  txhash : TxHash
  index : UInt32
  sequence : UInt32
  script : Bytes := []
  witness : List Bytes := []
deriving DecidableEq, Repr

/-- `wally_tx`. -/
structure Tx where
  version : UInt32
  locktime : UInt32
  inputs : List TxInput
  outputs : List TxOutput
deriving DecidableEq, Repr

/-! ## PSBTs -/

/-- One entry of a `keypaths` or `taproot_leaf_paths` map, as
`wally_map_keypath_get_item_fingerprint` and `.._path` read it: either read can fail. -/
structure KeypathItem where
  key : Bytes
  fingerprint : Option Fingerprint
  path : Option (List UInt32)
deriving DecidableEq, Repr

/-- `psbt_fields`: a `wally_map` keyed by the BIP174 key type. -/
abbrev FieldMap := List (UInt32 × Bytes)

/-- `wally_psbt_input`. -/
structure PsbtInput where
  witnessUtxo : Option TxOutput := none
  utxo : Option Tx := none
  hasAmount : Bool := false
  amount : UInt64 := 0
  signatures : List (Bytes × Bytes) := []
  psbtFields : FieldMap := []
  finalWitness : Option (List Bytes) := none
  sighash : UInt32 := 0
  keypaths : List KeypathItem := []
  taprootLeafPaths : List KeypathItem := []
  others : List (Bytes × Bytes) := []
deriving DecidableEq, Repr

/-- `wally_psbt_output`. -/
structure PsbtOutput where
  keypaths : List KeypathItem := []
  taprootLeafPaths : List KeypathItem := []
  psbtFields : FieldMap := []
  taprootTree : List (Bytes × Bytes) := []
  others : List (Bytes × Bytes) := []
deriving DecidableEq, Repr

/-- `wally_psbt`. -/
structure Psbt where
  version : UInt32
  tx : Option Tx
  inputs : List PsbtInput
  outputs : List PsbtOutput
  others : List (Bytes × Bytes) := []
deriving DecidableEq, Repr

/-! ## Keys -/

/-- `ext_key`. `privKey` starts with `BIP32_FLAG_KEY_PRIVATE` exactly when the key is a
private one. -/
structure ExtKey where
  chainCode : Vector UInt8 32
  parent160 : Vector UInt8 20
  depth : UInt8
  privKey : Vector UInt8 33
  childNum : UInt32
  hash160 : Vector UInt8 20
  version : UInt32
  pubKey : PubKey
deriving DecidableEq, Repr

/-- The wiped key: all zero. -/
instance : Inhabited ExtKey where
  default :=
    { chainCode := .replicate 32 0, parent160 := .replicate 20 0, depth := 0
      privKey := .replicate 33 0, childNum := 0, hash160 := .replicate 20 0, version := 0
      pubKey := .replicate 33 0 }

/-- The process's only master-key slot, `processMasterKey()`. -/
abbrev KeySlot := SecureObject ExtKey

/-- `BIP32_FLAG_KEY_PRIVATE` and `BIP32_FLAG_KEY_PUBLIC`. -/
inductive KeyFlag
  | keyPrivate | keyPublic
deriving DecidableEq, Repr

def bip32FlagKeyPrivate : UInt8 := 0

def bip32VerMainPrivate : UInt32 := 0x0488ADE4
def bip32VerMainPublic : UInt32 := 0x0488B21E
def bip32VerTestPrivate : UInt32 := 0x04358394
def bip32VerTestPublic : UInt32 := 0x043587CF

/-! ## Enumerations of the calls' arguments and results -/

/-- `WALLY_SCRIPT_TYPE_*`; `unknown` is the zero `wally_scriptpubkey_get_type` leaves. -/
inductive ScriptType
  | unknown | opReturn | p2pkh | p2sh | p2wpkh | p2wsh | multisig | p2tr
deriving DecidableEq, Repr

/-- `WALLY_PSBT_PARSE_FLAG_STRICT`, or no flag. -/
inductive ParseFlag
  | strict | permissive
deriving DecidableEq, Repr

/-- `WALLY_PSBT_EXTRACT_NON_FINAL` and `WALLY_PSBT_EXTRACT_FINAL`. -/
inductive ExtractFlag
  | nonFinal | final
deriving DecidableEq, Repr

/-- `WALLY_SCRIPT_HASH160` and `WALLY_SCRIPT_SHA256`. -/
inductive ScriptHash
  | hash160 | sha256
deriving DecidableEq, Repr

/-- `WALLY_NETWORK_BITCOIN_*`. -/
inductive WallyNetwork
  | bitcoinMainnet | bitcoinTestnet | bitcoinRegtest
deriving DecidableEq, Repr

/-- `WALLY_ADDRESS_TYPE_*`. -/
inductive AddressType
  | p2pkh | p2shP2wpkh
deriving DecidableEq, Repr

/-! ## The library -/

/-- The functions of libwally-core the program calls. -/
structure Wally where
  psbtFromBytes : Bytes → ParseFlag → Option Psbt
  psbtFromBase64 : String → ParseFlag → Option Psbt
  psbtIsElements : Psbt → Option ℕ
  psbtGetTxVersion : Psbt → Option ℕ
  psbtGetLocktime : Psbt → Option ℕ
  psbtIsFinalized : Psbt → Option ℕ
  psbtExtract : Psbt → ExtractFlag → Option Tx
  /-- `wally_psbt_get_input_bip32_key_from_alloc(psbt, i, 0, 0, master, &derived)`. -/
  psbtGetInputBip32KeyFrom : Psbt → ℕ → ExtKey → Option ExtKey
  psbtGetInputSigningScript : Psbt → ℕ → Option Bytes
  psbtGetInputScriptcode : Psbt → ℕ → Bytes → Option Bytes
  /-- `wally_psbt_sign_bip32(psbt, master, EC_FLAG_GRIND_R)`: its return code, and what it
  has made of the PSBT, which it mutates in place whatever it returns. -/
  psbtSignBip32 : Psbt → ExtKey → ℤ × Psbt
  psbtToBase64 : Psbt → Option String
  psbtClone : Psbt → Option Psbt
  psbtFinalize : Psbt → Option Psbt
  txGetTxid : Tx → Option TxHash
  txGetVsize : Tx → Option ℕ
  txToHex : Tx → Option String
  scriptpubkeyGetType : Bytes → ScriptType
  scriptpubkeyToAddress : Bytes → WallyNetwork → Option String
  addrSegwitFromBytes : Bytes → String → Option String
  scriptpubkeyP2pkhFromBytes : Bytes → Option Bytes
  witnessProgramFromBytes : Bytes → ScriptHash → Option Bytes
  scriptpubkeyP2trFromBytes : Bytes → Option Bytes
  scriptpubkeyP2shFromBytes : Bytes → Option Bytes
  /-- `bip39_get_wordlist` then `bip39_mnemonic_validate`; `none` when there is no list. -/
  bip39MnemonicValidate : String → Option Bool
  bip39MnemonicToSeed512 : String → Option String → Option Bytes
  bip32KeyFromSeed : Bytes → UInt32 → Option ExtKey
  bip32KeyFromBase58 : String → Option ExtKey
  bip32KeyFromParentPath : ExtKey → List UInt32 → KeyFlag → Option ExtKey
  bip32KeyGetFingerprint : ExtKey → Option Fingerprint
  bip32KeyStripPrivateKey : ExtKey → Option ExtKey
  bip32KeyToBase58 : ExtKey → KeyFlag → Option String
  bip32KeyToAddress : ExtKey → AddressType → UInt32 → Option String
  bip32KeyToAddrSegwit : ExtKey → String → Option String
  /-- `wally_descriptor_parse` then `wally_descriptor_get_checksum`. -/
  descriptorGetChecksum : String → WallyNetwork → Option String

/-- `WALLY_OK`. -/
def wallyOk : ℤ := 0

/-- The library every call of which fails: the base the concrete runs below start from. -/
def Wally.failing : Wally where
  psbtFromBytes _ _ := none
  psbtFromBase64 _ _ := none
  psbtIsElements _ := none
  psbtGetTxVersion _ := none
  psbtGetLocktime _ := none
  psbtIsFinalized _ := none
  psbtExtract _ _ := none
  psbtGetInputBip32KeyFrom _ _ _ := none
  psbtGetInputSigningScript _ _ := none
  psbtGetInputScriptcode _ _ _ := none
  psbtSignBip32 psbt _ := (-1, psbt)
  psbtToBase64 _ := none
  psbtClone _ := none
  psbtFinalize _ := none
  txGetTxid _ := none
  txGetVsize _ := none
  txToHex _ := none
  scriptpubkeyGetType _ := .unknown
  scriptpubkeyToAddress _ _ := none
  addrSegwitFromBytes _ _ := none
  scriptpubkeyP2pkhFromBytes _ := none
  witnessProgramFromBytes _ _ := none
  scriptpubkeyP2trFromBytes _ := none
  scriptpubkeyP2shFromBytes _ := none
  bip39MnemonicValidate _ := none
  bip39MnemonicToSeed512 _ _ := none
  bip32KeyFromSeed _ _ := none
  bip32KeyFromBase58 _ := none
  bip32KeyFromParentPath _ _ _ := none
  bip32KeyGetFingerprint _ := none
  bip32KeyStripPrivateKey _ := none
  bip32KeyToBase58 _ _ := none
  bip32KeyToAddress _ _ _ := none
  bip32KeyToAddrSegwit _ _ := none
  descriptorGetChecksum _ _ := none

end SignerOS
