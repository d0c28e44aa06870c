import SignerOS.Engine

/-!
# The watch-only export

`buildWalletExport` borrows the process's master-key slot to derive the account keys of a
mnemonic, and `renderWalletExport` prints them.
-/

namespace SignerOS

/-! ## The data -/

/-- `AccountExport`. -/
structure AccountExport where
  standard : String
  label : String
  addressHint : String
  path : String
  pathHardened : String
  xpub : String
  descriptor : String
  receiveDescriptor : String
  changeDescriptor : String
  firstAddress : String
deriving DecidableEq, Repr

/-- `CosignerKey`. -/
structure CosignerKey where
  standard : String
  label : String
  path : String
  pathHardened : String
  xpub : String
  keyOrigin : String
deriving DecidableEq, Repr

/-- `WalletExport`. -/
structure WalletExport where
  fingerprint : String := ""
  network : Network := .mainnet
  account : UInt32 := 0
  passphraseUsed : Bool := false
  accounts : List AccountExport := []
  cosigners : List CosignerKey := []
deriving DecidableEq, Repr

/-- `Standard`. -/
structure Standard where
  purpose : UInt32
  name : String
  label : String
  hintMainnet : String
  hintTestnet : String
  descriptorOpen : String
  descriptorClose : String
deriving DecidableEq, Repr

def kStandards : List Standard :=
  [⟨84, "BIP84", "Native SegWit (P2WPKH)", "addresses start bc1q", "addresses start tb1q",
      "wpkh(", ")"⟩,
    ⟨86, "BIP86", "Taproot (P2TR)", "addresses start bc1p", "addresses start tb1p", "tr(", ")"⟩,
    ⟨49, "BIP49", "Nested SegWit (P2SH-P2WPKH)", "addresses start 3", "addresses start 2",
      "sh(wpkh(", "))"⟩,
    ⟨44, "BIP44", "Legacy (P2PKH)", "addresses start 1", "addresses start m or n", "pkh(", ")"⟩]

/-- `MultisigStandard`. -/
structure MultisigStandard where
  scriptType : UInt32
  name : String
  label : String
deriving DecidableEq, Repr

def kCosignerStandards : List MultisigStandard :=
  [⟨2, "BIP48/2h", "Native SegWit multisig (P2WSH)"⟩,
    ⟨1, "BIP48/1h", "Nested SegWit multisig (P2SH-P2WSH)"⟩]

/-! ## Networks -/

def coinType (n : Network) : UInt32 := if n = .mainnet then 0 else 1

/-- `WALLY_ADDRESS_VERSION_P2PKH_MAINNET` or `_TESTNET`. -/
def p2pkhVersion (n : Network) : UInt32 := if n = .mainnet then 0x00 else 0x6f

/-- `WALLY_ADDRESS_VERSION_P2SH_MAINNET` or `_TESTNET`. -/
def p2shVersion (n : Network) : UInt32 := if n = .mainnet then 0x05 else 0xc4

/-! ## Derivation -/

section
variable (w : Wally)

/-- `firstAddressOf`. -/
def firstAddressOf (accountPub : ExtKey) (purpose : UInt32) (network : Network) : String :=
  match w.bip32KeyFromParentPath accountPub [0, 0] .keyPublic with
  | none => ""
  | some child =>
    let addr :=
      if purpose = 44 then w.bip32KeyToAddress child .p2pkh (p2pkhVersion network)
      else if purpose = 49 then w.bip32KeyToAddress child .p2shP2wpkh (p2shVersion network)
      else if purpose = 84 then w.bip32KeyToAddrSegwit child (networkBech32Hrp network)
      else if purpose = 86 then
        (w.scriptpubkeyP2trFromBytes child.pubKey.toList).bind fun script =>
          w.addrSegwitFromBytes script (networkBech32Hrp network)
      else none
    addr.getD ""

/-- `deriveAccountPub`: the account key's public half, and its base58 spelling. -/
def deriveAccountPub (master : ExtKey) (path : List UInt32) (network : Network) :
    Option (ExtKey × String) :=
  match w.bip32KeyFromParentPath master path .keyPrivate with
  | none => none
  | some acct =>
    match w.bip32KeyStripPrivateKey acct with
    | none => none
    | some acct =>
      let acct := { acct with version := networkBip32Version network false }
      (w.bip32KeyToBase58 acct .keyPublic).map fun xpub => (acct, xpub)

/-- `withChecksum`. -/
def withChecksum (descriptor : String) (network : Network) : String :=
  match w.descriptorGetChecksum descriptor (networkAddressVersion network) with
  | some checksum => descriptor ++ "#" ++ checksum
  | none => descriptor

/-- The account of one standard. -/
def accountExport (master : ExtKey) (fingerprint : String) (network : Network)
    (account : UInt32) (std : Standard) : Option AccountExport :=
  let coin := coinType network
  let path := [std.purpose ||| hardenedBit, coin ||| hardenedBit, account ||| hardenedBit]
  (deriveAccountPub w master path network).map fun (acct, xpub) =>
    let steps := [toString std.purpose.toNat, toString coin.toNat, toString account.toNat]
    let pathHardened := "/".intercalate (steps.map (· ++ "h"))
    let origin := "[" ++ fingerprint ++ "/" ++ pathHardened ++ "]" ++ xpub
    let describe (chain : String) :=
      withChecksum w (std.descriptorOpen ++ origin ++ chain ++ std.descriptorClose) network
    { standard := std.name
      label := std.label
      addressHint := if network = .mainnet then std.hintMainnet else std.hintTestnet
      path := "m/" ++ "/".intercalate (steps.map (· ++ "'"))
      pathHardened := pathHardened
      xpub := xpub
      descriptor := describe "/<0;1>/*"
      receiveDescriptor := describe "/0/*"
      changeDescriptor := describe "/1/*"
      firstAddress := firstAddressOf w acct std.purpose network }

/-- The cosigner key of one multisig standard. -/
def cosignerKey (master : ExtKey) (fingerprint : String) (network : Network)
    (account : UInt32) (ms : MultisigStandard) : Option CosignerKey :=
  let coin := coinType network
  let path := [48 ||| hardenedBit, coin ||| hardenedBit, account ||| hardenedBit,
    ms.scriptType ||| hardenedBit]
  (deriveAccountPub w master path network).map fun (_, xpub) =>
    let steps := ["48", toString coin.toNat, toString account.toNat, toString ms.scriptType.toNat]
    let pathHardened := "/".intercalate (steps.map (· ++ "h"))
    { standard := ms.name
      label := ms.label
      path := "m/" ++ "/".intercalate (steps.map (· ++ "'"))
      pathHardened := pathHardened
      xpub := xpub
      keyOrigin := "[" ++ fingerprint ++ "/" ++ pathHardened ++ "]" ++ xpub }

/-- What `buildWalletExport` derives from the master key: the fingerprint, and the two lists
of account keys, every one of which has to derive. -/
def exportOfMaster (out : WalletExport) (master : ExtKey) : Except String WalletExport :=
  match w.bip32KeyGetFingerprint master with
  | none => .error "could not compute the master fingerprint"
  | some fp =>
    let fingerprint := hexOf fp.toList
    match kStandards.mapM (accountExport w master fingerprint out.network out.account),
      kCosignerStandards.mapM (cosignerKey w master fingerprint out.network out.account) with
    | some accounts, some cosigners =>
      .ok { out with fingerprint := fingerprint, accounts := accounts, cosigners := cosigners }
    | _, _ => .error "the account keys could not be derived from this seed"

/-- `buildWalletExport`: success or the error, what `*out` holds, and the key slot. The slot
is not touched when the mnemonic is not valid, and cleared otherwise. -/
def buildWalletExport (slot : KeySlot) (mnemonic passphrase : String) (network : Network)
    (account : UInt32) : Except String Unit × WalletExport × KeySlot :=
  let out : WalletExport :=
    { network := network, account := account, passphraseUsed := !passphrase.isEmpty }
  match PsbtEngine.bip39Validate w mnemonic with
  | .error err => (.error err, out, slot)
  | .ok () =>
    match (PsbtEngine.masterFromMnemonic w network mnemonic passphrase).bind
      (exportOfMaster w out) with
    | .error err => (.error err, {}, .clear)
    | .ok out => (.ok (), out, .clear)

end

/-! ## The file -/

/-- The lines of a text, each ended by a newline. -/
def unlines (lines : List String) : String := String.join (lines.map (· ++ "\n"))

/-- The lines above the first account. -/
def exportHeader (we : WalletExport) (createdAt : String) : List String :=
  ["# SignerOS watch-only export",
    "#",
    "# PUBLIC KEYS ONLY. Everything in this file can watch this wallet and",
    "# build transactions for it. Nothing in it can spend: there is no",
    "# private key, no seed and no mnemonic here, and this device never",
    "# wrote one anywhere. The only copy of the recovery words is the one",
    "# you wrote down by hand.",
    "#",
    "# Anyone who reads this file learns every address this wallet will",
    "# ever use, and its whole balance and history. Treat it as private,",
    "# not as secret.",
    "#",
    "# created            " ++ createdAt,
    "# master fingerprint " ++ we.fingerprint,
    "# network            " ++ networkName we.network,
    "# account            " ++ toString we.account.toNat,
    "# BIP39 passphrase   " ++
      (if we.passphraseUsed then
        "yes - this export belongs to the passphrase you entered. A different passphrase is a "
          ++ "different wallet."
      else "no"),
    "#",
    "# Every line below that does not start with # is meant to be copied into",
    "# a wallet: an output descriptor in the single-signature blocks, and a",
    "# cosigner key in the multisig block at the end. Pick the block for the",
    "# address type you want, then give your wallet either the single line or",
    "# the pair - whichever it accepts:",
    "#",
    "#   Sparrow          File -> Import Wallet -> Output Descriptor ->",
    "#                    Choose file, then pick a line. Takes the single",
    "#                    <0;1> line.",
    "#   Bitcoin Core     importdescriptors with \"active\": true",
    "#   Blockstream      wants the PAIR - one descriptor for receive and",
    "#   Green            one for change. The single <0;1> line will not",
    "#                    import; the two lines under it are the same keys",
    "#                    written the way it expects.",
    "#",
    "# Check the first address below matches what your wallet shows after",
    "# the import. If it does, the right file reached the right wallet.",
    ""]

/-- The line that opens and closes a block's title. -/
def exportRule : String := "# ==========================================================="

/-- The lines of one account. -/
def accountLines (a : AccountExport) : List String :=
  [exportRule,
    "# " ++ a.standard ++ "  -  " ++ a.label ++ "  (" ++ a.addressHint ++ ")",
    "#   derivation     " ++ a.path,
    "#   account xpub   " ++ a.xpub,
    "#   first address  "
      ++ (if a.firstAddress.isEmpty then "(could not be derived)" else a.firstAddress),
    exportRule,
    "#   receive and change in one line:",
    a.descriptor,
    "",
    "#   the same keys as two lines, for wallets that want the chains",
    "#   separately (Blockstream Green): receive first, then change.",
    a.receiveDescriptor,
    a.changeDescriptor,
    ""]

/-- The lines above the first cosigner key. -/
def cosignerHeader : List String :=
  [exportRule,
    "# MULTISIG COSIGNER KEYS (BIP48)",
    "#",
    "# Only useful if this seed is one of several keys in a multisig",
    "# wallet. Setting up an ordinary single-signature wallet? Then you",
    "# are done above, and nothing below this line concerns you.",
    "#",
    "# There is no descriptor and no address here, and that is not a",
    "# failure: a multisig wallet does not exist until every cosigner's",
    "# key is known, and this device knows only its own. Give the key",
    "# line to your coordinator - Sparrow: Keystore -> Airgapped",
    "# Hardware Wallet -> xPub / Watch Only, and the same in Nunchuk,",
    "# Specter or Bitcoin Core - once for this signer and once for each",
    "# of the others. The coordinator builds the descriptor from all of",
    "# them; the resulting wallet file is what you keep, and it is what",
    "# you need to recover, alongside your words.",
    "#",
    "# The first-address check used above does not exist here, because",
    "# a single key has no address. What you compare in the coordinator",
    "# instead is the master fingerprint and the derivation path: both",
    "# are shown next to each cosigner once it is added.",
    "#",
    "# Take the 2h block unless a wallet asks you for the other one.",
    "# When this device is later asked to sign for that wallet, it can",
    "# only show an output as change if the PSBT carries the multisig",
    "# script itself - every coordinator listed above includes it.",
    ""]

/-- The lines of one cosigner key. -/
def cosignerLines (c : CosignerKey) : List String :=
  [exportRule,
    "# " ++ c.standard ++ "  -  " ++ c.label,
    "#   derivation     " ++ c.path,
    "#   account xpub   " ++ c.xpub,
    exportRule,
    "#   the same key with its origin, which is what a coordinator",
    "#   asks for - fingerprint, path and key in one line:",
    c.keyOrigin,
    ""]

/-- `renderWalletExport`. -/
def renderWalletExport (we : WalletExport) (createdAt : String) : String :=
  unlines <|
    exportHeader we createdAt
      ++ we.accounts.flatMap accountLines
      ++ (if we.cosigners.isEmpty then []
          else cosignerHeader ++ we.cosigners.flatMap cosignerLines)
      ++ ["# end of export"]

end SignerOS
