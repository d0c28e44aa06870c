import SignerOS.WalletExport

/-!
# What an export gives away, and what building one leaves behind

`buildWalletExport` passes the private master key through the process's key slot. What it
hands back depends on the key through public values only; the slot is wiped on every return
but the two that come before the first `clear()`.

* `PublicResults`, what can be derived from a seed and shown to anybody;
* `export_depends_on_public_results`, two seeds with the same public results give the same file;
* `buildWalletExport_wipes_iff`, the calls that wipe the slot and hand back an empty export
  on failure.
-/

namespace SignerOS

/-! ## The public results of a seed -/

/-- An extended key without its private key. -/
def ExtKey.publicPart (key : ExtKey) : ExtKey := { key with privKey := .replicate 33 0 }

/-- The path of the account of one standard. -/
def accountPath (network : Network) (account : UInt32) (std : Standard) : List UInt32 :=
  [std.purpose ||| hardenedBit, coinType network ||| hardenedBit, account ||| hardenedBit]

/-- The path of the cosigner key of one multisig standard. -/
def cosignerPath (network : Network) (account : UInt32) (ms : MultisigStandard) : List UInt32 :=
  [48 ||| hardenedBit, coinType network ||| hardenedBit, account ||| hardenedBit,
    ms.scriptType ||| hardenedBit]

/-- What the export may depend on: the fingerprint, the public part and first address of each
account key, and the public part of each cosigner key, each where it can be derived. -/
structure PublicResults where
  fingerprint : Option Fingerprint
  accounts : List (Option (ExtKey × String))
  cosigners : List (Option ExtKey)
deriving DecidableEq

section
variable (w : Wally)

/-- The account key `deriveAccountPub` prints: derived, stripped and relabelled. -/
def accountKey (master : ExtKey) (path : List UInt32) (network : Network) : Option ExtKey :=
  ((w.bip32KeyFromParentPath master path .keyPrivate).bind w.bip32KeyStripPrivateKey).map
    fun acct => { acct with version := networkBip32Version network false }

def publicResultsOfMaster (network : Network) (account : UInt32) (master : ExtKey) :
    PublicResults where
  fingerprint := w.bip32KeyGetFingerprint master
  accounts := kStandards.map fun std =>
    (accountKey w master (accountPath network account std) network).map fun acct =>
      (acct.publicPart, firstAddressOf w acct std.purpose network)
  cosigners := kCosignerStandards.map fun ms =>
    (accountKey w master (cosignerPath network account ms) network).map ExtKey.publicPart

/-- The public results of a mnemonic and passphrase, when they have a master key. -/
def publicResults (mnemonic passphrase : String) (network : Network) (account : UInt32) :
    Option PublicResults :=
  (PsbtEngine.masterFromMnemonic w network mnemonic passphrase).toOption.map
    (publicResultsOfMaster w network account)

/-- `bip32_key_to_base58` with the public flag prints the public part of a key. -/
def PrintsPublicPart : Prop :=
  ∀ key key' : ExtKey, key.publicPart = key'.publicPart →
    w.bip32KeyToBase58 key .keyPublic = w.bip32KeyToBase58 key' .keyPublic

end

section
variable {w : Wally}

theorem deriveAccountPub_eq (master : ExtKey) (path : List UInt32) (network : Network) :
    deriveAccountPub w master path network =
      (accountKey w master path network).bind fun acct =>
        (w.bip32KeyToBase58 acct .keyPublic).map fun xpub => (acct, xpub) := by
  unfold deriveAccountPub accountKey
  cases w.bip32KeyFromParentPath master path .keyPrivate with
  | none => rfl
  | some acct =>
    dsimp only [Option.bind_some]
    cases w.bip32KeyStripPrivateKey acct <;> rfl

/-- What is made of an account key is the same for two masters whose keys show the same, where
that settles what is printed and what is made of it. -/
theorem map_deriveAccountPub_congr {Shown Made : Type} (hbase58 : PrintsPublicPart w)
    {master master' : ExtKey} {path : List UInt32} {network : Network} (shown : ExtKey → Shown)
    (make : ExtKey × String → Made)
    (hpublic : ∀ key key', shown key = shown key' → key.publicPart = key'.publicPart)
    (hmake : ∀ key key' xpub, shown key = shown key' → make (key, xpub) = make (key', xpub))
    (h : (accountKey w master path network).map shown
      = (accountKey w master' path network).map shown) :
    (deriveAccountPub w master path network).map make
      = (deriveAccountPub w master' path network).map make := by
  rw [deriveAccountPub_eq, deriveAccountPub_eq]
  cases hk : accountKey w master path network with
  | none =>
    rw [hk] at h
    rw [Option.map_eq_none_iff.mp h.symm]
  | some acct =>
    rw [hk, Option.map_some] at h
    obtain ⟨acct', hk', hshown⟩ := Option.map_eq_some_iff.mp h.symm
    rw [hk', Option.bind_some, Option.bind_some, hbase58 acct acct' (hpublic _ _ hshown.symm)]
    -- the same xpub is printed, or none for either
    cases w.bip32KeyToBase58 acct' .keyPublic with
    | none => rfl
    | some xpub => exact congrArg some (hmake acct acct' xpub hshown.symm)

/-- Two masters with the same public account key and first address have the same account. -/
theorem accountExport_congr (hbase58 : PrintsPublicPart w) {master master' : ExtKey}
    {network : Network} {account : UInt32} {std : Standard} (fingerprint : String)
    (h : (accountKey w master (accountPath network account std) network).map
          (fun acct => (acct.publicPart, firstAddressOf w acct std.purpose network))
      = (accountKey w master' (accountPath network account std) network).map
          (fun acct => (acct.publicPart, firstAddressOf w acct std.purpose network))) :
    accountExport w master fingerprint network account std
      = accountExport w master' fingerprint network account std := by
  refine map_deriveAccountPub_congr hbase58 _ _ (fun _ _ hpair => (Prod.mk.inj hpair).1) ?_ h
  intro key key' xpub hpair
  dsimp only
  rw [(Prod.mk.inj hpair).2]

/-- Two masters with the same public cosigner key have the same cosigner line. -/
theorem cosignerKey_congr (hbase58 : PrintsPublicPart w) {master master' : ExtKey}
    {network : Network} {account : UInt32} {ms : MultisigStandard} (fingerprint : String)
    (h : (accountKey w master (cosignerPath network account ms) network).map ExtKey.publicPart
      = (accountKey w master' (cosignerPath network account ms) network).map ExtKey.publicPart) :
    cosignerKey w master fingerprint network account ms
      = cosignerKey w master' fingerprint network account ms :=
  map_deriveAccountPub_congr hbase58 _ _ (fun _ _ hpublic => hpublic) (fun _ _ _ _ => rfl) h

theorem mapM_congr {α β : Type} {f g : α → Option β} {l : List α} (h : ∀ a ∈ l, f a = g a) :
    l.mapM f = l.mapM g := by
  induction l with
  | nil => rfl
  | cons a l ih =>
    rw [List.mapM_cons, List.mapM_cons, h a List.mem_cons_self,
      ih fun b hb => h b (List.mem_cons_of_mem a hb)]

/-- The export of a master key is that of its public results. -/
theorem exportOfMaster_congr (hbase58 : PrintsPublicPart w) (out : WalletExport)
    {master master' : ExtKey}
    (h : publicResultsOfMaster w out.network out.account master
      = publicResultsOfMaster w out.network out.account master') :
    exportOfMaster w out master = exportOfMaster w out master' := by
  have hfp : w.bip32KeyGetFingerprint master = w.bip32KeyGetFingerprint master' :=
    congrArg PublicResults.fingerprint h
  have haccounts (fingerprint : String) :
      kStandards.mapM (accountExport w master fingerprint out.network out.account)
        = kStandards.mapM (accountExport w master' fingerprint out.network out.account) :=
    mapM_congr fun std hstd => accountExport_congr hbase58 fingerprint
      (List.map_inj_left.mp (PublicResults.mk.inj h).2.1 std hstd)
  have hcosigners (fingerprint : String) :
      kCosignerStandards.mapM (cosignerKey w master fingerprint out.network out.account)
        = kCosignerStandards.mapM (cosignerKey w master' fingerprint out.network out.account) :=
    mapM_congr fun ms hms => cosignerKey_congr hbase58 fingerprint
      (List.map_inj_left.mp (PublicResults.mk.inj h).2.2 ms hms)
  unfold exportOfMaster
  rw [hfp]
  cases w.bip32KeyGetFingerprint master' with
  | none => rfl
  | some fp =>
    dsimp only
    rw [haccounts, hcosigners]

/-! ## What the calls return -/

theorem forall₂_of_mapM {α β : Type} {f : α → Option β} {l : List α} {l' : List β}
    (h : l.mapM f = some l') : List.Forall₂ (fun a b => f a = some b) l l' := by
  induction l generalizing l' with
  | nil =>
    obtain rfl : [] = l' := by simpa using h
    exact .nil
  | cons a l ih =>
    rw [List.mapM_cons] at h
    obtain ⟨b, hb, h⟩ := Option.bind_eq_some_iff.mp h
    obtain ⟨bs, hbs, h⟩ := Option.bind_eq_some_iff.mp h
    obtain rfl : b :: bs = l' := Option.some.inj h
    exact .cons hb (ih hbs)

/-- What is exported of a master key: its fingerprint, and one entry a standard. -/
theorem exportOfMaster_ok {master : ExtKey} {out we : WalletExport}
    (h : exportOfMaster w out master = .ok we) :
    (∃ bytes, we.fingerprint = hexOf bytes) ∧
      List.Forall₂ (fun std a =>
          accountExport w master we.fingerprint out.network out.account std = some a)
        kStandards we.accounts ∧
      List.Forall₂ (fun ms c =>
          cosignerKey w master we.fingerprint out.network out.account ms = some c)
        kCosignerStandards we.cosigners := by
  unfold exportOfMaster at h
  split at h
  · exact absurd h (by simp)
  · dsimp only at h
    split at h
    · rename_i haccounts hcosigners
      obtain rfl := Except.ok.inj h
      exact ⟨⟨_, rfl⟩, forall₂_of_mapM haccounts, forall₂_of_mapM hcosigners⟩
    · exact absurd h (by simp)

theorem exportOfMaster_eq_ok {master : ExtKey} {out : WalletExport} {fp : Vector UInt8 4}
    {fingerprint : String} {accounts : List AccountExport} {cosigners : List CosignerKey}
    (hfp : w.bip32KeyGetFingerprint master = some fp) (hhex : hexOf fp.toList = fingerprint)
    (haccounts : kStandards.mapM (accountExport w master fingerprint out.network out.account) =
      some accounts)
    (hcosigners : kCosignerStandards.mapM
      (cosignerKey w master fingerprint out.network out.account) = some cosigners) :
    exportOfMaster w out master = .ok { out with fingerprint, accounts, cosigners } := by
  rw [exportOfMaster, hfp]
  dsimp only
  rw [hhex, haccounts, hcosigners]

/-- A call with a valid mnemonic clears the slot, and hands back what the master key gives. -/
theorem buildWalletExport_of_valid {mnemonic : String}
    (h : PsbtEngine.bip39Validate w mnemonic = .ok ()) (slot : KeySlot) (passphrase : String)
    (network : Network) (account : UInt32) :
    buildWalletExport w slot mnemonic passphrase network account =
      match (PsbtEngine.masterFromMnemonic w network mnemonic passphrase).bind
        (exportOfMaster w { network, account, passphraseUsed := !passphrase.isEmpty }) with
      | .error err => (.error err, {}, .clear)
      | .ok out => (.ok (), out, .clear) := by
  unfold buildWalletExport
  -- behind the validation every return has cleared the slot
  generalize PsbtEngine.bip39Validate w mnemonic = valid at h
  subst h
  rfl

theorem buildWalletExport_eq_ok {mnemonic passphrase : String} {network : Network}
    {account : UInt32} {master : ExtKey} {we : WalletExport}
    (hvalid : PsbtEngine.bip39Validate w mnemonic = .ok ())
    (hmaster : PsbtEngine.masterFromMnemonic w network mnemonic passphrase = .ok master)
    (hexport : exportOfMaster w { network, account, passphraseUsed := !passphrase.isEmpty } master =
      .ok we) (slot : KeySlot) :
    buildWalletExport w slot mnemonic passphrase network account = (.ok (), we, .clear) := by
  rw [buildWalletExport_of_valid hvalid, hmaster, Except.bind, hexport]

/-- A call with an invalid mnemonic returns before it has touched the slot. -/
theorem buildWalletExport_of_invalid {mnemonic err : String}
    (h : PsbtEngine.bip39Validate w mnemonic = .error err) (slot : KeySlot) (passphrase : String)
    (network : Network) (account : UInt32) :
    buildWalletExport w slot mnemonic passphrase network account =
      (.error err, { network, account, passphraseUsed := !passphrase.isEmpty }, slot) := by
  unfold buildWalletExport
  rw [h]

/-- A call that succeeds derives from the master key of the mnemonic. -/
theorem buildWalletExport_ok {slot : KeySlot} {mnemonic passphrase : String}
    {network : Network} {account : UInt32}
    (h : (buildWalletExport w slot mnemonic passphrase network account).1 = .ok ()) :
    ∃ master, PsbtEngine.masterFromMnemonic w network mnemonic passphrase = .ok master ∧
      exportOfMaster w { network, account, passphraseUsed := !passphrase.isEmpty } master =
        .ok (buildWalletExport w slot mnemonic passphrase network account).2.1 := by
  cases hvalid : PsbtEngine.bip39Validate w mnemonic with
  | error err =>
    rw [buildWalletExport_of_invalid hvalid] at h
    exact absurd h (by simp)
  | ok valid =>
    rw [buildWalletExport_of_valid hvalid] at h ⊢
    cases hmaster : PsbtEngine.masterFromMnemonic w network mnemonic passphrase with
    | error err =>
      rw [hmaster] at h
      exact absurd h (by simp [Except.bind])
    | ok master =>
      refine ⟨master, rfl, ?_⟩
      rw [hmaster] at h
      dsimp only [Except.bind] at h ⊢
      cases hexport : exportOfMaster w { network, account, passphraseUsed := !passphrase.isEmpty }
          master with
      | error err =>
        rw [hexport] at h
        exact absurd h (by simp)
      | ok we => rfl

end

/-! ## Nothing but public results -/

/-- Two valid mnemonics with the same public results fail together, and the files of their
exports are the same. -/
theorem export_depends_on_public_results (w : Wally) (hbase58 : PrintsPublicPart w)
    (slot slot' : KeySlot) (mnemonic mnemonic' passphrase passphrase' : String)
    (network : Network) (account : UInt32) (createdAt : String)
    (hvalid : PsbtEngine.bip39Validate w mnemonic = .ok ())
    (hvalid' : PsbtEngine.bip39Validate w mnemonic' = .ok ())
    (hpass : passphrase.isEmpty = passphrase'.isEmpty)
    (hpublic : publicResults w mnemonic passphrase network account
      = publicResults w mnemonic' passphrase' network account) :
    let ret := buildWalletExport w slot mnemonic passphrase network account
    let ret' := buildWalletExport w slot' mnemonic' passphrase' network account
    (ret.1 = .ok () ↔ ret'.1 = .ok ()) ∧
      (ret.1 = .ok () →
        renderWalletExport ret.2.1 createdAt = renderWalletExport ret'.2.1 createdAt) := by
  dsimp only
  rw [buildWalletExport_of_valid hvalid, buildWalletExport_of_valid hvalid', hpass]
  unfold publicResults at hpublic
  cases hm : PsbtEngine.masterFromMnemonic w network mnemonic passphrase with
  | error err =>
    -- the other seed has no master key either
    rw [hm] at hpublic
    cases hm' : PsbtEngine.masterFromMnemonic w network mnemonic' passphrase' with
    | error err' => simp [Except.bind]
    | ok master' =>
      rw [hm'] at hpublic
      cases hpublic
  | ok master =>
    rw [hm] at hpublic
    cases hm' : PsbtEngine.masterFromMnemonic w network mnemonic' passphrase' with
    | error err' =>
      rw [hm'] at hpublic
      cases hpublic
    | ok master' =>
      rw [hm'] at hpublic
      -- both masters give the same public results, so the exports are one
      have hexport := exportOfMaster_congr hbase58
        { network := network, account := account, passphraseUsed := !passphrase'.isEmpty }
        (Option.some.inj hpublic)
      dsimp only [Except.bind]
      rw [hexport]
      exact ⟨Iff.rfl, fun _ => rfl⟩

/-- A library that prints public keys in hexadecimal and whose seeds differ in the private
key only. -/
def privateSeeds : Wally :=
  { Wally.failing with
    bip39MnemonicValidate := fun _ => some true
    bip39MnemonicToSeed512 := fun mnemonic _ => some (List.replicate mnemonic.length 1)
    bip32KeyFromSeed := fun seed version =>
      some { (default : ExtKey) with
        privKey := .replicate 33 (UInt8.ofNat seed.length), version := version }
    bip32KeyFromParentPath := fun key path _ =>
      some { key with childNum := path.getLastD 0, depth := key.depth + 1 }
    bip32KeyStripPrivateKey := fun key => some { key with privKey := .replicate 33 0 }
    bip32KeyGetFingerprint := fun key => some (.replicate 4 key.hash160[0])
    bip32KeyToBase58 := fun key _ => some ("xpub" ++ hexOf key.pubKey.toList)
    bip32KeyToAddrSegwit := fun key hrp => some (hrp ++ "1" ++ hexOf key.hash160.toList) }

/-- Two different master keys, one file. -/
theorem export_of_privateSeeds :
    (PsbtEngine.masterFromMnemonic privateSeeds .mainnet "zoo" "").toOption
        ≠ (PsbtEngine.masterFromMnemonic privateSeeds .mainnet "abandon" "").toOption ∧
      renderWalletExport (buildWalletExport privateSeeds .clear "zoo" "" .mainnet 0).2.1 "now"
        = renderWalletExport
          (buildWalletExport privateSeeds .clear "abandon" "" .mainnet 0).2.1 "now" := by
  have hbase58 : PrintsPublicPart privateSeeds := by
    intro key key' h
    have hpub : key.publicPart.pubKey = key'.publicPart.pubKey := by rw [h]
    simp only [ExtKey.publicPart] at hpub
    show some ("xpub" ++ hexOf key.pubKey.toList) = some ("xpub" ++ hexOf key'.pubKey.toList)
    rw [hpub]
  exact ⟨by decide, (export_depends_on_public_results privateSeeds hbase58 .clear .clear
    "zoo" "abandon" "" "" .mainnet 0 "now" rfl rfl rfl rfl).2 rfl⟩

/-! ## The slot and the destination -/

/-- `buildWalletExport` as it is called, through a pointer that may be null: what the pointer
leads to afterwards is the second component. -/
def buildWalletExportInto (w : Wally) (slot : KeySlot) (mnemonic passphrase : String)
    (network : Network) (account : UInt32) (out : Option WalletExport) :
    Except String Unit × Option WalletExport × KeySlot :=
  match out with
  | none => (.error "internal error: no destination for the export", none, slot)
  | some _ =>
    let (result, we, slot) := buildWalletExport w slot mnemonic passphrase network account
    (result, some we, slot)

/-- The slot is wiped, and a failure leaves a default export at the destination. -/
def WipesAndEmpties (ret : Except String Unit × Option WalletExport × KeySlot) : Prop :=
  ret.2.2 = .clear ∧ ∀ err we, ret.1 = .error err → ret.2.1 = some we → we = {}

/-- Every call with a destination and a valid mnemonic wipes and empties. Any other returns
before the first `clear()`: it does so only if there was nothing to wipe and the network,
the account and the passphrase are those of a default export. -/
theorem buildWalletExport_wipes_iff (w : Wally) (slot : KeySlot) (mnemonic passphrase : String)
    (network : Network) (account : UInt32) (out : Option WalletExport) :
    WipesAndEmpties (buildWalletExportInto w slot mnemonic passphrase network account out) ↔
      (out.isSome = true ∧ PsbtEngine.bip39Validate w mnemonic = .ok ()) ∨
        (slot = .clear ∧
          (out = none ∨ network = .mainnet ∧ account = 0 ∧ passphrase.isEmpty = true)) := by
  unfold WipesAndEmpties buildWalletExportInto
  cases out with
  | none => simp
  | some dest =>
    cases hv : PsbtEngine.bip39Validate w mnemonic with
    | error err =>
      rw [buildWalletExport_of_invalid hv]
      simp
    | ok _ =>
      dsimp only
      rw [buildWalletExport_of_valid hv]
      cases (PsbtEngine.masterFromMnemonic w network mnemonic passphrase).bind
        (exportOfMaster w { network, account, passphraseUsed := !passphrase.isEmpty }) <;> simp

/-- A library to which no mnemonic is valid. -/
def noMnemonicValid : Wally := { Wally.failing with bip39MnemonicValidate := fun _ => some false }

/-- A mistyped mnemonic leaves the key that was in the slot, and the network at the
destination. -/
theorem buildWalletExport_keeps_key :
    ¬ WipesAndEmpties (buildWalletExportInto noMnemonicValid (.hold default) "abandon abandon" ""
      .testnet 0 (some {})) := by
  intro h
  have hvalid : (SecureObject.hold (default : ExtKey)).valid = SecureObject.clear.valid :=
    congrArg SecureObject.valid h.1
  exact absurd hvalid (by decide)

end SignerOS
