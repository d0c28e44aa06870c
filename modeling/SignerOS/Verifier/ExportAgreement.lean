import SignerOS.ExportPaths
import SignerOS.Lib.Sha512
import SignerOS.Verifier.HdKeyStrings
import SignerOS.Verifier.StandardLibrary
import SignerOS.Verifier.VerifyTheorems

/-!
# The signer and the verifier export the same wallet

The signer calls libwally, the verifier what is written in `make_test_data.py`, and the test of the
host compares their lines. That libwally keeps to its standards is a hypothesis; that the verifier
does is proved.

* `pathToInts_printed`, the path that is printed is the one that is derived;
* `account_of_deriveAccountPub`, an account key;
* `firstAddress_of_public`, its first address, for which the two take different ways;
* `exports_agree`, the lines;
* `buildWalletExport_published`, the lines that are published for the test mnemonic.
-/

namespace SignerOS

namespace Verifier

open Standards (written tree)

/-! ## Paths -/

/-- Python's `int` reads what is printed of a number. -/
def ReadsDecimals (int : List Char → Except Raised ℤ) : Prop :=
  ∀ n : ℕ, int (toString n).toList = .ok n

theorem readsDecimals_intOfDigits : ReadsDecimals intOfDigits := by
  have hfoldl (cs : List Char) (k : ℕ) :
      cs.foldl (fun (n : ℤ) c => 10 * n + (c.toNat - '0'.toNat : ℕ)) k =
        Nat.ofDigitChars 10 cs k := by
    induction cs generalizing k with
    | nil => rfl
    | cons c cs ih =>
      rw [List.foldl_cons, Nat.ofDigitChars_cons, ← ih]
      congr 1
  intro n
  rw [intOfDigits]
  refine congrArg Except.ok ((hfoldl _ 0).trans ?_)
  rw [Decimal.ofDigitChars_toString]

section
variable {int : List Char → Except Raised ℤ} (hint : ReadsDecimals int)
include hint

theorem partToInt_printed (n : UInt32) :
    partToInt int ((toString n.toNat).toList ++ ['\'']) =
      .ok (((n ||| hardenedBit).toNat : ℕ) : ℤ) := by
  rw [partToInt, List.getLast?_concat, if_pos (Or.inl rfl), List.dropLast_concat, hint n.toNat,
    UInt32.toNat_or]
  rfl

/-- A printed path is read as the child numbers that are derived. -/
theorem pathToInts_printed {path : String} {steps : List UInt32} (hne : steps ≠ [])
    (hpath : path.toList = 'm' :: '/' :: printSteps '\'' steps) :
    pathToInts int path =
      .ok ((indices (steps.map (· ||| hardenedBit))).map fun i : ℕ => (i : ℤ)) := by
  have hparts : ∀ part ∈ steps.map (fun n => (toString n.toNat).toList ++ ['\'']), '/' ∉ part := by
    intro part hpart hslash
    obtain ⟨n, -, rfl⟩ := List.mem_map.mp hpart
    obtain hslash | hslash := List.mem_append.mp hslash
    · exact absurd (Decimal.isDigit_of_mem_toString hslash) (by decide)
    · exact absurd (List.mem_singleton.mp hslash) (by decide)
  have hsplit : path.toList.splitOn '/' =
      ['m'] :: steps.map (fun n => (toString n.toNat).toList ++ ['\'']) := by
    have hm : '/' ∉ ['m'] := by decide
    rw [hpath, ← List.singleton_append, List.splitOn_append_cons_self_of_not_mem hm, printSteps,
      List.splitOn_intercalate _ hparts (by simpa using hne)]
  have hindex : ∀ part ∈ steps.map (fun n => (toString n.toNat).toList ++ ['\'']),
      decide (part ≠ ['m'] ∧ part ≠ []) = true := by
    intro part hpart
    obtain ⟨n, -, rfl⟩ := List.mem_map.mp hpart
    rw [decide_eq_true_iff]
    refine ⟨fun h => ?_, by simp⟩
    have hlast := congrArg List.getLast? h
    rw [List.getLast?_concat] at hlast
    exact absurd (Option.some.inj hlast) (by decide)
  rw [pathToInts, hsplit, List.filter_cons_of_neg (by decide), List.filter_eq_self.mpr hindex,
    List.mapM_map, indices, List.map_map, List.map_map]
  have hparse : partToInt int ∘ (fun n : UInt32 => (toString n.toNat).toList ++ ['\'']) =
      fun n => pure (((n ||| hardenedBit).toNat : ℕ) : ℤ) :=
    funext fun n => partToInt_printed hint n
  rw [hparse]
  exact List.mapM_pure

theorem pathToInts_receive :
    pathToInts int "0/0" = .ok ((indices [0, 0]).map fun i : ℕ => (i : ℤ)) := by
  have hsplit : ("0/0".toList.splitOn '/').filter (fun part => part ≠ ['m'] ∧ part ≠ []) =
      [['0'], ['0']] := by decide +kernel
  have hzero : partToInt int ['0'] = .ok 0 := by
    rw [partToInt, if_neg (by decide)]
    exact hint 0
  rw [pathToInts, hsplit, List.mapM_cons, List.mapM_cons, List.mapM_nil, hzero]
  rfl

end

/-! ## Keys -/

theorem lt_of_mem_indices {path : List UInt32} : ∀ i ∈ indices path, i < 2 ^ 32 := by
  intro i hi
  obtain ⟨n, -, rfl⟩ := List.mem_map.mp hi
  exact n.toNat_lt

/-- What the tree has under the child numbers, the verifier derives of the path that is printed. -/
theorem derivePath_printed {py : Python} (hint : ReadsDecimals py.int) {x y : KeyTree.Extended ℕ}
    (hlt : x.key < N) {path : String} {steps : List UInt32} (hne : steps ≠ [])
    (hpath : path.toList = 'm' :: '/' :: printSteps '\'' steps)
    (hy : (indices (steps.map (· ||| hardenedBit))).foldlM
      (tree py.sha256 py.hmacSha512).privateChild x = some y) (net : String) :
    (HDKey.ofExtended net x).derivePath py.hmacSha512 py.sha256 py.int path =
      .ok (.ofExtended net y) := by
  refine (derivePath_eq_ok_iff py.hmacSha512 py.sha256 py.int).mpr
    ⟨_, pathToInts_printed hint hne hpath, ?_⟩
  rw [← toOption_eq_some_iff, foldlM_derive_ofExtended _ _ net lt_of_mem_indices hlt, hy,
    Option.map_some]

theorem packBig_natCast {width n : ℕ} (h : n < 256 ^ width) :
    packBig width n = .ok (Der.bytesOf width n) :=
  packBig_eq_ok_iff.mpr ⟨⟨Int.natCast_nonneg n, by exact_mod_cast h⟩, by rw [Int.toNat_natCast]⟩

theorem versionPub_netKeys (network : Network) :
    versionPub (netKeys (networkName network)) = .ok (networkBip32Version network false).toNat := by
  cases network <;> rfl

section
variable {w : Wally} {py : Python}

/-- Both write the same 78 bytes. -/
theorem xpub_ofExtended {k : ExtKey} {x : KeyTree.Extended ℕ} (hlt : x.key < N)
    (h : HoldsPublic k (x.map (· • generator))) {network : Network}
    (hversion : k.version = networkBip32Version network false) {bytes : Bytes}
    (hbytes : (tree py.sha256 py.hmacSha512).serialized k.version.toNat (x.map (· • generator)) =
      some bytes) :
    (HDKey.ofExtended (netKeys (networkName network)) x).xpub py.sha256 =
      .ok (Standards.base58Check py.sha256 bytes) := by
  obtain ⟨pub, hpub, hbytes⟩ := Option.bind_eq_some_iff.mp hbytes
  obtain rfl := Option.some.inj hbytes
  have hdepth : x.depth < 256 ^ 1 := by
    have hdepth : x.depth = k.depth.toNat := h.depth
    rw [hdepth]
    exact k.depth.toNat_lt
  have hnumber : x.number < 256 ^ 4 := by
    have hnumber : x.number = k.childNum.toNat := h.number
    rw [hnumber]
    exact k.childNum.toNat_lt
  have hparent : x.parent.length = 4 := by
    have hparent : x.parent = k.parent160.toList.take 4 := h.parent
    rw [hparent]
    simp
  refine (xpub_eq_ok_iff py.sha256).mpr ⟨_, _, _, versionPub_netKeys network,
    header_eq_ok_iff.mpr ⟨_, _, _, packBig_natCast (UInt32.toNat_lt _), packBig_natCast hdepth,
      packBig_natCast hnumber, rfl⟩, (pub_ofExtended hlt).mpr hpub, ?_⟩
  rw [b58checkEncode_eq, hversion, HDKey.ofExtended, packFour_of_length hparent]
  rfl

/-- What the signer finds for the first address of an account, the verifier makes of its key. -/
def AddressesAgree (w : Wally) (purpose : UInt32)
    (addressOf : Bytes → String → Except Thrown String) : Prop :=
  ∀ {k child p network}, w.bip32KeyFromParentPath k [0, 0] .keyPublic = some child →
    written p = some child.pubKey.toList → firstAddressOf w k purpose network ≠ "" →
      addressOf child.pubKey.toList (networkName network) = .ok (firstAddressOf w k purpose network)

/-- For one purpose, the first address is made in one way. -/
theorem addressesAgree_of {purpose : UInt32} {addressOf : Bytes → String → Except Thrown String}
    (make : ExtKey → Network → Option String)
    (hmake : ∀ k child network, w.bip32KeyFromParentPath k [0, 0] .keyPublic = some child →
      firstAddressOf w k purpose network = (make child network).getD "")
    (h : ∀ child p network s, written p = some child.pubKey.toList → make child network = some s →
      addressOf child.pubKey.toList (networkName network) = .ok s) :
    AddressesAgree w purpose addressOf := by
  intro k child p network hchild hp hne
  rw [hmake k child network hchild] at hne ⊢
  cases hs : make child network with
  | none =>
    rw [hs] at hne
    exact absurd rfl hne
  | some s => exact h child p network s hp hs

theorem hrp_networkName (network : Network) :
    hrp (networkName network) = .ok (networkBech32Hrp network) ∧
      ∀ c ∈ (networkBech32Hrp network).toList, c.toNat < 1024 := by
  have hbound :
      ((networkBech32Hrp network).toList.all fun c => decide (c.toNat < 1024)) = true := by
    cases network <;> rfl
  refine ⟨by cases network <;> rfl, fun c hc => ?_⟩
  exact of_decide_eq_true (List.all_eq_true.mp hbound c hc)

variable (hw : KeepsStandards w py.sha256 py.hmacSha512 py.pbkdf2HmacSha512)
include hw

/-- An account key, without its private part. -/
theorem account_of_deriveAccountPub {k acct : ExtKey} {x : KeyTree.Extended ℕ}
    (hk : HoldsPrivate k x) {path : List UInt32} {network : Network} {xpub : String}
    (h : deriveAccountPub w k path network = some (acct, xpub)) :
    ∃ y, (indices path).foldlM (tree py.sha256 py.hmacSha512).privateChild x = some y ∧
      y.key < N ∧
      (HDKey.ofExtended (netKeys (networkName network)) y).xpub py.sha256 = .ok xpub ∧
      HoldsPublic acct (y.map (· • generator)) ∧
      acct.privKey.toList.head? ≠ some bip32FlagKeyPrivate := by
  rw [deriveAccountPub_eq] at h
  obtain ⟨acct', hacct, h⟩ := Option.bind_eq_some_iff.mp h
  obtain ⟨xpub', hxpub, h⟩ := Option.map_eq_some_iff.mp h
  obtain ⟨rfl, rfl⟩ := Prod.mk.inj h
  obtain ⟨stripped, hstripped, rfl⟩ := Option.map_eq_some_iff.mp hacct
  obtain ⟨c, hc, hstripped⟩ := Option.bind_eq_some_iff.mp hstripped
  obtain ⟨y, hderive, hy⟩ := hw.child hk hc
  obtain ⟨hstrip, hflag⟩ := hw.strip hstripped
  rw [hstrip] at hxpub ⊢
  have hpublic : HoldsPublic { { c with privKey := stripped.privKey } with
      version := networkBip32Version network false } (y.map (· • generator)) :=
    ⟨hy.pub, hy.chain, hy.depth, hy.parent, hy.number⟩
  obtain ⟨bytes, hbytes, rfl⟩ := hw.base58 hpublic hxpub
  exact ⟨y, hderive, hy.lt, xpub_ofExtended hy.lt hpublic rfl hbytes, hpublic, hflag⟩

theorem addressesAgree_p2pkh : AddressesAgree w 44 (p2pkhAddress py.sha256) := by
  refine addressesAgree_of (fun child network =>
    w.bip32KeyToAddress child .p2pkh (p2pkhVersion network)) ?_ fun child p network s _ hs => ?_
  · intro k child network hchild
    rw [firstAddressOf, hchild]
    rfl
  · rw [hw.p2pkh hs, ← b58checkEncode_eq, ← hash160_eq]
    cases network <;> rfl

theorem addressesAgree_p2shP2wpkh : AddressesAgree w 49 (p2shP2wpkhAddress py.sha256) := by
  refine addressesAgree_of (fun child network =>
    w.bip32KeyToAddress child .p2shP2wpkh (p2shVersion network)) ?_ fun child p network s _ hs => ?_
  · intro k child network hchild
    rw [firstAddressOf, hchild]
    rfl
  · rw [hw.p2shP2wpkh hs, ← b58checkEncode_eq, ← hash160_eq, ← hash160_eq]
    cases network <;> rfl

theorem addressesAgree_p2wpkh : AddressesAgree w 84 (p2wpkhAddress py.sha256) := by
  refine addressesAgree_of (fun child network =>
    w.bip32KeyToAddrSegwit child (networkBech32Hrp network)) ?_ fun child p network s _ hs => ?_
  · intro k child network hchild
    rw [firstAddressOf, hchild]
    rfl
  · obtain ⟨hhrp, htext⟩ := hrp_networkName network
    rw [p2wpkhAddress, bind_eq_ok_iff]
    refine ⟨_, hhrp, (bech32Encode_eq_ok_iff_segwitAddress htext).mpr ?_⟩
    rw [hash160_eq]
    exact hw.segwit hs

theorem addressesAgree_p2tr : AddressesAgree w 86 (p2trAddress py.sha256) := by
  refine addressesAgree_of (fun child network =>
    (w.scriptpubkeyP2trFromBytes child.pubKey.toList).bind fun script =>
      w.addrSegwitFromBytes script (networkBech32Hrp network)) ?_ fun child p network s hp hs => ?_
  · intro k child network hchild
    rw [firstAddressOf, hchild]
    rfl
  · obtain ⟨hhrp, htext⟩ := hrp_networkName network
    obtain ⟨script, hscript, haddr⟩ := Option.bind_eq_some_iff.mp hs
    obtain ⟨_, houtput, rfl⟩ := hw.p2tr hp hscript
    obtain ⟨q, key, hq, hkey, rfl, hlength⟩ := outputPoint_of_taprootOutput hp houtput
    rw [p2trAddress]
    simp only [bind_eq_ok_iff]
    exact ⟨q, hq, _, hhrp, key, hkey, (bech32Encode_eq_ok_iff_segwitAddress htext).mpr
      (hw.taproot hlength haddr)⟩

/-- The signer goes on from the public part of the account key, the verifier from the private
one. -/
theorem firstAddress_of_public (hint : ReadsDecimals py.int) {acct : ExtKey}
    {y : KeyTree.Extended ℕ} (hlt : y.key < N) (hacct : HoldsPublic acct (y.map (· • generator)))
    (hflag : acct.privKey.toList.head? ≠ some bip32FlagKeyPrivate)
    {purpose : UInt32} {network : Network} {addressOf : Bytes → String → Except Thrown String}
    (hagree : AddressesAgree w purpose addressOf)
    (hne : firstAddressOf w acct purpose network ≠ "") (net : String) :
    ∃ first pubkey,
      (HDKey.ofExtended net y).derivePath py.hmacSha512 py.sha256 py.int "0/0" = .ok first ∧
      first.pub = .ok pubkey ∧
      addressOf pubkey (networkName network) = .ok (firstAddressOf w acct purpose network) := by
  obtain ⟨child, hchild⟩ :
      ∃ child, w.bip32KeyFromParentPath acct [0, 0] .keyPublic = some child := by
    cases h : w.bip32KeyFromParentPath acct [0, 0] .keyPublic with
    | none =>
      rw [firstAddressOf, h] at hne
      exact absurd rfl hne
    | some child => exact ⟨child, rfl⟩
  obtain ⟨z, hz, hholds⟩ := hw.childPublic hacct hflag hchild
  -- without the private key or with it, the child is the same
  have hindex : ∀ i ∈ indices [0, 0], i < 2 ^ 32 := lt_of_mem_indices
  have hsoft : ∀ i ∈ indices [0, 0], i < 2 ^ 31 := by decide
  have hneuter : y.map (· • generator) = (tree py.sha256 py.hmacSha512).neuter y := rfl
  rw [hneuter, KeyTree.Scheme.publicPath_neuter (lawful_tree _ _) hsoft,
    Option.map_eq_some_iff] at hz
  obtain ⟨z, hz, rfl⟩ := hz
  have hderive := foldlM_derive_ofExtended py.sha256 py.hmacSha512 net hindex hlt
  rw [hz] at hderive
  refine ⟨_, _, (derivePath_eq_ok_iff py.hmacSha512 py.sha256 py.int).mpr
    ⟨_, pathToInts_receive hint, toOption_eq_some_iff.mp hderive⟩, ?_, hagree hchild hholds.pub hne⟩
  exact (pub_ofExtended (lt_of_privatePath hlt hz)).mpr hholds.pub

/-! ## Lines -/

omit hw in
theorem coinType_networkName (network : Network) :
    coinType (networkName network) = .ok (SignerOS.coinType network).toNat := by
  cases network <;> rfl

omit hw in
/-- The path of an account, in one piece and in three. -/
theorem printed_account (a b c : String) :
    "m/" ++ a ++ "'/" ++ b ++ "'/" ++ c ++ "'" =
      "m/" ++ "/".intercalate ([a, b, c].map (· ++ "'")) := by
  have hmark : "'/" = "'" ++ "/" := rfl
  simp only [String.intercalate_cons_cons, String.intercalate_singleton, List.map_cons,
    List.map_nil, hmark, String.append_assoc]

omit hw in
/-- The path of a cosigner key. -/
theorem printed_cosigner (b c d : String) :
    "m/48'/" ++ b ++ "'/" ++ c ++ "'/" ++ d ++ "'" =
      "m/" ++ "/".intercalate (["48", b, c, d].map (· ++ "'")) := by
  have hmark : "'/" = "'" ++ "/" := rfl
  have hpurpose : "m/48'/" = "m/" ++ ("48" ++ ("'" ++ "/")) := rfl
  simp only [String.intercalate_cons_cons, String.intercalate_singleton, List.map_cons,
    List.map_nil, hmark, hpurpose, String.append_assoc]

/-- What `host_selftest.sh` leaves of the line that the self-test prints of an account. -/
def accountText (a : AccountExport) : String :=
  a.standard ++ " " ++ a.path ++ " " ++ a.xpub ++ " " ++ a.firstAddress

/-- What it leaves of the line of a cosigner key. -/
def cosignerText (c : CosignerKey) : String := c.standard ++ " " ++ c.path ++ " " ++ c.xpub

/-- An entry of the signer's table, and that of the verifier's. -/
structure SameStandard (w : Wally) (std : Standard)
    (e : ℕ × String × (Bytes → String → Except Thrown String)) : Prop where
  purpose : e.1 = std.purpose.toNat
  name : e.2.1 = std.name
  address : AddressesAgree w std.purpose e.2.2

theorem sameStandards : List.Forall₂ (SameStandard w) kStandards (exportStandards py.sha256) :=
  .cons ⟨rfl, rfl, addressesAgree_p2wpkh hw⟩ <| .cons ⟨rfl, rfl, addressesAgree_p2tr hw⟩ <|
    .cons ⟨rfl, rfl, addressesAgree_p2shP2wpkh hw⟩ <| .cons ⟨rfl, rfl, addressesAgree_p2pkh hw⟩ .nil

variable (hint : ReadsDecimals py.int) {master : ExtKey} {x : KeyTree.Extended ℕ}
  (hmaster : HoldsPrivate master x) {network : Network} {fingerprint : String} {account : UInt32}
include hint hmaster

theorem accountLine_of_accountExport {std : Standard}
    {e : ℕ × String × (Bytes → String → Except Thrown String)} (hstd : SameStandard w std e)
    {a : AccountExport} (h : accountExport w master fingerprint network account std = some a)
    (hne : a.firstAddress ≠ "") :
    accountLine py (.ofExtended (netKeys (networkName network)) x) (networkName network)
      (SignerOS.coinType network).toNat account.toNat e = .ok (accountText a) := by
  obtain ⟨purpose, name, addressOf⟩ := e
  obtain ⟨rfl, rfl, hagree⟩ := hstd
  obtain ⟨⟨acct, xpub⟩, hderive, rfl⟩ := Option.map_eq_some_iff.mp h
  obtain ⟨y, hy, hlt, hxpub, hacct, hflag⟩ := account_of_deriveAccountPub hw hmaster hderive
  obtain ⟨first, pubkey, hfirst, hpub, haddr⟩ :=
    firstAddress_of_public hw hint hlt hacct hflag hagree hne (netKeys (networkName network))
  have hpath := derivePath_printed hint hmaster.lt (List.cons_ne_nil _ _)
    (printsSteps [std.purpose, SignerOS.coinType network, account]).path hy
  rw [accountLine]
  simp only [bind_eq_ok_iff, pure_eq_ok_iff]
  refine ⟨_, ?_, first, hfirst, xpub, hxpub, pubkey, hpub, _, haddr, ?_⟩
  · rw [printed_account]
    exact hpath _
  · rw [printed_account]
    rfl

theorem cosignerLine_of_cosignerKey {ms : MultisigStandard} {e : ℕ × String}
    (hms : e = (ms.scriptType.toNat, ms.name)) {c : CosignerKey}
    (h : cosignerKey w master fingerprint network account ms = some c) :
    cosignerLine py (.ofExtended (netKeys (networkName network)) x)
      (SignerOS.coinType network).toNat account.toNat e = .ok (cosignerText c) := by
  subst hms
  obtain ⟨⟨acct, xpub⟩, hderive, rfl⟩ := Option.map_eq_some_iff.mp h
  obtain ⟨y, hy, -, hxpub, -⟩ := account_of_deriveAccountPub hw hmaster hderive
  have hpath := derivePath_printed hint hmaster.lt (List.cons_ne_nil _ _)
    (printsSteps [48, SignerOS.coinType network, account, ms.scriptType]).path hy
  rw [cosignerLine]
  simp only [bind_eq_ok_iff, pure_eq_ok_iff]
  refine ⟨_, ?_, xpub, hxpub, ?_⟩
  · rw [printed_cosigner]
    exact hpath _
  · rw [printed_cosigner]
    rfl

end

/-! ## The whole export -/

/-- Two lists that go with a third, of which one is read for the other. -/
theorem mapM_of_forall₂ {α β γ δ ε : Type} {R : α → β → Prop} {S : α → γ → Prop}
    {f : β → Except ε δ} {g : γ → δ} {as : List α} {bs : List β} {cs : List γ}
    (hbs : List.Forall₂ R as bs) (hcs : List.Forall₂ S as cs)
    (h : ∀ a b c, c ∈ cs → R a b → S a c → f b = .ok (g c)) : bs.mapM f = .ok (cs.map g) := by
  induction hbs generalizing cs with
  | nil =>
    cases hcs
    rfl
  | cons hab _ ih =>
    cases hcs with
    | cons hac hcs =>
      rw [List.mapM_cons, h _ _ _ List.mem_cons_self hab hac,
        ih hcs fun a b c hc => h a b c (List.mem_cons_of_mem _ hc)]
      rfl

section
variable {w : Wally} {py : Python}

theorem fingerprint_of_exportOfMaster {master : ExtKey} {out we : WalletExport}
    (h : exportOfMaster w out master = .ok we) :
    ∃ fp, w.bip32KeyGetFingerprint master = some fp ∧ we.fingerprint = hexOf fp.toList := by
  unfold exportOfMaster at h
  split at h
  · cases h
  · next fp hfp =>
    dsimp only at h
    split at h
    · obtain rfl := Except.ok.inj h
      exact ⟨fp, hfp, rfl⟩
    · cases h

variable (hw : KeepsStandards w py.sha256 py.hmacSha512 py.pbkdf2HmacSha512)
include hw

/-- Both start from the same key. -/
theorem fromSeed_of_masterFromMnemonic {network : Network} {mnemonic passphrase : String}
    {master : ExtKey}
    (h : PsbtEngine.masterFromMnemonic w network mnemonic passphrase = .ok master) (net : String) :
    ∃ x, HoldsPrivate master x ∧
      HDKey.fromSeed py.hmacSha512 (bip39Seed py mnemonic passphrase) net = .ofExtended net x := by
  obtain ⟨pass, hpass⟩ : ∃ pass, pass = if passphrase.isEmpty then none else some passphrase :=
    ⟨_, rfl⟩
  have hgiven : pass.getD "" = passphrase := by
    rw [hpass]
    split
    · next hempty => exact (String.isEmpty_iff.mp hempty).symm
    · rfl
  rw [PsbtEngine.masterFromMnemonic] at h
  dsimp only at h
  rw [← hpass] at h
  split at h
  · cases h
  · split at h
    · cases h
    · next seed hseed =>
      split at h
      · cases h
      · next key hkey =>
        obtain rfl := Except.ok.inj h
        obtain ⟨x, hx, hholds⟩ := hw.master hkey
        rw [hw.seed hseed, hgiven] at hx
        exact ⟨x, hholds, (fromSeed_of_master hx net).1⟩

end

/-- Python's library, with its hashes written out. Of the keys that PBKDF2 makes, only the published
one is known here. -/
def publishedPython : Python where
  sha256 := hashlibSha256
  hmacSha256 := Fips180.hmac
  hmacSha512 key msg := ⟨(Sha512.hmac key msg).toArray, Sha512.length_hmac key msg⟩
  pbkdf2HmacSha512 password salt turns :=
    if password = testMnemonic.toUTF8.toList ∧ salt = "mnemonic".toUTF8.toList ∧ turns = 2048 then
      testSeed
    else []
  int := intOfDigits
  b64decode _ := .error (.valueError "Incorrect padding")
  fromhex _ := .error (.valueError "")
  str exc := reprStr exc

/-- libwally, with the same hashes. -/
def publishedWally : Wally :=
  standardWally publishedPython.sha256 publishedPython.hmacSha512 publishedPython.pbkdf2HmacSha512

/-- The bytes of a number. -/
def numbered (width n : ℕ) : Vector UInt8 width :=
  ⟨(Der.bytesOf width n).toArray, Der.length_bytesOf width n⟩

/-- The key of the test mnemonic. -/
def publishedMaster : ExtKey where
  chainCode := numbered 32 0x7923408dadd3c7b56eed15567707ae5e5dca089de972e07f3b860450e2a3b70e
  parent160 := .replicate 20 0x00
  depth := 0
  privKey := numbered 33 0x1837c1be8e2995ec11cda2b066151be2cfb48adf9e47b151d46adab3a21cdf67
  childNum := 0
  hash160 := numbered 20 0x73c5da0a03d2d0803b731f04242bb40ced2f8bbc
  version := bip32VerMainPrivate
  pubKey := numbered 33 0x03d902f35f560e0470c63313c7369168d9d7df2d49bf295fd9fb7cb109ccee0494

/-- The key of an account, three levels down and without its private part. -/
def publishedKey (chainCode parent hash pubKey : ℕ) : ExtKey where
  chainCode := numbered 32 chainCode
  parent160 := numbered 20 (parent * 2 ^ 128)
  depth := 3
  privKey := strippedPrivKey
  childNum := hardenedBit
  hash160 := numbered 20 hash
  version := bip32VerMainPublic
  pubKey := numbered 33 pubKey

/-- What is published of an account of the test mnemonic, and what libwally has for it. -/
structure PublishedAccount (std : Standard) where
  path : String
  key : ExtKey
  xpub : String
  address : String
  derived : deriveAccountPub publishedWally publishedMaster (accountPath .mainnet 0 std) .mainnet =
    some (key, xpub)
  found : firstAddressOf publishedWally key std.purpose .mainnet = address

def PublishedAccount.line {std : Standard} (a : PublishedAccount std) : String :=
  a.path ++ " " ++ a.xpub ++ " " ++ a.address

/-- The same of a cosigner key. -/
structure PublishedCosigner (ms : MultisigStandard) where
  path : String
  xpub : String
  derived : (deriveAccountPub publishedWally publishedMaster (cosignerPath .mainnet 0 ms)
    .mainnet).map Prod.snd = some xpub

def PublishedCosigner.line {ms : MultisigStandard} (c : PublishedCosigner ms) : String :=
  c.path ++ " " ++ c.xpub

-- the keys, checksums and addresses are computed in the kernel
def bip84 : PublishedAccount kStandards[0] where
  path := "BIP84 m/84'/0'/0'"
  key := publishedKey
    0x4a53a0ab21b9dc95869c4e92a161194e03c0ef3ff5014ac692f433c4765490fc 0x7ef32bdb
    0xfd13aac9a294188cdfe1331a8d94880bccbef8c1
    0x02707a62fdacc26ea9b63b1c197906f56ee0180d0bcf1966e1a2da34f5f3a09a9b
  xpub := "xpub6CatWdiZiodmUeTDp8LT5or8nmbKNcuyvz7WyksVFkKB4RHwCD3X" ++
    "yuvPEbvqAQY3rAPshWcMLoP2fMFMKHPJ4ZeZXYVUhLv1VMrjPC7PW6V"
  address := "bc1qcr8te4kr609gcawutmrza0j4xv80jy8z306fyu"
  derived := by decide +kernel
  found := by decide +kernel

def bip86 : PublishedAccount kStandards[1] where
  path := "BIP86 m/86'/0'/0'"
  key := publishedKey
    0xc61a8f27e98182314d2444da3e600eb5836ec8ad183c86c311f95df8082b18aa 0x035270da
    0xa7bea80d6739a3b7c44b581c5271a4f80b1357bb
    0x03418278a2885c8bb98148158d1474634097a179c642f23cf1cc04da629ac6f0fb
  xpub := "xpub6BgBgsespWvERF3LHQu6CnqdvfEvtMcQjYrcRzx53QJjSxarj2af" ++
    "YWcLteoGVky7D3UKDP9QyrLprQ3VCECoY49yfdDEHGCtMMj92pReUsQ"
  address := "bc1p5cyxnuxmeuwuvkwfem96lqzszd02n6xdcjrs20cac6yqjjwudpxqkedrcr"
  derived := by decide +kernel
  found := by decide +kernel

def bip49 : PublishedAccount kStandards[2] where
  path := "BIP49 m/49'/0'/0'"
  key := publishedKey
    0x6eaae365ae0e0a0aab84325cfe7cd76c3b909035f889e7d3f1b847a9a0797ecb 0x3d05ff75
    0x3a1612846f650e06b26c3c96b2c9f2dbbdbc5105
    0x02f1f347891b20f7568eae3ec9869fbfb67bcab6f358326f10ecc42356bd55939d
  xpub := "xpub6C6nQwHaWbSrzs5tZ1q7m5R9cPK9eYpNMFesiXsYrgc1P8bvLLAe" ++
    "t9JfHjYXKjToD8cBRswJXXbbFpXgwsswVPAZzKMa1jUp2kVkGVUaJa7"
  address := "37VucYSaXLCAsxYyAPfbSi9eh4iEcbShgf"
  derived := by decide +kernel
  found := by decide +kernel

def bip44 : PublishedAccount kStandards[3] where
  path := "BIP44 m/44'/0'/0'"
  key := publishedKey
    0x3da4bc190a2680111d31fadfdc905f2a7f6ce77c6f109919116f253d43445219 0x155bca59
    0x6cc9f2520fb8ab1da1f76d65cbbb95e6ac530589
    0x03774c910fcf07fa96886ea794f0d5caed9afe30b44b83f7e213bb92930e7df4bd
  xpub := "xpub6BosfCnifzxcFwrSzQiqu2DBVTshkCXacvNsWGYJVVhhawA7d4R5" ++
    "WSWGFNbi8Aw6ZRc1brxMyWMzG3DSSSSoekkudhUd9yLb6qx39T9nMdj"
  address := "1LqBGSKuX5yYUonjxT5qGfpUsXKYYWeabA"
  derived := by decide +kernel
  found := by decide +kernel

def cosignerSegwit : PublishedCosigner kCosignerStandards[0] where
  path := "BIP48/2h m/48'/0'/0'/2'"
  xpub := "xpub6DkFAXWQ2dHxq2vatrt9qyA3bXYU4ToWQwCHbf5XB2mSTexcHZCe" ++
    "KS1VZYcPoBd5X8yVcbXFHJR9R8UCVpt82VX1VhR28mCyxUFL4r6KFrf"
  derived := by decide +kernel

def cosignerNested : PublishedCosigner kCosignerStandards[1] where
  path := "BIP48/1h m/48'/0'/0'/1'"
  xpub := "xpub6DkFAXWQ2dHxnMKoSBogHrw1rgNJKR4umdbnNVNTYeCGcduxWnNU" ++
    "HgGptqEQWPKRmeW4Zn4FHSbLMBKEWYaMDYu47Ytg6DdFnPNt8hwn5mE"
  derived := by decide +kernel

theorem masterFromMnemonic_published :
    PsbtEngine.masterFromMnemonic publishedWally .mainnet testMnemonic "" =
      .ok publishedMaster := by
  decide +kernel

theorem fingerprint_published : ∃ fp,
    publishedWally.bip32KeyGetFingerprint publishedMaster = some fp ∧
      hexOf fp.toList = "73c5da0a" := by
  have hsome : (publishedWally.bip32KeyGetFingerprint publishedMaster).any
      (fun fp => hexOf fp.toList == "73c5da0a") = true := by decide +kernel
  obtain ⟨fp, hfp, hhex⟩ := (Option.any_eq_true _ _).mp hsome
  exact ⟨fp, hfp, eq_of_beq hhex⟩

/-- What is exported of an account, in terms of what is derived and what is found for it. -/
theorem accountExport_eq_some {w : Wally} {master acct : ExtKey} {network : Network}
    {account : UInt32} {std : Standard} {xpub address : String} (fingerprint path : String)
    (hacct : deriveAccountPub w master (accountPath network account std) network =
      some (acct, xpub))
    (haddress : firstAddressOf w acct std.purpose network = address) (hne : address ≠ "")
    (hpath : std.name ++ " " ++ ("m/" ++ "/".intercalate ([toString std.purpose.toNat,
      toString (SignerOS.coinType network).toNat, toString account.toNat].map (· ++ "'"))) =
        path) :
    ∃ e, accountExport w master fingerprint network account std = some e ∧
      e.firstAddress ≠ "" ∧ accountText e = path ++ " " ++ xpub ++ " " ++ address := by
  refine ⟨_, congrArg (Option.map _) hacct, haddress.trans_ne hne, ?_⟩
  rw [← hpath, ← haddress]
  rfl

theorem cosignerKey_eq_some {w : Wally} {master : ExtKey} {network : Network} {account : UInt32}
    {ms : MultisigStandard} {xpub : String} (fingerprint path : String)
    (hxpub : (deriveAccountPub w master (cosignerPath network account ms) network).map Prod.snd =
      some xpub)
    (hpath : ms.name ++ " " ++ ("m/" ++ "/".intercalate (["48",
      toString (SignerOS.coinType network).toNat, toString account.toNat,
      toString ms.scriptType.toNat].map (· ++ "'"))) = path) :
    ∃ e, cosignerKey w master fingerprint network account ms = some e ∧
      cosignerText e = path ++ " " ++ xpub := by
  obtain ⟨⟨key, _⟩, hkey, rfl⟩ := Option.map_eq_some_iff.mp hxpub
  refine ⟨_, congrArg (Option.map _) hkey, ?_⟩
  rw [← hpath]
  rfl

/-- What comes of the entries of a list, from what comes of each. -/
theorem exists_mapM_of_forall₂ {α β γ : Type} {f : α → Option β} {p : β → γ → Prop} {as : List α}
    {cs : List γ} (h : List.Forall₂ (fun a c => ∃ b, f a = some b ∧ p b c) as cs) :
    ∃ bs, as.mapM f = some bs ∧ List.Forall₂ p bs cs := by
  induction h with
  | nil => exact ⟨[], rfl, .nil⟩
  | cons hac _ ih =>
    obtain ⟨b, hb, hp⟩ := hac
    obtain ⟨bs, hbs, hps⟩ := ih
    refine ⟨b :: bs, ?_, .cons hp hps⟩
    rw [List.mapM_cons, hb, hbs]
    rfl

theorem map_eq_of_forall₂ {α β : Type} {f : α → β} {as : List α} {bs : List β}
    (h : List.Forall₂ (fun a b => f a = b) as bs) : as.map f = bs :=
  (congrFun₂ List.forall₂_eq_eq_eq _ _).mp (List.forall₂_map_left_iff.mpr h)

/-- The lines of the test mnemonic. -/
def publishedAccounts : List String :=
  [bip84.line, bip86.line, bip49.line, bip44.line]

def publishedCosigners : List String :=
  [cosignerSegwit.line, cosignerNested.line]

/-- The signer exports them. -/
theorem buildWalletExport_published : ∃ we,
    buildWalletExport publishedWally .clear testMnemonic "" .mainnet 0 = (.ok (), we, .clear) ∧
    we.fingerprint = "73c5da0a" ∧ (∀ a ∈ we.accounts, a.firstAddress ≠ "") ∧
    we.accounts.map accountText = publishedAccounts ∧
    we.cosigners.map cosignerText = publishedCosigners := by
  have haccounts : List.Forall₂ (fun std text => ∃ a,
      accountExport publishedWally publishedMaster "73c5da0a" .mainnet 0 std = some a ∧
        a.firstAddress ≠ "" ∧ accountText a = text) kStandards publishedAccounts := by
    refine .cons ?_ (.cons ?_ (.cons ?_ (.cons ?_ .nil)))
    · exact accountExport_eq_some _ bip84.path bip84.derived bip84.found (by decide) (by decide)
    · exact accountExport_eq_some _ bip86.path bip86.derived bip86.found (by decide) (by decide)
    · exact accountExport_eq_some _ bip49.path bip49.derived bip49.found (by decide) (by decide)
    · exact accountExport_eq_some _ bip44.path bip44.derived bip44.found (by decide) (by decide)
  have hcosigners : List.Forall₂ (fun ms text => ∃ c,
      cosignerKey publishedWally publishedMaster "73c5da0a" .mainnet 0 ms = some c ∧
        cosignerText c = text) kCosignerStandards publishedCosigners := by
    refine .cons ?_ (.cons ?_ .nil)
    · exact cosignerKey_eq_some _ cosignerSegwit.path cosignerSegwit.derived (by decide)
    · exact cosignerKey_eq_some _ cosignerNested.path cosignerNested.derived (by decide)
  obtain ⟨accounts, haccounts, htexts⟩ := exists_mapM_of_forall₂ haccounts
  obtain ⟨cosigners, hcosigners, hlines⟩ := exists_mapM_of_forall₂ hcosigners
  obtain ⟨haddr, htexts⟩ := (List.forall₂_and_left _ _).mp htexts
  obtain ⟨fp, hfp, hhex⟩ := fingerprint_published
  have hexport : exportOfMaster publishedWally
      { network := .mainnet, account := 0, passphraseUsed := false } publishedMaster = .ok
        { network := .mainnet, account := 0, passphraseUsed := false, fingerprint := "73c5da0a",
          accounts, cosigners } :=
    exportOfMaster_eq_ok hfp hhex haccounts hcosigners
  exact ⟨_, buildWalletExport_eq_ok (by decide +kernel) masterFromMnemonic_published hexport _, rfl,
    haddr, map_eq_of_forall₂ htexts, map_eq_of_forall₂ hlines⟩

end Verifier

end SignerOS
