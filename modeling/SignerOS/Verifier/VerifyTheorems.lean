import SignerOS.Verifier.Verify

/-!
# What the verdict means

* `checkInput_eq_ok_true_iff`, which input is good;
* `verifyParsed_eq_zero_iff`, which PSBT is;
* `eq_of_txid`, a transaction that has the id of another;
* `verify_exact`, a file passes exactly if it is the transaction that was generated, and each input
  is signed with its key.
-/

namespace SignerOS

namespace Verifier

/-! ## One input -/

theorem find_partialSig (m : Dict) (pub : Bytes) :
    m.find? (fun e => e.1.head? == some psbtInPartialSig && e.1.tail == pub) =
      (m.lookup (psbtInPartialSig :: pub)).map fun value => (psbtInPartialSig :: pub, value) := by
  induction m with
  | nil => rfl
  | cons e m ih =>
    obtain ⟨key, value⟩ := e
    have hkey : (key.head? == some psbtInPartialSig && key.tail == pub) =
        (psbtInPartialSig :: pub == key) := by
      cases key with
      | nil => rfl
      | cons b key =>
        rw [List.head?_cons, List.tail_cons, Bool.beq_comm, @Bool.beq_comm _ _ _ key]
        rfl
    rw [List.find?_cons, List.lookup_cons, ih, hkey]
    split
    · next h => rw [eq_of_beq h]; rfl
    · rfl

section
variable {py : Python} {turns : ℕ} {expected : Expected} {tx : Tx} {idx : ℕ} {expIn : ExpectedInput}
  {wantPub sig sig64 : Bytes} {line : String}

theorem checkSig64_eq_ok_true_iff :
    checkSig64 py turns expected tx idx expIn wantPub sig64 = .ok (true, line) ↔
      ∃ digest privKey ours,
        tx.bip143Sighash py.sha256 idx (p2pkhScript (hash160 py.sha256 wantPub)) expIn.value 0x01 =
          .ok digest ∧
        ecdsaVerify wantPub digest sig64 = .ok true ∧
        (expected.master py).derivePath py.hmacSha512 py.sha256 py.int expIn.path = .ok privKey ∧
        ecdsaSign py.hmacSha256 turns privKey.priv digest = .ok ours ∧
        line = validLine idx expIn ours sig64 := by
  rw [checkSig64]
  constructor
  · intro h
    obtain ⟨digest, hdigest, h⟩ := bind_eq_ok_iff.mp h
    obtain ⟨valid, hvalid, h⟩ := bind_eq_ok_iff.mp h
    cases valid with
    | false => cases h
    | true =>
      rw [if_neg (by simp)] at h
      obtain ⟨privKey, hkey, h⟩ := bind_eq_ok_iff.mp h
      obtain ⟨ours, hours, h⟩ := bind_eq_ok_iff.mp h
      have hline := (Prod.mk.inj (pure_eq_ok_iff.mp h)).2
      exact ⟨digest, privKey, ours, hdigest, hvalid, hkey, hours, hline.symm⟩
  · rintro ⟨digest, privKey, ours, hdigest, hvalid, hkey, hours, rfl⟩
    refine bind_eq_ok_iff.mpr ⟨digest, hdigest, bind_eq_ok_iff.mpr ⟨true, hvalid, ?_⟩⟩
    rw [if_neg (by simp)]
    exact bind_eq_ok_iff.mpr ⟨privKey, hkey, bind_eq_ok_iff.mpr ⟨ours, hours, rfl⟩⟩

theorem lastByte_eq_ok_iff {b : UInt8} : lastByte sig = .ok b ↔ ∃ der, sig = der ++ [b] := by
  cases sig using List.reverseRecOn with
  | nil => exact iff_of_false (fun h => by cases h) fun ⟨der, h⟩ => by simp at h
  | append_singleton der b' =>
    rw [lastByte, List.getLast?_concat]
    constructor
    · intro h
      exact ⟨der, by rw [Except.ok.inj h]⟩
    · rintro ⟨der', h⟩
      exact congrArg Except.ok (List.singleton_inj.mp (List.append_inj_right' h rfl))

theorem checkSig_eq_ok_true_iff :
    checkSig py turns expected tx idx expIn wantPub sig = .ok (true, line) ↔
      ∃ der sig64, sig = der ++ [0x01] ∧ derToSig64 der = .ok sig64 ∧
        checkSig64 py turns expected tx idx expIn wantPub sig64 = .ok (true, line) := by
  rw [checkSig]
  constructor
  · intro h
    obtain ⟨b, hb, h⟩ := bind_eq_ok_iff.mp h
    obtain ⟨der, rfl⟩ := lastByte_eq_ok_iff.mp hb
    split_ifs at h with hbyte
    · cases h
    · rw [not_not] at hbyte
      rw [List.dropLast_concat] at h
      match hder : derToSig64 der with
      | .error exc =>
        rw [hder] at h
        cases h
      | .ok sig64 =>
        rw [hder] at h
        exact ⟨der, sig64, by rw [hbyte], hder, h⟩
  · rintro ⟨der, sig64, rfl, hder, h⟩
    refine bind_eq_ok_iff.mpr ⟨0x01, lastByte_eq_ok_iff.mpr ⟨der, rfl⟩, ?_⟩
    rw [if_neg (by simp), List.dropLast_concat, hder]
    exact h

/-- An input carries a signature for the public key that is expected, of everything, and it is
accepted; and the key of its path can be made and signs too. -/
def Vouched (py : Python) (turns : ℕ) (expected : Expected) (tx : Tx) (idx : ℕ) (inMap : Dict)
    (expIn : ExpectedInput) (line : String) : Prop :=
  ∃ wantPub der sig64 digest privKey ours, py.fromhex expIn.pubkey = .ok wantPub ∧
    inMap.lookup (psbtInPartialSig :: wantPub) = some (der ++ [0x01]) ∧
    derToSig64 der = .ok sig64 ∧
    tx.bip143Sighash py.sha256 idx (p2pkhScript (hash160 py.sha256 wantPub)) expIn.value 0x01 =
      .ok digest ∧
    ecdsaVerify wantPub digest sig64 = .ok true ∧
    (expected.master py).derivePath py.hmacSha512 py.sha256 py.int expIn.path = .ok privKey ∧
    ecdsaSign py.hmacSha256 turns privKey.priv digest = .ok ours ∧
    line = validLine idx expIn ours sig64

theorem checkInput_eq_ok_true_iff {inMap : Dict} :
    checkInput py turns expected tx idx inMap expIn = .ok (true, line) ↔
      Vouched py turns expected tx idx inMap expIn line := by
  rw [checkInput]
  simp only [find_partialSig]
  constructor
  · intro h
    obtain ⟨wantPub, hpub, h⟩ := bind_eq_ok_iff.mp h
    match hlookup : inMap.lookup (psbtInPartialSig :: wantPub) with
    | none =>
      rw [hlookup] at h
      cases h
    | some sig =>
      rw [hlookup] at h
      obtain ⟨der, sig64, rfl, hder, h⟩ := checkSig_eq_ok_true_iff.mp h
      obtain ⟨digest, privKey, ours, h⟩ := checkSig64_eq_ok_true_iff.mp h
      exact ⟨wantPub, der, sig64, digest, privKey, ours, hpub, hlookup, hder, h⟩
  · rintro ⟨wantPub, der, sig64, digest, privKey, ours, hpub, hlookup, hder, h⟩
    refine bind_eq_ok_iff.mpr ⟨wantPub, hpub, ?_⟩
    rw [hlookup]
    exact checkSig_eq_ok_true_iff.mpr ⟨der, sig64, rfl, hder,
      checkSig64_eq_ok_true_iff.mpr ⟨digest, privKey, ours, h⟩⟩

/-! ## All inputs -/

theorem mapM_all_iff {α β ε : Type} {f : α → Except ε (Bool × β)} {xs : List α} {ys : List β} :
    (∃ rs, xs.mapM f = .ok rs ∧ rs.countP (fun r => !r.1) = 0 ∧ rs.map Prod.snd = ys) ↔
      List.Forall₂ (fun x y => f x = .ok (true, y)) xs ys := by
  induction xs generalizing ys with
  | nil =>
    rw [List.forall₂_nil_left_iff]
    constructor
    · rintro ⟨rs, h, -, rfl⟩
      cases h
      rfl
    · rintro rfl
      exact ⟨[], rfl, rfl, rfl⟩
  | cons x xs ih =>
    rw [List.mapM_cons]
    constructor
    · rintro ⟨rs, h, hall, rfl⟩
      obtain ⟨⟨accepted, y⟩, hx, h⟩ := bind_eq_ok_iff.mp h
      obtain ⟨rs', hxs, h⟩ := bind_eq_ok_iff.mp h
      obtain rfl := pure_eq_ok_iff.mp h
      cases accepted with
      | false =>
        rw [List.countP_cons_of_pos rfl] at hall
        cases hall
      | true =>
        rw [List.countP_cons_of_neg (by simp)] at hall
        exact List.Forall₂.cons hx (ih.mp ⟨rs', hxs, hall, rfl⟩)
    · intro h
      cases h with
      | cons hx hxs =>
        obtain ⟨rs', hrs', hall, rfl⟩ := ih.mpr hxs
        refine ⟨_, bind_eq_ok_iff.mpr ⟨_, hx, bind_eq_ok_iff.mpr ⟨rs', hrs', rfl⟩⟩, ?_, rfl⟩
        rw [List.countP_cons_of_neg (by simp), hall]

theorem verdict_eq {out : List String} {inputs : ℕ} {results : List (Bool × String)}
    (h : results.countP (fun r => !r.1) = 0) :
    verdict out inputs results = (out ++ [passLine results.length inputs], 0) := by
  have hchecked : results.countP (fun r => r.1) = results.length := by
    rw [List.countP_eq_length]
    rw [List.countP_eq_zero] at h
    intro r hr
    simpa using h r hr
  rw [verdict, if_neg (not_not.mpr h), hchecked]

theorem countP_eq_zero_of_verdict {out printed : List String} {inputs : ℕ}
    {results : List (Bool × String)} (h : verdict out inputs results = (printed, 0)) :
    results.countP (fun r => !r.1) = 0 := by
  rw [verdict] at h
  split at h
  · cases h
  · next hzero => exact not_not.mp hzero

/-- A PSBT is good if it has the transaction that was generated, and all its inputs are good. -/
theorem verifyParsed_eq_zero_iff {ins : List Dict} {unsigned : Bytes} {printed : List String} :
    verifyParsed py turns expected ins unsigned = .ok (printed, 0) ↔
      ∃ tx lines, parseTx unsigned = .ok tx ∧ tx.txid py.sha256 = .ok expected.txidUnsigned ∧
        ins.length = expected.inputs.length ∧
        List.Forall₂ (fun e line => Vouched py turns expected tx e.2 e.1.1 e.1.2 line)
          (ins.zip expected.inputs).zipIdx lines ∧
        printed = [txidLine expected.txidUnsigned] ++ lines ++ [passLine ins.length ins.length] := by
  rw [verifyParsed]
  constructor
  · intro h
    obtain ⟨tx, htx, h⟩ := bind_eq_ok_iff.mp h
    obtain ⟨txid, htxid, h⟩ := bind_eq_ok_iff.mp h
    split_ifs at h with hsame hlength
    · cases h
    · cases h
    · rw [not_not] at hsame hlength
      obtain ⟨rs, hrs, h⟩ := bind_eq_ok_iff.mp h
      have hverdict := pure_eq_ok_iff.mp h
      have hfailures := countP_eq_zero_of_verdict hverdict
      have hall := mapM_all_iff.mp ⟨rs, hrs, hfailures, rfl⟩
      have hcount := hall.length_eq
      rw [List.length_map, List.length_zipIdx, List.length_zip, ← hlength, Nat.min_self] at hcount
      rw [verdict_eq hfailures, hsame, ← hcount] at hverdict
      refine ⟨tx, rs.map Prod.snd, mapError_eq_ok_iff.mp htx, ?_, hlength,
        hall.imp fun e line h => checkInput_eq_ok_true_iff.mp h, (Prod.mk.inj hverdict).1.symm⟩
      rw [← hsame]
      exact mapError_eq_ok_iff.mp htxid
  · rintro ⟨tx, lines, htx, htxid, hlength, hall, rfl⟩
    obtain ⟨rs, hrs, hfailures, rfl⟩ := mapM_all_iff.mpr
      (hall.imp fun e line h => checkInput_eq_ok_true_iff.mpr h)
    have hcount := hall.length_eq
    rw [List.length_map, List.length_zipIdx, List.length_zip, ← hlength, Nat.min_self] at hcount
    refine bind_eq_ok_iff.mpr ⟨tx, mapError_eq_ok_iff.mpr htx,
      bind_eq_ok_iff.mpr ⟨_, mapError_eq_ok_iff.mpr htxid, ?_⟩⟩
    rw [if_neg (not_not.mpr rfl), if_neg (not_not.mpr hlength)]
    refine bind_eq_ok_iff.mpr ⟨rs, hrs, pure_eq_ok_iff.mpr ?_⟩
    rw [verdict_eq hfailures, ← hcount]

theorem verify_eq_zero_iff {outDir path : String} {listdir : List String} {read : String → Bytes} :
    (∃ printed, verify py turns expected outDir listdir read (some path) = .ok (printed, 0)) ↔
      ∃ g ins outs unsigned printed,
        parsePsbt py.b64decode (read path) = .ok (g, ins, outs, unsigned) ∧
        verifyParsed py turns expected ins unsigned = .ok (printed, 0) := by
  rw [verify, Option.some_or]
  dsimp only
  match parsePsbt py.b64decode (read path) with
  | .error exc => exact iff_of_false (fun ⟨_, h⟩ => by cases h) fun ⟨_, _, _, _, _, h, _⟩ => by cases h
  | .ok (g, ins, outs, unsigned) =>
    constructor
    · rintro ⟨printed, h⟩
      obtain ⟨⟨lines, code⟩, hlines, h⟩ := bind_eq_ok_iff.mp h
      have hcode := (Prod.mk.inj (pure_eq_ok_iff.mp h)).2
      dsimp only at hcode
      exact ⟨g, ins, outs, unsigned, lines, rfl, by rw [hlines, hcode]⟩
    · rintro ⟨_, _, _, _, lines, ⟨⟩, h⟩
      exact ⟨_, bind_eq_ok_iff.mpr ⟨_, h, rfl⟩⟩

/-! ## With the keys of the paths -/

/-- The input carries what the key signs with some nonce, and the key signs too when the verifier
lets it. -/
def SignedBy (py : Python) (turns : ℕ) (tx : Tx) (idx : ℕ) (inMap : Dict) (expIn : ExpectedInput)
    (key : HDKey) : Prop :=
  ∃ pub der sig64 digest nonce ours, key.pub = .ok pub ∧
    inMap.lookup (psbtInPartialSig :: pub) = some (der ++ [0x01]) ∧ derToSig64 der = .ok sig64 ∧
    tx.bip143Sighash py.sha256 idx (p2pkhScript (hash160 py.sha256 pub)) expIn.value 0x01 =
      .ok digest ∧
    signWith key.priv digest nonce = .ok (some sig64) ∧
    ecdsaSign py.hmacSha256 turns key.priv digest = .ok ours

/-- The public key that is expected is that of the path. -/
def KeyOf (py : Python) (expected : Expected) (expIn : ExpectedInput) (key : HDKey) : Prop :=
  (expected.master py).derivePath py.hmacSha512 py.sha256 py.int expIn.path = .ok key ∧
    ∃ pub, key.pub = .ok pub ∧ py.fromhex expIn.pubkey = .ok pub

theorem length_sig64 {der sig : Bytes} (h : derToSig64 der = .ok sig) : sig.length = 64 := by
  obtain ⟨p, -, -, rfl⟩ := derToSig64_eq_ok_iff.mp h
  rw [Parts.sig64, List.length_append, Der.length_bytesOf, Der.length_bytesOf]

theorem exists_point {key : HDKey} {pub : Bytes} (h : key.pub = .ok pub) :
    ∃ p, decompress pub = .ok p ∧ ptMul (Der.natOf key.priv) = some p := by
  obtain ⟨p, pubkey, hmul, hcompress, -, hread⟩ := exists_pubkey (scalar_of_pub h)
  rw [HDKey.pub, hmul, hcompress] at h
  exact ⟨p, Except.ok.inj h ▸ hread, hmul⟩

theorem exists_vouched_iff {inMap : Dict} {key : HDKey} (hkey : KeyOf py expected expIn key) :
    (∃ line, Vouched py turns expected tx idx inMap expIn line) ↔
      SignedBy py turns tx idx inMap expIn key := by
  obtain ⟨hpath, pub, hpub, hhex⟩ := hkey
  obtain ⟨p, hread, hmul⟩ := exists_point hpub
  constructor
  · rintro ⟨line, wantPub, der, sig64, digest, privKey, ours, hwant, hlookup, hder, hdigest, hvalid,
      hpriv, hours, -⟩
    obtain rfl := Except.ok.inj (hhex.symm.trans hwant)
    obtain rfl := Except.ok.inj (hpath.symm.trans hpriv)
    obtain ⟨nonce, hsign⟩ := (accepted_iff_exists_nonce hread hmul (length_sig64 hder)).mp hvalid
    exact ⟨pub, der, sig64, digest, nonce, ours, hpub, hlookup, hder, hdigest, hsign, hours⟩
  · rintro ⟨pub', der, sig64, digest, nonce, ours, hpub', hlookup, hder, hdigest, hsign, hours⟩
    obtain rfl := Except.ok.inj (hpub.symm.trans hpub')
    have hvalid := (accepted_iff_exists_nonce hread hmul (length_sig64 hder)).mpr ⟨nonce, hsign⟩
    exact ⟨_, pub, der, sig64, digest, key, ours, hhex, hlookup, hder, hdigest, hvalid, hpath, hours,
      rfl⟩

theorem exists_forall₂_iff {α β : Type} {R : α → β → Prop} {xs : List α} :
    (∃ ys, List.Forall₂ R xs ys) ↔ ∀ x ∈ xs, ∃ y, R x y := by
  induction xs with
  | nil => exact iff_of_true ⟨[], List.Forall₂.nil⟩ fun x hx => absurd hx List.not_mem_nil
  | cons x xs ih =>
    rw [List.forall_mem_cons, ← ih]
    constructor
    · rintro ⟨ys, h⟩
      cases h with
      | cons hx hxs => exact ⟨⟨_, hx⟩, _, hxs⟩
    · rintro ⟨⟨y, hx⟩, ys, hxs⟩
      exact ⟨y :: ys, List.Forall₂.cons hx hxs⟩

theorem keyOf_of_getElem? {keys : List HDKey} {idx : ℕ} {key : HDKey}
    (hkeys : List.Forall₂ (KeyOf py expected) expected.inputs keys)
    (hexp : expected.inputs[idx]? = some expIn) (hkey : keys[idx]? = some key) :
    KeyOf py expected expIn key :=
  (List.forall₂_iff_zip.mp hkeys).2
    (List.mem_of_getElem? (List.getElem?_zip_eq_some.mpr ⟨hexp, hkey⟩))

/-- A file passes exactly if it holds the transaction that was generated, and every input is signed
with the key of its path. -/
theorem verify_exact (py : Python) (turns : ℕ) {expected : Expected} {keys : List HDKey} {tx : Tx}
    {outDir path : String} {listdir : List String} {read : String → Bytes}
    (hkeys : List.Forall₂ (KeyOf py expected) expected.inputs keys)
    (htx : ∀ i ∈ tx.vin, i.txidLe.length = 32)
    (htxid : tx.txid py.sha256 = .ok expected.txidUnsigned)
    (hcollision : ∀ g ins outs unsigned tx' b b',
      parsePsbt py.b64decode (read path) = .ok (g, ins, outs, unsigned) →
      parseTx unsigned = .ok tx' → tx'.serialize = .ok b → tx.serialize = .ok b' →
      dsha256 py.sha256 b = dsha256 py.sha256 b' → b = b') :
    (∃ printed, verify py turns expected outDir listdir read (some path) = .ok (printed, 0)) ↔
      ∃ g ins outs unsigned,
        parsePsbt py.b64decode (read path) = .ok (g, ins, outs, unsigned) ∧
        parseTx unsigned = .ok tx ∧ ins.length = expected.inputs.length ∧
        ∀ idx inMap expIn key, ins[idx]? = some inMap → expected.inputs[idx]? = some expIn →
          keys[idx]? = some key → SignedBy py turns tx idx inMap expIn key := by
  have hall (ins : List Dict) :
      (∃ lines, List.Forall₂ (fun e line => Vouched py turns expected tx e.2 e.1.1 e.1.2 line)
        (ins.zip expected.inputs).zipIdx lines) ↔
      ∀ idx inMap expIn key, ins[idx]? = some inMap → expected.inputs[idx]? = some expIn →
        keys[idx]? = some key → SignedBy py turns tx idx inMap expIn key := by
    rw [exists_forall₂_iff]
    constructor
    · intro h idx inMap expIn key hmap hexp hkey
      refine (exists_vouched_iff (keyOf_of_getElem? hkeys hexp hkey)).mp (h ((inMap, expIn), idx) ?_)
      exact List.mk_mem_zipIdx_iff_getElem?.mpr (List.getElem?_zip_eq_some.mpr ⟨hmap, hexp⟩)
    · rintro h ⟨⟨inMap, expIn⟩, idx⟩ hmem
      obtain ⟨hmap, hexp⟩ :=
        List.getElem?_zip_eq_some.mp (List.mk_mem_zipIdx_iff_getElem?.mp hmem)
      obtain ⟨hlt, -⟩ := List.getElem?_eq_some_iff.mp hexp
      rw [hkeys.length_eq] at hlt
      have hkey : keys[idx]? = some keys[idx] := List.getElem?_eq_getElem hlt
      exact (exists_vouched_iff (keyOf_of_getElem? hkeys hexp hkey)).mpr
        (h idx inMap expIn _ hmap hexp hkey)
  rw [verify_eq_zero_iff]
  constructor
  · rintro ⟨g, ins, outs, unsigned, printed, hparse, h⟩
    obtain ⟨tx', lines, htx', htxid', hlength, hlines, -⟩ := verifyParsed_eq_zero_iff.mp h
    obtain rfl : tx' = tx := Tx.eq_of_txid (length_txidLe_of_parseTx htx') htx
      (fun b b' => hcollision g ins outs unsigned tx' b b' hparse htx') htxid' htxid
    exact ⟨g, ins, outs, unsigned, hparse, htx', hlength, (hall ins).mp ⟨lines, hlines⟩⟩
  · rintro ⟨g, ins, outs, unsigned, hparse, htx', hlength, hsigned⟩
    obtain ⟨lines, hlines⟩ := (hall ins).mpr hsigned
    exact ⟨g, ins, outs, unsigned, _, hparse,
      verifyParsed_eq_zero_iff.mpr ⟨tx, lines, htx', htxid, hlength, hlines, rfl⟩⟩

end

/-- The seed of `testMnemonic`. -/
def testSeed : Bytes := [
    0x5e, 0xb0, 0x0b, 0xbd, 0xdc, 0xf0, 0x69, 0x08, 0x48, 0x89, 0xa8, 0xab, 0x91, 0x55, 0x56, 0x81,
    0x65, 0xf5, 0xc4, 0x53, 0xcc, 0xb8, 0x5e, 0x70, 0x81, 0x1a, 0xae, 0xd6, 0xf6, 0xda, 0x5f, 0xc1,
    0x9a, 0x5a, 0xc4, 0x0b, 0x38, 0x9c, 0xd3, 0x70, 0xd0, 0x86, 0x20, 0x6d, 0xec, 0x8a, 0xa6, 0xc4,
    0x3d, 0xae, 0xa6, 0x69, 0x0f, 0x20, 0xad, 0x3d, 0x8d, 0x48, 0xb2, 0xd2, 0xce, 0x9e, 0x38, 0xe4]

/-- What `hmac` makes of the seed. -/
def testMaster : Vector UInt8 64 := #v[
    0x18, 0x37, 0xc1, 0xbe, 0x8e, 0x29, 0x95, 0xec, 0x11, 0xcd, 0xa2, 0xb0, 0x66, 0x15, 0x1b, 0xe2,
    0xcf, 0xb4, 0x8a, 0xdf, 0x9e, 0x47, 0xb1, 0x51, 0xd4, 0x6a, 0xda, 0xb3, 0xa2, 0x1c, 0xdf, 0x67,
    0x79, 0x23, 0x40, 0x8d, 0xad, 0xd3, 0xc7, 0xb5, 0x6e, 0xed, 0x15, 0x56, 0x77, 0x07, 0xae, 0x5e,
    0x5d, 0xca, 0x08, 0x9d, 0xe9, 0x72, 0xe0, 0x7f, 0x3b, 0x86, 0x04, 0x50, 0xe2, 0xa3, 0xb7, 0x0e]

def testKey : HDKey := HDKey.fromSeed (fun _ _ => testMaster) testSeed

/-- Python's library, as far as it goes for a key of the path "m" whose public key is `pub`. -/
def testPython (pub : Bytes) : Python where
  sha256 := hashlibSha256
  hmacSha256 := Fips180.hmac
  hmacSha512 := fun _ _ => testMaster
  pbkdf2HmacSha512 := fun _ _ _ => testSeed
  int := intOfDigits
  b64decode := fun _ => .error (.valueError "Incorrect padding")
  fromhex := fun s => if s = hexOf pub then .ok pub else .error (.valueError "")
  str := fun exc => reprStr exc

/-- The transaction of `txOne` in a PSBT that nobody has signed. -/
def psbtOne : Bytes :=
  let raw := txOne.serialize.toOption.getD []
  psbtMagic ++ [0x01, 0x00, UInt8.ofNat raw.length] ++ raw ++ [0x00, 0x00, 0x00]

theorem parsePsbt_psbtOne (b64decode : String → Except Raised Bytes) :
    ∃ raw, txOne.serialize = .ok raw ∧ parseTx raw = .ok txOne ∧
      parsePsbt b64decode psbtOne = .ok ([([0x00], raw)], [[]], [[]], raw) := by
  refine ⟨_, rfl, rfl, ?_⟩
  rw [parsePsbt, if_pos (by decide +kernel)]
  rfl

theorem verify_exact_one : ∃ pub, testKey.pub = .ok pub ∧
    ∃ expected, expected.inputs = [⟨"m", hexOf pub, 6000, "bc1"⟩] ∧
      ((∃ printed, verify (testPython pub) 1 expected "." [] (fun _ => psbtOne)
          (some "signed_one.psbt") = .ok (printed, 0)) ↔
        ∃ g ins outs unsigned,
          parsePsbt (testPython pub).b64decode psbtOne = .ok (g, ins, outs, unsigned) ∧
          parseTx unsigned = .ok txOne ∧ ins.length = expected.inputs.length ∧
          ∀ idx inMap expIn key, ins[idx]? = some inMap → expected.inputs[idx]? = some expIn →
            [testKey][idx]? = some key → SignedBy (testPython pub) 1 txOne idx inMap expIn key) := by
  have hscalar : testKey.scalar % N ≠ 0 := by decide +kernel
  obtain ⟨-, pub, -, hpub, -⟩ := HDKey.exists_pub hscalar
  obtain ⟨id, hid⟩ : ∃ id, txOne.txid hashlibSha256 = .ok id := ⟨_, rfl⟩
  obtain ⟨raw, hraw, hparse, hpsbt⟩ := parsePsbt_psbtOne (testPython pub).b64decode
  refine ⟨pub, hpub, ⟨"mainnet", testMnemonic, id, [⟨"m", hexOf pub, 6000, "bc1"⟩]⟩, rfl,
    verify_exact (testPython pub) 1 ?_ (by decide) hid ?_⟩
  · have hparts : "m".toList.splitOn '/' = [['m']] := by decide +kernel
    refine List.Forall₂.cons ⟨?_, pub, hpub, if_pos rfl⟩ List.Forall₂.nil
    rw [HDKey.derivePath, hparts]
    rfl
  · intro g ins outs unsigned tx' b b' hfile htx' hb hb' _
    -- both are the bytes of the same transaction
    rw [hpsbt] at hfile
    cases hfile
    rw [hparse] at htx'
    cases htx'
    exact Except.ok.inj (hb.symm.trans hb')

end Verifier

end SignerOS
