import SignerOS.Wally
import SignerOS.Verifier.StandardsTheorems

/-!
# What libwally promises an export

The calls of libwally that an export makes, in terms of the standards, and a library that makes them
good: the fields of its keys are computed with points in coordinates.

* `quickMul_eq`, multiples of the generator, of which the kernel of Lean can compute large ones;
* `keepsStandards_standardWally`, the library keeps to the standards, whatever the hashes are.
-/

namespace SignerOS

namespace Verifier

open Standards (written tree)

/-! ## What libwally promises -/

/-- The fields of a key of libwally that say which public key it is. -/
structure HoldsPublic (k : ExtKey) (x : KeyTree.Extended Secp) : Prop where
  pub : written x.key = some k.pubKey.toList
  chain : x.chain = k.chainCode.toList
  depth : x.depth = k.depth.toNat
  parent : x.parent = k.parent160.toList.take 4
  number : x.number = k.childNum.toNat

/-- A private key of libwally. -/
structure HoldsPrivate (k : ExtKey) (x : KeyTree.Extended ℕ) : Prop
    extends HoldsPublic k (x.map (· • generator)) where
  lt : x.key < N
  priv : k.privKey.toList = 0x00 :: Der.bytesOf 32 x.key

/-- The child numbers of a path. -/
def indices (path : List UInt32) : List ℕ := path.map UInt32.toNat

/-- A call of libwally that succeeds gives what its standard says: BIP39 and BIP32 for the keys,
and base58, BIP141 and BIP341 for the addresses. -/
structure KeepsStandards (w : Wally) (sha256 : Sha256) (hmacSha512 : HmacSha512)
    (pbkdf2 : Bytes → Bytes → ℕ → Bytes) : Prop where
  seed : ∀ {mnemonic passphrase seed},
    w.bip39MnemonicToSeed512 mnemonic passphrase = some seed →
      seed = Standards.seedOf pbkdf2 mnemonic (passphrase.getD "")
  master : ∀ {seed version k}, w.bip32KeyFromSeed seed version = some k →
    ∃ x, (tree sha256 hmacSha512).master seed = some x ∧ HoldsPrivate k x
  child : ∀ {k x path c}, HoldsPrivate k x →
    w.bip32KeyFromParentPath k path .keyPrivate = some c →
      ∃ y, (indices path).foldlM (tree sha256 hmacSha512).privateChild x = some y ∧
        HoldsPrivate c y
  childPublic : ∀ {k x path c}, HoldsPublic k x →
    k.privKey.toList.head? ≠ some bip32FlagKeyPrivate →
    w.bip32KeyFromParentPath k path .keyPublic = some c →
      ∃ y, (indices path).foldlM (tree sha256 hmacSha512).publicChild x = some y ∧
        HoldsPublic c y
  strip : ∀ {k k'}, w.bip32KeyStripPrivateKey k = some k' →
    k' = { k with privKey := k'.privKey } ∧ k'.privKey.toList.head? ≠ some bip32FlagKeyPrivate
  base58 : ∀ {k x s}, HoldsPublic k x → w.bip32KeyToBase58 k .keyPublic = some s →
    ∃ bytes, (tree sha256 hmacSha512).serialized k.version.toNat x = some bytes ∧
      s = Standards.base58Check sha256 bytes
  fingerprint : ∀ {k fp}, w.bip32KeyGetFingerprint k = some fp →
    fp.toList = (Standards.hash160 sha256 k.pubKey.toList).take 4
  p2pkh : ∀ {k version s}, w.bip32KeyToAddress k .p2pkh version = some s →
    s = Standards.base58Check sha256
      (UInt8.ofNat version.toNat :: Standards.hash160 sha256 k.pubKey.toList)
  p2shP2wpkh : ∀ {k version s}, w.bip32KeyToAddress k .p2shP2wpkh version = some s →
    s = Standards.base58Check sha256 (UInt8.ofNat version.toNat :: Standards.hash160 sha256
      (0x00 :: 0x14 :: Standards.hash160 sha256 k.pubKey.toList))
  segwit : ∀ {k text s}, w.bip32KeyToAddrSegwit k text = some s →
    Standards.SegwitAddress text 0 (Standards.hash160 sha256 k.pubKey.toList) s
  p2tr : ∀ {p pubkey script}, written p = some pubkey →
    w.scriptpubkeyP2trFromBytes pubkey = some script →
      ∃ output, Standards.taprootOutput sha256 p = some output ∧ script = 0x51 :: 0x20 :: output
  taproot : ∀ {program text s}, program.length = 32 →
    w.addrSegwitFromBytes (0x51 :: 0x20 :: program) text = some s →
      Standards.SegwitAddress text 1 program s

/-! ## Keys in coordinates -/

/-- A multiple of the generator, with one division at its end if no turn is at infinity. -/
def quickMul (k : ℕ) : Point :=
  match MordellCurve.Triple.multiple P GX GY 256 k with
  | some t =>
    let z := Powering.powMod t.z (P - 2) P
    some (t.x * z ^ 2 % P, t.y * z ^ 3 % P)
  | none => ptMul k

theorem quickMul_eq (k : ℕ) : quickMul k = ofPoint (k • generator) := by
  rw [quickMul]
  split
  · next t ht =>
    obtain ⟨hz, h, hmultiple⟩ :=
      MordellCurve.represents_multiple generator_nonsingular smooth.two_ne_zero ht
    have hinv : ((Powering.powMod t.z (P - 2) P : ℤ) : ZMod P) = (t.z : ZMod P)⁻¹ := by
      rw [Powering.cast_powMod, pow_sub_two hz]
    have hquot (c : ℤ) (n : ℕ) :
        c * Powering.powMod t.z (P - 2) P ^ n % P = (((c : ZMod P) / t.z ^ n).val : ℤ) := by
      refine emod_eq_val ?_
      rw [Int.cast_mul, Int.cast_pow, hinv, inv_pow, div_eq_mul_inv]
    rw [generator, hmultiple, ofPoint]
    simp only [hquot]
  · rw [ptMul_generator, Int.cast_natCast, Nat.cast_smul_eq_nsmul]

/-- The tree of keys over coordinates. -/
def pointTree (sha256 : Sha256) (hmacSha512 : HmacSha512) : KeyTree.Scheme Point where
  order := N
  point := quickMul
  add := ptAdd
  written p := (compress p).toOption
  hmac key data := (hmacSha512 key data).toList
  hash := Standards.hash160 sha256

theorem hom_pointTree (sha256 : Sha256) (hmacSha512 : HmacSha512) :
    KeyTree.Scheme.Hom (tree sha256 hmacSha512) (pointTree sha256 hmacSha512) ofPoint where
  order := rfl
  hmac := rfl
  hash := rfl
  point k := (quickMul_eq k).symm
  add p q := (ptAdd_ofPoint p q).symm
  written p := Option.ext fun b => by
    change written p = some b ↔ (compress (ofPoint p)).toOption = some b
    rw [toOption_eq_some_iff, compress_eq_ok_iff_written]

/-- Bytes of a given number. -/
def vectorOf (n : ℕ) (bs : Bytes) : Option (Vector UInt8 n) :=
  if h : bs.length = n then some ⟨bs.toArray, by rw [List.size_toArray, h]⟩ else none

theorem toList_of_vectorOf {n : ℕ} {bs : Bytes} {v : Vector UInt8 n} (h : vectorOf n bs = some v) :
    v.toList = bs := by
  rw [vectorOf] at h
  split at h
  · obtain rfl := Option.some.inj h
    rfl
  · cases h

section
variable (sha256 : Sha256) {K : Type}

/-- The fields of an extended key, if they have room. -/
def extKeyOf (version : UInt32) (priv pub : Bytes) (x : KeyTree.Extended K) : Option ExtKey := do
  let pubKey ← vectorOf 33 pub
  let privKey ← vectorOf 33 priv
  let chainCode ← vectorOf 32 x.chain
  let parent160 ← vectorOf 20 (x.parent ++ List.replicate 16 0x00)
  let hash160 ← vectorOf 20 (Standards.hash160 sha256 pub)
  if x.parent.length = 4 ∧ x.depth < 256 ∧ x.number < 2 ^ 32 then
    return { chainCode, parent160, privKey, hash160, version, pubKey
             depth := UInt8.ofNat x.depth, childNum := UInt32.ofNat x.number }
  else none

theorem fields_of_extKeyOf {version : UInt32} {priv pub : Bytes} {x : KeyTree.Extended K}
    {k : ExtKey} (h : extKeyOf sha256 version priv pub x = some k) :
    k.pubKey.toList = pub ∧ k.privKey.toList = priv ∧ x.chain = k.chainCode.toList ∧
      x.depth = k.depth.toNat ∧ x.parent = k.parent160.toList.take 4 ∧
      x.number = k.childNum.toNat := by
  simp only [extKeyOf, Option.bind_eq_bind, Option.bind_eq_some_iff] at h
  obtain ⟨pubKey, hpub, privKey, hpriv, chain, hchain, parent, hparent, hash, -, h⟩ := h
  split_ifs at h with hrange
  obtain rfl := Option.some.inj h
  obtain ⟨hlength, hdepth, hnumber⟩ := hrange
  refine ⟨toList_of_vectorOf hpub, toList_of_vectorOf hpriv, (toList_of_vectorOf hchain).symm,
    (UInt8.toNat_ofNat_of_lt' hdepth).symm, ?_, (UInt32.toNat_ofNat_of_lt' hnumber).symm⟩
  rw [toList_of_vectorOf hparent, List.take_left' hlength]

def privateKey (version : UInt32) (x : KeyTree.Extended ℕ) : Option ExtKey := do
  extKeyOf sha256 version (0x00 :: Der.bytesOf 32 x.key) (← (compress (quickMul x.key)).toOption) x

/-- `BIP32_FLAG_KEY_PUBLIC`, and nothing behind it. -/
def strippedPrivKey : Vector UInt8 33 := Vector.append (n := 1) #v[0x01] (Vector.replicate 32 0x00)

def publicKey (version : UInt32) (x : KeyTree.Extended Point) : Option ExtKey := do
  extKeyOf sha256 version strippedPrivKey.toList (← (compress x.key).toOption) x

/-- The private key that the fields hold. -/
def privateOf (k : ExtKey) : KeyTree.Extended ℕ where
  key := Der.natOf k.privKey.toList.tail
  chain := k.chainCode.toList
  depth := k.depth.toNat
  parent := k.parent160.toList.take 4
  number := k.childNum.toNat

/-- The public key that they hold. -/
def publicOf (k : ExtKey) : Option (KeyTree.Extended Point) := do
  let p ← (decompress k.pubKey.toList).toOption
  return (privateOf k).map fun _ => some p

theorem holdsPrivate_of_privateKey {version : UInt32} {x : KeyTree.Extended ℕ} {k : ExtKey}
    (hlt : x.key < N) (h : privateKey sha256 version x = some k) : HoldsPrivate k x := by
  obtain ⟨pub, hpub, h⟩ := Option.bind_eq_some_iff.mp h
  obtain ⟨hkey, hpriv, hchain, hdepth, hparent, hnumber⟩ := fields_of_extKeyOf sha256 h
  rw [toOption_eq_some_iff, quickMul_eq, compress_eq_ok_iff_written, ← hkey] at hpub
  exact ⟨⟨hpub, hchain, hdepth, hparent, hnumber⟩, hlt, hpriv⟩

theorem holdsPublic_of_publicKey {version : UInt32} {x : KeyTree.Extended Secp} {k : ExtKey}
    (h : publicKey sha256 version (x.map ofPoint) = some k) : HoldsPublic k x := by
  obtain ⟨pub, hpub, h⟩ := Option.bind_eq_some_iff.mp h
  obtain ⟨hkey, -, hchain, hdepth, hparent, hnumber⟩ := fields_of_extKeyOf sha256 h
  have hpub' : compress (ofPoint x.key) = .ok k.pubKey.toList := by
    rw [hkey]
    exact toOption_eq_some_iff.mp hpub
  exact ⟨compress_eq_ok_iff_written.mp hpub', hchain, hdepth, hparent, hnumber⟩

theorem privateOf_of_holds {k : ExtKey} {x : KeyTree.Extended ℕ} (h : HoldsPrivate k x) :
    privateOf k = x := by
  have hN : N < 256 ^ 32 := by decide
  obtain ⟨key, chain, depth, parent, number⟩ := x
  obtain ⟨⟨-, rfl, rfl, rfl, rfl⟩, hlt, hpriv⟩ := h
  rw [privateOf, hpriv, List.tail_cons, Der.natOf_bytesOf, Nat.mod_eq_of_lt (hlt.trans hN)]

theorem publicOf_of_holds {k : ExtKey} {x : KeyTree.Extended Secp} (h : HoldsPublic k x) :
    publicOf k = some (x.map ofPoint) := by
  obtain ⟨key, chain, depth, parent, number⟩ := x
  obtain ⟨hpub, rfl, rfl, rfl, rfl⟩ := h
  dsimp only at hpub
  obtain ⟨p, hp⟩ : ∃ p, ofPoint key = some p := by
    refine Option.ne_none_iff_exists'.mp fun hnone => ?_
    have hcompress := compress_eq_ok_iff_written.mpr hpub
    rw [hnone] at hcompress
    cases hcompress
  obtain ⟨b, hb, -, hread⟩ := decompress_of_onCurve (hp ▸ onCurve_ofPoint key)
  have hbytes := compress_eq_ok_iff_written.mpr hpub
  rw [hp] at hbytes
  obtain rfl := Except.ok.inj (hb.symm.trans hbytes)
  rw [publicOf, hread, KeyTree.Extended.map, hp]
  rfl

/-! ## The library -/

/-- What is left of an output point for its script. -/
def outputOf : Point → Option Bytes
  | none => none
  | some (x, _) => some (Der.bytesOf 32 x.toNat)

theorem outputOf_ofPoint (p : Secp) : outputOf (ofPoint p) = Standards.xOnly p := by
  cases p with
  | zero => rfl
  | some x y h => rfl

variable (hmacSha512 : HmacSha512) (pbkdf2 : Bytes → Bytes → ℕ → Bytes)

/-- An address as the verifier writes it, for a text that it writes as the standard does. -/
def segwitAddress (text : String) (version : ℕ) (program : Bytes) : Option String :=
  if text.toList.all (·.toNat < 1024) then (bech32Encode text version program).toOption else none

/-- libwally by the standards, as far as an export calls it; of all mnemonics, only that of the
tests is on its list. -/
def standardWally : Wally where
  __ := Wally.failing
  bip39MnemonicValidate mnemonic := some (mnemonic == testMnemonic)
  bip39MnemonicToSeed512 mnemonic passphrase :=
    some (Standards.seedOf pbkdf2 mnemonic (passphrase.getD ""))
  bip32KeyFromSeed seed version := do
    privateKey sha256 version (← (pointTree sha256 hmacSha512).master seed)
  bip32KeyFromParentPath k path flag :=
    match flag with
    | .keyPrivate => do
      privateKey sha256 k.version
        (← (indices path).foldlM (pointTree sha256 hmacSha512).privateChild (privateOf k))
    | .keyPublic => do
      publicKey sha256 k.version
        (← (indices path).foldlM (pointTree sha256 hmacSha512).publicChild (← publicOf k))
  bip32KeyGetFingerprint k := vectorOf 4 ((Standards.hash160 sha256 k.pubKey.toList).take 4)
  bip32KeyStripPrivateKey k := some { k with privKey := strippedPrivKey }
  bip32KeyToBase58 k _ := some <| Standards.base58Check sha256 <|
    Der.bytesOf 4 k.version.toNat ++ Der.bytesOf 1 k.depth.toNat ++ k.parent160.toList.take 4 ++
      Der.bytesOf 4 k.childNum.toNat ++ k.chainCode.toList ++ k.pubKey.toList
  bip32KeyToAddress k type version :=
    let hash := Standards.hash160 sha256 k.pubKey.toList
    some <| Standards.base58Check sha256 <| UInt8.ofNat version.toNat ::
      match type with
      | .p2pkh => hash
      | .p2shP2wpkh => Standards.hash160 sha256 (0x00 :: 0x14 :: hash)
  bip32KeyToAddrSegwit k text := segwitAddress text 0 (Standards.hash160 sha256 k.pubKey.toList)
  scriptpubkeyP2trFromBytes pubkey := do
    let p ← (decompress (0x02 :: pubkey.tail)).toOption
    let t := Der.natOf (Standards.taggedHash sha256 "TapTweak" pubkey.tail)
    if t < N then return 0x51 :: 0x20 :: (← outputOf (ptAdd (some p) (quickMul t))) else none
  addrSegwitFromBytes script text := segwitAddress text 1 (script.drop 2)

theorem segwitAddress_spec {text s : String} {version : ℕ} {program : Bytes}
    (h : segwitAddress text version program = some s) :
    Standards.SegwitAddress text version program s := by
  rw [segwitAddress] at h
  split at h
  · next htext =>
    have htext' : ∀ c ∈ text.toList, c.toNat < 1024 := fun c hc =>
      of_decide_eq_true (List.all_eq_true.mp htext c hc)
    exact (bech32Encode_eq_ok_iff_segwitAddress htext').mp (toOption_eq_some_iff.mp h)
  · cases h

theorem keepsStandards_standardWally :
    KeepsStandards (standardWally sha256 hmacSha512 pbkdf2) sha256 hmacSha512 pbkdf2 where
  seed h := (Option.some.inj h).symm
  master h := by
    obtain ⟨x, hx, h⟩ := Option.bind_eq_some_iff.mp h
    rw [← (hom_pointTree sha256 hmacSha512).master] at hx
    exact ⟨x, hx, holdsPrivate_of_privateKey sha256 (fromSeed_of_master hx "").2 h⟩
  child hk h := by
    obtain ⟨y, hy, h⟩ := Option.bind_eq_some_iff.mp h
    rw [privateOf_of_holds hk, ← (hom_pointTree sha256 hmacSha512).privateChild] at hy
    exact ⟨y, hy, holdsPrivate_of_privateKey sha256 (lt_of_privatePath hk.lt hy) h⟩
  childPublic hk _ h := by
    obtain ⟨_, hx, h⟩ := Option.bind_eq_some_iff.mp h
    obtain rfl := Option.some.inj ((publicOf_of_holds hk).symm.trans hx)
    obtain ⟨_, hy, h⟩ := Option.bind_eq_some_iff.mp h
    rw [(hom_pointTree sha256 hmacSha512).publicPath, Option.map_eq_some_iff] at hy
    obtain ⟨y, hy, rfl⟩ := hy
    exact ⟨y, hy, holdsPublic_of_publicKey sha256 h⟩
  strip h := by
    obtain rfl := Option.some.inj h
    refine ⟨rfl, ?_⟩
    change strippedPrivKey.toList.head? ≠ some bip32FlagKeyPrivate
    decide
  base58 hk h := by
    refine ⟨_, Option.bind_eq_some_iff.mpr ⟨_, hk.pub, rfl⟩, ?_⟩
    rw [hk.chain, hk.depth, hk.parent, hk.number]
    exact (Option.some.inj h).symm
  fingerprint h := toList_of_vectorOf h
  p2pkh h := (Option.some.inj h).symm
  p2shP2wpkh h := (Option.some.inj h).symm
  segwit h := segwitAddress_spec h
  p2tr {p pubkey script} hp h := by
    have hx := xOnly_of_written hp
    obtain ⟨q, hq, heven⟩ := decompress_xOnly hx
    dsimp only [standardWally] at h
    rw [hq] at h
    obtain ⟨_, hq', h⟩ := Option.bind_eq_some_iff.mp h
    obtain rfl := Option.some.inj hq'
    split_ifs at h with hlow
    obtain ⟨output, houtput, h⟩ := Option.bind_eq_some_iff.mp h
    rw [← heven, quickMul_eq, ptAdd_ofPoint, outputOf_ofPoint] at houtput
    refine ⟨output, ?_, (Option.some.inj h).symm⟩
    rw [Standards.taprootOutput, hx]
    exact (if_pos hlow).trans houtput
  taproot _ h := segwitAddress_spec h

end

end Verifier

end SignerOS
