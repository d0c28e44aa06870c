import SignerOS.Verifier.HdKeyTheorems

/-!
# Extended keys as strings

* `xkeys_injective`, a string is that of one key only;
* `xpub_watchOnly`, from the string alone a wallet finds the keys of every address.
-/

namespace SignerOS

namespace Verifier

open HDKey

theorem packFour_of_length {b : Bytes} (h : b.length = 4) : packFour b = b := by
  rw [packFour, List.take_left' h]

/-- A number that has room is read back. -/
theorem natOf_of_packBig {width : ℕ} {n : ℤ} {b : Bytes} (h : packBig width n = .ok b) :
    b.length = width ∧ (Der.natOf b : ℤ) = n := by
  obtain ⟨⟨h0, hlt⟩, rfl⟩ := packBig_eq_ok_iff.mp h
  have hnat : n.toNat < 256 ^ width := by
    zify
    rw [Int.toNat_of_nonneg h0]
    exact hlt
  refine ⟨Der.length_bytesOf _ _, ?_⟩
  rw [Der.natOf_bytesOf, Nat.mod_eq_of_lt hnat, Int.toNat_of_nonneg h0]

theorem packBig_injective {width : ℕ} {m n : ℤ} {b : Bytes} (hm : packBig width m = .ok b)
    (hn : packBig width n = .ok b) : m = n :=
  (natOf_of_packBig hm).2.symm.trans (natOf_of_packBig hn).2

/-- The four fields of a header, one behind the other. -/
theorem header_eq_ok_iff {key : HDKey} {version : ℤ} {b : Bytes} :
    key.header version = .ok b ↔ ∃ v d c, packBig 4 version = .ok v ∧
      packBig 1 key.depth = .ok d ∧ packBig 4 key.childNum = .ok c ∧
      v ++ d ++ packFour key.parentFp ++ c = b := by
  rw [header]
  simp only [bind_eq_ok_iff, pure_eq_ok_iff]
  constructor
  · rintro ⟨v, hv, d, hd, c, hc, h⟩
    exact ⟨v, d, c, hv, hd, hc, h⟩
  · rintro ⟨v, d, c, hv, hd, hc, h⟩
    exact ⟨v, hv, d, hd, c, hc, h⟩

theorem length_header {key : HDKey} {version : ℤ} {b : Bytes} (hfp : key.parentFp.length = 4)
    (h : key.header version = .ok b) : b.length = 13 := by
  obtain ⟨v, d, c, hv, hd, hc, rfl⟩ := header_eq_ok_iff.mp h
  simp only [List.length_append, packFour_of_length hfp, hfp, (natOf_of_packBig hv).1,
    (natOf_of_packBig hd).1, (natOf_of_packBig hc).1]

/-- What a header says, and the version it is for. -/
theorem header_injective {k k' : HDKey} {version version' : ℤ} {b : Bytes}
    (hfp : k.parentFp.length = 4) (hfp' : k'.parentFp.length = 4)
    (h : k.header version = .ok b) (h' : k'.header version' = .ok b) :
    version = version' ∧ k.depth = k'.depth ∧ k.parentFp = k'.parentFp ∧
      k.childNum = k'.childNum := by
  obtain ⟨v, d, c, hv, hd, hc, rfl⟩ := header_eq_ok_iff.mp h
  obtain ⟨v', d', c', hv', hd', hc', heq⟩ := header_eq_ok_iff.mp h'
  have hlv := (natOf_of_packBig hv).1.trans (natOf_of_packBig hv').1.symm
  have hld := (natOf_of_packBig hd).1.trans (natOf_of_packBig hd').1.symm
  have hlc := (natOf_of_packBig hc).1.trans (natOf_of_packBig hc').1.symm
  rw [packFour_of_length hfp, packFour_of_length hfp'] at heq
  obtain ⟨heq₁, rfl⟩ := List.append_inj' heq hlc.symm
  obtain ⟨heq₂, hfps⟩ := List.append_inj' heq₁ (hfp'.trans hfp.symm)
  obtain ⟨rfl, rfl⟩ := List.append_inj' heq₂ hld.symm
  exact ⟨packBig_injective hv hv', packBig_injective hd hd', hfps.symm, packBig_injective hc hc'⟩

theorem versionPriv_injective {net net' : String} {v : ℤ} (h : versionPriv net = .ok v)
    (h' : versionPriv net' = .ok v) : net = net' := by
  unfold versionPriv at h h'
  split at h <;> cases h <;> split at h' <;> first | rfl | cases h'

theorem versionPub_injective {net net' : String} {v : ℤ} (h : versionPub net = .ok v)
    (h' : versionPub net' = .ok v) : net = net' := by
  unfold versionPub at h h'
  split at h <;> cases h <;> split at h' <;> first | rfl | cases h'

section
variable (sha256 : Sha256)

theorem b58checkEncode_injective {b b' : Bytes}
    (h : b58checkEncode sha256 b = b58checkEncode sha256 b') : b = b' := by
  have hread := (readB58_iff sha256 _ b').mpr h
  rw [(readB58_iff sha256 _ b).mpr rfl, Option.some.injEq] at hread
  exact hread

theorem xprv_eq_ok_iff {key : HDKey} {s : String} : key.xprv sha256 = .ok s ↔ ∃ v b,
    versionPriv key.net = .ok v ∧ key.header v = .ok b ∧
      b58checkEncode sha256 (b ++ key.chain ++ [0x00] ++ key.priv) = s := by
  rw [xprv]
  simp only [bind_eq_ok_iff, pure_eq_ok_iff]
  exact ⟨fun ⟨v, hv, b, hb, h⟩ => ⟨v, b, hv, hb, h⟩, fun ⟨v, b, hv, hb, h⟩ => ⟨v, hv, b, hb, h⟩⟩

theorem xpub_eq_ok_iff {key : HDKey} {s : String} : key.xpub sha256 = .ok s ↔ ∃ v b pubkey,
    versionPub key.net = .ok v ∧ key.header v = .ok b ∧ key.pub = .ok pubkey ∧
      b58checkEncode sha256 (b ++ key.chain ++ pubkey) = s := by
  rw [xpub]
  simp only [bind_eq_ok_iff, pure_eq_ok_iff]
  exact ⟨fun ⟨v, hv, b, hb, pubkey, hpub, h⟩ => ⟨v, b, pubkey, hv, hb, hpub, h⟩,
    fun ⟨v, b, pubkey, hv, hb, hpub, h⟩ => ⟨v, hv, b, hb, pubkey, hpub, h⟩⟩

/-- Keys that have the same fields are the same. -/
theorem HDKey.ext_of_header {k k' : HDKey} {version version' : ℤ} {b : Bytes} (hk : k.Valid)
    (hk' : k'.Valid) (h : k.header version = .ok b) (h' : k'.header version' = .ok b)
    (hnet : version = version' → k.net = k'.net) (hchain : k.chain = k'.chain)
    (hpriv : k.priv = k'.priv) : k = k' := by
  obtain ⟨hversion, hdepth, hfp, hnum⟩ := header_injective hk.parentFp hk'.parentFp h h'
  cases k
  cases k'
  simp only [HDKey.mk.injEq]
  exact ⟨hpriv, hchain, hdepth, hfp, hnum, hnet hversion⟩

theorem eq_of_xprv {k k' : HDKey} (hk : k.Valid) (hk' : k'.Valid) {s : String}
    (h : k.xprv sha256 = .ok s) (h' : k'.xprv sha256 = .ok s) : k = k' := by
  obtain ⟨v, b, hv, hb, rfl⟩ := (xprv_eq_ok_iff sha256).mp h
  obtain ⟨v', b', hv', hb', heq⟩ := (xprv_eq_ok_iff sha256).mp h'
  obtain ⟨heq₁, hpriv⟩ := List.append_inj' (b58checkEncode_injective sha256 heq)
    (hk'.priv.trans hk.priv.symm)
  obtain ⟨heq₂, -⟩ := List.append_inj' heq₁ rfl
  obtain ⟨rfl, hchain⟩ := List.append_inj' heq₂ (hk'.chain.trans hk.chain.symm)
  exact HDKey.ext_of_header hk hk' hb hb'
    (fun hversion => versionPriv_injective hv (hversion ▸ hv')) hchain.symm hpriv.symm

/-- The public key of a valid key is that of no other. -/
theorem priv_eq_of_pub {k k' : HDKey} (hk : k.Valid) (hk' : k'.Valid) {pubkey : Bytes}
    (h : k.pub = .ok pubkey) (h' : k'.pub = .ok pubkey) : k.priv = k'.priv := by
  have hmod : ∀ {k : HDKey}, k.Valid → k.scalar % N ≠ 0 := by
    intro k hk
    rw [Nat.mod_eq_of_lt hk.scalar.2]
    exact Nat.ne_of_gt hk.scalar.1
  obtain ⟨p, b, hp, hb, -, -, hread⟩ := exists_pub (hmod hk)
  obtain ⟨p', b', hp', hb', -, -, hread'⟩ := exists_pub (hmod hk')
  obtain rfl := Except.ok.inj (h.symm.trans hb)
  obtain rfl := Except.ok.inj (h'.symm.trans hb')
  obtain rfl := Except.ok.inj (hread.symm.trans hread')
  have hsmul := ofPoint_injective (hp.trans hp'.symm)
  have hcast := smul_left_injective (ZMod N) (WeierstrassCurve.Affine.Point.some_ne_zero
    generator_nonsingular) hsmul
  have hscalar : k.scalar = k'.scalar := by
    rw [ZMod.natCast_eq_natCast_iff', Nat.mod_eq_of_lt hk.scalar.2,
      Nat.mod_eq_of_lt hk'.scalar.2] at hcast
    exact hcast
  rw [← Der.bytesOf_natOf k.priv, ← Der.bytesOf_natOf k'.priv, hk.priv, hk'.priv]
  exact congrArg _ hscalar

/-- What a wallet takes from the string of an extended public key. -/
def readXpub (s : String) : Option WatchKey := do
  let payload ← readB58 sha256 s
  if payload.length = 78 then some ⟨payload.drop 45, (payload.drop 13).take 32⟩ else none

theorem readXpub_xpub {key : HDKey} (hk : key.Valid) {s : String} (h : key.xpub sha256 = .ok s) :
    ∃ w, readXpub sha256 s = some w ∧ key.watch = some w := by
  obtain ⟨v, b, pubkey, -, hb, hpub, rfl⟩ := (xpub_eq_ok_iff sha256).mp h
  have hmod : key.scalar % N ≠ 0 := by
    rw [Nat.mod_eq_of_lt hk.scalar.2]
    exact Nat.ne_of_gt hk.scalar.1
  obtain ⟨-, pubkey', -, hpub', -, hlength, -⟩ := exists_pub hmod
  obtain rfl := Except.ok.inj (hpub.symm.trans hpub')
  have hheader := length_header hk.parentFp hb
  have hfront : (b ++ key.chain).length = 45 := by rw [List.length_append, hheader, hk.chain]
  refine ⟨⟨pubkey, key.chain⟩, ?_, watch_eq_some_iff.mpr ⟨hpub, rfl⟩⟩
  rw [readXpub, (readB58_iff sha256 _ _).mpr rfl, Option.bind_eq_bind, Option.bind_some,
    if_pos (by rw [List.length_append, hfront, hlength]), List.drop_left' hfront,
    List.append_assoc, List.drop_left' hheader, List.take_left' hk.chain]

theorem exists_packBig (width : ℕ) {n : ℤ} (h : 0 ≤ n ∧ n < 256 ^ width) :
    ∃ b, packBig width n = .ok b :=
  ⟨_, packBig_eq_ok_iff.mpr ⟨h, rfl⟩⟩

theorem HDKey.Valid.exists_header {key : HDKey} (hk : key.Valid)
    (hdepth : 0 ≤ key.depth ∧ key.depth < 256) {version : ℤ}
    (hversion : 0 ≤ version ∧ version < 2 ^ 32) : ∃ b, key.header version = .ok b := by
  obtain ⟨v, hv⟩ := exists_packBig 4 hversion
  obtain ⟨d, hd⟩ := exists_packBig 1 hdepth
  obtain ⟨c, hc⟩ := exists_packBig 4 hk.childNum
  exact ⟨_, header_eq_ok_iff.mpr ⟨v, d, c, hv, hd, hc, rfl⟩⟩

/-- A key that is not too deep, for one of the two networks, has its strings. -/
theorem HDKey.Valid.exists_strings {key : HDKey} (hk : key.Valid)
    (hdepth : 0 ≤ key.depth ∧ key.depth < 256) (hnet : key.net = "mainnet" ∨ key.net = "testnet") :
    (∃ s, key.xprv sha256 = .ok s) ∧ ∃ s, key.xpub sha256 = .ok s := by
  have hmod : key.scalar % N ≠ 0 := by
    rw [Nat.mod_eq_of_lt hk.scalar.2]
    exact Nat.ne_of_gt hk.scalar.1
  obtain ⟨-, pubkey, -, hpub, -⟩ := exists_pub hmod
  obtain ⟨v, hv, hvrange⟩ :
      ∃ v, versionPriv key.net = .ok v ∧ 0 ≤ v ∧ v < 2 ^ 32 := by
    obtain h | h := hnet <;> rw [h]
    · exact ⟨0x0488ADE4, rfl, by decide, by decide⟩
    · exact ⟨0x04358394, rfl, by decide, by decide⟩
  obtain ⟨v', hv', hvrange'⟩ :
      ∃ v, versionPub key.net = .ok v ∧ 0 ≤ v ∧ v < 2 ^ 32 := by
    obtain h | h := hnet <;> rw [h]
    · exact ⟨0x0488B21E, rfl, by decide, by decide⟩
    · exact ⟨0x043587CF, rfl, by decide, by decide⟩
  obtain ⟨b, hb⟩ := hk.exists_header hdepth hvrange
  obtain ⟨b', hb'⟩ := hk.exists_header hdepth hvrange'
  exact ⟨⟨_, (xprv_eq_ok_iff sha256).mpr ⟨v, b, hv, hb, rfl⟩⟩,
    ⟨_, (xpub_eq_ok_iff sha256).mpr ⟨v', b', pubkey, hv', hb', hpub, rfl⟩⟩⟩

/-- The master key is not checked, as its children are. -/
theorem valid_fromSeed_iff (hmacSha512 : HmacSha512) (seed : Bytes) (net : String) :
    (fromSeed hmacSha512 seed net).Valid ↔
      1 ≤ (fromSeed hmacSha512 seed net).scalar ∧ (fromSeed hmacSha512 seed net).scalar < N := by
  have hnum : (0 : ℤ) ≤ 0 ∧ (0 : ℤ) < 2 ^ 32 := by decide
  refine ⟨fun h => h.scalar, fun h => ⟨?_, h, ?_, rfl, hnum⟩⟩
  · simp [fromSeed]
  · simp [fromSeed]

end

/-! ## Keys and their strings -/

/-- Two keys of the tree have the same string only if they are the same key. -/
theorem xkeys_injective (sha256 : Sha256) {k k' : HDKey} (hk : k.Valid) (hk' : k'.Valid)
    (s : String) :
    (k.xprv sha256 = .ok s → k'.xprv sha256 = .ok s → k = k') ∧
    (k.xpub sha256 = .ok s → k'.xpub sha256 = .ok s → k = k') := by
  refine ⟨eq_of_xprv sha256 hk hk', fun h h' => ?_⟩
  obtain ⟨v, b, pubkey, hv, hb, hpub, rfl⟩ := (xpub_eq_ok_iff sha256).mp h
  obtain ⟨v', b', pubkey', hv', hb', hpub', heq⟩ := (xpub_eq_ok_iff sha256).mp h'
  obtain ⟨-, p, -, hp, -, hlength, -⟩ := exists_pub (scalar_of_pub hpub)
  obtain ⟨-, p', -, hp', -, hlength', -⟩ := exists_pub (scalar_of_pub hpub')
  obtain rfl := Except.ok.inj (hpub.symm.trans hp)
  obtain rfl := Except.ok.inj (hpub'.symm.trans hp')
  obtain ⟨heq₁, rfl⟩ := List.append_inj' (b58checkEncode_injective sha256 heq)
    (hlength'.trans hlength.symm)
  obtain ⟨rfl, hchain⟩ := List.append_inj' heq₁ (hk'.chain.trans hk.chain.symm)
  exact HDKey.ext_of_header hk hk' hb hb'
    (fun hversion => versionPub_injective hv (hversion ▸ hv')) hchain.symm
    (priv_eq_of_pub hk hk' hpub hpub')

theorem xkeys_injective_keyOne : keyOne.Valid ∧ ∃ s, keyOne.xpub zeroSha256 = .ok s ∧
    (keyOne.xpub zeroSha256 = .ok s → keyOne.xpub zeroSha256 = .ok s → keyOne = keyOne) := by
  obtain ⟨-, s, hs⟩ := valid_keyOne.exists_strings zeroSha256 (by decide) (Or.inl rfl)
  exact ⟨valid_keyOne, s, hs, (xkeys_injective zeroSha256 valid_keyOne valid_keyOne s).2⟩

/-- From the string of an extended public key alone, a wallet finds the public key and the chain
code of every key that `derive_path` derives without hardened indices, and no others. -/
theorem xpub_watchOnly (hmacSha512 : HmacSha512) (sha256 : Sha256)
    (int : List Char → Except Raised ℤ) {key : HDKey} (hk : key.Valid) {s path : String}
    (hs : key.xpub sha256 = .ok s) {is : List ℤ} (his : pathToInts int path = .ok is)
    (hsoft : ∀ i ∈ is, isHardened i = false) :
    (derivePath hmacSha512 sha256 int key path).toOption.bind watch =
      (readXpub sha256 s).bind (is.foldlM (WatchKey.child hmacSha512)) := by
  obtain ⟨w, hread, hw⟩ := readXpub_xpub sha256 hk hs
  rw [hread, Option.bind_some]
  exact derivePath_watchOnly hmacSha512 sha256 int hw his hsoft

theorem xpub_watchOnly_keyOne :
    ∃ s is, keyOne.xpub zeroSha256 = .ok s ∧ pathToInts intOfDigits "0/7" = .ok is ∧
      (∀ i ∈ is, isHardened i = false) ∧
      (derivePath zeroHmacSha512 zeroSha256 intOfDigits keyOne "0/7").toOption.bind watch =
        (readXpub zeroSha256 s).bind (is.foldlM (WatchKey.child zeroHmacSha512)) := by
  obtain ⟨-, s, hs⟩ := valid_keyOne.exists_strings zeroSha256 (by decide) (Or.inl rfl)
  have his : pathToInts intOfDigits "0/7" = .ok [0, 7] := by decide
  have hsoft : ∀ i ∈ [(0 : ℤ), 7], isHardened i = false := by decide
  exact ⟨s, [0, 7], hs, his, hsoft,
    xpub_watchOnly zeroHmacSha512 zeroSha256 intOfDigits valid_keyOne hs his hsoft⟩

end Verifier

end SignerOS
