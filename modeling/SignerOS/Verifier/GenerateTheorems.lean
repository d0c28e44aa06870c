import SignerOS.Verifier.AddressTheorems
import SignerOS.Verifier.CodecTheorems
import SignerOS.Verifier.Generate

/-!
# What is generated is read back

* `fixtureKeys_spec`, what is known of the keys;
* `psbtInRange`, all of the fixture fits in its bytes;
* `generate_reads_back`, no assertion of the self-check fails, and the forged PSBT differs in one
  script.
-/

namespace SignerOS

namespace Verifier

/-! ## Keys -/

theorem length_pub {key : HDKey} {pubkey : Bytes} (h : key.pub = .ok pubkey) :
    pubkey.length = 33 := by
  obtain ⟨-, pubkey', -, hpub, -, hlength, -⟩ := HDKey.exists_pub (scalar_of_pub h)
  rw [Except.ok.inj (h.symm.trans hpub)]
  exact hlength

theorem forall_of_forall₂ {α β : Type} {p : α → Prop} {as : List α} {bs : List β}
    (h : List.Forall₂ (fun a _ => p a) as bs) : ∀ a ∈ as, p a := by
  induction h with
  | nil => exact fun a ha => absurd ha List.not_mem_nil
  | cons ha _ ih => exact List.forall_mem_cons.mpr ⟨ha, ih⟩

section
variable {py : Python} {network : String} {k : FixtureKeys}

/-- The paths of the fixture, of which there are those of two coins. -/
def fixturePaths (coin : ℤ) : List String := changePath coin :: inPaths coin

theorem coinType_cases {coin : ℤ} (h : coinType network = .ok coin) : coin = 0 ∨ coin = 1 := by
  unfold coinType at h
  split at h <;> cases h <;> simp

/-- No path of the fixture has more than six parts. -/
theorem length_parts {coin : ℤ} (hcoin : coin = 0 ∨ coin = 1) :
    ∀ path ∈ fixturePaths coin, (path.toList.splitOn '/').length ≤ 6 := by
  obtain rfl | rfl := hcoin <;> decide +kernel

/-- What holds of the keys that a fixture is made with. -/
structure FixtureKeys.Sound (int : List Char → Except Raised ℤ) (k : FixtureKeys) : Prop where
  fp : k.fp.length = 4
  inPubs_length : k.inPubs.length = 2
  inPubs : ∀ pubkey ∈ k.inPubs, pubkey.length = 33
  changePub : k.changePub.length = 33
  paths : ∀ path ∈ fixturePaths k.coin, ∃ es, pathToInts int path = .ok es ∧ es.length ≤ 6 ∧
    ∀ e ∈ es, Fits 4 e

/-- A path that is derived is one that can be written. -/
theorem path_of_derivePath {key child : HDKey} {path : String}
    (h : key.derivePath py.hmacSha512 py.sha256 py.int path = .ok child)
    (hparts : (path.toList.splitOn '/').length ≤ 6) :
    ∃ es, pathToInts py.int path = .ok es ∧ es.length ≤ 6 ∧ ∀ e ∈ es, Fits 4 e := by
  obtain ⟨is, his, hfold⟩ := (derivePath_eq_ok_iff py.hmacSha512 py.sha256 py.int).mp h
  obtain ⟨-, -, hrange, -⟩ := foldlM_derive_spec py.hmacSha512 py.sha256 hfold
  have hlength : is.length ≤ (path.toList.splitOn '/').length := by
    rw [pathToInts] at his
    have hall := Cursor.forall₂_of_mapM (R := fun _ _ => True) (fun _ _ _ _ => trivial) his
    rw [hall.length_eq]
    exact List.length_filter_le _ _
  exact ⟨is, his, hlength.trans hparts, hrange⟩

theorem sound_of_fixtureKeys (h : fixtureKeys py network = .ok k) : k.Sound py.int := by
  rw [fixtureKeys] at h
  simp only [bind_eq_ok_iff, pure_eq_ok_iff] at h
  obtain ⟨coin, hcoin, fp, hfp, inPubs, hinPubs, changePub, ⟨change, hchange, hchangePub⟩, destPub,
    hdestPub, thiefPub, hthiefPub, rfl⟩ := h
  have hparts := length_parts (coinType_cases hcoin)
  have hderived := Cursor.exists_of_mapM hinPubs
  have hpubs := Cursor.forall₂_of_mapM (R := fun (pubkey : Bytes) (_ : String) => pubkey.length = 33)
    (fun path _ pubkey hpubkey => by
      obtain ⟨child, -, hpub⟩ := bind_eq_ok_iff.mp hpubkey
      exact length_pub hpub) hinPubs
  refine ⟨?_, hpubs.length_eq, forall_of_forall₂ hpubs, length_pub hchangePub, ?_⟩
  · rw [HDKey.fingerprint] at hfp
    obtain ⟨pubkey, -, hfp⟩ := bind_eq_ok_iff.mp hfp
    rw [← pure_eq_ok_iff.mp hfp, List.length_take, length_hash160]
    rfl
  · intro path hpath
    obtain rfl | hpath' := List.mem_cons.mp hpath
    · exact path_of_derivePath hchange (hparts _ hpath)
    · obtain ⟨pubkey, hpubkey⟩ := hderived path hpath'
      obtain ⟨child, hchild, -⟩ := bind_eq_ok_iff.mp hpubkey
      exact path_of_derivePath hchild (hparts _ hpath)

/-! ## Ranges -/

theorem length_p2wpkhScript (pubkey : Bytes) : (p2wpkhScript py.sha256 pubkey).length = 22 := by
  rw [p2wpkhScript, List.length_append, length_hash160]
  rfl

theorem keyMeta_inRange (hk : k.Sound py.int) {pubkey : Bytes} (hpubkey : pubkey.length = 33)
    {path : String} (hpath : path ∈ fixturePaths k.coin) :
    KeyMeta.InRange py.int { pubkey, fingerprint := k.fp, path } := by
  obtain ⟨es, hes, hlength, hfits⟩ := hk.paths path hpath
  refine ⟨⟨es, hes, hfits⟩, ?_, fun value hvalue => ?_⟩
  · dsimp only
    omega
  · dsimp only at hvalue
    rw [keypathValue_eq py.int hes hfits, Except.ok.injEq] at hvalue
    rw [← hvalue, List.length_append, hk.fp, List.length_flatten, List.map_map]
    have hsum : (es.map (List.length ∘ fun e => leBytes 4 e.toNat)).sum = es.length * 4 := by
      rw [List.map_congr_left fun e _ => length_leBytes 4 e.toNat, List.map_const', List.sum_replicate,
        smul_eq_mul]
    omega

/-- The bytes of an output that pays to a key. -/
theorem serialize_txOut {value : ℤ} (hvalue : Fits 8 value) (pubkey : Bytes) :
    TxOut.serialize ⟨value, p2wpkhScript py.sha256 pubkey⟩ =
      .ok (leBytes 8 value.toNat ++ 0x16 :: p2wpkhScript py.sha256 pubkey) := by
  have hscript : varbytes (p2wpkhScript py.sha256 pubkey) =
      .ok (0x16 :: p2wpkhScript py.sha256 pubkey) := by
    rw [varbytes, length_p2wpkhScript]
    rfl
  rw [TxOut.serialize, pack_ok hvalue, hscript]
  rfl

theorem serialize_txIn {i : TxIn} (hvout : Fits 4 i.vout) (hsequence : Fits 4 i.sequence) :
    i.serialize =
      .ok (i.txidLe ++ leBytes 4 i.vout.toNat ++ [0x00] ++ leBytes 4 i.sequence.toNat) := by
  rw [TxIn.serialize, TxIn.outpoint, pack_ok hvout, pack_ok hsequence]
  rfl

theorem fits_value : Fits 8 sendValue ∧ Fits 8 changeValue ∧ ∀ value ∈ inValues, Fits 8 value := by
  unfold Fits
  decide

/-- The transactions of the fixture have two inputs. -/
theorem fixtureTx_vin (hk : k.Sound py.int) (changePub : Bytes) :
    (fixtureTx py k changePub).vin =
      [⟨fakeTxid py 0, 0, 0xFFFFFFFD⟩, ⟨fakeTxid py 1, 1, 0xFFFFFFFD⟩] := by
  rw [fixtureTx, hk.inPubs_length]
  rfl

theorem fixtureTx_inRange (hk : k.Sound py.int) (changePub : Bytes) :
    (fixtureTx py k changePub).InRange := by
  have hscript (pubkey : Bytes) : (p2wpkhScript py.sha256 pubkey).length < 2 ^ 64 := by
    rw [length_p2wpkhScript]
    decide
  have hzero : Fits 4 0 := ⟨by decide, by decide⟩
  have hone : Fits 4 1 := ⟨by decide, by decide⟩
  have htwo : Fits 4 2 := ⟨by decide, by decide⟩
  have hsequence : Fits 4 0xFFFFFFFD := ⟨by decide, by decide⟩
  have hlength : 2 < 2 ^ 64 := by decide
  refine ⟨htwo, hzero, ?_, ?_, ?_, hlength⟩
  · rw [fixtureTx_vin hk, List.forall_mem_cons, List.forall_mem_singleton]
    exact ⟨⟨length_dsha256 _ _, hzero, hsequence⟩, ⟨length_dsha256 _ _, hone, hsequence⟩⟩
  · rw [fixtureTx, List.forall_mem_cons, List.forall_mem_singleton]
    exact ⟨⟨fits_value.1, hscript _⟩, ⟨fits_value.2.1, hscript _⟩⟩
  · rw [fixtureTx_vin hk]
    exact hlength

theorem length_of_serialize (hk : k.Sound py.int) {changePub raw : Bytes}
    (h : (fixtureTx py k changePub).serialize = .ok raw) : raw.length = 154 := by
  have hzero : Fits 4 0 := ⟨by decide, by decide⟩
  have hone : Fits 4 1 := ⟨by decide, by decide⟩
  have hsequence : Fits 4 0xFFFFFFFD := ⟨by decide, by decide⟩
  have hfirst := @serialize_txIn ⟨fakeTxid py 0, 0, 0xFFFFFFFD⟩ hzero hsequence
  have hsecond := @serialize_txIn ⟨fakeTxid py 1, 1, 0xFFFFFFFD⟩ hone hsequence
  have hsend := @serialize_txOut py _ fits_value.1 k.destPub
  have hchange := @serialize_txOut py _ fits_value.2.1 changePub
  have hvout : (fixtureTx py k changePub).vout = [⟨sendValue, p2wpkhScript py.sha256 k.destPub⟩,
    ⟨changeValue, p2wpkhScript py.sha256 changePub⟩] := rfl
  rw [Tx.serialize, fixtureTx_vin hk, hvout] at h
  simp only [List.mapM_cons, List.mapM_nil, hfirst, hsecond, hsend, hchange] at h
  obtain rfl := Except.ok.inj h
  simp [length_p2wpkhScript, fakeTxid]

theorem inputMeta_inRange (hk : k.Sound py.int) : ∀ m ∈ inputsMeta py k, m.InRange py.int := by
  intro m hm
  obtain ⟨⟨pubkey, value, path⟩, he, rfl⟩ := List.mem_map.mp hm
  obtain ⟨hpubkey, he⟩ := List.of_mem_zip he
  obtain ⟨hvalue, hpath⟩ := List.of_mem_zip he
  have hfits := fits_value.2.2 value hvalue
  refine ⟨keyMeta_inRange hk (hk.inPubs pubkey hpubkey) (List.mem_cons_of_mem _ hpath),
    ⟨hfits, ?_⟩, fun raw hraw => ?_⟩
  · rw [length_p2wpkhScript]
    decide
  · rw [serialize_txOut hfits, Except.ok.injEq] at hraw
    rw [← hraw, List.length_append, List.length_cons, length_p2wpkhScript, length_leBytes]
    decide

/-- All of the fixture has room in its bytes. -/
theorem psbtInRange (hk : k.Sound py.int) (changePub : Bytes) :
    PsbtInRange py.int (fixtureTx py k changePub) (inputsMeta py k) (outputsMeta k) := by
  refine ⟨fixtureTx_inRange hk changePub, fun raw hraw => ?_, ?_, rfl, inputMeta_inRange hk,
    fun m hm _ => ?_⟩
  · rw [length_of_serialize hk hraw]
    decide
  · rw [fixtureTx_vin hk, inputsMeta, List.length_map, List.length_zip, hk.inPubs_length]
    rfl
  · rw [outputsMeta, List.mem_cons, List.mem_singleton] at hm
    obtain hm | hm := hm
    · cases hm
    · obtain rfl := Option.some.inj hm
      exact keyMeta_inRange hk hk.changePub List.mem_cons_self

/-! ## Reading back -/

/-- What is written for a transaction of the fixture is read. -/
theorem psbt_reads_back (hk : k.Sound py.int) (changePub : Bytes) :
    ∃ data raw ins outs,
      buildPsbt py.int (fixtureTx py k changePub) (inputsMeta py k) (outputsMeta k) = .ok data ∧
      (fixtureTx py k changePub).serialize = .ok raw ∧
      (inputsMeta py k).mapM (inputEntries py.int) = .ok ins ∧
      (outputsMeta k).mapM (outputEntries py.int) = .ok outs ∧ outs.length = 2 ∧
      parsePsbt py.b64decode data = .ok ([([psbtGlobalUnsignedTx], raw)], ins, outs, raw) ∧
      parseTx raw = .ok (fixtureTx py k changePub) := by
  obtain ⟨data, raw, ins, outs, hdata, hraw, hins, houts, -, hout, hparse⟩ :=
    buildPsbt_ok (psbtInRange hk changePub) py.b64decode
  obtain ⟨body, locktime, hserialize, hreads, -⟩ := Tx.serialize_ok (fixtureTx_inRange hk changePub)
  obtain rfl := Except.ok.inj (hserialize.symm.trans hraw)
  have htx := readFrom_of_reads hreads []
  rw [List.append_nil] at htx
  exact ⟨data, _, ins, outs, hdata, hserialize, hins, houts, hout, hparse, htx⟩

/-- The entries of an input have what the self-check looks for. -/
theorem checkInMap_of_inputEntries (hhex : ∀ b, py.fromhex (hexOf b) = .ok b) {m : InputMeta}
    (hm : m.InRange py.int) {inMap : Dict} (h : inputEntries py.int m = .ok inMap)
    {expIn : ExpectedInput} (hpubkey : expIn.pubkey = hexOf m.pubkey)
    (hvalue : expIn.value = m.witnessUtxo.value) : checkInMap py inMap expIn = .ok () := by
  obtain ⟨enc, henc, hreads, -⟩ := TxOut.serialize_ok hm.witnessUtxo
  obtain ⟨value, hkeypath, -⟩ := keypathValue_ok hm.key
  have hpack : pack 4 0x01 = .ok (leBytes 4 1) := pack_ok ⟨by decide, by decide⟩
  rw [inputEntries, henc, hpack, hkeypath] at h
  obtain rfl := Except.ok.inj h
  have hutxo := readFrom_of_reads hreads []
  rw [List.append_nil] at hutxo
  have hwanted : (List.lookup (psbtInBip32Derivation :: m.pubkey) [([psbtInWitnessUtxo], enc),
      ([psbtInSighashType], leBytes 4 1), (psbtInBip32Derivation :: m.pubkey, value)]).isSome =
        true := by
    have hne : (psbtInBip32Derivation :: m.pubkey == [psbtInWitnessUtxo]) = false := rfl
    have hne' : (psbtInBip32Derivation :: m.pubkey == [psbtInSighashType]) = false := rfl
    rw [List.lookup_cons, hne, List.lookup_cons, hne', List.lookup_cons, beq_self_eq_true]
    rfl
  rw [checkInMap]
  refine bind_eq_ok_iff.mpr ⟨enc, rfl, bind_eq_ok_iff.mpr ⟨m.witnessUtxo, ?_, ?_⟩⟩
  · exact mapError_eq_ok_iff.mpr hutxo
  · refine bind_eq_ok_iff.mpr ⟨(), if_pos hvalue.symm, bind_eq_ok_iff.mpr ⟨m.pubkey, ?_, ?_⟩⟩
    · rw [hpubkey]
      exact hhex m.pubkey
    · exact if_pos hwanted

/-- Entry by entry, what is expected of the inputs is what their maps are made of. -/
theorem checkInMaps (hhex : ∀ b, py.fromhex (hexOf b) = .ok b) (hk : k.Sound py.int) {ins : List Dict}
    {inputs : List ExpectedInput} (hins : (inputsMeta py k).mapM (inputEntries py.int) = .ok ins)
    (hinputs : ((inPaths k.coin).zip (k.inPubs.zip inValues)).mapM (expectedInput py network) =
      .ok inputs) :
    ins.length = 2 ∧ inputs.length = 2 ∧
      (ins.zip inputs).mapM (fun e => checkInMap py e.1 e.2) = .ok [(), ()] := by
  obtain ⟨a, b, hpubs⟩ := List.length_eq_two.mp hk.inPubs_length
  have hrange := inputMeta_inRange hk
  obtain ⟨p, q, hpaths⟩ : ∃ p q, inPaths k.coin = [p, q] := ⟨_, _, rfl⟩
  rw [inputsMeta, hpubs, hpaths, inValues] at hins hrange
  rw [hpubs, hpaths, inValues] at hinputs
  simp only [List.zip_cons_cons, List.zip_nil_right, List.map_cons, List.map_nil, List.mapM_cons,
    List.mapM_nil, bind_eq_ok_iff, pure_eq_ok_iff, List.forall_mem_cons] at hins hinputs hrange
  obtain ⟨d, hd, _, ⟨d', hd', _, rfl, rfl⟩, rfl⟩ := hins
  obtain ⟨e, he, _, ⟨e', he', _, rfl, rfl⟩, rfl⟩ := hinputs
  have hfields {path : String} {pubkey : Bytes} {value : ℤ} {e : ExpectedInput}
      (h : expectedInput py network (path, pubkey, value) = .ok e) :
      e.pubkey = hexOf pubkey ∧ e.value = value := by
    obtain ⟨address, -, h⟩ := bind_eq_ok_iff.mp h
    obtain rfl := pure_eq_ok_iff.mp h
    exact ⟨rfl, rfl⟩
  have hfirst := checkInMap_of_inputEntries hhex hrange.1 hd (hfields he).1 (hfields he).2
  have hsecond := checkInMap_of_inputEntries hhex hrange.2.1 hd' (hfields he').1 (hfields he').2
  refine ⟨rfl, rfl, ?_⟩
  simp only [List.zip_cons_cons, List.zip_nil_right, List.mapM_cons, List.mapM_nil, hfirst, hsecond]
  rfl

end

/-- Whatever the network, the self-check finds nothing wrong with a fixture that is generated. Both
PSBTs read back as the maps they were built from, with our keys, and each as its transaction: the
forged one is the other with its change paid to the thief. -/
theorem generate_reads_back {py : Python} (hhex : ∀ b, py.fromhex (hexOf b) = .ok b)
    {network : String} {g : Generated} (h : generate py network = .ok g) :
    checkGenerated py g = .ok true ∧
    ∃ k raw attackRaw ins outs,
      fixtureKeys py network = .ok k ∧
      (inputsMeta py k).mapM (inputEntries py.int) = .ok ins ∧
      (outputsMeta k).mapM (outputEntries py.int) = .ok outs ∧
      parsePsbt py.b64decode g.psbt = .ok ([([psbtGlobalUnsignedTx], raw)], ins, outs, raw) ∧
      parseTx raw = .ok (fixtureTx py k k.changePub) ∧
      parsePsbt py.b64decode g.attackPsbt =
        .ok ([([psbtGlobalUnsignedTx], attackRaw)], ins, outs, attackRaw) ∧
      parseTx attackRaw = .ok { fixtureTx py k k.changePub with
        vout := (fixtureTx py k k.changePub).vout.set 1
          ⟨changeValue, p2wpkhScript py.sha256 k.thiefPub⟩ } := by
  rw [generate] at h
  simp only [bind_eq_ok_iff, pure_eq_ok_iff, mapError_eq_ok_iff] at h
  obtain ⟨k, hk, psbt, hpsbt, attackPsbt, hattack, txid, htxid, inputs, hinputs, -, -, -, -, -, -,
    rfl⟩ := h
  have hsound := sound_of_fixtureKeys hk
  obtain ⟨data, raw, ins, outs, hdata, hraw, hins, houts, hout, hparse, htx⟩ :=
    psbt_reads_back hsound k.changePub
  obtain ⟨data', raw', ins', outs', hdata', hraw', hins', houts', -, hparse', htx'⟩ :=
    psbt_reads_back hsound k.thiefPub
  obtain rfl := Except.ok.inj (hpsbt.symm.trans hdata)
  obtain rfl := Except.ok.inj (hattack.symm.trans hdata')
  obtain rfl := Except.ok.inj (hins.symm.trans hins')
  obtain rfl := Except.ok.inj (houts.symm.trans houts')
  obtain ⟨hin, hexpected, hmaps⟩ := checkInMaps hhex hsound hins hinputs
  refine ⟨?_, k, raw, raw', ins, outs, hk, hins, houts, hparse, htx, hparse', htx'⟩
  rw [checkGenerated]
  refine bind_eq_ok_iff.mpr ⟨_, mapError_eq_ok_iff.mpr hparse, ?_⟩
  refine bind_eq_ok_iff.mpr ⟨_, mapError_eq_ok_iff.mpr htx, ?_⟩
  refine bind_eq_ok_iff.mpr ⟨txid, mapError_eq_ok_iff.mpr htxid, ?_⟩
  refine bind_eq_ok_iff.mpr ⟨(), if_pos rfl, ?_⟩
  refine bind_eq_ok_iff.mpr ⟨(), if_pos (hin.trans hexpected.symm), ?_⟩
  exact bind_eq_ok_iff.mpr ⟨(), if_pos hout, bind_eq_ok_iff.mpr ⟨_, hmaps, rfl⟩⟩

/-! ## A small library -/

def hexValue (c : Char) : ℕ := ((List.range 16).find? fun n => hexDigit n == c).getD 0

/-- The bytes of hexadecimal digits. -/
def fromHex : List Char → Bytes
  | a :: b :: cs => UInt8.ofNat (16 * hexValue a + hexValue b) :: fromHex cs
  | _ => []

theorem fromHex_hexOf (bs : Bytes) : fromHex (hexOf bs).toList = bs := by
  have hdigit : ∀ n < 16, hexValue (hexDigit n) = n := by decide
  rw [hexOf, String.toList_ofList]
  induction bs with
  | nil => rfl
  | cons b bs ih =>
    have hlt := b.toNat_lt
    rw [List.flatMap_cons, List.cons_append, List.cons_append, List.nil_append, fromHex, ih,
      hdigit _ (by omega), hdigit _ (by omega), Nat.div_add_mod, UInt8.ofNat_toNat]

/-- Python's library, with hashes that hold little. -/
def smallPython : Python where
  sha256 := sevenSha256
  hmacSha256 _ _ := []
  hmacSha512 _ _ := (Vector.replicate 64 0x00).set 31 0x01
  pbkdf2HmacSha512 _ _ _ := []
  int := intOfDigits
  b64decode _ := .error (.valueError "Incorrect padding")
  fromhex s := .ok (fromHex s.toList)
  str exc := reprStr exc

theorem generate_reads_back_testnet : ∃ g k raw ins outs,
    generate smallPython "testnet" = .ok g ∧ checkGenerated smallPython g = .ok true ∧
    fixtureKeys smallPython "testnet" = .ok k ∧
    (outputsMeta k).mapM (outputEntries smallPython.int) = .ok outs ∧
    parsePsbt smallPython.b64decode g.attackPsbt =
      .ok ([([psbtGlobalUnsignedTx], raw)], ins, outs, raw) ∧
    (parseTx raw).map (fun tx => tx.vout.map TxOut.script) =
      .ok [p2wpkhScript smallPython.sha256 k.destPub, p2wpkhScript smallPython.sha256 k.thiefPub] := by
  have hsome : (generate smallPython "testnet").toOption.isSome = true := by decide +kernel
  obtain ⟨g, hg⟩ := Option.isSome_iff_exists.mp hsome
  rw [toOption_eq_some_iff] at hg
  obtain ⟨hcheck, k, -, raw, ins, outs, hk, -, houts, -, -, hparse, htx⟩ :=
    generate_reads_back (fun b => congrArg Except.ok (fromHex_hexOf b)) hg
  exact ⟨g, k, raw, ins, outs, hg, hcheck, hk, houts, hparse, by rw [htx]; rfl⟩

end Verifier

end SignerOS
