import SignerOS.Lib.Fips180
import SignerOS.Verifier.HdKeyTheorems

/-!
# What a signature is about

`txid` and `bip143_sighash` of `make_test_data.py`.

* `flatten_injective`, a list of outpoints, sequence numbers or outputs is told from every other by
  the bytes it is written in;
* `preimage_injective`, so is everything else that is hashed;
* `bip143Sighash_commits`, a hash is that of one transaction, input, script and amount.
-/

namespace SignerOS

namespace Verifier

open Cursor (Reads)

/-- `hashlib.sha256(b).digest()`, as it is published. -/
def hashlibSha256 : Sha256 := fun b => ⟨(Fips180.hash b).toArray, Fips180.length_hash b⟩

namespace Tx

/-- `b"".join(i.outpoint() for i in self.vin)`. -/
def outpoints (tx : Tx) : Except Raised Bytes := return (← tx.vin.mapM TxIn.outpoint).flatten

/-- `b"".join(struct.pack("<I", i.sequence) for i in self.vin)`. -/
def sequences (tx : Tx) : Except Raised Bytes :=
  return (← tx.vin.mapM fun i => pack 4 i.sequence).flatten

/-- `b"".join(o.serialize() for o in self.vout)`. -/
def outputs (tx : Tx) : Except Raised Bytes := return (← tx.vout.mapM TxOut.serialize).flatten

/-- `self.vin[index]`. -/
def input (tx : Tx) (index : ℕ) : Except Thrown TxIn :=
  match tx.vin[index]? with
  | some i => .ok i
  | none => .error .indexError

section
variable (sha256 : Sha256)

def txid (tx : Tx) : Except Raised String :=
  return hexOf (dsha256 sha256 (← tx.serialize)).reverse

/-- `pre`. -/
def preimage (tx : Tx) (index : ℕ) (scriptCode : Bytes) (amount sighashType : ℤ) :
    Except Thrown Bytes := do
  let hashPrevouts := dsha256 sha256 (← tx.outpoints.mapError Raised.thrown)
  let hashSequence := dsha256 sha256 (← tx.sequences.mapError Raised.thrown)
  let hashOutputs := dsha256 sha256 (← tx.outputs.mapError Raised.thrown)
  let vin ← tx.input index
  let version ← (pack 4 tx.version).mapError Raised.thrown
  let outpoint ← vin.outpoint.mapError Raised.thrown
  let script ← (varbytes scriptCode).mapError Raised.thrown
  let amount ← (pack 8 amount).mapError Raised.thrown
  let sequence ← (pack 4 vin.sequence).mapError Raised.thrown
  let locktime ← (pack 4 tx.locktime).mapError Raised.thrown
  let sighashType ← (pack 4 sighashType).mapError Raised.thrown
  return version ++ hashPrevouts ++ hashSequence ++ outpoint ++ script ++ amount ++ sequence ++
    hashOutputs ++ locktime ++ sighashType

def bip143Sighash (tx : Tx) (index : ℕ) (scriptCode : Bytes) (amount sighashType : ℤ) :
    Except Thrown Bytes :=
  return dsha256 sha256 (← tx.preimage sha256 index scriptCode amount sighashType)

end

end Tx

/-! ## What is told apart -/

theorem pack_eq_ok_iff {width : ℕ} {n : ℤ} {b : Bytes} :
    pack width n = .ok b ↔ Fits width n ∧ leBytes width n.toNat = b := by
  rw [pack]
  split
  · next hfits => rw [Except.ok.injEq, Fits, and_iff_right hfits]
  · next hfits => exact iff_of_false (fun h => by cases h) fun h => hfits h.1

/-- A number of so many bytes. -/
def readNumber (width : ℕ) : Reader ℤ := do return unpack (← Reader.take width)

theorem reads_pack {width : ℕ} {n : ℤ} {b : Bytes} (h : pack width n = .ok b) :
    Reads (readNumber width) b n := by
  obtain ⟨hfits, rfl⟩ := pack_eq_ok_iff.mp h
  have hread := (Reader.reads_take (length_leBytes width n.toNat)).map (g := unpack)
  rwa [unpack_leBytes hfits] at hread

theorem lt_of_varint {n : ℕ} {b : Bytes} (h : varint n = .ok b) : n < 2 ^ 64 := by
  by_contra hge
  have hpack : pack 8 n = .error .structError := if_neg fun hfits => by
    have hlt := hfits.2
    norm_num at hlt
    omega
  rw [varint, if_neg (by omega), if_neg (by omega), if_neg (by omega), hpack] at h
  cases h

theorem reads_varbytes {script b : Bytes} (h : varbytes script = .ok b) :
    Reads Reader.varbytes b script := by
  obtain ⟨n, hn, -⟩ := bind_eq_ok_iff.mp h
  obtain ⟨enc, henc, hreads⟩ := varbytes_ok (lt_of_varint hn)
  rw [henc] at h
  exact Except.ok.inj h ▸ hreads

/-- The transaction and the place of an outpoint. -/
def readOutpoint : Reader (Bytes × ℤ) := do
  let txidLe ← Reader.take 32
  return (txidLe, ← readNumber 4)

theorem reads_outpoint {i : TxIn} (hi : i.txidLe.length = 32) {b : Bytes}
    (h : i.outpoint = .ok b) : Reads readOutpoint b (i.txidLe, i.vout) := by
  obtain ⟨v, hv, hb⟩ := bind_eq_ok_iff.mp h
  rw [← pure_eq_ok_iff.mp hb]
  exact (Reader.reads_take hi).bind (reads_pack hv).map

theorem reads_txOut {o : TxOut} {b : Bytes} (h : o.serialize = .ok b) : Reads parseTxOut b o := by
  obtain ⟨v, hv, h⟩ := bind_eq_ok_iff.mp h
  obtain ⟨s, hs, hb⟩ := bind_eq_ok_iff.mp h
  have hscript : o.script.length < 2 ^ 64 := by
    obtain ⟨n, hn, -⟩ := bind_eq_ok_iff.mp hs
    exact lt_of_varint hn
  obtain ⟨enc, henc, hreads, -⟩ := TxOut.serialize_ok ⟨(pack_eq_ok_iff.mp hv).1, hscript⟩
  rw [TxOut.serialize, hv, hs] at henc
  rw [← pure_eq_ok_iff.mp hb]
  exact Except.ok.inj henc ▸ hreads

/-- What is read as something that takes up room was not written in no bytes. -/
theorem ne_nil_of_reads {α : Type} {p : Reader α} {b : Bytes} {a : α} (h : Reads p b a)
    (hgains : Cursor.Gains p) : b ≠ [] := by
  rintro rfl
  have hlt := (hgains _ _ _ (h [] [])).2.1
  exact absurd hlt (Nat.lt_irrefl _)

theorem gains_readNumber (width : ℕ) : Cursor.Gains (readNumber (width + 1)) :=
  (Cursor.gains_take _ width).bind fun _ => Cursor.forward_pure _

theorem gains_readOutpoint : Cursor.Gains readOutpoint :=
  (Cursor.gains_take _ 31).bind fun _ =>
    (gains_readNumber 3).forward.bind fun _ => Cursor.forward_pure _

theorem gains_parseTxOut : Cursor.Gains parseTxOut :=
  (Cursor.gains_take _ 7).bind fun _ =>
    (gains_varint.bind fun n => Cursor.forward_take _ n).forward.bind fun _ =>
      Cursor.forward_pure _

namespace Tx

section
variable {tx tx' : Tx} {b : Bytes}

theorem outpoints_injective (htx : ∀ i ∈ tx.vin, i.txidLe.length = 32)
    (htx' : ∀ i ∈ tx'.vin, i.txidLe.length = 32) (h : tx.outpoints = .ok b)
    (h' : tx'.outpoints = .ok b) :
    tx.vin.map (fun i => (i.txidLe, i.vout)) = tx'.vin.map fun i => (i.txidLe, i.vout) := by
  obtain ⟨encs, hencs, hb⟩ := bind_eq_ok_iff.mp h
  obtain ⟨encs', hencs', hb'⟩ := bind_eq_ok_iff.mp h'
  have hflatten := (pure_eq_ok_iff.mp hb).trans (pure_eq_ok_iff.mp hb').symm
  have hreads {i : TxIn} (hi : i.txidLe.length = 32) {y : Bytes} (hy : i.outpoint = .ok y) :
      y ≠ [] ∧ Reads readOutpoint y (i.txidLe, i.vout) :=
    have hreads := reads_outpoint hi hy
    ⟨ne_nil_of_reads hreads gains_readOutpoint, hreads⟩
  exact Cursor.mapM_flatten_injective (fun i hi _ => hreads (htx i hi))
    (fun i hi _ => hreads (htx' i hi)) hencs hencs' hflatten

theorem sequences_injective (h : tx.sequences = .ok b) (h' : tx'.sequences = .ok b) :
    tx.vin.map TxIn.sequence = tx'.vin.map TxIn.sequence := by
  obtain ⟨encs, hencs, hb⟩ := bind_eq_ok_iff.mp h
  obtain ⟨encs', hencs', hb'⟩ := bind_eq_ok_iff.mp h'
  have hflatten := (pure_eq_ok_iff.mp hb).trans (pure_eq_ok_iff.mp hb').symm
  have hreads (i : TxIn) {y : Bytes} (hy : pack 4 i.sequence = .ok y) :
      y ≠ [] ∧ Reads (readNumber 4) y i.sequence :=
    ⟨ne_nil_of_reads (reads_pack hy) (gains_readNumber 3), reads_pack hy⟩
  exact Cursor.mapM_flatten_injective (fun i _ _ => hreads i) (fun i _ _ => hreads i) hencs hencs'
    hflatten

theorem outputs_injective (h : tx.outputs = .ok b) (h' : tx'.outputs = .ok b) :
    tx.vout = tx'.vout := by
  obtain ⟨encs, hencs, hb⟩ := bind_eq_ok_iff.mp h
  obtain ⟨encs', hencs', hb'⟩ := bind_eq_ok_iff.mp h'
  have hflatten := (pure_eq_ok_iff.mp hb).trans (pure_eq_ok_iff.mp hb').symm
  have hreads (o : TxOut) {y : Bytes} (hy : o.serialize = .ok y) : y ≠ [] ∧ Reads parseTxOut y o :=
    ⟨ne_nil_of_reads (reads_txOut hy) gains_parseTxOut, reads_txOut hy⟩
  have heq := Cursor.mapM_flatten_injective (g := id) (fun o _ _ => hreads o) (fun o _ _ => hreads o)
    hencs hencs' hflatten
  rwa [List.map_id, List.map_id] at heq

theorem vin_injective {is is' : List TxIn}
    (houtpoints : is.map (fun i => (i.txidLe, i.vout)) = is'.map fun i => (i.txidLe, i.vout))
    (hsequences : is.map TxIn.sequence = is'.map TxIn.sequence) : is = is' := by
  induction is generalizing is' with
  | nil => exact (List.map_eq_nil_iff.mp houtpoints.symm).symm
  | cons i is ih =>
    cases is' with
    | nil => cases houtpoints
    | cons i' is' =>
      rw [List.map_cons, List.map_cons, List.cons.injEq, Prod.mk.injEq] at houtpoints
      rw [List.map_cons, List.map_cons, List.cons.injEq] at hsequences
      have hi : i = i' := by
        cases i
        cases i'
        rw [TxIn.mk.injEq]
        exact ⟨houtpoints.1.1, houtpoints.1.2, hsequences.1⟩
      rw [hi, ih houtpoints.2 hsequences.2]

end

/-! ## What is hashed last -/

/-- The ten parts of it. -/
structure Preimage where
  version : ℤ
  hashPrevouts : Bytes
  hashSequence : Bytes
  outpoint : Bytes × ℤ
  scriptCode : Bytes
  amount : ℤ
  sequence : ℤ
  hashOutputs : Bytes
  locktime : ℤ
  sighashType : ℤ

def readPreimage : Reader Preimage := do
  let version ← readNumber 4
  let hashPrevouts ← Reader.take 32
  let hashSequence ← Reader.take 32
  let outpoint ← readOutpoint
  let scriptCode ← Reader.varbytes
  let amount ← readNumber 8
  let sequence ← readNumber 4
  let hashOutputs ← Reader.take 32
  let locktime ← readNumber 4
  let sighashType ← readNumber 4
  return { version, hashPrevouts, hashSequence, outpoint, scriptCode, amount, sequence,
           hashOutputs, locktime, sighashType }

variable {sha256 : Sha256}

/-- Everything that is hashed on the way, and what is read from the last of it. -/
structure Hashed (sha256 : Sha256) (tx : Tx) (index : ℕ) (scriptCode : Bytes)
    (amount sighashType : ℤ) (b : Bytes) where
  outpoints : Bytes
  sequences : Bytes
  outputs : Bytes
  input : TxIn
  outpoints_eq : tx.outpoints = .ok outpoints
  sequences_eq : tx.sequences = .ok sequences
  outputs_eq : tx.outputs = .ok outputs
  input_eq : tx.vin[index]? = some input
  reads : input.txidLe.length = 32 → Reads readPreimage b
    { version := tx.version
      hashPrevouts := dsha256 sha256 outpoints
      hashSequence := dsha256 sha256 sequences
      outpoint := (input.txidLe, input.vout)
      scriptCode := scriptCode
      amount := amount
      sequence := input.sequence
      hashOutputs := dsha256 sha256 outputs
      locktime := tx.locktime
      sighashType := sighashType }

theorem hashed_of_preimage {tx : Tx} {index : ℕ} {scriptCode : Bytes} {amount sighashType : ℤ}
    {b : Bytes} (h : tx.preimage sha256 index scriptCode amount sighashType = .ok b) :
    Nonempty (Hashed sha256 tx index scriptCode amount sighashType b) := by
  rw [preimage] at h
  simp only [bind_eq_ok_iff, mapError_eq_ok_iff, pure_eq_ok_iff] at h
  obtain ⟨o, ho, s, hs, u, hu, i, hi, v, hv, p, hp, c, hc, a, ha, q, hq, l, hl, t, ht, rfl⟩ := h
  have hinput : tx.vin[index]? = some i := by
    rw [input] at hi
    split at hi
    · next hsome => rw [hsome, Except.ok.inj hi]
    · cases hi
  have hhash (x : Bytes) : Reads (Reader.take 32) (dsha256 sha256 x) (dsha256 sha256 x) :=
    Reader.reads_take (length_dsha256 sha256 x)
  refine ⟨⟨o, s, u, i, ho, hs, hu, hinput, fun hlength => ?_⟩⟩
  simp only [List.append_assoc]
  exact (reads_pack hv).bind ((hhash o).bind ((hhash s).bind ((reads_outpoint hlength hp).bind
    ((reads_varbytes hc).bind ((reads_pack ha).bind ((reads_pack hq).bind ((hhash u).bind
      ((reads_pack hl).bind (reads_pack ht).map))))))))

/-- The four byte strings that are hashed. -/
def HashedBytes (sha256 : Sha256) (tx : Tx) (index : ℕ) (scriptCode : Bytes)
    (amount sighashType : ℤ) : Set Bytes :=
  {b | tx.outpoints = .ok b ∨ tx.sequences = .ok b ∨ tx.outputs = .ok b ∨
    tx.preimage sha256 index scriptCode amount sighashType = .ok b}

end Tx

/-! ## What has an id -/

theorem TxOut.inRange_of_serialize {o : TxOut} {b : Bytes} (h : o.serialize = .ok b) :
    o.InRange := by
  obtain ⟨v, hv, h⟩ := bind_eq_ok_iff.mp h
  obtain ⟨s, hs, -⟩ := bind_eq_ok_iff.mp h
  obtain ⟨n, hn, -⟩ := bind_eq_ok_iff.mp hs
  exact ⟨(pack_eq_ok_iff.mp hv).1, lt_of_varint hn⟩

theorem TxIn.inRange_of_serialize {i : TxIn} (hi : i.txidLe.length = 32) {b : Bytes}
    (h : i.serialize = .ok b) : i.InRange := by
  obtain ⟨o, ho, h⟩ := bind_eq_ok_iff.mp h
  obtain ⟨e, -, h⟩ := bind_eq_ok_iff.mp h
  obtain ⟨q, hq, -⟩ := bind_eq_ok_iff.mp h
  obtain ⟨v, hv, -⟩ := bind_eq_ok_iff.mp ho
  exact ⟨hi, (pack_eq_ok_iff.mp hv).1, (pack_eq_ok_iff.mp hq).1⟩

namespace Tx

variable {tx tx' : Tx} {b : Bytes}

theorem inRange_of_serialize (htx : ∀ i ∈ tx.vin, i.txidLe.length = 32)
    (h : tx.serialize = .ok b) : tx.InRange := by
  rw [serialize] at h
  simp only [bind_eq_ok_iff, pure_eq_ok_iff] at h
  obtain ⟨v, hv, nIn, hnIn, ins, hins, nOut, hnOut, outs, houts, l, hl, rfl⟩ := h
  refine ⟨(pack_eq_ok_iff.mp hv).1, (pack_eq_ok_iff.mp hl).1, fun i hi => ?_, fun o ho => ?_,
    lt_of_varint hnIn, lt_of_varint hnOut⟩
  · obtain ⟨y, hy⟩ := Cursor.exists_of_mapM hins i hi
    exact TxIn.inRange_of_serialize (htx i hi) hy
  · obtain ⟨y, hy⟩ := Cursor.exists_of_mapM houts o ho
    exact TxOut.inRange_of_serialize hy

theorem reads_serialize (htx : ∀ i ∈ tx.vin, i.txidLe.length = 32) (h : tx.serialize = .ok b) :
    Reads parseTxFrom b tx := by
  obtain ⟨body, locktime, hb, hreads, -⟩ := serialize_ok (inRange_of_serialize htx h)
  rw [h] at hb
  exact Except.ok.inj hb ▸ hreads

/-- Transactions that have the same id are the same, unless their bytes have the same hash. -/
theorem eq_of_txid {sha256 : Sha256} {id : String} (htx : ∀ i ∈ tx.vin, i.txidLe.length = 32)
    (htx' : ∀ i ∈ tx'.vin, i.txidLe.length = 32)
    (hcollision : ∀ b b', tx.serialize = .ok b → tx'.serialize = .ok b' →
      dsha256 sha256 b = dsha256 sha256 b' → b = b')
    (h : tx.txid sha256 = .ok id) (h' : tx'.txid sha256 = .ok id) : tx = tx' := by
  obtain ⟨b, hb, h⟩ := bind_eq_ok_iff.mp h
  obtain ⟨b', hb', h'⟩ := bind_eq_ok_iff.mp h'
  have hhex := hexOf_inj ((pure_eq_ok_iff.mp h).trans (pure_eq_ok_iff.mp h').symm)
  obtain rfl := hcollision b b' hb hb' (List.reverse_injective hhex)
  exact ((reads_serialize htx hb).injective (reads_serialize htx' hb') (Eq.refl (b ++ []))).1

end Tx

theorem length_txidLe_of_parseTx {raw : Bytes} {tx : Tx} (h : parseTx raw = .ok tx) :
    ∀ i ∈ tx.vin, i.txidLe.length = 32 := by
  have hread : ∃ r, parseTxFrom ⟨raw, 0⟩ = .ok (tx, r) := by
    rw [parseTx, readFrom] at h
    cases hfrom : parseTxFrom ⟨raw, 0⟩ with
    | error e =>
      rw [hfrom] at h
      cases h
    | ok p =>
      rw [hfrom] at h
      cases h
      exact ⟨p.2, rfl⟩
  obtain ⟨r, hread⟩ := hread
  obtain ⟨v, r₁, -, h⟩ := Cursor.of_bind_eq_ok hread
  obtain ⟨nIn, r₂, -, h⟩ := Cursor.of_bind_eq_ok h
  obtain ⟨vin, r₃, hvin, h⟩ := Cursor.of_bind_eq_ok h
  obtain ⟨nOut, r₄, -, h⟩ := Cursor.of_bind_eq_ok h
  obtain ⟨vout, r₅, -, h⟩ := Cursor.of_bind_eq_ok h
  obtain ⟨l, r₆, -, h⟩ := Cursor.of_bind_eq_ok h
  cases h
  refine Cursor.forall_of_times (fun r i r' hi => ?_) hvin
  obtain ⟨t, r₇, ht, hi⟩ := Cursor.of_bind_eq_ok hi
  obtain ⟨w, r₈, -, hi⟩ := Cursor.of_bind_eq_ok hi
  obtain ⟨s, r₉, -, hi⟩ := Cursor.of_bind_eq_ok hi
  obtain ⟨q, r₁₀, -, hi⟩ := Cursor.of_bind_eq_ok hi
  cases hi
  exact Cursor.length_of_take ht

/-! ## What is signed -/

/-- Unless two of the byte strings that are hashed have the same hash, a hash is that of one
transaction, one of its inputs, one script and one amount. -/
theorem bip143Sighash_commits (sha256 : Sha256) {tx tx' : Tx} {index index' : ℕ}
    {scriptCode scriptCode' : Bytes} {amount amount' sighashType sighashType' : ℤ} {digest : Bytes}
    (htx : ∀ i ∈ tx.vin, i.txidLe.length = 32) (htx' : ∀ i ∈ tx'.vin, i.txidLe.length = 32)
    (hcollision : Set.InjOn (dsha256 sha256)
      (tx.HashedBytes sha256 index scriptCode amount sighashType ∪
        tx'.HashedBytes sha256 index' scriptCode' amount' sighashType'))
    (h : tx.bip143Sighash sha256 index scriptCode amount sighashType = .ok digest)
    (h' : tx'.bip143Sighash sha256 index' scriptCode' amount' sighashType' = .ok digest) :
    tx = tx' ∧ tx.vin[index]? = tx'.vin[index']? ∧ scriptCode = scriptCode' ∧ amount = amount' ∧
      sighashType = sighashType' := by
  obtain ⟨b, hb, hdigest⟩ := bind_eq_ok_iff.mp h
  obtain ⟨b', hb', hdigest'⟩ := bind_eq_ok_iff.mp h'
  have hsame := (pure_eq_ok_iff.mp hdigest).trans (pure_eq_ok_iff.mp hdigest').symm
  obtain rfl := hcollision (Or.inl (Or.inr (Or.inr (Or.inr hb))))
    (Or.inr (Or.inr (Or.inr (Or.inr hb')))) hsame
  obtain ⟨o, s, u, i, ho, hs, hu, hi, hreads⟩ := Tx.hashed_of_preimage hb
  obtain ⟨o', s', u', i', ho', hs', hu', hi', hreads'⟩ := Tx.hashed_of_preimage hb'
  have hparts := ((hreads (htx i (List.mem_of_getElem? hi))).injective
    (hreads' (htx' i' (List.mem_of_getElem? hi'))) (Eq.refl (b ++ []))).1
  simp only [Tx.Preimage.mk.injEq, Prod.mk.injEq] at hparts
  obtain ⟨hversion, hprevouts, hsequence, ⟨htxid, hvout⟩, hscript, hamount, hseq, houts, hlocktime,
    htype⟩ := hparts
  obtain rfl := hcollision (Or.inl (Or.inl ho)) (Or.inr (Or.inl ho')) hprevouts
  obtain rfl := hcollision (Or.inl (Or.inr (Or.inl hs))) (Or.inr (Or.inr (Or.inl hs'))) hsequence
  obtain rfl := hcollision (Or.inl (Or.inr (Or.inr (Or.inl hu))))
    (Or.inr (Or.inr (Or.inr (Or.inl hu')))) houts
  have hvin := Tx.vin_injective (Tx.outpoints_injective htx htx' ho ho')
    (Tx.sequences_injective hs hs')
  have hinput : i = i' := by
    cases i
    cases i'
    rw [TxIn.mk.injEq]
    exact ⟨htxid, hvout, hseq⟩
  refine ⟨?_, by rw [hi, hi', hinput], hscript, hamount, htype⟩
  cases tx
  cases tx'
  rw [Tx.mk.injEq]
  exact ⟨hversion, hlocktime, hvin, Tx.outputs_injective hu hu'⟩

/-- One coin is spent, to a script of two bytes. -/
def txOne : Tx where
  vin := [{ txidLe := List.replicate 32 0x11, vout := 1 }]
  vout := [{ value := 5000, script := [0x51, 0x52] }]

/-- Script codes, amounts and types of signatures for its input, of which no two are the same. -/
def signedOne : List (Bytes × ℤ × ℤ) :=
  [([0x51], 6000, 0x01), ([0x52], 6000, 0x01), ([0x51], 6001, 0x01), ([0x51], 6000, 0x02)]

/-- What is hashed for these, with the published hash. -/
def hashedOne : List Bytes :=
  [txOne.outpoints, txOne.sequences, txOne.outputs].map (fun x => x.toOption.getD []) ++
    signedOne.map fun x => (txOne.preimage hashlibSha256 0 x.1 x.2.1 x.2.2).toOption.getD []

theorem hashedBytes_one {x : Bytes × ℤ × ℤ} (hx : x ∈ signedOne) {b : Bytes}
    (h : b ∈ txOne.HashedBytes hashlibSha256 0 x.1 x.2.1 x.2.2) : b ∈ hashedOne := by
  rw [hashedOne]
  obtain h | h | h | h := h
  · simp [h, Except.toOption]
  · simp [h, Except.toOption]
  · simp [h, Except.toOption]
  · exact List.mem_append_right _ (List.mem_map.mpr ⟨x, hx, by simp [h, Except.toOption]⟩)

theorem bip143Sighash_commits_one :
    (∀ x ∈ signedOne, (txOne.bip143Sighash hashlibSha256 0 x.1 x.2.1 x.2.2).toOption.isSome) ∧
    ∀ x ∈ signedOne, ∀ y ∈ signedOne, ∀ digest,
      txOne.bip143Sighash hashlibSha256 0 x.1 x.2.1 x.2.2 = .ok digest →
      txOne.bip143Sighash hashlibSha256 0 y.1 y.2.1 y.2.2 = .ok digest → x = y := by
  have hnodup : (hashedOne.map (dsha256 hashlibSha256)).Nodup := by decide +kernel
  refine ⟨by decide +kernel, fun x hx y hy digest h h' => ?_⟩
  have hcollision : Set.InjOn (dsha256 hashlibSha256)
      (txOne.HashedBytes hashlibSha256 0 x.1 x.2.1 x.2.2 ∪
        txOne.HashedBytes hashlibSha256 0 y.1 y.2.1 y.2.2) := by
    have hmem : ∀ b ∈ txOne.HashedBytes hashlibSha256 0 x.1 x.2.1 x.2.2 ∪
        txOne.HashedBytes hashlibSha256 0 y.1 y.2.1 y.2.2, b ∈ hashedOne := by
      rintro b (hb | hb)
      · exact hashedBytes_one hx hb
      · exact hashedBytes_one hy hb
    exact fun a ha b hb => List.inj_on_of_nodup_map hnodup (hmem a ha) (hmem b hb)
  obtain ⟨-, -, hscript, hamount, htype⟩ :=
    bip143Sighash_commits hashlibSha256 (by decide) (by decide) hcollision h h'
  exact Prod.ext hscript (Prod.ext hamount htype)

end Verifier

end SignerOS
