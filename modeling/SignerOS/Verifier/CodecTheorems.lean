import SignerOS.Verifier.Codec

/-!
# The codec reads what it writes

* `leNat_leBytes`, a number and its bytes;
* `varint_ok` and `varbytes_ok`, lengths and what they stand before;
* `TxIn.serialize_ok`, `TxOut.serialize_ok` and `Tx.serialize_ok`, a transaction for both of its
  readers;
* `kv_ok` and `reads_map`, the maps of a PSBT;
* `codec_round_trips`, all of it.
-/

namespace SignerOS

namespace Verifier

open Cursor (Reads reads_pure reads_lift reads_times)

/-! ## Numbers -/

@[simp] theorem length_leBytes (n v : ℕ) : (leBytes n v).length = n := by simp [leBytes]

/-- A number that has room in its bytes is what they stand for. -/
theorem leNat_leBytes {n v : ℕ} (h : v < 256 ^ n) : Script.leNat (leBytes n v) = v := by
  have hcons : ∀ n v, leBytes (n + 1) v = UInt8.ofNat v :: leBytes n (v / 256) := by
    intro n v
    simp only [leBytes, List.range_succ_eq_map, List.map_cons, List.map_map, pow_zero, Nat.div_one]
    congr 1
    apply List.map_congr_left
    intro i _
    simp only [Function.comp, pow_succ', Nat.div_div_eq_div_mul]
  induction n generalizing v with
  | zero =>
    have hzero : v = 0 := by simpa using h
    rw [hzero]
    rfl
  | succ n ih =>
    have hdiv : v / 256 < 256 ^ n := by
      rw [Nat.div_lt_iff_lt_mul (by omega), ← pow_succ]
      exact h
    rw [hcons, Script.leNat, ih hdiv, UInt8.toNat_ofNat']
    omega

/-- The number has room in so many bytes. -/
def Fits (width : ℕ) (n : ℤ) : Prop := 0 ≤ n ∧ n < 256 ^ width

theorem pack_ok {width : ℕ} {n : ℤ} (h : Fits width n) :
    pack width n = .ok (leBytes width n.toNat) := if_pos h

theorem unpack_leBytes {width : ℕ} {n : ℤ} (h : Fits width n) :
    unpack (leBytes width n.toNat) = n := by
  have hnat : (n.toNat : ℤ) = n := Int.toNat_of_nonneg h.1
  have hlt : n.toNat < 256 ^ width := by
    have hint := h.2
    rw [← hnat] at hint
    exact_mod_cast hint
  rw [unpack, leNat_leBytes hlt, hnat]

theorem Reader.reads_take {n : ℕ} {enc : Bytes} (h : enc.length = n) :
    Reads (Reader.take n) enc enc := by
  subst h
  exact Cursor.reads_take _ enc

/-! ## Lengths -/

/-- A number of its own width, read as one. -/
theorem reads_number {n width : ℕ} (hlt : n < 256 ^ width) :
    Reads (do return Script.leNat (← Reader.take width)) (leBytes width n) n := by
  have hmap := (Reader.reads_take (length_leBytes width n)).map (g := Script.leNat)
  rwa [leNat_leBytes hlt] at hmap

/-- The first byte of a length decides how the rest is read. -/
def Reader.afterMark (mark : ℕ) : Reader ℕ :=
  if mark < 0xFD then return mark
  else if mark = 0xFD then do return Script.leNat (← Reader.take 2)
  else if mark = 0xFE then do return Script.leNat (← Reader.take 4)
  else do return Script.leNat (← Reader.take 8)

theorem Reader.varint_eq :
    Reader.varint = Reader.take 1 >>= fun b => Reader.afterMark (Script.leNat b) := rfl

theorem reads_varint_of_mark {mark : UInt8} {enc : Bytes} {n : ℕ}
    (h : Reads (Reader.afterMark mark.toNat) enc n) : Reads Reader.varint (mark :: enc) n := by
  have hfirst : Reads (Reader.take 1) [mark] [mark] := Reader.reads_take rfl
  rw [Reader.varint_eq]
  refine Reads.bind hfirst ?_
  simpa [Script.leNat] using h

/-- A length below 2^64 is written, and read back. -/
theorem varint_ok {n : ℕ} (h : n < 2 ^ 64) :
    ∃ enc, varint n = .ok enc ∧ enc ≠ [] ∧ Reads Reader.varint enc n := by
  by_cases h1 : n < 0xFD
  · have hbyte : (UInt8.ofNat n).toNat = n := by
      rw [UInt8.toNat_ofNat']
      omega
    refine ⟨[UInt8.ofNat n], by simp only [varint, if_pos h1], List.cons_ne_nil _ _, ?_⟩
    apply reads_varint_of_mark
    rw [hbyte, Reader.afterMark, if_pos h1]
    exact reads_pure n
  by_cases h2 : n ≤ 0xFFFF
  · refine ⟨0xfd :: leBytes 2 n, ?_, List.cons_ne_nil _ _, reads_varint_of_mark ?_⟩
    · have hpack : pack 2 n = .ok (leBytes 2 n) := pack_ok ⟨by omega, by omega⟩
      simp only [varint, if_neg h1, if_pos h2, hpack]
      rfl
    · exact reads_number (by omega)
  by_cases h4 : n ≤ 0xFFFFFFFF
  · refine ⟨0xfe :: leBytes 4 n, ?_, List.cons_ne_nil _ _, reads_varint_of_mark ?_⟩
    · have hpack : pack 4 n = .ok (leBytes 4 n) := pack_ok ⟨by omega, by omega⟩
      simp only [varint, if_neg h1, if_neg h2, if_pos h4, hpack]
      rfl
    · exact reads_number (by omega)
  · refine ⟨0xff :: leBytes 8 n, ?_, List.cons_ne_nil _ _, reads_varint_of_mark ?_⟩
    · have hpack : pack 8 n = .ok (leBytes 8 n) := pack_ok ⟨by omega, by omega⟩
      simp only [varint, if_neg h1, if_neg h2, if_neg h4, hpack]
      rfl
    · exact reads_number (by omega)

theorem varbytes_ok {b : Bytes} (h : b.length < 2 ^ 64) :
    ∃ enc, varbytes b = .ok enc ∧ Reads Reader.varbytes enc b := by
  obtain ⟨enc, henc, -, hreads⟩ := varint_ok h
  refine ⟨enc ++ b, ?_, hreads.bind (Reader.reads_take rfl)⟩
  simp only [varbytes, henc]
  rfl

/-! ## Transactions -/

structure TxOut.InRange (o : TxOut) : Prop where
  value : Fits 8 o.value
  script : o.script.length < 2 ^ 64

structure TxIn.InRange (i : TxIn) : Prop where
  txidLe : i.txidLe.length = 32
  vout : Fits 4 i.vout
  sequence : Fits 4 i.sequence

/-- Every field has room in the bytes it is written in. -/
structure Tx.InRange (tx : Tx) : Prop where
  version : Fits 4 tx.version
  locktime : Fits 4 tx.locktime
  vin : ∀ i ∈ tx.vin, i.InRange
  vout : ∀ o ∈ tx.vout, o.InRange
  vin_length : tx.vin.length < 2 ^ 64
  vout_length : tx.vout.length < 2 ^ 64

/-- An output is read back, and passed over. -/
theorem TxOut.serialize_ok {o : TxOut} (h : o.InRange) :
    ∃ enc, o.serialize = .ok enc ∧ Reads parseTxOut enc o ∧ Reads skipTxOut enc () := by
  obtain ⟨script, hscript, hreads⟩ := varbytes_ok h.script
  have hvalue : Reads (Reader.take 8) (leBytes 8 o.value.toNat) (leBytes 8 o.value.toNat) :=
    Reader.reads_take (length_leBytes 8 _)
  refine ⟨leBytes 8 o.value.toNat ++ script, ?_, ?_, hvalue.bind hreads.map⟩
  · simp only [TxOut.serialize, pack_ok h.value, hscript]
    rfl
  · have hparse : Reads parseTxOut (leBytes 8 o.value.toNat ++ script)
        { value := unpack (leBytes 8 o.value.toNat), script := o.script } :=
      hvalue.bind hreads.map
    rwa [unpack_leBytes h.value] at hparse

/-- An input is read back, and passed over. -/
theorem TxIn.serialize_ok {i : TxIn} (h : i.InRange) :
    ∃ enc, i.serialize = .ok enc ∧ Reads parseTxIn enc i ∧ Reads skipTxIn enc () := by
  obtain ⟨empty, hempty, hreads⟩ := varbytes_ok (b := []) (by simp)
  have htxid : Reads (Reader.take 32) i.txidLe i.txidLe := Reader.reads_take h.txidLe
  have hvout : Reads (Reader.take 4) (leBytes 4 i.vout.toNat) (leBytes 4 i.vout.toNat) :=
    Reader.reads_take (length_leBytes 4 _)
  have hsequence : Reads (Reader.take 4) (leBytes 4 i.sequence.toNat)
      (leBytes 4 i.sequence.toNat) := Reader.reads_take (length_leBytes 4 _)
  have houtpoint : Reads (Reader.take 36) (i.txidLe ++ leBytes 4 i.vout.toNat)
      (i.txidLe ++ leBytes 4 i.vout.toNat) := by
    apply Reader.reads_take
    rw [List.length_append, h.txidLe, length_leBytes]
  refine ⟨i.txidLe ++ leBytes 4 i.vout.toNat ++ empty ++ leBytes 4 i.sequence.toNat, ?_, ?_, ?_⟩
  · simp only [TxIn.serialize, TxIn.outpoint, pack_ok h.vout, pack_ok h.sequence, hempty]
    rfl
  · have hparse : Reads parseTxIn
        (i.txidLe ++ (leBytes 4 i.vout.toNat ++ (empty ++ leBytes 4 i.sequence.toNat)))
        { txidLe := i.txidLe
          vout := unpack (leBytes 4 i.vout.toNat)
          sequence := unpack (leBytes 4 i.sequence.toNat) } :=
      htxid.bind (hvout.bind (hreads.bind hsequence.map))
    rw [unpack_leBytes h.vout, unpack_leBytes h.sequence] at hparse
    simpa only [List.append_assoc] using hparse
  · have hskip : Reads skipTxIn ((i.txidLe ++ leBytes 4 i.vout.toNat) ++
        (empty ++ leBytes 4 i.sequence.toNat)) () :=
      houtpoint.bind (hreads.bind hsequence.map)
    simpa only [List.append_assoc] using hskip

/-- A transaction is read back, and its inputs and outputs are counted. -/
theorem Tx.serialize_ok {tx : Tx} (h : tx.InRange) :
    ∃ body locktime, tx.serialize = .ok (body ++ locktime) ∧
      Reads parseTxFrom (body ++ locktime) tx ∧
      Reads countTxIoFrom body (tx.vin.length, tx.vout.length) := by
  have hversion : Reads (Reader.take 4) (leBytes 4 tx.version.toNat) (leBytes 4 tx.version.toNat) :=
    Reader.reads_take (length_leBytes 4 _)
  have hlocktime : Reads (Reader.take 4) (leBytes 4 tx.locktime.toNat)
      (leBytes 4 tx.locktime.toNat) := Reader.reads_take (length_leBytes 4 _)
  obtain ⟨nIn, hnIn, -, hreadsIn⟩ := varint_ok h.vin_length
  obtain ⟨nOut, hnOut, -, hreadsOut⟩ := varint_ok h.vout_length
  obtain ⟨ins, hins, hallIn⟩ := Cursor.mapM_ok fun i hi => TxIn.serialize_ok (h.vin i hi)
  obtain ⟨outs, houts, hallOut⟩ := Cursor.mapM_ok fun o ho => TxOut.serialize_ok (h.vout o ho)
  have hvin : Reads (Cursor.times parseTxIn tx.vin.length) ins.flatten (tx.vin.map id) :=
    reads_times (hallIn.imp fun _ _ hi => hi.1)
  have hvout : Reads (Cursor.times parseTxOut tx.vout.length) outs.flatten (tx.vout.map id) :=
    reads_times (hallOut.imp fun _ _ ho => ho.1)
  have hskipIn : Reads (Cursor.times skipTxIn tx.vin.length) ins.flatten
      (tx.vin.map fun _ => ()) := reads_times (hallIn.imp fun _ _ hi => hi.2)
  have hskipOut : Reads (Cursor.times skipTxOut tx.vout.length) outs.flatten
      (tx.vout.map fun _ => ()) := reads_times (hallOut.imp fun _ _ ho => ho.2)
  rw [List.map_id] at hvin hvout
  refine ⟨leBytes 4 tx.version.toNat ++ nIn ++ ins.flatten ++ nOut ++ outs.flatten,
    leBytes 4 tx.locktime.toNat, ?_, ?_, ?_⟩
  · simp only [Tx.serialize, pack_ok h.version, pack_ok h.locktime, hnIn, hnOut, hins, houts]
    rfl
  · have hparse : Reads parseTxFrom (leBytes 4 tx.version.toNat ++ (nIn ++ (ins.flatten ++ (nOut ++
        (outs.flatten ++ leBytes 4 tx.locktime.toNat)))))
        { version := unpack (leBytes 4 tx.version.toNat)
          locktime := unpack (leBytes 4 tx.locktime.toNat)
          vin := tx.vin
          vout := tx.vout } :=
      hversion.bind (hreadsIn.bind (hvin.bind (hreadsOut.bind (hvout.bind hlocktime.map))))
    rw [unpack_leBytes h.version, unpack_leBytes h.locktime] at hparse
    simpa only [List.append_assoc] using hparse
  · have hcount : Reads countTxIoFrom (leBytes 4 tx.version.toNat ++ (nIn ++ (ins.flatten ++
        (nOut ++ outs.flatten)))) (tx.vin.length, tx.vout.length) :=
      hversion.bind (hreadsIn.bind (hskipIn.bind (hreadsOut.bind hskipOut.map)))
    simpa only [List.append_assoc] using hcount

/-- What stands at the front of the data is read from it. -/
theorem readFrom_of_reads {α : Type} {p : Reader α} {enc : Bytes} {a : α} (h : Reads p enc a)
    (rest : Bytes) : readFrom p (enc ++ rest) = .ok a := by
  have hfront := h [] rest
  rw [List.nil_append, List.length_nil] at hfront
  rw [readFrom, hfront]
  rfl

/-! ## Maps -/

/-- A key that is new comes after the others. -/
theorem Dict.set_of_not_mem {m : Dict} {key : Bytes} (h : key ∉ m.map Prod.fst) (value : Bytes) :
    m.set key value = m ++ [(key, value)] := by
  have hnone : (m.any fun e => e.1 == key) = false := by
    rw [List.any_eq_false]
    intro e he heq
    apply h
    rw [← eq_of_beq heq]
    exact List.mem_map_of_mem he
  rw [Dict.set, hnone]
  rfl

/-- Entries with keys of their own are set one after the other. -/
theorem foldl_set {m entries : Dict} (h : (m.map Prod.fst ++ entries.map Prod.fst).Nodup) :
    entries.foldl (fun (m : Dict) e => m.set e.1 e.2) m = m ++ entries := by
  induction entries generalizing m with
  | nil => exact (List.append_nil m).symm
  | cons e entries ih =>
    have hnew : e.1 ∉ m.map Prod.fst := by
      intro hmem
      exact (List.nodup_append.mp h).2.2 e.1 hmem e.1 List.mem_cons_self rfl
    rw [List.foldl_cons, Dict.set_of_not_mem hnew, ih, List.append_assoc, List.singleton_append]
    simpa [List.append_assoc] using h

/-- An entry is written, and set when it is read. -/
def IsEntry (enc : Bytes) (e : Bytes × Bytes) : Prop :=
  enc ≠ [] ∧ ∀ m, Reads (readEntry m) enc (.inl (m.set e.1 e.2))

theorem kv_ok (key : Bytes) {value : Bytes} (hne : key ≠ []) (hkey : key.length < 2 ^ 64)
    (hvalue : value.length < 2 ^ 64) :
    ∃ enc, kv key value = .ok enc ∧ IsEntry enc (key, value) := by
  obtain ⟨klen, hklen, hklen_ne, hreads⟩ := varint_ok hkey
  obtain ⟨venc, hvenc, hreads'⟩ := varbytes_ok hvalue
  have hkenc : varbytes key = .ok (klen ++ key) := by
    simp only [varbytes, hklen]
    rfl
  refine ⟨klen ++ key ++ venc, ?_, ?_, fun m => ?_⟩
  · simp only [kv, hkenc, hvenc]
    rfl
  · simp [hklen_ne]
  · have hpos : key.length ≠ 0 := fun h => hne (List.eq_nil_of_length_eq_zero h)
    rw [List.append_assoc]
    refine hreads.bind ?_
    rw [if_neg hpos]
    exact (Reader.reads_take rfl).bind hreads'.map

/-- The end of a map. -/
theorem reads_terminator (m : Dict) : Reads (readEntry m) [0x00] (.inr m) := by
  have hzero : Reads Reader.varint [0x00] 0 := reads_varint_of_mark (reads_pure 0)
  exact hzero.bind (reads_pure (Sum.inr m))

theorem reads_entries {encs : List Bytes} {entries : Dict} (h : List.Forall₂ IsEntry encs entries)
    (m : Dict) {fuel : ℕ} (hfuel : entries.length < fuel) :
    Reads (Cursor.loop .unfinished readEntry fuel m) (encs.flatten ++ [0x00])
      (entries.foldl (fun (m : Dict) e => m.set e.1 e.2) m) := by
  induction h generalizing m fuel with
  | nil =>
    obtain ⟨fuel, rfl⟩ : ∃ n, fuel = n + 1 := ⟨fuel - 1, by simp at hfuel; omega⟩
    exact Cursor.reads_loop_done (reads_terminator m)
  | @cons enc e encs entries he _ ih =>
    obtain ⟨fuel, rfl⟩ : ∃ n, fuel = n + 1 := ⟨fuel - 1, by simp at hfuel; omega⟩
    have hlt : entries.length < fuel := by simpa using hfuel
    have hall := Cursor.reads_loop_on (he.2 m) (ih (m.set e.1 e.2) hlt)
    simpa only [List.flatten_cons, List.foldl_cons, List.append_assoc] using hall

/-- A map is read back entry by entry. -/
theorem reads_map {encs : List Bytes} {entries : Dict} (h : List.Forall₂ IsEntry encs entries)
    (hkeys : (entries.map Prod.fst).Nodup) :
    Reads readMap (encs.flatten ++ [0x00]) entries := by
  have hlength : entries.length ≤ encs.flatten.length := by
    induction h with
    | nil => exact Nat.le_refl 0
    | @cons enc e encs entries he _ ih =>
      have hpos : 0 < enc.length := List.length_pos_iff.mpr he.1
      have hrest := ih (List.nodup_cons.mp hkeys).2
      simp only [List.length_cons, List.flatten_cons, List.length_append]
      omega
  have hset : entries.foldl (fun (m : Dict) e => m.set e.1 e.2) [] = entries :=
    foldl_set hkeys
  refine Cursor.reads_untilDone entries.length ?_ fun fuel hfuel => ?_
  · rw [List.length_append]
    omega
  · have hall := reads_entries h [] hfuel
    rwa [hset] at hall

theorem gains_varint : Cursor.Gains Reader.varint := by
  refine (Cursor.gains_take _ 0).bind fun b => ?_
  show Cursor.Forward (Reader.afterMark (Script.leNat b))
  unfold Reader.afterMark
  split_ifs
  · exact Cursor.forward_pure _
  all_goals exact (Cursor.forward_take _ _).bind fun b => Cursor.forward_pure _

theorem gains_readEntry (m : Dict) : Cursor.Gains (readEntry m) := by
  refine gains_varint.bind fun klen => ?_
  split_ifs
  · exact Cursor.forward_pure _
  · have hvarbytes : Cursor.Forward Reader.varbytes :=
      gains_varint.forward.bind fun n => Cursor.forward_take _ n
    exact (Cursor.forward_take _ klen).bind fun key =>
      hvarbytes.bind fun value => Cursor.forward_pure _

/-- The loop of a map ends by itself: it may be let run as long as one likes. -/
theorem readMap_eq_loop (r : Cursor UInt8) {fuel : ℕ} (h : r.d.length - r.i < fuel) :
    readMap r = Cursor.loop .unfinished readEntry fuel [] r :=
  Cursor.loop_eq_of_gains gains_readEntry r (Nat.lt_succ_self _) h

/-! ## PSBTs -/

section
variable (int : List Char → Except Raised ℤ)

/-- The entries that are written for an input. -/
def inputEntries (m : InputMeta) : Except Raised Dict :=
  return [([psbtInWitnessUtxo], ← m.witnessUtxo.serialize),
    ([psbtInSighashType], ← pack 4 0x01),
    (psbtInBip32Derivation :: m.pubkey, ← keypathValue int m.fingerprint m.path)]

/-- The entries that are written for an output. -/
def outputEntries : OutputMeta → Except Raised Dict
  | none => return []
  | some m =>
    if m.pubkey = [] then return []
    else return [(psbtOutBip32Derivation :: m.pubkey, ← keypathValue int m.fingerprint m.path)]

structure KeyMeta.InRange (m : KeyMeta) : Prop where
  path : ∃ es, pathToInts int m.path = .ok es ∧ ∀ e ∈ es, Fits 4 e
  pubkey : m.pubkey.length + 1 < 2 ^ 64
  value : ∀ value, keypathValue int m.fingerprint m.path = .ok value → value.length < 2 ^ 64

structure InputMeta.InRange (m : InputMeta) : Prop where
  key : m.toKeyMeta.InRange int
  witnessUtxo : m.witnessUtxo.InRange
  utxo : ∀ raw, m.witnessUtxo.serialize = .ok raw → raw.length < 2 ^ 64

/-- One entry for each input and each output, and every number and length has room in the bytes it
is written in. -/
structure PsbtInRange (tx : Tx) (inputsMeta : List InputMeta) (outputsMeta : List OutputMeta) :
    Prop where
  transaction : tx.InRange
  raw : ∀ raw, tx.serialize = .ok raw → raw.length < 2 ^ 64
  inputs_length : inputsMeta.length = tx.vin.length
  outputs_length : outputsMeta.length = tx.vout.length
  inputs : ∀ m ∈ inputsMeta, m.InRange int
  outputs : ∀ m, some m ∈ outputsMeta → m.pubkey ≠ [] → m.InRange int

variable {int}

theorem keypathValue_ok {m : KeyMeta} (h : m.InRange int) :
    ∃ value, keypathValue int m.fingerprint m.path = .ok value ∧ value.length < 2 ^ 64 := by
  obtain ⟨es, hes, hfits⟩ := h.path
  obtain ⟨encs, hencs, -⟩ := Cursor.mapM_ok (f := pack 4) (P := fun _ _ => True)
    fun e (he : e ∈ es) => ⟨_, pack_ok (hfits e he), trivial⟩
  have hvalue : keypathValue int m.fingerprint m.path = .ok (m.fingerprint ++ encs.flatten) := by
    simp only [keypathValue, hes, Cursor.ok_bind, hencs]
    rfl
  exact ⟨_, hvalue, h.value _ hvalue⟩

/-- What is written for an input is read back as its entries. -/
theorem inputBytes_ok {m : InputMeta} (h : m.InRange int) :
    ∃ enc dict, inputBytes int m = .ok enc ∧ inputEntries int m = .ok dict ∧
      Reads readMap enc dict := by
  obtain ⟨utxo, hutxo, -⟩ := TxOut.serialize_ok h.witnessUtxo
  obtain ⟨value, hvalue, hlength⟩ := keypathValue_ok h.key
  have hpack : pack 4 0x01 = .ok (leBytes 4 1) := pack_ok ⟨by omega, by omega⟩
  obtain ⟨enc₁, henc₁, he₁⟩ := kv_ok [psbtInWitnessUtxo] (List.cons_ne_nil _ _)
    (by simp) (h.utxo utxo hutxo)
  obtain ⟨enc₂, henc₂, he₂⟩ := kv_ok [psbtInSighashType] (List.cons_ne_nil _ _) (by simp)
    (show (leBytes 4 1).length < 2 ^ 64 by simp)
  obtain ⟨enc₃, henc₃, he₃⟩ := kv_ok (psbtInBip32Derivation :: m.pubkey)
    (List.cons_ne_nil _ _) h.key.pubkey hlength
  refine ⟨[enc₁, enc₂, enc₃].flatten ++ [0x00], [([psbtInWitnessUtxo], utxo),
    ([psbtInSighashType], leBytes 4 1), (psbtInBip32Derivation :: m.pubkey, value)], ?_, ?_, ?_⟩
  · simp only [inputBytes, hutxo, hpack, hvalue, Cursor.ok_bind, henc₁, henc₂, henc₃,
      List.flatten_cons, List.flatten_nil, List.append_nil, List.append_assoc]
    rfl
  · simp only [inputEntries, hutxo, hpack, hvalue]
    rfl
  · refine reads_map (.cons he₁ (.cons he₂ (.cons he₃ .nil))) ?_
    simp [psbtInWitnessUtxo, psbtInSighashType, psbtInBip32Derivation]

/-- What is written for an output is read back as its entries. -/
theorem outputBytes_ok {m : OutputMeta} (h : ∀ k ∈ m, k.pubkey ≠ [] → k.InRange int) :
    ∃ enc dict, outputBytes int m = .ok enc ∧ outputEntries int m = .ok dict ∧
      Reads readMap enc dict := by
  have hnone : List.Forall₂ IsEntry [] [] := .nil
  have hempty := reads_map hnone List.nodup_nil
  rw [List.flatten_nil, List.nil_append] at hempty
  match m with
  | none => exact ⟨[0x00], [], rfl, rfl, hempty⟩
  | some k =>
    by_cases hkey : k.pubkey = []
    · exact ⟨[0x00], [], if_pos hkey, if_pos hkey, hempty⟩
    · have hrange := h k rfl hkey
      obtain ⟨value, hvalue, hlength⟩ := keypathValue_ok hrange
      obtain ⟨enc, henc, he⟩ := kv_ok (psbtOutBip32Derivation :: k.pubkey)
        (List.cons_ne_nil _ _) hrange.pubkey hlength
      refine ⟨[enc].flatten ++ [0x00], [(psbtOutBip32Derivation :: k.pubkey, value)], ?_, ?_,
        reads_map (.cons he .nil) (by simp)⟩
      · simp only [outputBytes, if_neg hkey, hvalue, Cursor.ok_bind, henc, List.flatten_cons,
          List.flatten_nil, List.append_nil]
        rfl
      · simp only [outputEntries, if_neg hkey, hvalue]
        rfl

/-- A PSBT is read back as what was written. -/
theorem reads_psbt {tx : Tx} {raw globals : Bytes} {ins outs : List Bytes}
    {inMaps outMaps : List Dict}
    (hglobals : IsEntry globals ([psbtGlobalUnsignedTx], raw))
    (hcount : countTxIo raw = .ok (tx.vin.length, tx.vout.length))
    (hins : List.Forall₂ (Reads readMap) ins inMaps) (hin : inMaps.length = tx.vin.length)
    (houts : List.Forall₂ (Reads readMap) outs outMaps) (hout : outMaps.length = tx.vout.length) :
    Reads parsePsbtFrom (psbtMagic ++ globals ++ [0x00] ++ ins.flatten ++ outs.flatten)
      ([([psbtGlobalUnsignedTx], raw)], inMaps, outMaps, raw) := by
  have hmagic : Reads (Reader.take 5) psbtMagic psbtMagic := Reader.reads_take rfl
  have hmap : Reads readMap (globals ++ [0x00]) [([psbtGlobalUnsignedTx], raw)] := by
    have hall := reads_map (.cons hglobals .nil) (by simp)
    rwa [List.flatten_singleton] at hall
  have hinMaps : Reads (Cursor.times readMap tx.vin.length) ins.flatten (inMaps.map id) :=
    hin ▸ reads_times hins
  have houtMaps : Reads (Cursor.times readMap tx.vout.length) outs.flatten (outMaps.map id) :=
    hout ▸ reads_times houts
  rw [List.map_id] at hinMaps houtMaps
  have hall : Reads parsePsbtFrom (psbtMagic ++ ((globals ++ [0x00]) ++ ([] ++ (ins.flatten ++
      outs.flatten)))) ([([psbtGlobalUnsignedTx], raw)], inMaps, outMaps, raw) :=
    hmagic.bind (hmap.bind ((reads_lift hcount).bind (hinMaps.bind houtMaps.map)))
  simpa only [List.nil_append, List.append_assoc] using hall

/-- A PSBT is written, and read back as the entries of its inputs and its outputs. -/
theorem buildPsbt_ok {tx : Tx} {inputsMeta : List InputMeta} {outputsMeta : List OutputMeta}
    (h : PsbtInRange int tx inputsMeta outputsMeta)
    (b64decode : String → Except Raised Bytes) :
    ∃ data raw inMaps outMaps, buildPsbt int tx inputsMeta outputsMeta = .ok data ∧
      tx.serialize = .ok raw ∧ inputsMeta.mapM (inputEntries int) = .ok inMaps ∧
      outputsMeta.mapM (outputEntries int) = .ok outMaps ∧
      inMaps.length = tx.vin.length ∧ outMaps.length = tx.vout.length ∧
      parsePsbt b64decode data =
        .ok ([([psbtGlobalUnsignedTx], raw)], inMaps, outMaps, raw) := by
  obtain ⟨body, locktime, hraw, -, hcount⟩ := Tx.serialize_ok h.transaction
  have hcountIo : countTxIo (body ++ locktime) = .ok (tx.vin.length, tx.vout.length) :=
    readFrom_of_reads hcount locktime
  obtain ⟨globals, hglobals, he⟩ := kv_ok [psbtGlobalUnsignedTx] (List.cons_ne_nil _ _)
    (by simp) (h.raw _ hraw)
  obtain ⟨ins, inMaps, hins, hinMaps, hallIn, hin⟩ :=
    Cursor.mapM_both fun m hm => inputBytes_ok (h.inputs m hm)
  obtain ⟨outs, outMaps, houts, houtMaps, hallOut, hout⟩ :=
    Cursor.mapM_both fun m hm => outputBytes_ok fun k hk => h.outputs k (hk ▸ hm)
  have hinLength := hin.trans h.inputs_length
  have houtLength := hout.trans h.outputs_length
  refine ⟨psbtMagic ++ globals ++ [0x00] ++ ins.flatten ++ outs.flatten, body ++ locktime, inMaps,
    outMaps, ?_, hraw, hinMaps, houtMaps, hinLength, houtLength, ?_⟩
  · simp only [buildPsbt, hraw, Cursor.ok_bind, hglobals, hins, houts]
    rfl
  · have hparse := readFrom_of_reads (reads_psbt he hcountIo hallIn hinLength hallOut houtLength) []
    rw [List.append_nil] at hparse
    rw [parsePsbt, if_pos (by simp [psbtMagic]), hparse]

end

/-- What is written is read back: a length wherever it stands, a transaction and the numbers of its
inputs and outputs, and a PSBT with one map for each of them. -/
theorem codec_round_trips :
    (∀ n < 2 ^ 64, ∃ enc, varint n = .ok enc ∧ Reads Reader.varint enc n) ∧
    (∀ tx : Tx, tx.InRange → ∃ raw, tx.serialize = .ok raw ∧
      countTxIo raw = .ok (tx.vin.length, tx.vout.length) ∧ parseTx raw = .ok tx) ∧
    (∀ int b64decode tx inputsMeta outputsMeta, PsbtInRange int tx inputsMeta outputsMeta →
      ∃ data raw inMaps outMaps, buildPsbt int tx inputsMeta outputsMeta = .ok data ∧
        tx.serialize = .ok raw ∧ inputsMeta.mapM (inputEntries int) = .ok inMaps ∧
        outputsMeta.mapM (outputEntries int) = .ok outMaps ∧
        inMaps.length = tx.vin.length ∧ outMaps.length = tx.vout.length ∧
        parsePsbt b64decode data =
          .ok ([([psbtGlobalUnsignedTx], raw)], inMaps, outMaps, raw)) := by
  refine ⟨fun n hn => ?_, fun tx htx => ?_, fun int b64decode tx inputsMeta outputsMeta h => ?_⟩
  · obtain ⟨enc, henc, -, hreads⟩ := varint_ok hn
    exact ⟨enc, henc, hreads⟩
  · obtain ⟨body, locktime, hraw, hparse, hcount⟩ := Tx.serialize_ok htx
    have hparse' := readFrom_of_reads hparse []
    rw [List.append_nil] at hparse'
    exact ⟨body ++ locktime, hraw, readFrom_of_reads hcount locktime, hparse'⟩
  · exact buildPsbt_ok h b64decode

/-! ### One input, one output -/

/-- Python's `int` of decimal digits. -/
def intOfDigits (s : List Char) : Except Raised ℤ :=
  .ok (s.foldl (fun n c => 10 * n + (c.toNat - '0'.toNat : ℕ)) 0)

def oneInput : Tx where
  vin := [{ txidLe := List.replicate 32 7, vout := 1 }]
  vout := [{ value := 1000, script := [0x51] }]

def oneInputMeta : InputMeta where
  pubkey := [2, 3]
  fingerprint := [1, 2, 3, 4]
  path := "m/84'/1"
  witnessUtxo := { value := 2000, script := [0x51] }

/-- A length that is evaluated is the length of what is written. -/
theorem length_lt_of_map {x : Except Raised Bytes} {n : ℕ} (h : x.map List.length = .ok n)
    (hn : n < 2 ^ 64) {b : Bytes} (hb : x = .ok b) : b.length < 2 ^ 64 := by
  rw [hb] at h
  exact Except.ok.inj h ▸ hn

theorem oneInput_inRange : PsbtInRange intOfDigits oneInput [oneInputMeta] [none] where
  transaction := by
    refine ⟨⟨by decide, by decide⟩, ⟨by decide, by decide⟩, ?_, ?_, by decide, by decide⟩
    · intro i hi
      rw [List.mem_singleton.mp hi]
      exact ⟨by decide, ⟨by decide, by decide⟩, ⟨by decide, by decide⟩⟩
    · intro o ho
      rw [List.mem_singleton.mp ho]
      exact ⟨⟨by decide, by decide⟩, by decide⟩
  raw := fun raw hraw => length_lt_of_map (n := 61) (by decide +kernel) (by decide) hraw
  inputs_length := rfl
  outputs_length := rfl
  inputs := by
    intro m hm
    rw [List.mem_singleton.mp hm]
    refine ⟨⟨⟨[2147483732, 1], by decide +kernel, ?_⟩, by decide, fun value hvalue => ?_⟩,
      ⟨⟨by decide, by decide⟩, by decide⟩, fun raw hraw => ?_⟩
    · intro e he
      obtain rfl | rfl : e = 2147483732 ∨ e = 1 := by simpa using he
      · exact ⟨by decide, by decide⟩
      · exact ⟨by decide, by decide⟩
    · exact length_lt_of_map (n := 12) (by decide +kernel) (by decide) hvalue
    · exact length_lt_of_map (n := 10) (by decide +kernel) (by decide) hraw
  outputs := by
    intro m hm
    simp at hm

theorem codec_round_trips_oneInput :
    (∃ enc, varint 253 = .ok enc ∧ Reads Reader.varint enc 253) ∧
    (∃ raw, oneInput.serialize = .ok raw ∧ countTxIo raw = .ok (1, 1) ∧
      parseTx raw = .ok oneInput) ∧
    ∃ data raw inMaps outMaps, buildPsbt intOfDigits oneInput [oneInputMeta] [none] = .ok data ∧
      oneInput.serialize = .ok raw ∧ [oneInputMeta].mapM (inputEntries intOfDigits) = .ok inMaps ∧
      [none].mapM (outputEntries intOfDigits) = .ok outMaps ∧
      inMaps.length = 1 ∧ outMaps.length = 1 ∧
      parsePsbt (fun _ => .error (.valueError "Incorrect padding")) data =
        .ok ([([psbtGlobalUnsignedTx], raw)], inMaps, outMaps, raw) :=
  ⟨codec_round_trips.1 253 (by decide),
    codec_round_trips.2.1 oneInput oneInput_inRange.transaction,
    codec_round_trips.2.2 intOfDigits _ oneInput [oneInputMeta] [none] oneInput_inRange⟩

end Verifier

end SignerOS
