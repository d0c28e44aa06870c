import SignerOS.Vsize
import SignerOS.TxSize

/-!
# When the size estimate is an upper bound

The estimate and the completed transaction are compared input by input, in weight units.
`Spend.missed` is what the estimate leaves out of an input, `Spend.spare` what it counts too much;
`estimateVsize_bounds_iff` says that the estimate bounds the size of the completed transaction
exactly when the one does not exceed the other by more than rounding to whole units of size hides.
-/

namespace SignerOS

open Spend (program)

/-! ## What libwally returns -/

/-- What the accessors return for an input that is spent this way and spends the script `spk`. -/
def Describes (w : Wally) (psbt : Psbt) (i : ℕ) (spk : Bytes) : Spend → Prop
  | .p2pkh _ => w.scriptpubkeyGetType spk = .p2pkh
  | .p2wpkh _ => w.scriptpubkeyGetType spk = .p2wpkh
  | .p2tr => w.scriptpubkeyGetType spk = .p2tr
  | .p2shP2wpkh hash _ =>
    w.scriptpubkeyGetType spk = .p2sh ∧ w.psbtGetInputSigningScript psbt i = some (program hash)
  | .p2sh ms _ =>
    w.scriptpubkeyGetType spk = .p2sh ∧ w.psbtGetInputSigningScript psbt i = some ms.script
  | .p2wsh ms =>
    w.scriptpubkeyGetType spk = .p2wsh ∧ w.psbtGetInputSigningScript psbt i = some spk ∧
      w.psbtGetInputScriptcode psbt i spk = some ms.script
  | .p2shP2wsh hash ms =>
    w.scriptpubkeyGetType spk = .p2sh ∧ w.psbtGetInputSigningScript psbt i = some (program hash) ∧
      w.psbtGetInputScriptcode psbt i (program hash) = some ms.script
  | .bare _ => w.scriptpubkeyGetType spk = .multisig ∨ w.scriptpubkeyGetType spk = .unknown

/-- The PSBT carries what `estimateVsize` looks at, and libwally returns it: the unsigned
transaction and its plain size, the script each input spends, and the scripts behind its hash. -/
structure Supplies (w : Wally) (psbt : Psbt) (tx : Tx) (spend : ℕ → Spend) : Prop where
  unsigned : Unsigned tx
  count : psbt.inputs.length = tx.inputs.length
  vsize : w.txGetVsize tx = some (strippedSize tx)
  script : ∀ (i : ℕ) (inp : PsbtInput), psbt.inputs[i]? = some inp →
    spentScript tx.inputs[i]? inp ≠ []
  describes : ∀ (i : ℕ) (inp : PsbtInput), psbt.inputs[i]? = some inp →
    Describes w psbt i (spentScript tx.inputs[i]? inp) (spend i)

/-! ## What the estimate counts -/

namespace Multisig

/-- The script begins with the push of its number of signatures. -/
theorem script_eq_cons (ms : Multisig) :
    ∃ rest, ms.script = (if ms.m ≤ 16 then UInt8.ofNat (0x50 + ms.m) else 0x01) :: rest := by
  unfold script pushNumber
  by_cases h : ms.m ≤ 16
  · rw [if_pos h, if_pos h]
    exact ⟨_, rfl⟩
  · rw [if_neg h, if_neg h]
    exact ⟨_, rfl⟩

/-- `multisigM` reads the number of signatures as long as there is an opcode for it. -/
theorem multisigM_script (ms : Multisig) :
    multisigM ms.script = if ms.m ≤ 16 then ms.m else 0 := by
  obtain ⟨rest, hscript⟩ := ms.script_eq_cons
  have hone := ms.one_le
  rw [hscript, multisigM]
  by_cases h : ms.m ≤ 16
  · have hop : (UInt8.ofNat (0x50 + ms.m)).toNat = 0x50 + ms.m := by
      rw [UInt8.toNat_ofNat']
      omega
    have hrange : (0x51 : UInt8) ≤ UInt8.ofNat (0x50 + ms.m) ∧
        UInt8.ofNat (0x50 + ms.m) ≤ 0x60 := by
      rw [UInt8.le_iff_toNat_le, UInt8.le_iff_toNat_le, hop]
      show 81 ≤ _ ∧ _ ≤ 96
      omega
    rw [if_pos h, if_pos h, if_pos hrange, hop]
    omega
  · rw [if_neg h, if_neg h]
    rfl

/-- The signatures the estimate counts for a script. -/
def countedSigs (ms : Multisig) : ℕ := if ms.m ≤ 16 then ms.m else 1

theorem countedSigs_eq (ms : Multisig) :
    (if 0 < multisigM ms.script then multisigM ms.script else 1) = ms.countedSigs := by
  have hone := ms.one_le
  rw [multisigM_script, countedSigs]
  split_ifs <;> omega

/-- A multisig script is no witness program. -/
theorem not_program (ms : Multisig) :
    isWitnessV0Pkh ms.script = false ∧ isWitnessV0Sh ms.script = false := by
  obtain ⟨rest, hscript⟩ := ms.script_eq_cons
  have hone := ms.one_le
  have hfirst : (ms.script[0]? == some 0x00) = false := by
    rw [hscript, List.getElem?_cons_zero, beq_eq_false_iff_ne]
    intro hzero
    have hnat := congrArg UInt8.toNat (Option.some.inj hzero)
    by_cases h : ms.m ≤ 16
    · rw [if_pos h, UInt8.toNat_ofNat'] at hnat
      change _ = 0 at hnat
      omega
    · rw [if_neg h] at hnat
      exact absurd hnat (by decide)
  rw [isWitnessV0Pkh, isWitnessV0Sh, hfirst]
  simp

end Multisig

/-- What `estimateVsize` counts for an input. -/
def estimatedCost : Spend → InputCost
  | .p2pkh _ => { extraScriptSig := 107 }
  | .p2wpkh _ => { witnessBytes := 108, segwit := true }
  | .p2tr => { witnessBytes := 67, segwit := true }
  | .p2shP2wpkh _ _ => { extraScriptSig := 23, witnessBytes := 108, segwit := true }
  | .p2sh ms _ =>
    { extraScriptSig := 1 + ms.countedSigs * 73 + pushOverhead ms.script.length
        + ms.script.length }
  | .p2wsh ms => { witnessBytes := multisigWitness ms.script, segwit := true }
  | .p2shP2wsh _ ms =>
    { extraScriptSig := 35, witnessBytes := multisigWitness ms.script, segwit := true }
  | .bare _ => { witnessBytes := 108, segwit := true }

theorem script_isEmpty (ms : Multisig) : ms.script.isEmpty = false := by
  obtain ⟨rest, hscript⟩ := ms.script_eq_cons
  rw [hscript]
  rfl

theorem isWitnessV0Pkh_program (hash : Vector UInt8 20) :
    isWitnessV0Pkh (program hash) = true := by
  simp [isWitnessV0Pkh, program]

theorem isWitnessV0Sh_program (hash : Vector UInt8 32) :
    isWitnessV0Pkh (program hash) = false ∧ isWitnessV0Sh (program hash) = true := by
  constructor
  · simp [isWitnessV0Pkh, program]
  · simp [isWitnessV0Sh, program]

/-- The branch the `switch` takes for an input spent this way. -/
theorem inputCost_eq {w : Wally} {psbt : Psbt} {i : ℕ} {spk : Bytes} {spend : Spend}
    (hspk : spk ≠ []) (h : Describes w psbt i spk spend) :
    (let signingScript := (w.psbtGetInputSigningScript psbt i).getD []
     let scriptCode :=
       if signingScript.isEmpty then []
       else (w.psbtGetInputScriptcode psbt i signingScript).getD []
     let type := if spk.isEmpty then .unknown else w.scriptpubkeyGetType spk
     inputCost type signingScript scriptCode) = estimatedCost spend := by
  have hempty : spk.isEmpty = false := by simpa using hspk
  simp only [hempty, Bool.false_eq_true, if_false]
  cases spend with
  | p2pkh pub =>
    rw [show w.scriptpubkeyGetType spk = .p2pkh from h]
    rfl
  | p2wpkh pub =>
    rw [show w.scriptpubkeyGetType spk = .p2wpkh from h]
    rfl
  | p2tr =>
    rw [show w.scriptpubkeyGetType spk = .p2tr from h]
    rfl
  | p2shP2wpkh hash pub =>
    obtain ⟨htype, hscript⟩ := h
    have hlen : (program hash).length = 22 := by simp [program]
    simp only [htype, hscript, Option.getD_some, inputCost, isWitnessV0Pkh_program, if_true, hlen]
    rfl
  | p2sh ms hle =>
    obtain ⟨htype, hscript⟩ := h
    simp only [htype, hscript, Option.getD_some, inputCost, ms.not_program, Bool.false_eq_true,
      if_false, ms.countedSigs_eq]
    rfl
  | p2wsh ms =>
    obtain ⟨htype, hscript, hcode⟩ := h
    simp only [htype, hscript, Option.getD_some, hempty, Bool.false_eq_true, if_false, hcode,
      inputCost, script_isEmpty]
    rfl
  | p2shP2wsh hash ms =>
    obtain ⟨htype, hscript, hcode⟩ := h
    have hlen : (program hash).length = 34 := by simp [program]
    have hne : (program hash).isEmpty = false := rfl
    simp only [htype, hscript, Option.getD_some, hne, Bool.false_eq_true, if_false, hcode,
      inputCost, isWitnessV0Sh_program, if_true, hlen, script_isEmpty]
    rfl
  | bare ms =>
    rcases h with htype | htype
    · rw [htype]
      rfl
    · rw [htype]
      rfl

section
variable {w : Wally} {psbt : Psbt} {tx : Tx} {spend : ℕ → Spend}

theorem strippedSize_pos (tx : Tx) : 0 < strippedSize tx := by
  rw [strippedSize]
  omega

/-- The weight the estimate rounds up. -/
def estimatedWeight (tx : Tx) (spend : ℕ → Spend) : ℕ :=
  strippedSize tx * 4
    + overInputs tx (fun i => (estimatedCost (spend i)).extraScriptSig) * 4
    + if (List.range tx.inputs.length).any fun i => (estimatedCost (spend i)).segwit then
        2 + overInputs tx fun i => (estimatedCost (spend i)).witnessBytes
      else 0

theorem estimateVsize_eq (h : Supplies w psbt tx spend) :
    estimateVsize w psbt tx = (estimatedWeight tx spend + 3) / 4 := by
  have hcost (i : ℕ) (inp : PsbtInput) (hinp : psbt.inputs[i]? = some inp) :=
    inputCost_eq (h.script i inp hinp) (h.describes i inp hinp)
  obtain ⟨size, hsize⟩ : ∃ size, strippedSize tx = size + 1 :=
    ⟨_, (Nat.succ_pred_eq_of_pos (strippedSize_pos tx)).symm⟩
  rw [estimateVsize, h.vsize, hsize]
  dsimp only
  rw [map_mapIdx_eq fun i inp hinp => congrArg InputCost.extraScriptSig (hcost i inp hinp),
    map_mapIdx_eq fun i inp hinp => congrArg InputCost.witnessBytes (hcost i inp hinp),
    any_mapIdx_eq fun i inp hinp => congrArg InputCost.segwit (hcost i inp hinp), h.count,
    estimatedWeight, hsize]
  rfl

end

/-! ## What the estimate leaves out, and what it counts too much -/

namespace Spend

/-- The scriptSig does not fit behind a prefix of one byte. -/
def longScript (spend : Spend) : Bool := 253 ≤ (spend.scriptSig spend.largestSigs).length

/-- The weight of an input of a completed transaction that the estimate leaves out: what a key
that is not compressed is longer, the prefix of a long scriptSig, signatures of a script whose
number of them is pushed without an opcode, the scriptSig of a bare multisig, and the empty
witness of an input without one in a transaction with witnesses. -/
def missed (segwitTx : Bool) (spend : Spend) : ℕ :=
  match spend with
  | p2pkh pub => 4 * (pub.val.length - 33) + segwitTx.toNat
  | p2wpkh pub | p2shP2wpkh _ pub => pub.val.length - 33
  | p2tr => 0
  | p2sh _ _ => (if spend.longScript then 8 else 0) + segwitTx.toNat
  | p2wsh ms | p2shP2wsh _ ms =>
    (if 16 < ms.m then 73 * (ms.m - 1) else 0)
      + if 253 ≤ ms.script.length ∧ ms.script.length ≤ 255 then 1 else 0
  | bare _ =>
    4 * (spend.scriptSig spend.largestSigs).length + (if spend.longScript then 8 else 0)
      + segwitTx.toNat

/-- The weight the estimate counts for an input and that is not there: a witness script is given
the prefix of a push, and a bare multisig the witness of a key spend. -/
def spare : Spend → ℕ
  | p2wsh ms | p2shP2wsh _ ms =>
    if 76 ≤ ms.script.length ∧ ms.script.length ≤ 252 then 1 else 0
  | bare _ => 108
  | p2pkh _ | p2wpkh _ | p2shP2wpkh _ _ | p2tr | p2sh _ _ => 0

def isBare : Spend → Bool
  | bare _ => true
  | _ => false

theorem longScript_iff (spend : Spend) :
    spend.longScript = true ↔ 253 ≤ spend.scriptLength spend.largestSize := by
  rw [longScript, decide_eq_true_iff, length_scriptSig spend.signs_largestSigs,
    sigsSize_largestSigs]

theorem length_pushData {data : Bytes} :
    (pushData data).length = pushOverhead data.length + data.length := by
  unfold pushData pushOverhead
  split_ifs
  · rw [List.length_cons, Nat.add_comm]
  · rw [List.length_cons, List.length_cons]
    omega
  · rw [List.length_cons, List.length_cons, List.length_cons]
    omega

theorem prefixed_of_lt {v : ℕ} (h : v < 253) : prefixed v = 1 + v := by
  rw [prefixed, compactSize_of_lt h]

/-- The prefix of a script no longer than any of these is one byte or three. -/
theorem prefixed_of_le {v : ℕ} (h : v ≤ 0xffff) :
    prefixed v = 1 + v + if 253 ≤ v then 2 else 0 := by
  unfold prefixed compactSize
  split_ifs <;> omega

/-- What a multisig witness takes, against what is counted for it. -/
theorem witnessLength_multisig (ms : Multisig) :
    compactSize (ms.m + 2) + 1 + ms.m * 73 + prefixed ms.script.length
        + (if 76 ≤ ms.script.length ∧ ms.script.length ≤ 252 then 1 else 0) =
      multisigWitness ms.script + ((if 16 < ms.m then 73 * (ms.m - 1) else 0)
        + if 253 ≤ ms.script.length ∧ ms.script.length ≤ 255 then 1 else 0) := by
  have hone := ms.one_le
  have hm := ms.m_le
  have hlen := ms.length_script
  have hcount : compactSize (ms.m + 2) = 1 := compactSize_of_lt (by omega)
  have hcounted : varintLen (ms.countedSigs + 2) = 1 := by
    have hle : ms.countedSigs ≤ 20 := by
      unfold Multisig.countedSigs
      split <;> omega
    exact if_pos (by omega)
  rw [multisigWitness, ms.countedSigs_eq, hcounted, hcount, prefixed_of_le (by omega)]
  unfold Multisig.countedSigs pushOverhead kDerSigLen
  split_ifs <;> omega

/-- Input by input: the weight in the completed transaction and what is spare are what is counted
and what is missed. The four units on the right are the prefix of the empty script that the
unsigned transaction has. -/
theorem largest_add_spare (spend : Spend) (segwitTx : Bool)
    (h : spend.isSegwit = true → segwitTx = true) :
    4 * prefixed (spend.scriptLength spend.largestSize)
        + (if segwitTx then spend.witnessLength spend.largestSize else 0) + spend.spare =
      4 + 4 * (estimatedCost spend).extraScriptSig + (estimatedCost spend).witnessBytes
        + spend.missed segwitTx := by
  cases spend with
  | p2pkh pub =>
    have hpub := pub.property
    have hscript : (p2pkh pub).scriptLength (p2pkh pub).largestSize = 74 + pub.val.length := by
      show 73 + (1 + pub.val.length) = _
      omega
    have hwitness : (p2pkh pub).witnessLength (p2pkh pub).largestSize = 1 := rfl
    rw [hscript, hwitness, prefixed_of_lt (by omega)]
    simp only [spare, estimatedCost, missed]
    cases segwitTx <;> simp <;> omega
  | p2wpkh pub =>
    have hpub := pub.property
    have hwitness : (p2wpkh pub).witnessLength (p2wpkh pub).largestSize = 75 + pub.val.length := by
      show 1 + 73 + (1 + pub.val.length) = _
      omega
    have hscript : (p2wpkh pub).scriptLength (p2wpkh pub).largestSize = 0 := rfl
    rw [hscript, hwitness, prefixed_of_lt (by omega), if_pos (h rfl)]
    simp only [spare, estimatedCost, missed]
    omega
  | p2shP2wpkh hash pub =>
    have hpub := pub.property
    have hwitness : (p2shP2wpkh hash pub).witnessLength (p2shP2wpkh hash pub).largestSize =
        75 + pub.val.length := by
      show 1 + 73 + (1 + pub.val.length) = _
      omega
    have hscript : (p2shP2wpkh hash pub).scriptLength (p2shP2wpkh hash pub).largestSize = 23 := rfl
    rw [hscript, hwitness, prefixed_of_lt (by omega), if_pos (h rfl)]
    simp only [spare, estimatedCost, missed]
    omega
  | p2tr =>
    have hwitness : p2tr.witnessLength p2tr.largestSize = 67 := rfl
    have hscript : p2tr.scriptLength p2tr.largestSize = 0 := rfl
    rw [hscript, hwitness, prefixed_of_lt (by omega), if_pos (h rfl)]
    rfl
  | p2sh ms hle =>
    have hone := ms.one_le
    have hlen := ms.length_script
    have hcounted : ms.countedSigs = ms.m := if_pos (by omega)
    have hpush : pushOverhead ms.script.length ≤ 3 := by
      unfold pushOverhead
      split_ifs <;> omega
    have hscript : (p2sh ms hle).scriptLength (p2sh ms hle).largestSize =
        1 + ms.m * 73 + (pushOverhead ms.script.length + ms.script.length) := by
      rw [← length_pushData]
      rfl
    have hwitness : (p2sh ms hle).witnessLength (p2sh ms hle).largestSize = 1 := rfl
    have hlong := (p2sh ms hle).longScript_iff
    rw [hscript] at hlong
    rw [hscript, hwitness, prefixed_of_le (by omega)]
    simp only [spare, estimatedCost, missed, hlong, hcounted]
    cases segwitTx <;> simp <;> split_ifs <;> omega
  | p2wsh ms =>
    have hwitness := witnessLength_multisig ms
    have hscript : (p2wsh ms).scriptLength (p2wsh ms).largestSize = 0 := rfl
    rw [hscript, prefixed_of_lt (by omega), if_pos (h rfl)]
    show _ + (compactSize (ms.m + 2) + 1 + ms.m * 73 + prefixed ms.script.length) + _ = _
    simp only [spare, estimatedCost, missed]
    omega
  | p2shP2wsh hash ms =>
    have hwitness := witnessLength_multisig ms
    have hscript : (p2shP2wsh hash ms).scriptLength (p2shP2wsh hash ms).largestSize = 35 := rfl
    rw [hscript, prefixed_of_lt (by omega), if_pos (h rfl)]
    show _ + (compactSize (ms.m + 2) + 1 + ms.m * 73 + prefixed ms.script.length) + _ = _
    simp only [spare, estimatedCost, missed]
    omega
  | bare ms =>
    have hm := ms.m_le
    have hscript : (bare ms).scriptLength (bare ms).largestSize = 1 + ms.m * 73 := rfl
    have hwitness : (bare ms).witnessLength (bare ms).largestSize = 1 := rfl
    have hlong := (bare ms).longScript_iff
    have hlength : ((bare ms).scriptSig (bare ms).largestSigs).length = 1 + ms.m * 73 := by
      rw [length_scriptSig (bare ms).signs_largestSigs, sigsSize_largestSigs, hscript]
    rw [hscript] at hlong
    rw [hscript, hwitness, prefixed_of_le (by omega)]
    simp only [spare, estimatedCost, missed, hlong, hlength]
    cases segwitTx <;> simp <;> split_ifs <;> omega

end Spend

/-! ## The whole transaction -/

section
variable {w : Wally} {psbt : Psbt} {tx : Tx} {spend : ℕ → Spend}

/-- Some input is a bare multisig. -/
def anyBare (tx : Tx) (spend : ℕ → Spend) : Bool :=
  (List.range tx.inputs.length).any fun i => (spend i).isBare

/-- The weight of the completed transaction that the estimate leaves out. -/
def missedUnits (tx : Tx) (spend : ℕ → Spend) : ℕ :=
  overInputs tx fun i => (spend i).missed (anySegwit tx spend)

/-- The weight the estimate counts and the completed transaction does not have. The last two units
are the marker and the flag, which a bare multisig counts. -/
def spareUnits (tx : Tx) (spend : ℕ → Spend) : ℕ :=
  (overInputs tx fun i => (spend i).spare)
    + if !anySegwit tx spend && anyBare tx spend then 2 else 0

/-- The weight by which the size of the completed transaction is rounded up. -/
def hiddenUnits (tx : Tx) (spend : ℕ → Spend) : ℕ :=
  (witnessPart (largestCompleted tx spend) + 3) % 4

theorem Spend.segwit_estimatedCost (spend : Spend) :
    (estimatedCost spend).segwit = (spend.isSegwit || spend.isBare) := by
  cases spend <;> rfl

theorem Spend.witnessBytes_eq_zero {spend : Spend} (h : (estimatedCost spend).segwit = false) :
    (estimatedCost spend).witnessBytes = 0 := by
  cases spend with
  | p2pkh _ | p2sh _ _ => rfl
  | p2wpkh _ | p2shP2wpkh _ _ | p2tr | p2wsh _ | p2shP2wsh _ _ | bare _ => cases h

theorem anyCounted_eq (tx : Tx) (spend : ℕ → Spend) :
    ((List.range tx.inputs.length).any fun i => (estimatedCost (spend i)).segwit) =
      (anySegwit tx spend || anyBare tx spend) := by
  rw [Bool.eq_iff_iff]
  simp only [Spend.segwit_estimatedCost, anySegwit, anyBare, Bool.or_eq_true, List.any_eq_true,
    and_or_left, exists_or]

theorem isSegwit_of_lt {i : ℕ} (hi : i < tx.inputs.length) (h : (spend i).isSegwit = true) :
    anySegwit tx spend = true :=
  List.any_eq_true.mpr ⟨i, List.mem_range.mpr hi, h⟩

/-- `Spend.largest_add_spare` summed over the inputs. -/
theorem sum_largest_add_spare (tx : Tx) (spend : ℕ → Spend) :
    4 * overInputs tx (fun i => prefixed ((spend i).scriptLength (spend i).largestSize))
        + (if anySegwit tx spend then
            overInputs tx fun i => (spend i).witnessLength (spend i).largestSize
          else 0)
        + overInputs tx (fun i => (spend i).spare) =
      4 * tx.inputs.length + 4 * overInputs tx (fun i => (estimatedCost (spend i)).extraScriptSig)
        + overInputs tx (fun i => (estimatedCost (spend i)).witnessBytes)
        + missedUnits tx spend := by
  have hsum := overInputs_congr fun i hi =>
    (spend i).largest_add_spare (anySegwit tx spend) fun h => isSegwit_of_lt hi h
  have hwitness : overInputs tx (fun i =>
        if anySegwit tx spend then (spend i).witnessLength (spend i).largestSize else 0) =
      if anySegwit tx spend then
        overInputs tx fun i => (spend i).witnessLength (spend i).largestSize
      else 0 := by
    cases anySegwit tx spend with
    | true => rfl
    | false => exact (overInputs_const tx 0).trans (Nat.zero_mul _)
  simp only [overInputs_add, overInputs_mul, overInputs_const, hwitness] at hsum
  exact hsum

/-- The heaviest completed transaction and the estimate differ by what is spare and what is
missed. -/
theorem txWeight_add_spareUnits (h : Unsigned tx) :
    txWeight (largestCompleted tx spend) + spareUnits tx spend =
      estimatedWeight tx spend + missedUnits tx spend := by
  have hsigs : ∀ i < tx.inputs.length, (spend i).Signs ((spend i).largestSigs) :=
    fun i _ => (spend i).signs_largestSigs
  have hsum := sum_largest_add_spare tx spend
  have hstripped := strippedSize_completed hsigs h
  have hwitness : witnessPart (largestCompleted tx spend) = _ := witnessPart_completed hsigs
  simp only [Spend.sigsSize_largestSigs] at hstripped hwitness
  rw [txWeight, hwitness, largestCompleted, spareUnits, estimatedWeight, anyCounted_eq]
  cases hsegwit : anySegwit tx spend with
  | true =>
    simp only [hsegwit, if_true] at hsum
    simp only [if_true, Bool.true_or, Bool.not_true, Bool.false_and, Bool.false_eq_true, if_false]
    omega
  | false =>
    simp only [hsegwit, Bool.false_eq_true, if_false] at hsum
    cases hbare : anyBare tx spend with
    | true =>
      simp only [Bool.false_or, Bool.not_false, Bool.true_and, if_true, Bool.false_eq_true,
        if_false]
      omega
    | false =>
      -- no input counts a witness
      have hnone : overInputs tx (fun i => (estimatedCost (spend i)).witnessBytes) = 0 := by
        have hcounted := anyCounted_eq tx spend
        rw [hsegwit, hbare, Bool.or_false, List.any_eq_false] at hcounted
        rw [overInputs_congr fun i hi => Spend.witnessBytes_eq_zero
          (by simpa using hcounted i (List.mem_range.mpr hi))]
        exact (overInputs_const tx 0).trans (Nat.zero_mul _)
      simp only [Bool.or_false, Bool.and_false, Bool.false_eq_true, if_false]
      omega

theorem witnessPart_mod_four (tx : Tx) : txWeight tx % 4 = witnessPart tx % 4 := by
  rw [txWeight]
  omega

/-- The size estimate is at least the size of the transaction, however it is signed, if and only
if the weight it leaves out is made up for by the weight it counts too much and by rounding. -/
theorem estimateVsize_bounds_iff (h : Supplies w psbt tx spend) :
    (∀ sigs : ℕ → List Bytes, (∀ i < tx.inputs.length, (spend i).Signs (sigs i)) →
      txVsize (completed tx spend sigs) ≤ estimateVsize w psbt tx) ↔
    missedUnits tx spend ≤ spareUnits tx spend + hiddenUnits tx spend := by
  have hweight : txWeight (largestCompleted tx spend) + spareUnits tx spend = _ :=
    txWeight_add_spareUnits h.unsigned
  have hrounding := witnessPart_mod_four (largestCompleted tx spend)
  rw [estimateVsize_eq h, hiddenUnits]
  constructor
  · intro hall
    have hlargest := hall _ fun i _ => (spend i).signs_largestSigs
    change txVsize (largestCompleted tx spend) ≤ _ at hlargest
    rw [txVsize] at hlargest
    omega
  · intro hle sigs hsigs
    have hheavier := txWeight_completed_le hsigs h.unsigned
    rw [txVsize]
    omega

end

/-! ### Two transactions with one input

One spends a key with a witness, the other a bare multisig. -/

/-- A library that knows one script by its type, and that it is what is signed with. -/
def scriptLibrary (type : ScriptType) (spk : Bytes) : Wally :=
  { Wally.failing with
    txGetVsize := fun tx => some (strippedSize tx)
    scriptpubkeyGetType := fun script => if script = spk then type else .unknown
    psbtGetInputSigningScript := fun _ _ => some spk }

theorem scriptType_scriptLibrary (type : ScriptType) (spk : Bytes) :
    (scriptLibrary type spk).scriptpubkeyGetType spk = type :=
  if_pos rfl

def oneInputTx : Tx where
  version := 2
  locktime := 0
  inputs := [{ txhash := .replicate 32 7, index := 0, sequence := 0xffffffff }]
  outputs := [{ satoshi := 50000, script := program (.replicate 20 9 : Vector UInt8 20) }]

def oneInputPsbt (spk : Bytes) : Psbt where
  version := 0
  tx := some oneInputTx
  inputs := [{ witnessUtxo := some { satoshi := 60000, script := spk } }]
  outputs := [{}]

theorem supplies_oneInput {type : ScriptType} {spk : Bytes} {spend : Spend} (hspk : spk ≠ [])
    (h : Describes (scriptLibrary type spk) (oneInputPsbt spk) 0 spk spend) :
    Supplies (scriptLibrary type spk) (oneInputPsbt spk) oneInputTx fun _ => spend where
  unsigned := by simp [Unsigned, oneInputTx]
  count := rfl
  vsize := rfl
  script := by
    intro i inp hinp
    obtain ⟨rfl, rfl⟩ : i = 0 ∧ _ = inp := by
      simpa [oneInputPsbt, List.getElem?_singleton] using hinp
    exact hspk
  describes := by
    intro i inp hinp
    obtain ⟨rfl, rfl⟩ : i = 0 ∧ _ = inp := by
      simpa [oneInputPsbt, List.getElem?_singleton] using hinp
    exact h

/-- The hash a script with a witness program carries. -/
def sampleHash : Vector UInt8 20 := .replicate 20 3

/-- A compressed key. -/
def sampleKey : ScriptKey := ⟨0x02 :: List.replicate 32 5, .inl rfl⟩

theorem estimateVsize_bounds_iff_p2wpkh :
    txVsize (completed oneInputTx (fun _ => .p2wpkh sampleKey) fun _ => [List.replicate 71 0x30]) ≤
      estimateVsize (scriptLibrary .p2wpkh (program sampleHash)) (oneInputPsbt (program sampleHash))
        oneInputTx :=
  have hsupplies : Supplies _ (oneInputPsbt (program sampleHash)) oneInputTx
      fun _ => .p2wpkh sampleKey :=
    supplies_oneInput (by decide) (scriptType_scriptLibrary .p2wpkh (program sampleHash))
  (estimateVsize_bounds_iff hsupplies).mpr (by decide) _ fun _ _ => ⟨rfl, by decide⟩

/-- Two of three keys, in the script of the output itself. -/
def bareTwoOfThree : Multisig where
  m := 2
  keys := [sampleKey, sampleKey, sampleKey]
  one_le := by decide
  le_length := by decide
  length_le := by decide

/-- The bare multisig is estimated as the witness of a key, and its signatures go into the
scriptSig. -/
theorem bare_multisig_underestimated :
    ¬ ∀ (w : Wally) (psbt : Psbt) (tx : Tx) (spend : ℕ → Spend) (sigs : ℕ → List Bytes),
      Supplies w psbt tx spend → (∀ i < tx.inputs.length, (spend i).Signs (sigs i)) →
      txVsize (completed tx spend sigs) ≤ estimateVsize w psbt tx := by
  intro hall
  have hle := hall _ _ _ (fun _ => .bare bareTwoOfThree)
    (fun _ => [List.replicate 72 0x30, List.replicate 72 0x30])
    (supplies_oneInput (by decide)
      (.inl (scriptType_scriptLibrary .multisig bareTwoOfThree.script)))
    fun _ _ => ⟨rfl, by decide⟩
  have hsize : txVsize (completed oneInputTx (fun _ => .bare bareTwoOfThree) fun _ =>
      [List.replicate 72 0x30, List.replicate 72 0x30]) = 229 := by decide +kernel
  have hestimate : estimateVsize (scriptLibrary .multisig bareTwoOfThree.script)
      (oneInputPsbt bareTwoOfThree.script) oneInputTx = 110 := by decide +kernel
  rw [hsize, hestimate] at hle
  exact absurd hle (by decide)

end SignerOS
