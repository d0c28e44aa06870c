import SignerOS.Wally
import Mathlib.Algebra.BigOperators.Ring.List
import Mathlib.Algebra.Group.Action.Defs
import Mathlib.Algebra.Order.BigOperators.Group.List
import Mathlib.Algebra.Order.Ring.Nat
import Mathlib.Tactic.Ring

/-!
# The size of a signed transaction

What the estimate of `estimateVsize` is an estimate of: the serialised size of a transaction, its
weight, and the scripts and witnesses that spend the kinds of output the estimate knows. Nothing
here comes from the program.
-/

namespace SignerOS

/-! ## Serialisation -/

/-- The length of the prefix that says how long something is. -/
def compactSize (v : ℕ) : ℕ :=
  if v < 0xfd then 1 else if v ≤ 0xffff then 3 else if v ≤ 0xffffffff then 5 else 9

/-- A byte string with its prefix. -/
def itemSize (item : Bytes) : ℕ := compactSize item.length + item.length

def inputSize (ti : TxInput) : ℕ := 32 + 4 + itemSize ti.script + 4

def outputSize (out : TxOutput) : ℕ := 8 + itemSize out.script

/-- The size without witnesses. -/
def strippedSize (tx : Tx) : ℕ :=
  4 + compactSize tx.inputs.length + (tx.inputs.map inputSize).sum
    + compactSize tx.outputs.length + (tx.outputs.map outputSize).sum + 4

def witnessSize (ti : TxInput) : ℕ :=
  compactSize ti.witness.length + (ti.witness.map itemSize).sum

def hasWitness (tx : Tx) : Bool := tx.inputs.any fun ti => !ti.witness.isEmpty

/-- The marker, the flag and the witnesses of all inputs, if any input has one. -/
def witnessPart (tx : Tx) : ℕ :=
  if hasWitness tx then 2 + (tx.inputs.map witnessSize).sum else 0

def txWeight (tx : Tx) : ℕ := strippedSize tx * 4 + witnessPart tx

def txVsize (tx : Tx) : ℕ := (txWeight tx + 3) / 4

theorem compactSize_mono {v v' : ℕ} (h : v ≤ v') : compactSize v ≤ compactSize v' := by
  unfold compactSize
  split_ifs <;> omega

theorem compactSize_of_lt {v : ℕ} (h : v < 0xfd) : compactSize v = 1 := if_pos h

theorem itemSize_of_lt {item : Bytes} (h : item.length < 0xfd) :
    itemSize item = 1 + item.length := by
  rw [itemSize, compactSize_of_lt h]

/-! ## Scripts -/

/-- A push of data, by the shortest of the three opcodes. -/
def pushData (data : Bytes) : Bytes :=
  if data.length < 76 then UInt8.ofNat data.length :: data
  else if data.length < 256 then 0x4c :: UInt8.ofNat data.length :: data
  else 0x4d :: UInt8.ofNat data.length :: UInt8.ofNat (data.length / 256) :: data

/-- A push of a small number. -/
def pushNumber (k : ℕ) : Bytes := if k ≤ 16 then [UInt8.ofNat (0x50 + k)] else [0x01, UInt8.ofNat k]

theorem length_pushData_of_lt {data : Bytes} (h : data.length < 76) :
    (pushData data).length = 1 + data.length := by
  rw [pushData, if_pos h, List.length_cons]
  omega

/-- A public key in a script or a witness, compressed or not. -/
abbrev ScriptKey := {key : Bytes // key.length = 33 ∨ key.length = 65}

/-- An m-of-n script within the limits of consensus. -/
structure Multisig where
  m : ℕ
  keys : List ScriptKey
  one_le : 1 ≤ m
  le_length : m ≤ keys.length
  length_le : keys.length ≤ 20

namespace Multisig

def script (ms : Multisig) : Bytes :=
  pushNumber ms.m ++ ms.keys.flatMap (fun key => pushData key.val) ++ pushNumber ms.keys.length
    ++ [0xae]

theorem m_le (ms : Multisig) : ms.m ≤ 20 := ms.le_length.trans ms.length_le

theorem length_pushNumber (k : ℕ) : 1 ≤ (pushNumber k).length ∧ (pushNumber k).length ≤ 2 := by
  unfold pushNumber
  split <;> simp

theorem length_pushKeys (keys : List ScriptKey) :
    34 * keys.length ≤ (keys.flatMap fun key => pushData key.val).length ∧
      (keys.flatMap fun key => pushData key.val).length ≤ 66 * keys.length := by
  induction keys with
  | nil => exact ⟨le_rfl, le_rfl⟩
  | cons key keys ih =>
    have hkey := key.property
    rw [List.flatMap_cons, List.length_append, List.length_cons,
      length_pushData_of_lt (by omega)]
    omega

/-- The script takes from 34 to 66 bytes for each of its keys. -/
theorem length_script (ms : Multisig) :
    34 * ms.m < ms.script.length ∧ ms.script.length ≤ 1325 := by
  have hkeys := length_pushKeys ms.keys
  have hm := ms.le_length
  have hn := ms.length_le
  have hfirst := length_pushNumber ms.m
  have hlast := length_pushNumber ms.keys.length
  simp only [script, List.length_append, List.length_singleton]
  omega

end Multisig

/-! ## Spends -/

/-- How an input is spent, but for the signatures. A redeem script is pushed, so it is no longer
than what can be pushed. -/
inductive Spend
  | p2pkh (pub : ScriptKey)
  | p2wpkh (pub : ScriptKey)
  | p2shP2wpkh (hash : Vector UInt8 20) (pub : ScriptKey)
  | p2tr
  | p2sh (ms : Multisig) (h : ms.script.length ≤ 520)
  | p2wsh (ms : Multisig)
  | p2shP2wsh (hash : Vector UInt8 32) (ms : Multisig)
  | bare (ms : Multisig)

namespace Spend

/-- The witness program behind a script hash. -/
def program {n : ℕ} (hash : Vector UInt8 n) : Bytes := 0x00 :: UInt8.ofNat n :: hash.toList

def sigCount : Spend → ℕ
  | p2sh ms _ | p2wsh ms | p2shP2wsh _ ms | bare ms => ms.m
  | p2pkh _ | p2wpkh _ | p2shP2wpkh _ _ | p2tr => 1

/-- The longest signature, with its sighash byte: 72 bytes for ECDSA and 65 for Schnorr. -/
def maxSig : Spend → ℕ
  | p2tr => 65
  | _ => 72

def scriptSig (sigs : List Bytes) : Spend → Bytes
  | p2pkh pub => sigs.flatMap pushData ++ pushData pub.val
  | p2shP2wpkh hash _ => pushData (program hash)
  | p2shP2wsh hash _ => pushData (program hash)
  -- the empty item that CHECKMULTISIG pops comes first
  | p2sh ms _ => 0x00 :: (sigs.flatMap pushData ++ pushData ms.script)
  | bare _ => 0x00 :: sigs.flatMap pushData
  | p2wpkh _ | p2tr | p2wsh _ => []

def witness (sigs : List Bytes) : Spend → List Bytes
  | p2wpkh pub | p2shP2wpkh _ pub => sigs ++ [pub.val]
  | p2tr => sigs
  | p2wsh ms | p2shP2wsh _ ms => [] :: (sigs ++ [ms.script])
  | p2pkh _ | p2sh _ _ | bare _ => []

/-- The input has a witness. -/
def isSegwit : Spend → Bool
  | p2wpkh _ | p2shP2wpkh _ _ | p2tr | p2wsh _ | p2shP2wsh _ _ => true
  | p2pkh _ | p2sh _ _ | bare _ => false

/-- These are signatures for the input. -/
def Signs (spend : Spend) (sigs : List Bytes) : Prop :=
  sigs.length = spend.sigCount ∧ ∀ sig ∈ sigs, sig.length ≤ spend.maxSig

/-- Signatures as long as they can be. -/
def largestSigs (spend : Spend) : List Bytes :=
  List.replicate spend.sigCount (List.replicate spend.maxSig 0)

def fill (spend : Spend) (ti : TxInput) (sigs : List Bytes) : TxInput :=
  { ti with script := spend.scriptSig sigs, witness := spend.witness sigs }

theorem signs_largestSigs (spend : Spend) : spend.Signs spend.largestSigs := by
  refine ⟨List.length_replicate, fun sig hsig => ?_⟩
  rw [List.eq_of_mem_replicate hsig, List.length_replicate]

theorem maxSig_le (spend : Spend) : spend.maxSig ≤ 72 := by
  unfold maxSig
  split <;> omega

end Spend

/-- The transaction with every input signed. -/
def completed (tx : Tx) (spend : ℕ → Spend) (sigs : ℕ → List Bytes) : Tx :=
  { tx with inputs := tx.inputs.mapIdx fun i ti => (spend i).fill ti (sigs i) }

/-! ## Sizes -/

/-- The size of a byte string of so many bytes with its prefix. -/
def prefixed (length : ℕ) : ℕ := compactSize length + length

theorem prefixed_mono {v v' : ℕ} (h : v ≤ v') : prefixed v ≤ prefixed v' :=
  Nat.add_le_add (compactSize_mono h) h

theorem itemSize_eq (item : Bytes) : itemSize item = prefixed item.length := rfl

/-- Signatures of so many bytes, each with the one byte that pushes it or says how long it is. -/
def sigsSize (sigs : List Bytes) : ℕ := sigs.length + (sigs.map List.length).sum

theorem length_pushSigs {sigs : List Bytes} (h : ∀ sig ∈ sigs, sig.length ≤ 72) :
    (sigs.flatMap pushData).length = sigsSize sigs := by
  induction sigs with
  | nil => rfl
  | cons sig sigs ih =>
    have hsig := h sig List.mem_cons_self
    have hrest := ih fun sig hmem => h sig (List.mem_cons_of_mem _ hmem)
    rw [List.flatMap_cons, List.length_append, length_pushData_of_lt (by omega), hrest]
    simp only [sigsSize, List.map_cons, List.sum_cons, List.length_cons]
    omega

theorem sum_itemSize_sigs {sigs : List Bytes} (h : ∀ sig ∈ sigs, sig.length ≤ 72) :
    (sigs.map itemSize).sum = sigsSize sigs := by
  induction sigs with
  | nil => rfl
  | cons sig sigs ih =>
    have hsig := h sig List.mem_cons_self
    have hrest := ih fun sig hmem => h sig (List.mem_cons_of_mem _ hmem)
    rw [List.map_cons, List.sum_cons, itemSize_of_lt (by omega), hrest]
    simp only [sigsSize, List.map_cons, List.sum_cons, List.length_cons]
    omega

namespace Spend

variable {spend : Spend} {sigs : List Bytes}

/-- The length of the scriptSig when the signatures take `p` bytes. -/
def scriptLength (p : ℕ) : Spend → ℕ
  | p2pkh pub => p + (1 + pub.val.length)
  | p2shP2wpkh _ _ => 23
  | p2shP2wsh _ _ => 35
  | p2sh ms _ => 1 + p + (pushData ms.script).length
  | bare _ => 1 + p
  | p2wpkh _ | p2tr | p2wsh _ => 0

/-- The size of the witness when the signatures take `p` bytes. -/
def witnessLength (p : ℕ) : Spend → ℕ
  | p2wpkh pub | p2shP2wpkh _ pub => 1 + p + (1 + pub.val.length)
  | p2tr => 1 + p
  | p2wsh ms | p2shP2wsh _ ms => compactSize (ms.m + 2) + 1 + p + prefixed ms.script.length
  | p2pkh _ | p2sh _ _ | bare _ => 1

theorem Signs.le (h : spend.Signs sigs) : ∀ sig ∈ sigs, sig.length ≤ 72 :=
  fun sig hsig => (h.2 sig hsig).trans spend.maxSig_le

theorem length_scriptSig (h : spend.Signs sigs) :
    (spend.scriptSig sigs).length = spend.scriptLength (sigsSize sigs) := by
  have hpush := length_pushSigs h.le
  cases spend with
  | p2pkh pub =>
    have hpub := pub.property
    rw [scriptSig, List.length_append, hpush, length_pushData_of_lt (by omega)]
    rfl
  | p2wpkh pub => rfl
  | p2shP2wpkh hash pub =>
    have hlen : (program hash).length = 22 := by simp [program]
    rw [scriptSig, length_pushData_of_lt (by omega), hlen]
    rfl
  | p2tr => rfl
  | p2sh ms hle =>
    rw [scriptSig, List.length_cons, List.length_append, hpush, scriptLength]
    omega
  | p2wsh ms => rfl
  | p2shP2wsh hash ms =>
    have hlen : (program hash).length = 34 := by simp [program]
    rw [scriptSig, length_pushData_of_lt (by omega), hlen]
    rfl
  | bare ms =>
    rw [scriptSig, List.length_cons, hpush, scriptLength]
    omega

/-- The witness of a key spend. -/
theorem size_keyWitness (h : ∀ sig ∈ sigs, sig.length ≤ 72) (hcount : sigs.length = 1)
    (pub : ScriptKey) :
    compactSize (sigs ++ [pub.val]).length + ((sigs ++ [pub.val]).map itemSize).sum =
      1 + sigsSize sigs + (1 + pub.val.length) := by
  have hpub := pub.property
  rw [List.length_append, hcount, List.map_append, List.sum_append, sum_itemSize_sigs h,
    List.map_singleton, List.sum_singleton, itemSize_of_lt (by omega), List.length_singleton,
    compactSize_of_lt (by decide)]
  omega

/-- The witness of a multisig spend: one item more than signatures and script. -/
theorem size_scriptWitness (h : ∀ sig ∈ sigs, sig.length ≤ 72) (script : Bytes) :
    compactSize ([] :: (sigs ++ [script])).length
        + (([] :: (sigs ++ [script])).map itemSize).sum =
      compactSize (sigs.length + 2) + 1 + sigsSize sigs + prefixed script.length := by
  rw [List.length_cons, List.length_append, List.length_singleton, List.map_cons, List.sum_cons,
    List.map_append, List.sum_append, sum_itemSize_sigs h, List.map_singleton, List.sum_singleton,
    itemSize_of_lt (by decide), itemSize_eq, List.length_nil, Nat.add_assoc sigs.length]
  omega

theorem witnessSize_fill (h : spend.Signs sigs) (ti : TxInput) :
    witnessSize (spend.fill ti sigs) = spend.witnessLength (sigsSize sigs) := by
  cases spend with
  | p2pkh pub => rfl
  | p2wpkh pub => exact size_keyWitness h.le h.1 pub
  | p2shP2wpkh hash pub => exact size_keyWitness h.le h.1 pub
  | p2tr =>
    show compactSize sigs.length + (sigs.map itemSize).sum = 1 + sigsSize sigs
    rw [sum_itemSize_sigs h.le, h.1]
    rfl
  | p2sh ms hle => rfl
  | p2wsh ms =>
    refine (size_scriptWitness h.le ms.script).trans ?_
    rw [h.1]
    rfl
  | p2shP2wsh hash ms =>
    refine (size_scriptWitness h.le ms.script).trans ?_
    rw [h.1]
    rfl
  | bare ms => rfl

theorem witness_ne_nil_iff (h : spend.Signs sigs) :
    spend.witness sigs ≠ [] ↔ spend.isSegwit = true := by
  cases spend with
  | p2tr =>
    refine iff_of_true (fun hnil => ?_) rfl
    have hcount : sigs.length = 1 := h.1
    rw [show sigs = [] from hnil] at hcount
    exact absurd hcount (by decide)
  | p2pkh pub => exact iff_of_false (fun hne => hne rfl) Bool.false_ne_true
  | p2sh ms hle => exact iff_of_false (fun hne => hne rfl) Bool.false_ne_true
  | bare ms => exact iff_of_false (fun hne => hne rfl) Bool.false_ne_true
  | p2wpkh pub => exact iff_of_true (by simp [witness]) rfl
  | p2shP2wpkh hash pub => exact iff_of_true (by simp [witness]) rfl
  | p2wsh ms => exact iff_of_true (by simp [witness]) rfl
  | p2shP2wsh hash ms => exact iff_of_true (by simp [witness]) rfl

/-! ### The largest signatures -/

/-- What the largest signatures take. -/
def largestSize (spend : Spend) : ℕ := spend.sigCount * (1 + spend.maxSig)

theorem sigsSize_largestSigs (spend : Spend) : sigsSize spend.largestSigs = spend.largestSize := by
  rw [sigsSize, largestSigs, List.length_replicate, List.map_replicate, List.sum_replicate_nat,
    List.length_replicate, largestSize]
  ring

theorem Signs.sigsSize_le (h : spend.Signs sigs) : sigsSize sigs ≤ spend.largestSize := by
  have hsum := List.sum_le_card_nsmul (sigs.map List.length) spend.maxSig fun length hlength => by
    obtain ⟨sig, hsig, rfl⟩ := List.mem_map.mp hlength
    exact h.2 sig hsig
  rw [List.length_map, smul_eq_mul, h.1] at hsum
  rw [sigsSize, largestSize, h.1, Nat.mul_add, Nat.mul_one]
  omega

theorem scriptLength_mono {p p' : ℕ} (h : p ≤ p') (spend : Spend) :
    spend.scriptLength p ≤ spend.scriptLength p' := by
  unfold scriptLength
  split <;> omega

theorem witnessLength_mono {p p' : ℕ} (h : p ≤ p') (spend : Spend) :
    spend.witnessLength p ≤ spend.witnessLength p' := by
  unfold witnessLength
  split <;> omega

end Spend

/-! ## The completed transaction -/

section
variable {α β γ : Type}

/-- Mapping by index is mapping over the indices, for what depends on the index alone. -/
theorem map_mapIdx_eq {l : List α} {f : ℕ → α → β} {g : β → γ} {c : ℕ → γ}
    (h : ∀ i a, l[i]? = some a → g (f i a) = c i) :
    (l.mapIdx f).map g = (List.range l.length).map c := by
  apply List.ext_getElem?
  intro i
  rw [List.getElem?_map, List.getElem?_mapIdx, List.getElem?_map]
  cases hget : l[i]? with
  | none => rw [List.getElem?_eq_none (by simpa using hget)]; rfl
  | some a =>
    have hlt := (List.getElem?_eq_some_iff.mp hget).1
    rw [List.getElem?_range hlt]
    exact congrArg some (h i a hget)

theorem any_mapIdx_eq {l : List α} {f : ℕ → α → β} {p : β → Bool} {c : ℕ → Bool}
    (h : ∀ i a, l[i]? = some a → p (f i a) = c i) :
    (l.mapIdx f).any p = (List.range l.length).any c := by
  have hany := congrArg (fun bits => bits.any id) (map_mapIdx_eq h)
  rwa [List.any_map, List.any_map] at hany

end

/-- A sum over the inputs. -/
def overInputs (tx : Tx) (f : ℕ → ℕ) : ℕ := ((List.range tx.inputs.length).map f).sum

theorem overInputs_le {tx : Tx} {f g : ℕ → ℕ} (h : ∀ i < tx.inputs.length, f i ≤ g i) :
    overInputs tx f ≤ overInputs tx g :=
  List.sum_le_sum fun i hi => h i (List.mem_range.mp hi)

theorem overInputs_add (tx : Tx) (f g : ℕ → ℕ) :
    overInputs tx (fun i => f i + g i) = overInputs tx f + overInputs tx g :=
  List.sum_map_add

theorem overInputs_mul (tx : Tx) (c : ℕ) (f : ℕ → ℕ) :
    overInputs tx (fun i => c * f i) = c * overInputs tx f :=
  List.sum_map_mul_left _ _ _

theorem overInputs_const (tx : Tx) (c : ℕ) :
    overInputs tx (fun _ => c) = c * tx.inputs.length := by
  rw [overInputs, List.map_const', List.length_range, List.sum_replicate_nat, Nat.mul_comm]

theorem overInputs_congr {tx : Tx} {f g : ℕ → ℕ} (h : ∀ i < tx.inputs.length, f i = g i) :
    overInputs tx f = overInputs tx g :=
  congrArg List.sum (List.map_congr_left fun i hi => h i (List.mem_range.mp hi))

/-- The inputs carry neither a script nor a witness yet. -/
def Unsigned (tx : Tx) : Prop := ∀ ti ∈ tx.inputs, ti.script = [] ∧ ti.witness = []

section
variable {tx : Tx} {spend : ℕ → Spend} {sigs : ℕ → List Bytes}

theorem strippedSize_completed (hsigs : ∀ i < tx.inputs.length, (spend i).Signs (sigs i))
    (h : Unsigned tx) :
    strippedSize (completed tx spend sigs) + tx.inputs.length = strippedSize tx
      + overInputs tx fun i => prefixed ((spend i).scriptLength (sigsSize (sigs i))) := by
  have hfilled : ((completed tx spend sigs).inputs.map inputSize).sum = overInputs tx fun i =>
      40 + prefixed ((spend i).scriptLength (sigsSize (sigs i))) := by
    refine congrArg List.sum (map_mapIdx_eq fun i ti hti => ?_)
    have hlt := (List.getElem?_eq_some_iff.mp hti).1
    rw [← Spend.length_scriptSig (hsigs i hlt)]
    show 32 + 4 + itemSize ((spend i).scriptSig (sigs i)) + 4 = _
    rw [itemSize_eq]
    omega
  have hbare : (tx.inputs.map inputSize).sum = 41 * tx.inputs.length := by
    have hall : tx.inputs.map inputSize = tx.inputs.map fun _ => 41 := by
      refine List.map_congr_left fun ti hti => ?_
      rw [inputSize, (h ti hti).1]
      rfl
    rw [hall, List.map_const', List.sum_replicate_nat, Nat.mul_comm]
  have hcount : (completed tx spend sigs).inputs.length = tx.inputs.length := List.length_mapIdx
  rw [overInputs_add, overInputs_const] at hfilled
  rw [strippedSize, strippedSize, hfilled, hbare, hcount]
  show _ + compactSize tx.outputs.length + (tx.outputs.map outputSize).sum + 4 + _ = _
  omega

/-- Some input has a witness. -/
def anySegwit (tx : Tx) (spend : ℕ → Spend) : Bool :=
  (List.range tx.inputs.length).any fun i => (spend i).isSegwit

theorem hasWitness_completed (hsigs : ∀ i < tx.inputs.length, (spend i).Signs (sigs i)) :
    hasWitness (completed tx spend sigs) = anySegwit tx spend := by
  refine any_mapIdx_eq fun i ti hti => ?_
  have hlt := (List.getElem?_eq_some_iff.mp hti).1
  have hiff := Spend.witness_ne_nil_iff (hsigs i hlt)
  rw [Bool.eq_iff_iff, ← hiff]
  simp [Spend.fill]

theorem witnessPart_completed (hsigs : ∀ i < tx.inputs.length, (spend i).Signs (sigs i)) :
    witnessPart (completed tx spend sigs) =
      if anySegwit tx spend then
        2 + overInputs tx fun i => (spend i).witnessLength (sigsSize (sigs i))
      else 0 := by
  have hsizes : (completed tx spend sigs).inputs.map witnessSize =
      (List.range tx.inputs.length).map fun i =>
        (spend i).witnessLength (sigsSize (sigs i)) := by
    refine map_mapIdx_eq fun i ti hti => ?_
    exact Spend.witnessSize_fill (hsigs i (List.getElem?_eq_some_iff.mp hti).1) ti
  rw [witnessPart, hasWitness_completed hsigs, hsizes]
  rfl

/-- The transaction completed with the largest signatures. -/
def largestCompleted (tx : Tx) (spend : ℕ → Spend) : Tx :=
  completed tx spend fun i => (spend i).largestSigs

/-- No signatures make the completed transaction heavier. -/
theorem txWeight_completed_le (hsigs : ∀ i < tx.inputs.length, (spend i).Signs (sigs i))
    (h : Unsigned tx) :
    txWeight (completed tx spend sigs) ≤ txWeight (largestCompleted tx spend) := by
  have hlargest : ∀ i < tx.inputs.length, (spend i).Signs ((spend i).largestSigs) :=
    fun i _ => (spend i).signs_largestSigs
  have hsize (i : ℕ) (hi : i < tx.inputs.length) :
      sigsSize (sigs i) ≤ sigsSize (spend i).largestSigs := by
    rw [Spend.sigsSize_largestSigs]
    exact (hsigs i hi).sigsSize_le
  have hscripts := overInputs_le fun i hi =>
    prefixed_mono (Spend.scriptLength_mono (hsize i hi) (spend i))
  have hwitness := overInputs_le fun i hi => Spend.witnessLength_mono (hsize i hi) (spend i)
  have hsmall := strippedSize_completed hsigs h
  have hlarge := strippedSize_completed hlargest h
  rw [txWeight, txWeight, largestCompleted, witnessPart_completed hsigs,
    witnessPart_completed hlargest]
  split
  · omega
  · omega

end

end SignerOS
