import SignerOS.Lib.Der
import SignerOS.Lib.Radix
import SignerOS.Verifier.Hash

/-!
# Base58 with a checksum

`b58check_encode` of `make_test_data.py`, in which the verifier writes extended keys and addresses,
and a reader of what it writes.

* `b58checkEncode_toList`, what is written is the same number in another base;
* `readB58_iff`, each string that is read is written in one way only.
-/

namespace SignerOS

namespace Verifier

/-- `_B58`. -/
def b58 : List Char := "123456789ABCDEFGHJKLMNPQRSTUVWXYZabcdefghijkmnopqrstuvwxyz".toList

/-- The loop over the digits of `n`, with what is behind them. -/
def b58Digits (n : ℕ) (out : List Char) : List Char :=
  if n = 0 then out else b58Digits (n / 58) (b58.getD (n % 58) ' ' :: out)

/-- The loop over the zeros `data` begins with. -/
def b58Zeros : Bytes → List Char → List Char
  | [], out => out
  | b :: data, out => if b ≠ 0 then out else b58Zeros data ('1' :: out)

def b58checkEncode (sha256 : Sha256) (payload : Bytes) : String :=
  let data := payload ++ (dsha256 sha256 payload).take 4
  String.ofList (b58Zeros data (b58Digits (Der.natOf data) []))

/-! ## As digits in base 58 -/

theorem b58Digits_eq (n : ℕ) (out : List Char) :
    b58Digits n out = (Nat.digits 58 n).reverse.map (Radix.char b58) ++ out := by
  induction n, out using b58Digits.induct with
  | case1 out =>
    rw [b58Digits, if_pos rfl, Nat.digits_zero]
    rfl
  | case2 n out hne ih =>
    rw [b58Digits, if_neg hne, ih, Nat.digits_eq_cons_digits_div (by decide) hne, List.reverse_cons,
      List.map_append, List.append_assoc]
    rfl

/-- The digits of a byte string in base 256. -/
def digitsOf (data : Bytes) : List ℕ := data.map UInt8.toNat

theorem lt_of_mem_digitsOf {data : Bytes} : ∀ d ∈ digitsOf data, d < 256 := by
  intro d hd
  obtain ⟨b, -, rfl⟩ := List.mem_map.mp hd
  exact b.toNat_lt

theorem map_ofNat_digitsOf (data : Bytes) : (digitsOf data).map UInt8.ofNat = data := by
  rw [digitsOf, List.map_map]
  exact List.map_id'' (fun b => UInt8.ofNat_toNat) data

theorem value_digitsOf (data : Bytes) : Radix.value 256 (digitsOf data) = Der.natOf data := by
  induction data using List.reverseRecOn with
  | nil => rfl
  | append_singleton data b ih =>
    rw [digitsOf, List.map_append, List.map_singleton, Radix.value_concat, ← digitsOf, ih,
      Der.natOf_concat, Nat.add_comm]

theorem b58Zeros_eq (data : Bytes) (out : List Char) :
    b58Zeros data out =
      (List.replicate (Radix.zeros (digitsOf data)) 0).map (Radix.char b58) ++ out := by
  induction data generalizing out with
  | nil => rfl
  | cons b data ih =>
    rw [b58Zeros, digitsOf, List.map_cons, ← digitsOf]
    split
    · next hne =>
      have hdigit : b.toNat ≠ 0 := fun h => hne (UInt8.toNat_inj.mp h)
      rw [Radix.zeros_cons_of_ne hdigit]
      rfl
    · next hzero =>
      rw [not_not] at hzero
      rw [hzero, UInt8.toNat_zero, Radix.zeros_cons_zero, ih, List.replicate_succ', List.map_append,
        List.append_assoc]
      rfl

/-- What is written of the bytes is the same digits in base 58. -/
theorem b58checkEncode_toList (sha256 : Sha256) (payload : Bytes) :
    (b58checkEncode sha256 payload).toList =
      (Radix.recode 256 58 (digitsOf (payload ++ (dsha256 sha256 payload).take 4))).map
        (Radix.char b58) := by
  rw [b58checkEncode, String.toList_ofList, b58Zeros_eq, b58Digits_eq, List.append_nil,
    Radix.recode, List.map_append, value_digitsOf]

/-! ## Reading -/

/-- The payload of a string, if its characters are digits and its last four bytes the checksum. -/
def readB58 (sha256 : Sha256) (s : String) : Option Bytes := do
  let digits ← Radix.readDigits b58 s.toList
  let data := (Radix.recode 58 256 digits).map UInt8.ofNat
  let payload := data.take (data.length - 4)
  if (dsha256 sha256 payload).take 4 = data.drop (data.length - 4) then some payload else none

theorem nodup_b58 : b58.Nodup := by decide

theorem length_b58 : b58.length = 58 := rfl

theorem digitsOf_map_ofNat {ds : List ℕ} (h : ∀ d ∈ ds, d < 256) :
    digitsOf (ds.map UInt8.ofNat) = ds := by
  rw [digitsOf, List.map_map]
  exact (List.map_congr_left fun d hd => Der.toNat_ofNat_of_lt (h d hd)).trans (List.map_id ds)

/-- What is written is read, and what is read is written in one way only. -/
theorem readB58_iff (sha256 : Sha256) (s : String) (payload : Bytes) :
    readB58 sha256 s = some payload ↔ s = b58checkEncode sha256 payload := by
  rw [readB58, ← String.toList_inj, b58checkEncode_toList]
  simp only [Option.bind_eq_bind, Option.bind_eq_some_iff, Radix.readDigits_eq_some_iff nodup_b58]
  constructor
  · rintro ⟨digits, ⟨hlt, hdigits⟩, h⟩
    rw [length_b58] at hlt
    split_ifs at h with hsum
    rw [Option.some.injEq] at h
    rw [h] at hsum
    have hdata : payload ++ (dsha256 sha256 payload).take 4 =
        (Radix.recode 58 256 digits).map UInt8.ofNat := by
      rw [hsum, ← h, List.take_append_drop]
    rw [hdata, digitsOf_map_ofNat (Radix.lt_of_mem_recode (by decide)),
      Radix.recode_recode (by decide) hlt, hdigits]
  · intro hs
    have hchecksum : ((dsha256 sha256 payload).take 4).length = 4 := by simp
    refine ⟨Radix.recode 256 58 (digitsOf (payload ++ (dsha256 sha256 payload).take 4)),
      ⟨Radix.lt_of_mem_recode (by decide), hs.symm⟩, ?_⟩
    rw [Radix.recode_recode (by decide) lt_of_mem_digitsOf, map_ofNat_digitsOf, List.length_append,
      hchecksum, Nat.add_sub_cancel, List.take_left, List.drop_left, if_pos rfl]

end Verifier

end SignerOS
