import Mathlib.Data.List.Basic
import Mathlib.Algebra.Ring.Nat

/-!
# Data shared by the whole model

Byte strings and the fixed-size arrays the program passes to libwally, the networks it
knows, the page-locked holder of the one master key, and the hexadecimal helpers.

A `std::string` is a `String` whose characters stand for its bytes; a buffer with a length
is a list of bytes, empty where the source has a null pointer or a zero length.
-/

namespace SignerOS

/-- A buffer with a length. -/
abbrev Bytes := List UInt8

/-- `unsigned char[kFingerprintLen]`: a BIP32 key fingerprint. -/
abbrev Fingerprint := Vector UInt8 4

/-- `unsigned char[EC_PUBLIC_KEY_LEN]`: a compressed public key. -/
abbrev PubKey := Vector UInt8 33

/-- `unsigned char[WALLY_TXHASH_LEN]`. -/
abbrev TxHash := Vector UInt8 32

/-! ## Networks -/

inductive Network
  | mainnet | testnet | signet | regtest
deriving DecidableEq, Repr

def networkName : Network → String
  | .mainnet => "mainnet"
  | .testnet => "testnet"
  | .signet => "signet"
  | .regtest => "regtest"

/-! ## `SecureObject` -/

/-- `SecureObject<T>`: inline storage for one secret, and whether it holds one. -/
structure SecureObject (α : Type) where
  storage : α
  valid : Bool
deriving DecidableEq, Repr

namespace SecureObject

variable {α : Type}

/-- `clear()`: the storage is wiped and no longer valid. `Inhabited.default` is the all-zero
value. -/
def clear [Inhabited α] : SecureObject α := ⟨default, false⟩

/-- Deriving a secret into the storage, then `markValid()`. -/
def hold (a : α) : SecureObject α := ⟨a, true⟩

/-- The secret held, when there is one. -/
def resident (s : SecureObject α) : Option α := if s.valid then some s.storage else none

@[simp] theorem valid_clear [Inhabited α] : (clear : SecureObject α).valid = false := rfl

@[simp] theorem valid_hold (a : α) : (hold a).valid = true := rfl

@[simp] theorem storage_hold (a : α) : (hold a).storage = a := rfl

@[simp] theorem resident_clear [Inhabited α] : (clear : SecureObject α).resident = none := rfl

@[simp] theorem resident_hold (a : α) : (hold a).resident = some a := rfl

theorem resident_eq_some {s : SecureObject α} {a : α} :
    s.resident = some a ↔ s.valid = true ∧ s.storage = a := by
  cases h : s.valid <;> simp [resident, h]

/-- A slot with a resident key holds exactly that key. -/
theorem eq_hold_of_resident {s : SecureObject α} {a : α} (h : s.resident = some a) :
    s = hold a := by
  obtain ⟨hv, rfl⟩ := resident_eq_some.mp h
  cases s
  simp_all [hold]

theorem resident_eq_none {s : SecureObject α} : s.resident = none ↔ s.valid = false := by
  cases h : s.valid <;> simp [resident, h]

end SecureObject

/-! ## Hexadecimal -/

/-- One hexadecimal digit, lower case. -/
def hexDigit (n : ℕ) : Char := Nat.digitChar n

/-- `hexOf`: two lower-case digits a byte, nothing for an empty buffer. -/
def hexOf (bytes : Bytes) : String :=
  String.ofList (bytes.flatMap fun b => [hexDigit (b.toNat / 16), hexDigit (b.toNat % 16)])

/-- `txidToDisplay`: Bitcoin shows transaction ids byte-reversed. -/
def txidToDisplay (hash32 : TxHash) : String := hexOf hash32.toList.reverse

theorem hexDigit_inj {m n : ℕ} (hm : m < 16) (hn : n < 16) (h : hexDigit m = hexDigit n) :
    m = n := by
  have key : ∀ a < 16, ∀ b < 16, hexDigit a = hexDigit b → a = b := by decide
  exact key m hm n hn h

theorem hexOf_inj {a b : Bytes} (h : hexOf a = hexOf b) : a = b := by
  rw [hexOf, hexOf, String.ofList_inj] at h
  induction a generalizing b with
  | nil =>
    cases b with
    | nil => rfl
    | cons y b => simp at h
  | cons x a ih =>
    cases b with
    | nil => simp at h
    | cons y b =>
      simp only [List.flatMap_cons, List.cons_append, List.nil_append, List.cons.injEq] at h
      have hx := x.toNat_lt
      have hy := y.toNat_lt
      have hhi := hexDigit_inj (by omega) (by omega) h.1
      have hlo := hexDigit_inj (by omega) (by omega) h.2.1
      have hxy : x = y := UInt8.toNat_inj.mp (by omega)
      rw [hxy, ih h.2.2]

theorem not_mem_hexOf {c : Char} (hc : ∀ n < 16, hexDigit n ≠ c) (bytes : Bytes) :
    c ∉ (hexOf bytes).toList := by
  intro hmem
  rw [hexOf, String.toList_ofList, List.mem_flatMap] at hmem
  obtain ⟨b, -, hmem⟩ := hmem
  have hb := b.toNat_lt
  rcases List.mem_pair.mp hmem with rfl | rfl
  · exact hc _ (by omega) rfl
  · exact hc _ (by omega) rfl

/-- A fingerprint never prints as the empty string. -/
theorem hexOf_fingerprint_ne_empty (fp : Fingerprint) : hexOf fp.toList ≠ "" := by
  intro h
  have h' : fp.toList = [] := hexOf_inj (h.trans (by decide))
  have hlen : fp.toList.length = 4 := fp.length_toList
  rw [h'] at hlen
  exact absurd hlen (by decide)

/-- Two fingerprints print alike only when they are equal. -/
theorem hexOf_fingerprint_inj {a b : Fingerprint} : hexOf a.toList = hexOf b.toList ↔ a = b :=
  ⟨fun h => Vector.toList_inj.mp (hexOf_inj h), fun h => by rw [h]⟩

end SignerOS
