import SignerOS.Text

/-!
# Output ownership

Who an output pays, decided by rebuilding its scriptPubKey from a public key derived on
the device: `ownershipForScript` and the helpers it is made of, as `psbt_engine.cpp` has
them.
-/

namespace SignerOS

/-- `OutputOwnership`. -/
inductive OutputOwnership
  | thirdParty | claimed | verified | unverifiable | mismatch
deriving DecidableEq, Repr

def ownershipName : OutputOwnership → String
  | .thirdParty => "third-party"
  | .claimed => "claimed-unverified"
  | .verified => "verified-change"
  | .unverifiable => "claimed-unverifiable"
  | .mismatch => "MISMATCH"

/-! ## Reading the keypath maps -/

def kMaxPathElements : ℕ := 32

/-- `keypathEntry`: the fingerprint in hexadecimal and the path as text, which stays empty
when it cannot be read or has no or too many elements. `none` without a fingerprint. -/
def keypathEntry (item : KeypathItem) : Option (String × String) :=
  item.fingerprint.map fun fp =>
    (hexOf fp.toList,
      match item.path with
      | some elems =>
        if 0 < elems.length ∧ elems.length ≤ kMaxPathElements then formatPath elems else ""
      | none => "")

/-- `keypathElements`: the raw elements, when there are between 1 and 32 of them. -/
def keypathElements (item : KeypathItem) : Option (List UInt32) :=
  match item.path with
  | some elems => if elems.length = 0 ∨ kMaxPathElements < elems.length then none else some elems
  | none => none

/-! ## Scripts built from a key -/

def kPsbtOutRedeemScript : UInt32 := 0x00
def kPsbtOutWitnessScript : UInt32 := 0x01

/-- `psbtField`: the value stored under a key type, when it is there and not empty. -/
def psbtField (fields : FieldMap) (keyType : UInt32) : Option Bytes :=
  match fields.lookup keyType with
  | some value => if value.isEmpty then none else some value
  | none => none

/-- `sameScript`: the script was built, is not empty, and is the other one byte for byte. -/
def sameScript (a : Option Bytes) (b : Bytes) : Bool :=
  match a with
  | some s => !s.isEmpty && s == b
  | none => false

section
variable (w : Wally)

def p2pkhFor (pub : PubKey) : Option Bytes := w.scriptpubkeyP2pkhFromBytes pub.toList

def p2wpkhFor (pub : PubKey) : Option Bytes := w.witnessProgramFromBytes pub.toList .hash160

def p2trFor (pub : PubKey) : Option Bytes := w.scriptpubkeyP2trFromBytes pub.toList

def p2shOf (script : Bytes) : Option Bytes := w.scriptpubkeyP2shFromBytes script

def p2wshOf (script : Bytes) : Option Bytes := w.witnessProgramFromBytes script .sha256

end

/-- `containsBytes`: does `needle` appear verbatim in `haystack`? -/
def containsBytes (haystack needle : Bytes) : Bool :=
  if haystack.isEmpty ∨ needle.isEmpty ∨ haystack.length < needle.length then false
  else (List.range (haystack.length - needle.length + 1)).any fun i =>
    (haystack.drop i).take needle.length == needle

/-- The verdict of a branch that ends in a byte comparison. -/
def verifiedIf (b : Bool) : OutputOwnership := if b then .verified else .mismatch

/-- A v0 witness program over a sha256: what a p2sh-p2wsh redeem script looks like. -/
def isWitnessV0Sh (s : Bytes) : Bool := s.length == 34 && s[0]? == some 0x00 && s[1]? == some 0x20

/-- A v0 witness program over a hash160. -/
def isWitnessV0Pkh (s : Bytes) : Bool := s.length == 22 && s[0]? == some 0x00 && s[1]? == some 0x14

/-- `ownershipForScript`: what `spk` is, given a public key derived on the device and the
scripts the PSBT supplies for the output. -/
def ownershipForScript (w : Wally) (pub : PubKey) (spk : Bytes)
    (redeem witnessScript : Option Bytes) (hasTaprootTree : Bool) : OutputOwnership :=
  if spk.isEmpty then .unverifiable
  else
    match w.scriptpubkeyGetType spk with
    | .p2pkh => verifiedIf (sameScript (p2pkhFor w pub) spk)
    | .p2wpkh => verifiedIf (sameScript (p2wpkhFor w pub) spk)
    | .p2tr =>
      if sameScript (p2trFor w pub) spk then .verified
      else if hasTaprootTree then .unverifiable
      else .mismatch
    | .p2wsh =>
      match witnessScript with
      | none => .unverifiable
      | some ws =>
        if sameScript (p2wshOf w ws) spk then verifiedIf (containsBytes ws pub.toList)
        else .mismatch
    | .p2sh =>
      match redeem with
      | none =>
        -- the only p2sh form rebuildable from a key alone is p2sh-p2wpkh
        match p2wpkhFor w pub with
        | some wp => if sameScript (p2shOf w wp) spk then .verified else .unverifiable
        | none => .unverifiable
      | some rs =>
        if !sameScript (p2shOf w rs) spk then .mismatch
        else if p2wpkhFor w pub = some rs then .verified
        else if isWitnessV0Sh rs then
          match witnessScript with
          | none => .unverifiable
          | some ws =>
            if p2wshOf w ws = some rs then verifiedIf (containsBytes ws pub.toList)
            else .mismatch
        else verifiedIf (containsBytes rs pub.toList)
    | _ => .unverifiable

/-! ## Names of scripts and addresses -/

def scriptTypeName : ScriptType → String
  | .p2pkh => "p2pkh"
  | .p2sh => "p2sh"
  | .p2wpkh => "p2wpkh"
  | .p2wsh => "p2wsh"
  | .p2tr => "p2tr"
  | .multisig => "bare-multisig"
  | .opReturn => "op-return"
  | .unknown => "non-standard"

def networkAddressVersion : Network → WallyNetwork
  | .mainnet => .bitcoinMainnet
  | .regtest => .bitcoinRegtest
  | .testnet | .signet => .bitcoinTestnet

def networkBech32Hrp : Network → String
  | .mainnet => "bc"
  | .regtest => "bcrt"
  | .testnet | .signet => "tb"

def networkBip32Version (n : Network) (priv : Bool) : UInt32 :=
  if n = .mainnet then (if priv then bip32VerMainPrivate else bip32VerMainPublic)
  else (if priv then bip32VerTestPrivate else bip32VerTestPublic)

/-- `addressForScript`: the address, and the name of the script's type. -/
def addressForScript (w : Wally) (network : Network) (script : Bytes) : String × String :=
  if script.isEmpty then ("(empty script)", "empty")
  else
    let type := w.scriptpubkeyGetType script
    let undecoded := "(non-standard script) " ++ hexOf (script.take 40)
    let address :=
      match type with
      | .p2pkh | .p2sh =>
        (w.scriptpubkeyToAddress script (networkAddressVersion network)).getD undecoded
      | .p2wpkh | .p2wsh | .p2tr =>
        (w.addrSegwitFromBytes script (networkBech32Hrp network)).getD undecoded
      | .opReturn => "OP_RETURN (unspendable)"
      | .multisig | .unknown => undecoded
    (address, scriptTypeName type)

/-! ## What the helpers decide -/

theorem sameScript_iff {a : Option Bytes} {b : Bytes} :
    sameScript a b = true ↔ a = some b ∧ b ≠ [] := by
  cases a with
  | none => simp [sameScript]
  | some s =>
    simp only [sameScript, Bool.and_eq_true, Bool.not_eq_true', List.isEmpty_eq_false_iff,
      beq_iff_eq, Option.some.injEq]
    constructor
    · intro h
      exact ⟨h.2, h.2 ▸ h.1⟩
    · intro h
      exact ⟨h.1 ▸ h.2, h.1⟩

@[simp] theorem verifiedIf_eq_verified {b : Bool} : verifiedIf b = .verified ↔ b = true := by
  cases b <;> simp [verifiedIf]

theorem keypathElements_eq_some {item : KeypathItem} {elems : List UInt32} :
    keypathElements item = some elems
      ↔ item.path = some elems ∧ 1 ≤ elems.length ∧ elems.length ≤ kMaxPathElements := by
  unfold keypathElements
  cases hp : item.path with
  | none => simp
  | some es =>
    by_cases h : es.length = 0 ∨ kMaxPathElements < es.length
    · simp only [h, if_true, reduceCtorEq, Option.some.injEq, false_iff]
      intro hread
      obtain ⟨hes, hlo, hhi⟩ := hread
      rw [hes] at h
      omega
    · simp only [h, if_false, Option.some.injEq]
      constructor
      · intro hes
        rw [← hes]
        exact ⟨rfl, by omega, by omega⟩
      · exact fun h' => h'.1

/-- `containsBytes` finds exactly the contiguous occurrences. -/
theorem containsBytes_iff {haystack needle : Bytes} (hne : needle ≠ []) :
    containsBytes haystack needle = true ↔ needle <:+: haystack := by
  unfold containsBytes
  constructor
  · intro h
    split at h
    · exact absurd h (by simp)
    · obtain ⟨i, -, hi⟩ := List.any_eq_true.mp h
      rw [← beq_iff_eq.mp hi]
      exact (List.take_prefix _ _).isInfix.trans (List.drop_suffix i haystack).isInfix
  · intro h
    obtain ⟨s, t, rfl⟩ := h
    have hlen : 0 < needle.length := List.length_pos_iff.mpr hne
    rw [if_neg (by simp [hne]; omega), List.any_eq_true]
    refine ⟨s.length, by simp; omega, ?_⟩
    simp

end SignerOS
