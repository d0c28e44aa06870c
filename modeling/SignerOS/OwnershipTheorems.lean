import SignerOS.Ownership
import SignerOS.Lib.ScriptRun

/-!
# What a verified script is worth

`ownershipForScript` decides a P2WSH, P2SH-P2WSH or other P2SH output by two facts about the
script the PSBT supplies: its hash is the one the output commits to, and the bytes of our
public key occur in it. What `verified` stands for is that our key controls the script: that
the script's signature checks take it as a key, whatever branch they are in and whatever has been
done to the stack since it was pushed.

* `verifyingScript`, the supplied script the verdict hangs on;
* `ownershipForScript_verifying`, the verdict there, in closed form;
* `keyControls_iff`, when `verified` keeps its word;
* `keyControls_multisig`, it does for the scripts multisig wallets are made of.
-/

namespace SignerOS

open Script (HasKeyOperand)

section
variable (w : Wally) (pub : PubKey) (spk : Bytes) (redeem witnessScript : Option Bytes)

/-- The supplied script whose contents decide the verdict, when one does: the witness script
of a P2WSH or P2SH-P2WSH output, or the redeem script of a P2SH output that is not rebuilt
from the key alone. -/
def verifyingScript : Option Bytes :=
  if spk.isEmpty then none
  else
    match w.scriptpubkeyGetType spk with
    | .p2wsh => witnessScript
    | .p2sh =>
      redeem.bind fun rs =>
        if p2wpkhFor w pub = some rs then none
        else if isWitnessV0Sh rs then witnessScript
        else some rs
    | _ => none

/-- The script's hash is the one the output commits to, through the redeem script where there
is one in between. -/
def CommitsTo (script : Bytes) : Prop :=
  match w.scriptpubkeyGetType spk, redeem with
  | .p2wsh, _ => p2wshOf w script = some spk
  | .p2sh, some rs =>
    p2shOf w rs = some spk ∧ if isWitnessV0Sh rs then p2wshOf w script = some rs else script = rs
  | _, _ => False

/-- What `verified` stands for, where a supplied script decides it: the output commits to the
script, and one of the script's signature checks takes our key. -/
def KeyControls (hasTaprootTree : Bool) : Prop :=
  ∀ script, verifyingScript w pub spk redeem witnessScript = some script →
    ownershipForScript w pub spk redeem witnessScript hasTaprootTree = .verified →
    HasKeyOperand script pub.toList ∧ CommitsTo w spk redeem script

/-- The script the output commits to mentions our key only if one of its signature checks
takes it. -/
def MentionsOnlyAsKey : Prop :=
  ∀ script, verifyingScript w pub spk redeem witnessScript = some script →
    CommitsTo w spk redeem script → pub.toList <:+: script → HasKeyOperand script pub.toList

end

section
variable {w : Wally} {pub : PubKey} {spk script : Bytes} {redeem witnessScript : Option Bytes}

theorem pubKey_ne_nil (pub : PubKey) : pub.toList ≠ [] := by
  intro h
  have hlen : pub.toList.length = 33 := pub.length_toList
  rw [h] at hlen
  exact absurd hlen (by decide)

/-- Where a supplied script decides, the output is ours exactly when it commits to the script
and the script mentions our key. -/
theorem ownershipForScript_verifying (hasTaprootTree : Bool)
    (h : verifyingScript w pub spk redeem witnessScript = some script) :
    ownershipForScript w pub spk redeem witnessScript hasTaprootTree = .verified
      ↔ CommitsTo w spk redeem script ∧ pub.toList <:+: script := by
  unfold verifyingScript at h
  by_cases hspk : spk.isEmpty = true
  · rw [if_pos hspk] at h
    exact absurd h (by simp)
  · have hne : spk ≠ [] := fun h0 => hspk (by rw [h0]; rfl)
    rw [if_neg hspk] at h
    unfold ownershipForScript CommitsTo
    rw [if_neg hspk, ← containsBytes_iff (pubKey_ne_nil pub)]
    cases htype : w.scriptpubkeyGetType spk <;> rw [htype] at h <;> try (simp at h; done)
    -- only a script hash leaves the decision to a supplied script
    case p2wsh =>
      have hws : witnessScript = some script := h
      subst hws
      dsimp only
      by_cases hsame : sameScript (p2wshOf w script) spk = true
      · rw [if_pos hsame, verifiedIf_eq_verified]
        simp [(sameScript_iff.mp hsame).1]
      · rw [if_neg hsame]
        refine iff_of_false (by simp) fun hc => hsame (sameScript_iff.mpr ⟨hc.1, hne⟩)
    case p2sh =>
      obtain ⟨rs, hredeem, hrs⟩ := Option.bind_eq_some_iff.mp h
      subst hredeem
      dsimp only
      by_cases hpkh : p2wpkhFor w pub = some rs
      · rw [if_pos hpkh] at hrs
        exact absurd hrs (by simp)
      · rw [if_neg hpkh] at hrs
        by_cases hsame : sameScript (p2shOf w rs) spk = true
        · have hcommit : p2shOf w rs = some spk := (sameScript_iff.mp hsame).1
          rw [if_neg (by simp [hsame]), if_neg hpkh]
          -- the redeem script is a hash once more, or decides by itself
          by_cases hv0 : isWitnessV0Sh rs = true
          · rw [if_pos hv0] at hrs ⊢
            subst hrs
            dsimp only
            by_cases hwsh : p2wshOf w script = some rs
            · rw [if_pos hwsh, verifiedIf_eq_verified]
              simp [hcommit, hv0, hwsh]
            · rw [if_neg hwsh]
              simp [hv0, hwsh]
          · rw [if_neg hv0] at hrs ⊢
            have hscript : rs = script := Option.some.inj hrs
            subst hscript
            rw [verifiedIf_eq_verified]
            simp [hcommit, hv0]
        · rw [if_pos (by simp [hsame])]
          refine iff_of_false (by simp) fun hc => hsame (sameScript_iff.mpr ⟨hc.1.1, hne⟩)

/-- `verified` keeps its word for an output exactly when the script it commits to mentions
our key only as a key. -/
theorem keyControls_iff (w : Wally) (pub : PubKey) (spk : Bytes)
    (redeem witnessScript : Option Bytes) (hasTaprootTree : Bool) :
    KeyControls w pub spk redeem witnessScript hasTaprootTree
      ↔ MentionsOnlyAsKey w pub spk redeem witnessScript := by
  unfold KeyControls MentionsOnlyAsKey
  refine forall₂_congr fun script hscript => ?_
  rw [ownershipForScript_verifying hasTaprootTree hscript]
  constructor
  · exact fun h hc hin => (h ⟨hc, hin⟩).1
  · exact fun h ⟨hc, hin⟩ => ⟨h hc hin, hc⟩

/-- The witness script of a multisig wallet that our key is part of passes the test. -/
theorem keyControls_multisig {m : ℕ} {keys : List PubKey} (hasTaprootTree : Bool)
    (htype : w.scriptpubkeyGetType spk = .p2wsh) (hspk : spk ≠ [])
    (hm : 1 ≤ m) (hmn : m ≤ keys.length) (hn : keys.length ≤ 16) (hpub : pub ∈ keys) :
    KeyControls w pub spk redeem
      (some (Script.encode (Script.multisigTokens m (keys.map (·.toList))))) hasTaprootTree := by
  intro script hscript hverified
  refine ⟨?_, ((ownershipForScript_verifying hasTaprootTree hscript).mp hverified).1⟩
  unfold verifyingScript at hscript
  rw [if_neg (by simp [hspk]), htype, Option.some.injEq] at hscript
  subst hscript
  refine Script.hasKeyOperand_multisig hm (by simpa using hmn) (by simpa using hn) ?_ ?_
  · intro k hk
    obtain ⟨key, -, rfl⟩ := List.mem_map.mp hk
    rw [Vector.length_toList]
    decide
  · exact List.mem_map.mpr ⟨pub, hpub, rfl⟩

end

/-! ### A key that is only mentioned

The witness script pushes our key behind one more byte, drops it, and checks a signature
against somebody else's. -/

def ourPubKey : PubKey := .replicate 33 0x02

def theirPubKey : PubKey := .replicate 33 0x03

/-- `PUSH(0x00 our key) DROP PUSH(their key) CHECKSIG`. -/
def mentioningScript : Bytes :=
  Script.encode [.push (0x00 :: ourPubKey.toList), .op Script.opDrop, .push theirPubKey.toList,
    .op Script.opChecksig]

def mentioningSpk : Bytes := [0x00, 0x20]

/-- A library in which every script is P2WSH and has the one hash. -/
def mentioningLibrary : Wally :=
  { Wally.failing with
    scriptpubkeyGetType := fun _ => .p2wsh
    witnessProgramFromBytes := fun _ _ => some mentioningSpk }

/-- The output is `verified`, and the key its script checks is not ours. -/
theorem verified_without_key :
    ¬ KeyControls mentioningLibrary ourPubKey mentioningSpk none (some mentioningScript) false := by
  intro h
  have hverified : ownershipForScript mentioningLibrary ourPubKey mentioningSpk none
      (some mentioningScript) false = .verified := by decide
  have hkey := (h mentioningScript (by decide) hverified).1
  exact absurd hkey (by decide)

end SignerOS
