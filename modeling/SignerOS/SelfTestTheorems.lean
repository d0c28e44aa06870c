import SignerOS.ExportTheorems
import SignerOS.LoadTheorems
import SignerOS.SelfTest
import SignerOS.WriterPaths

/-!
# What a self-test establishes
-/

namespace SignerOS.SelfTest

open Files (Disk AddsOnly)
open Fallible

/-- The slot and the disk are these; the output does not matter. -/
def On (slot : KeySlot) (files : Disk Char) (m : Machine) : Prop := m.slot = slot ∧ m.files = files

section
variable {ε : Type} {slot : KeySlot} {files : Disk Char} {E : ε → Machine → Prop}

theorem emit_spec (line : String) : Triple (On slot files) (emit line) (fun _ => On slot files) E :=
  Triple.modify fun _ h => h

/-- A check of what is known to hold. -/
theorem require_of_true {p : Bool} (hp : p = true) (e : ε) :
    Triple (On slot files) (require p e) (fun _ => On slot files) E := by
  rw [require, if_pos hp]
  exact Triple.pure fun _ h => h

theorem require_spec {p : Bool} {e : ε} (hE : ∀ m, On slot files m → E e m) :
    Triple (On slot files) (require p e) (fun _ => On slot files) E :=
  (Triple.require fun _ => hE).post fun _ _ h => h.1

end

/-! ## The reasons there are -/

/-- libwally finds a mnemonic invalid, with this error. -/
def Invalid (w : Wally) (err : String) : Prop :=
  ∃ mnemonic, PsbtEngine.bip39Validate w mnemonic = .error err

/-- Errors of the grid: the grid itself is not at fault. -/
def GridError (w : Wally) (err : String) : Prop :=
  Invalid w err ∨ err ∈ ["a valid mnemonic was reported as holding unknown words",
    "bip39UnknownSlots did not name exactly the bad cells",
    "the cell being typed was judged as finished"]

/-- Errors of the names: the reduction to one component is not at fault. -/
def FileNameError (err : String) : Prop :=
  err ∈ ["freeFileName did not step past an existing name",
    "freeFileName renamed something that was free"]

/-- Errors of the pool: neither the policy nor the sanity check is at fault. -/
def EntropyError (w : Wally) (lib : Bip39) (hmac : Digest → Bytes → Option Digest)
    (err : String) : Prop :=
  (∃ m pool bytes, err =
      ((EntropyPool.finalise hmac m pool (some (List.replicate bytes 0)) bytes).err.getD "")) ∨
    (∃ entropy, (mnemonicFromEntropy w lib entropy .wiped).1 = .error err) ∨ Invalid w err ∨
    err ∈ ["two draws from the entropy pool were identical",
      "the entropy pool produced all zeroes", "a generated mnemonic had the wrong word count"]

/-- Errors of a wallet export: what it says of itself is in order, and it leaves no key. -/
def WalletFailure.Possible : WalletFailure → Prop
  | .build _ | .marker _ | .word => True
  | .emptyKeyOrAddress standard => standard ∈ kStandards.map Standard.name
  | .emptyKey standard => standard ∈ kCosignerStandards.map MultisigStandard.name
  | .keyOrigin _ | .noCosigners | .keyResident => False

/-! ## The fixed checks -/

section
variable {slot : KeySlot} {files : Disk Char}

theorem runFileNameChecks_spec : Triple (On slot files) (runFileNameChecks files)
    (fun _ => On slot files) fun err m => On slot files m ∧ FileNameError err := by
  unfold runFileNameChecks
  iterate 12 refine (require_of_true (by decide) _).bind fun _ => ?_
  refine (require_spec fun _ h => ⟨h, by simp [FileNameError]⟩).bind fun _ => ?_
  exact require_spec fun _ h => ⟨h, by simp [FileNameError]⟩

theorem runGridChecks_spec (w : Wally) (lib : Bip39) : Triple (On slot files) (runGridChecks w lib)
    (fun _ => On slot files) fun err m => On slot files m ∧ GridError w err := by
  unfold runGridChecks
  dsimp only
  -- the conditions on the grid are about fixed texts, and hold
  iterate 13 refine (require_of_true (by decide +kernel) _).bind fun _ => ?_
  refine (Triple.ofExcept (fun _ _ _ h => h) fun err herr _ h => ⟨h, .inl ⟨_, herr⟩⟩).bind fun _ => ?_
  refine (require_spec fun _ h => ⟨h, .inr (by simp)⟩).bind fun _ => (emit_spec _).bind fun _ => ?_
  refine (require_spec fun _ h => ⟨h, .inr (by simp)⟩).bind fun _ => ?_
  exact (require_spec fun _ h => ⟨h, .inr (by simp)⟩).bind fun _ => emit_spec _

theorem awaitKernelPool_spec {ε : Type} {E : ε → Machine → Prop} (o : Outside) :
    Triple (On slot files) (awaitKernelPool o) (fun _ => On slot files) E := by
  unfold awaitKernelPool
  split
  · exact (emit_spec _).bind fun _ => emit_spec _
  · exact Triple.pure fun _ h => h

theorem runPolicyChecks_spec {E : String → Machine → Prop} :
    Triple (On slot files) runPolicyChecks (fun _ => On slot files) E := by
  have hcases : ∀ c ∈ policyCases, (entropyPolicySatisfied c.report == c.allowed) = true := by decide
  unfold runPolicyChecks
  refine (Triple.forM fun c hc => require_of_true (hcases c hc) _).bind fun _ => ?_
  refine (emit_spec _).bind fun _ => ?_
  iterate 8 refine (require_of_true (by decide) _).bind fun _ => ?_
  exact emit_spec _

section
variable (w : Wally) (lib : Bip39) (hmac : Digest → Bytes → Option Digest)

theorem draw_spec (m : EntropySources) (pool : EntropyPool) (bytes : ℕ) :
    Triple (On slot files) (draw hmac m pool bytes) (fun _ => On slot files)
      fun err m => On slot files m ∧ EntropyError w lib hmac err := by
  unfold draw
  dsimp only
  split
  · exact Triple.pure fun _ h => h
  · exact Triple.fail fun _ h => ⟨h, .inl ⟨m, pool, bytes, rfl⟩⟩

theorem generateMnemonic_spec (m : EntropySources) (pool : EntropyPool) (words : WordCount) :
    Triple (On slot files) (generateMnemonic w lib hmac m pool words) (fun _ => On slot files)
      fun err m => On slot files m ∧ EntropyError w lib hmac err := by
  unfold generateMnemonic
  refine (draw_spec w lib hmac m pool _).bind fun drawn => ?_
  dsimp only
  refine (Triple.ofExcept (fun _ _ _ h => h) fun err herr _ h =>
    ⟨h, .inr (.inl ⟨_, herr⟩)⟩).bind fun _ => ?_
  refine (require_spec fun _ h => ⟨h, .inr (.inr (.inr (by simp)))⟩).bind fun _ => ?_
  refine (Triple.ofExcept (fun _ _ _ h => h) fun err herr _ h =>
    ⟨h, .inr (.inr (.inl ⟨_, herr⟩))⟩).bind fun _ => ?_
  exact (emit_spec _).bind fun _ => Triple.pure fun _ h => h

theorem runEntropyChecks_spec (sha512 : Bytes → Digest) (o : Outside) :
    Triple (On slot files) (runEntropyChecks w lib sha512 hmac o) (fun _ => On slot files)
      fun err m => On slot files m ∧ EntropyError w lib hmac err := by
  unfold runEntropyChecks
  dsimp only
  refine (emit_spec _).bind fun _ => ?_
  refine (awaitKernelPool_spec o).bind fun _ => runPolicyChecks_spec.bind fun _ => ?_
  refine (draw_spec w lib hmac _ _ _).bind fun first => (emit_spec _).bind fun _ => ?_
  refine (draw_spec w lib hmac _ _ _).bind fun second => ?_
  refine (require_spec fun _ h => ⟨h, .inr (.inr (.inr (by simp)))⟩).bind fun _ => ?_
  refine (emit_spec _).bind fun _ => ?_
  refine (require_spec fun _ h => ⟨h, .inr (.inr (.inr (by simp)))⟩).bind fun _ => ?_
  refine (generateMnemonic_spec w lib hmac _ _ _).bind fun pool => ?_
  exact (generateMnemonic_spec w lib hmac _ _ _).bind fun _ => Triple.pure fun _ h => h

end

end

/-! ## The wallet export -/

section
variable {slot : KeySlot} {files : Disk Char}

theorem buildWalletExport_slot (w : Wally) (mnemonic passphrase : String) (net : Network)
    (account : UInt32) :
    (buildWalletExport w .clear mnemonic passphrase net account).2.2 = .clear := by
  unfold buildWalletExport
  dsimp only
  split
  · rfl
  · split <;> rfl

/-- What an export says of itself, if there is one. -/
structure Exported (we : WalletExport) : Prop where
  standards : ∀ a ∈ we.accounts, a.standard ∈ kStandards.map Standard.name
  cosignerStandards : ∀ c ∈ we.cosigners,
    c.standard ∈ kCosignerStandards.map MultisigStandard.name
  keyOrigins : ∀ c ∈ we.cosigners,
    c.keyOrigin = "[" ++ we.fingerprint ++ "/" ++ c.pathHardened ++ "]" ++ c.xpub
  cosigners : we.cosigners ≠ []

theorem exists_of_forall₂ {α β : Type} {R : α → β → Prop} {l : List α} {l' : List β}
    (h : List.Forall₂ R l l') {b : β} (hb : b ∈ l') : ∃ a ∈ l, R a b := by
  induction h with
  | nil => cases hb
  | cons hr _ ih =>
    obtain rfl | hb := List.mem_cons.mp hb
    · exact ⟨_, List.mem_cons_self, hr⟩
    · obtain ⟨a, ha, hab⟩ := ih hb
      exact ⟨a, List.mem_cons_of_mem _ ha, hab⟩

theorem exported_of_exportOfMaster {w : Wally} {master : ExtKey} {out we : WalletExport}
    (h : exportOfMaster w out master = .ok we) : Exported we := by
  obtain ⟨-, haccounts, hcosigners⟩ := exportOfMaster_ok h
  have hcosigner (c : CosignerKey) (hc : c ∈ we.cosigners) :
      c.standard ∈ kCosignerStandards.map MultisigStandard.name ∧
        c.keyOrigin = "[" ++ we.fingerprint ++ "/" ++ c.pathHardened ++ "]" ++ c.xpub := by
    obtain ⟨ms, hms, hc⟩ := exists_of_forall₂ hcosigners hc
    obtain ⟨found, -, rfl⟩ := Option.map_eq_some_iff.mp hc
    exact ⟨List.mem_map_of_mem hms, rfl⟩
  refine ⟨?_, fun c hc => (hcosigner c hc).1, fun c hc => (hcosigner c hc).2, ?_⟩
  · intro a ha
    obtain ⟨std, hstd, ha⟩ := exists_of_forall₂ haccounts ha
    obtain ⟨found, -, rfl⟩ := Option.map_eq_some_iff.mp ha
    exact List.mem_map_of_mem hstd
  · intro hnil
    rw [hnil] at hcosigners
    exact absurd hcosigners.length_eq (by decide)

theorem runWalletChecks_spec (w : Wally) (net : Network) (mnemonic : SecureString)
    (account : UInt32) (tag : String) :
    Triple (On .clear files) (runWalletChecks w net mnemonic account tag)
      (fun _ => On .clear files) fun why m => On .clear files m ∧ why.Possible := by
  unfold runWalletChecks
  refine Triple.bind (Q := fun we m => Exported we ∧ On .clear files m) ?_ fun we =>
    Triple.lift fun hwe => ?_
  · intro m hm
    dsimp only
    rw [hm.1]
    have hslot := buildWalletExport_slot w (cStr mnemonic.text) "" net account
    have hok (h : (buildWalletExport w .clear (cStr mnemonic.text) "" net account).1 = .ok ()) :=
      buildWalletExport_ok h
    generalize buildWalletExport w .clear (cStr mnemonic.text) "" net account = r at hslot hok ⊢
    obtain ⟨result, we, slot⟩ := r
    cases result with
    | error err => exact .error ⟨⟨hslot, hm.2⟩, trivial⟩
    | ok done =>
      obtain ⟨master, -, hmaster⟩ := hok rfl
      exact .ok ⟨exported_of_exportOfMaster hmaster, hslot, hm.2⟩
  refine (emit_spec _).bind fun _ => ?_
  refine (Triple.forM fun a ha => ?_).bind fun _ => ?_
  · refine (emit_spec _).bind fun _ => ?_
    exact (require_spec fun m h => ⟨h, hwe.standards a ha⟩).bind fun _ => emit_spec _
  refine (Triple.forM fun c hc => ?_).bind fun _ => ?_
  · refine (emit_spec _).bind fun _ => ?_
    refine (require_spec fun m h => ⟨h, hwe.cosignerStandards c hc⟩).bind fun _ => ?_
    exact require_of_true (beq_iff_eq.mpr (hwe.keyOrigins c hc)) _
  refine (require_of_true (by simpa using hwe.cosigners) _).bind fun _ => ?_
  refine Triple.get_bind fun m hm => ?_
  have hslot : (!m.slot.valid) = true := by rw [hm.1]; rfl
  refine (require_of_true hslot _).bind fun _ => ?_
  dsimp only
  refine Triple.bind (Q := fun _ => On .clear files) (Triple.forM fun marker _ => ?_) fun _ => ?_
  · exact require_spec fun m h => ⟨h, True.intro⟩
  refine Triple.bind (Q := fun _ => On .clear files) (Triple.forM fun word _ => ?_) fun _ => ?_
  · exact require_spec fun m h => ⟨h, True.intro⟩
  exact emit_spec _

end

end SignerOS.SelfTest
