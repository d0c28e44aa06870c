import SignerOS.GateTheorems

/-!
# What `sign` says it has done

`sign` counts the entries of `signatures` before and after the call. libwally signs the
inputs in order and in place, and keeps a taproot key-path signature elsewhere, among the
`psbt_fields`, which has one entry for each type; when it fails at an input, the inputs before it
stay signed.

* `InputSigned` and `SignsInOrder`, what libwally is taken to do;
* `AllOrNothing`, that the number `sign` returns is the number of signatures added, and that
  an error leaves the engine as it was;
* `sign_all_or_nothing_iff`, when that is so.
-/

namespace SignerOS

open Session (kPsbtInTapKeySig)

/-! ## What libwally is taken to do -/

/-- The taproot key-path signatures of an input. -/
def tapKeySigs (inp : PsbtInput) : ℕ :=
  inp.psbtFields.countP fun field => field.1 == kPsbtInTapKeySig

/-- What signing makes of an input: partial signatures are added to `signatures`, and a taproot
key-path signature is set among the `psbt_fields`, where one may have been before. Of either kind,
one that is there may be replaced, and none is removed. -/
structure InputSigned (before after : PsbtInput) : Prop where
  signatures : before.signatures.map Prod.fst <+: after.signatures.map Prod.fst
  tapKeySig : tapKeySigs before ≤ tapKeySigs after
  fields : after.psbtFields.filter (fun field => field.1 != kPsbtInTapKeySig)
    = before.psbtFields.filter fun field => field.1 != kPsbtInTapKeySig
  rest : after =
    { before with signatures := after.signatures, psbtFields := after.psbtFields }

/-- `wally_psbt_sign_bip32` signs the inputs in order and in place, up to the first one it
fails on. -/
def SignsInOrder (w : Wally) : Prop :=
  ∀ psbt key, ∃ signInput : ℕ → PsbtInput → Bool × PsbtInput,
    (∀ i inp, InputSigned inp (signInput i inp).2) ∧
    ((w.psbtSignBip32 psbt key).1 = wallyOk
      ↔ (Indexed.untilFailure signInput 0 psbt.inputs).1 = true) ∧
    (w.psbtSignBip32 psbt key).2
      = { psbt with inputs := (Indexed.untilFailure signInput 0 psbt.inputs).2 }

/-- The taproot key-path signatures of a PSBT. -/
def countTapKeySigs (psbt : Psbt) : ℕ := (psbt.inputs.map tapKeySigs).sum

/-- The signatures of a PSBT, of both kinds. -/
def allSignatures (psbt : Psbt) : ℕ := PsbtEngine.countSignatures psbt + countTapKeySigs psbt

/-! ## Signatures are only added -/

theorem InputSigned.refl (inp : PsbtInput) : InputSigned inp inp :=
  ⟨List.prefix_rfl, Nat.le_refl _, rfl, rfl⟩

theorem InputSigned.signatures_le {before after : PsbtInput} (h : InputSigned before after) :
    before.signatures.length ≤ after.signatures.length := by
  have hlen := h.signatures.length_le
  rwa [List.length_map, List.length_map] at hlen

/-- What signing an input only adds to, signing a PSBT only adds to. -/
theorem sum_le_of_signed {before after : List PsbtInput} {count : PsbtInput → ℕ}
    (hcount : ∀ {inp inp' : PsbtInput}, InputSigned inp inp' → count inp ≤ count inp')
    (h : List.Forall₂ InputSigned before after) :
    (before.map count).sum ≤ (after.map count).sum := by
  induction h with
  | nil => exact Nat.le_refl 0
  | cons hone _ ih =>
    have hle := hcount hone
    simp only [List.map_cons, List.sum_cons]
    omega

/-! ## The call -/

section
variable {w : Wally}

theorem SignsInOrder.forall₂ (hw : SignsInOrder w) (psbt : Psbt) (key : ExtKey) :
    List.Forall₂ InputSigned psbt.inputs (w.psbtSignBip32 psbt key).2.inputs := by
  obtain ⟨signInput, hsigned, -, hafter⟩ := hw psbt key
  rw [hafter]
  exact Indexed.forall₂_untilFailure InputSigned.refl hsigned 0 psbt.inputs

theorem SignsInOrder.countSignatures_le (hw : SignsInOrder w) (psbt : Psbt) (key : ExtKey) :
    PsbtEngine.countSignatures psbt ≤ PsbtEngine.countSignatures (w.psbtSignBip32 psbt key).2 :=
  sum_le_of_signed InputSigned.signatures_le (hw.forall₂ psbt key)

theorem SignsInOrder.countTapKeySigs_le (hw : SignsInOrder w) (psbt : Psbt) (key : ExtKey) :
    countTapKeySigs psbt ≤ countTapKeySigs (w.psbtSignBip32 psbt key).2 :=
  sum_le_of_signed InputSigned.tapKeySig (hw.forall₂ psbt key)

end

/-! ## All or nothing -/

section
variable (w : Wally) (slot : KeySlot) (e : PsbtEngine) (psbt : Psbt) (key : ExtKey)

/-- `sign` succeeds exactly when the call has added a signature, reports how many, and leaves
the engine as it was when it does not succeed. -/
structure AllOrNothing : Prop where
  succeeds : (∃ n, (e.sign w slot).1 = .ok n)
    ↔ allSignatures psbt < allSignatures (w.psbtSignBip32 psbt key).2
  counts : ∀ n, (e.sign w slot).1 = .ok n →
    n = allSignatures (w.psbtSignBip32 psbt key).2 - allSignatures psbt
  restores : ∀ err, (e.sign w slot).1 = .error err → (e.sign w slot).2 = e

end

section
variable {w : Wally} {slot : KeySlot} {e : PsbtEngine} {psbt : Psbt} {key : ExtKey}

/-- `sign` past its refusals. -/
theorem sign_of_gate (w : Wally) (hgate : PsbtEngine.signGate slot e = .ok (psbt, key)) :
    (PsbtEngine.SignFails w psbt key ∧
      ∃ err, e.sign w slot = (.error err, { e with psbt := some (w.psbtSignBip32 psbt key).2 })) ∨
    (¬ PsbtEngine.SignFails w psbt key ∧
      (e.sign w slot).1 = .ok (PsbtEngine.countSignatures (w.psbtSignBip32 psbt key).2
        - PsbtEngine.countSignatures psbt)) := by
  rcases PsbtEngine.sign_cases w slot e with
    ⟨err, hg, -⟩ | ⟨psbt', key', err, hg, hfail, hs⟩ | ⟨psbt', key', hg, hfail, hs⟩
  · exact absurd (hg.symm.trans hgate) (by simp)
  · obtain ⟨rfl, rfl⟩ := Prod.mk.inj (Except.ok.inj (hg.symm.trans hgate))
    exact Or.inl ⟨hfail, err, hs⟩
  · obtain ⟨rfl, rfl⟩ := Prod.mk.inj (Except.ok.inj (hg.symm.trans hgate))
    exact Or.inr ⟨hfail, by rw [hs]⟩

/-- An error leaves the engine as it was exactly when the call has left the PSBT alone. -/
theorem engine_restored_iff (hgate : PsbtEngine.signGate slot e = .ok (psbt, key))
    (after : Psbt) : { e with psbt := some after } = e ↔ after = psbt := by
  have hpsbt := (PsbtEngine.signGate_eq_ok.mp hgate).1
  constructor
  · intro h
    have hsome : some after = e.psbt := congrArg PsbtEngine.psbt h
    exact Option.some.inj (hsome.trans hpsbt)
  · intro h
    rw [h, ← hpsbt]

/-- A `sign` that fails is all or nothing exactly when the call has left the PSBT alone. -/
theorem allOrNothing_of_error (hgate : PsbtEngine.signGate slot e = .ok (psbt, key)) {err : String}
    (h : e.sign w slot = (.error err, { e with psbt := some (w.psbtSignBip32 psbt key).2 })) :
    AllOrNothing w slot e psbt key ↔ (w.psbtSignBip32 psbt key).2 = psbt := by
  constructor
  · intro hall
    -- the engine is as it was, and with it the PSBT
    have hkept := hall.restores err (congrArg Prod.fst h)
    rw [h] at hkept
    exact (engine_restored_iff hgate _).mp hkept
  · intro hnone
    have hkept := (engine_restored_iff hgate _).mpr hnone
    refine ⟨?_, fun n hn => ?_, fun _ _ => ?_⟩
    · rw [h, hnone]
      exact iff_of_false (fun ⟨n, hn⟩ => by cases hn) (Nat.lt_irrefl _)
    · rw [h] at hn
      cases hn
    · rw [h]
      exact hkept

/-- A `sign` that succeeds counts right exactly when the call has stored no taproot key-path
signature. -/
theorem allOrNothing_of_ok (hw : SignsInOrder w)
    (hadded : PsbtEngine.countSignatures psbt
      < PsbtEngine.countSignatures (w.psbtSignBip32 psbt key).2)
    (h : (e.sign w slot).1 = .ok (PsbtEngine.countSignatures (w.psbtSignBip32 psbt key).2
      - PsbtEngine.countSignatures psbt)) :
    AllOrNothing w slot e psbt key
      ↔ countTapKeySigs (w.psbtSignBip32 psbt key).2 = countTapKeySigs psbt := by
  have ht := hw.countTapKeySigs_le psbt key
  constructor
  · intro hall
    -- what `sign` reports is the partial signatures alone
    have hcount := hall.counts _ h
    unfold allSignatures at hcount
    omega
  · intro hnone
    refine ⟨iff_of_true ⟨_, h⟩ ?_, fun n hn => ?_, fun err herr => ?_⟩
    · unfold allSignatures
      omega
    · have hn' := Except.ok.inj (hn.symm.trans h)
      unfold allSignatures
      omega
    · exact absurd (herr.symm.trans h) (by simp)

/-- For every PSBT and key that pass the gate: `sign` is all or nothing, and counts right,
exactly when the call succeeds without adding a taproot key-path signature, leaving the PSBT alone
if it adds no signature at all, or fails and leaves the PSBT alone. -/
theorem sign_all_or_nothing_iff (w : Wally) (hw : SignsInOrder w) (slot : KeySlot)
    (e : PsbtEngine) (psbt : Psbt) (key : ExtKey)
    (hgate : PsbtEngine.signGate slot e = .ok (psbt, key)) :
    AllOrNothing w slot e psbt key ↔
      ((w.psbtSignBip32 psbt key).1 = wallyOk →
        countTapKeySigs (w.psbtSignBip32 psbt key).2 = countTapKeySigs psbt ∧
          (allSignatures (w.psbtSignBip32 psbt key).2 = allSignatures psbt →
            (w.psbtSignBip32 psbt key).2 = psbt)) ∧
      ((w.psbtSignBip32 psbt key).1 ≠ wallyOk → (w.psbtSignBip32 psbt key).2 = psbt) := by
  rcases sign_of_gate w hgate with ⟨hfail, err, hsign⟩ | ⟨hdone, hsign⟩
  · rw [allOrNothing_of_error hgate hsign]
    by_cases hrc : (w.psbtSignBip32 psbt key).1 = wallyOk
    · -- it has succeeded and added no partial signature
      have hle := hfail.resolve_left (not_not.mpr hrc)
      have hs := hw.countSignatures_le psbt key
      simp only [hrc, forall_const, ne_eq, not_true_eq_false, false_imp_iff, and_true]
      constructor
      · exact fun h => ⟨by rw [h], fun _ => h⟩
      · rintro ⟨htap, hnone⟩
        refine hnone ?_
        unfold allSignatures
        omega
    · simp only [hrc, false_imp_iff, ne_eq, not_false_eq_true, forall_const, true_and]
  · have hrc : (w.psbtSignBip32 psbt key).1 = wallyOk := by
      by_contra hrc
      exact hdone (Or.inl hrc)
    have hadded := Nat.lt_of_not_le fun hle => hdone (Or.inr hle)
    rw [allOrNothing_of_ok hw hadded hsign]
    simp only [hrc, forall_const, ne_eq, not_true_eq_false, false_imp_iff, and_true]
    refine ⟨fun htap => ⟨htap, fun hnone => ?_⟩, And.left⟩
    unfold allSignatures at hnone
    omega

end

/-! ### Partial signatures and taproot key-path signatures -/

open Session (taprootLibrary taprootPsbt paymentTx someKeypath tapSigned signingGate_taprootPsbt)

/-- A library that signs every input succeeds on all of them. -/
theorem signsInOrder_of_map {w : Wally} {f : PsbtInput → PsbtInput}
    (hf : ∀ inp, InputSigned inp (f inp))
    (h : ∀ psbt key, w.psbtSignBip32 psbt key
      = (wallyOk, { psbt with inputs := psbt.inputs.map f })) : SignsInOrder w := by
  intro psbt key
  refine ⟨fun _ inp => (true, f inp), fun _ inp => hf inp, ?_, ?_⟩
  · rw [h, Indexed.untilFailure_of_succeeds]
    exact iff_of_true rfl rfl
  · rw [h, Indexed.untilFailure_of_succeeds]

/-- An engine that has inspected a PSBT with the key in hand. -/
def inspectedEngine (w : Wally) (psbt : Psbt) : PsbtEngine :=
  PsbtEngine.loaded w { network := .mainnet } (.hold default) "/data/payment.psbt" psbt false

theorem signGate_inspectedEngine {w : Wally} {psbt : Psbt} (h : SigningGate w default psbt) :
    PsbtEngine.signGate (.hold default) (inspectedEngine w psbt) = .ok (psbt, default) := by
  have hopen := (signingGate_iff_summarise .mainnet false).mpr h
  exact PsbtEngine.signGate_eq_ok.mpr ⟨rfl, rfl, hopen.1, hopen.2⟩

/-- A P2WPKH script. -/
def segwitScript : Bytes := 0x00 :: 0x14 :: List.replicate 20 0x02

def segwitPsbt : Psbt :=
  { taprootPsbt with
    inputs := [{ witnessUtxo := some ⟨1000, segwitScript⟩, keypaths := [someKeypath] }] }

/-- The input with a partial signature. -/
def partiallySigned (inp : PsbtInput) : PsbtInput :=
  { inp with signatures := inp.signatures ++ [(List.replicate 33 0x02, [0x30])] }

theorem inputSigned_partiallySigned (inp : PsbtInput) : InputSigned inp (partiallySigned inp) :=
  ⟨by simp [partiallySigned], Nat.le_refl _, rfl, rfl⟩

theorem inputSigned_tapSigned (inp : PsbtInput) : InputSigned inp (tapSigned inp) :=
  ⟨List.prefix_rfl, by simp [tapKeySigs, tapSigned], by simp [tapSigned], rfl⟩

def segwitLibrary : Wally :=
  { taprootLibrary with
    psbtSignBip32 := fun psbt _ =>
      (wallyOk, { psbt with inputs := psbt.inputs.map partiallySigned }) }

theorem signingGate_segwitPsbt : SigningGate segwitLibrary default segwitPsbt := by
  refine ⟨⟨paymentTx, rfl, ?_, fun key _ i po out hpo _ _ => ?_⟩, 0, by decide, by decide⟩
  · exact ⟨by decide, by decide, by decide, by decide, by decide, _, List.mem_singleton_self _, rfl⟩
  · cases List.mem_singleton.mp (List.mem_of_getElem? hpo)
    exact fun h => by cases h

theorem partial_signature_counted :
    AllOrNothing segwitLibrary (.hold default) (inspectedEngine segwitLibrary segwitPsbt)
      segwitPsbt default :=
  (sign_all_or_nothing_iff segwitLibrary
    (signsInOrder_of_map inputSigned_partiallySigned fun _ _ => rfl)
    (.hold default) _ segwitPsbt default (signGate_inspectedEngine signingGate_segwitPsbt)).mpr
    ⟨fun _ => ⟨by decide, fun h => absurd h (by decide)⟩, fun h => absurd rfl h⟩

theorem taproot_signature_not_counted :
    SignsInOrder taprootLibrary ∧
      PsbtEngine.signGate (.hold default) (inspectedEngine taprootLibrary taprootPsbt)
        = .ok (taprootPsbt, default) ∧
      ¬ AllOrNothing taprootLibrary (.hold default) (inspectedEngine taprootLibrary taprootPsbt)
        taprootPsbt default := by
  have hw : SignsInOrder taprootLibrary :=
    signsInOrder_of_map inputSigned_tapSigned fun _ _ => rfl
  have hgate := signGate_inspectedEngine
    (signingGate_taprootPsbt taprootLibrary default rfl (by decide) (by decide))
  refine ⟨hw, hgate, ?_⟩
  rcases sign_of_gate taprootLibrary hgate with ⟨-, err, hsign⟩ | ⟨hdone, -⟩
  · rw [allOrNothing_of_error hgate hsign]
    decide
  · exact absurd (Or.inr (by decide)) hdone

end SignerOS
