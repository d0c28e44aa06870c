import SignerOS.World
import SignerOS.GateTheorems
import SignerOS.Bookkeeping

/-!
# Whose key is in the slot

The verdicts of a summary are cached in the engine, the key they were made with is in the
slot every engine shares. Nothing in an engine notices when somebody else changes the slot;
the callers take turns.

* `Sound`, an engine whose verdicts were made with the key that is resident;
* `sound_step`, an engine's own operations keep it;
* `key_in_step_iff`, it holds throughout a run exactly when nobody else changes the resident
  key while the engine shows verdicts made with one.
-/

namespace SignerOS

/-! ## Which key a summary rests on -/

section
variable {w : Wally} {network : Network} {loose : Bool} {slot : KeySlot} {psbt : Psbt}

/-- A summary that shows verdicts was made with a key. -/
theorem resident_of_checked
    (h : (summarise w network loose slot psbt).ownershipChecked = true) :
    ∃ key, slot.resident = some key := by
  apply Option.ne_none_iff_exists'.mp
  intro hnone
  rw [(keyless_summarise loose hnone).unchecked] at h
  exact absurd h (by decide)

/-- A summary with signable inputs shows verdicts. -/
theorem checked_of_signable (h : (summarise w network loose slot psbt).signableInputs ≠ 0) :
    (summarise w network loose slot psbt).ownershipChecked = true := by
  cases hx : w.psbtExtract psbt .nonFinal with
  | none =>
    rw [summarise_of_no_extract hx] at h
    exact absurd rfl h
  | some tx =>
    rw [summarise_of_extract hx, deriveFindings_eq] at h ⊢
    unfold evaluateSignability at h ⊢
    cases hr : slot.resident with
    | none =>
      rw [hr] at h
      exact absurd rfl h
    | some key => rfl

end

/-- The verdicts of the engine, and the inputs it takes for signable, rest on the key in the
slot. -/
structure Sound (slot : KeySlot) (st : Station) : Prop where
  signable : st.engine.summary.signableInputs ≠ 0 → st.Checked
  keyed : st.Checked → ∃ key, st.evaluatedWith = some key ∧ slot.resident = some key

namespace Session

open PsbtEngine

section
variable {w : Wally} {slot : KeySlot} {e : PsbtEngine} {before : Option ExtKey}

/-- An engine that shows no verdicts rests on nothing. -/
theorem sound_of_unchecked (hsignable : e.summary.signableInputs = 0)
    (hchecked : e.summary.ownershipChecked = false) : Sound slot ⟨e, before⟩ := by
  refine ⟨fun h => absurd hsignable h, fun h => ?_⟩
  exact absurd (h.symm.trans hchecked) (by decide)

/-- A summary made with the slot as it is rests on the key in the slot. -/
theorem sound_of_summarised (psbt : Psbt)
    (h : e.summary = summarise w e.network e.looseParse slot psbt) :
    Sound slot ⟨e, slot.resident⟩ := by
  constructor
  · intro hs
    show e.summary.ownershipChecked = true
    rw [h]
    exact checked_of_signable (h ▸ hs)
  · intro hc
    have hc' : e.summary.ownershipChecked = true := hc
    rw [h] at hc'
    obtain ⟨key, hkey⟩ := resident_of_checked hc'
    exact ⟨key, hkey, hkey⟩

/-- What a setter leaves rests on the key it has put into the slot. -/
theorem sound_enterKey (derived : Except String ExtKey) :
    Sound (enterKey w e derived).2.1
      ⟨(enterKey w e derived).2.2,
        if e.psbt.isSome then (enterKey w e derived).2.1.resident else none⟩ := by
  cases derived with
  | error err =>
    rw [enterKey_error]
    exact sound_of_unchecked rfl rfl
  | ok key =>
    cases hpsbt : e.psbt with
    | none =>
      rw [enterKey_of_unloaded w e key hpsbt]
      exact sound_of_unchecked rfl rfl
    | some psbt =>
      rw [enterKey_of_loaded w e key hpsbt]
      exact sound_of_summarised psbt rfl

end

/-- An engine's own operations keep its verdicts and the key together. -/
theorem sound_step (w : Wally) (s : Session) (before : Option ExtKey) (op : Op)
    (h : Sound s.slot ⟨s.engine, before⟩) :
    Sound (s.step w op).slot ⟨(s.step w op).engine, s.evaluatedWith w before op⟩ := by
  cases op with
  | load path file =>
    show Sound s.slot ⟨(s.engine.load w s.slot path file).2, s.evaluatedWith w before _⟩
    unfold evaluatedWith
    dsimp only
    rcases load_cases w s.engine path file with ⟨err, hl⟩ | ⟨psbt, loose, hl⟩
    · rw [hl s.slot]
      exact sound_of_unchecked rfl rfl
    · rw [hl s.slot]
      exact sound_of_summarised psbt rfl
  | unload => exact sound_of_unchecked rfl rfl
  | setKeyFromMnemonic mnemonic passphrase => exact sound_enterKey _
  | setKeyFromXprv xprv => exact sound_enterKey _
  | clearKey => exact sound_of_unchecked rfl rfl
  | sign =>
    show Sound s.slot ⟨(s.engine.sign w s.slot).2, s.evaluatedWith w before _⟩
    unfold evaluatedWith
    dsimp only
    rcases sign_cases w s.slot s.engine with
      ⟨err, -, hs⟩ | ⟨psbt, key, err, -, -, hs⟩ | ⟨psbt, key, -, -, hs⟩
    · rw [hs]
      exact h
    · -- the PSBT may have changed, the summary and the slot have not
      rw [hs]
      exact ⟨h.signable, h.keyed⟩
    · rw [hs]
      exact sound_of_summarised (w.psbtSignBip32 psbt key).2 rfl
  | writeResult env files dir fileName alsoFinalTx =>
    obtain ⟨findings, hw⟩ := writeResult_engine w s.engine env files dir fileName alsoFinalTx
    show Sound s.slot ⟨(s.engine.writeResult w env files dir fileName alsoFinalTx).engine, before⟩
    rw [hw]
    exact ⟨h.signable, h.keyed⟩

end Session

namespace World

open Session (taprootLibrary taprootPsbt signingGate_taprootPsbt)

/-! ## Every run -/

/-- Engine `i` shows no verdicts, and signs nothing, but with the key that is resident: what
reaches `wally_psbt_sign_bip32` is the key the summary was last evaluated with, and a summary
that shows verdicts was last evaluated with the key that is still there. -/
structure KeyInStep (i : ℕ) (world : World) : Prop where
  signs : ∀ st, world.stations i = some st → ∀ psbt key,
    PsbtEngine.signGate world.slot st.engine = .ok (psbt, key) → st.evaluatedWith = some key
  checked : ∀ st, world.stations i = some st → st.Checked →
    ∃ key, st.evaluatedWith = some key ∧ world.slot.resident = some key

/-- The operation is one of engine `i`, or `i` shows no verdicts, or the operation leaves the
same key resident. -/
def LeavesAlone (w : Wally) (i : ℕ) (world : World) (op : Op) : Prop :=
  op.user = some i ∨ (∀ st, world.stations i = some st → ¬ st.Checked) ∨
    (world.step w op).slot.resident = world.slot.resident

/-- The engine's verdicts rest on the key in the slot. -/
def SoundAt (i : ℕ) (world : World) : Prop :=
  ∀ st, world.stations i = some st → Sound world.slot st

theorem SoundAt.keyInStep {i : ℕ} {world : World} (h : SoundAt i world) : KeyInStep i world := by
  constructor
  · intro st hst psbt key hgate
    -- `sign` gets past its refusals only with signable inputs, which rest on a key
    obtain ⟨-, hkey, -, hsignable⟩ := PsbtEngine.signGate_eq_ok.mp hgate
    obtain ⟨key', hwith, hres⟩ := (h st hst).keyed ((h st hst).signable hsignable)
    rw [hwith, ← hres, hkey]
  · exact fun st hst => (h st hst).keyed

section
variable {w : Wally} {i : ℕ} {world : World} {op : Op}

/-- What an engine does itself keeps its verdicts and the key together. -/
theorem soundAt_step_own (hi : op.user = some i) (h : SoundAt i world) :
    SoundAt i (world.step w op) := by
  intro st hst
  cases op with
  | construct j network =>
    cases hi
    unfold step at hst ⊢
    cases hj : world.stations i with
    | some st' =>
      simp only [hj] at hst ⊢
      exact h st (hj ▸ hst)
    | none =>
      simp only [hj, Function.update_self, Option.some.injEq] at hst ⊢
      rw [← hst]
      exact Session.sound_of_unchecked rfl rfl
  | destruct j =>
    cases hi
    unfold step at hst ⊢
    cases hj : world.stations i with
    | some st' =>
      simp only [hj, Function.update_self, reduceCtorEq] at hst
    | none =>
      simp only [hj, reduceCtorEq] at hst
  | engine j op =>
    cases hi
    cases hj : world.stations i with
    | some st' =>
      rw [step_engine_station hj] at hst ⊢
      have hst' := (Function.update_self i _ world.stations).symm.trans hst
      rw [← Option.some.inj hst']
      exact Session.sound_step w (world.session st') st'.evaluatedWith op (h st' hj)
    | none =>
      unfold step at hst
      simp only [hj, reduceCtorEq] at hst
  | buildWalletExport => cases hi

/-- What anybody else does keeps them together when it leaves the key alone. -/
theorem soundAt_step_other (hi : op.user ≠ some i) (hok : LeavesAlone w i world op)
    (h : SoundAt i world) : SoundAt i (world.step w op) := by
  intro st hst
  rw [step_station_of_ne hi] at hst
  refine ⟨(h st hst).signable, fun hc => ?_⟩
  obtain ⟨key, hwith, hres⟩ := (h st hst).keyed hc
  rcases hok with hown | hunchecked | hsame
  · exact absurd hown hi
  · exact absurd hc (hunchecked st hst)
  · exact ⟨key, hwith, hsame.trans hres⟩

/-- A step that takes the key away leaves verdicts behind it was not made with. -/
theorem not_keyInStep_of_not_leavesAlone (h : SoundAt i world) (hbad : ¬ LeavesAlone w i world op) :
    ¬ KeyInStep i (world.step w op) := by
  unfold LeavesAlone at hbad
  push Not at hbad
  obtain ⟨hi, ⟨st, hst, hc⟩, hchanged⟩ := hbad
  intro hkeep
  obtain ⟨key, hwith, hres⟩ := (h st hst).keyed hc
  -- the engine is untouched, so it would have to rest on the new key as well
  obtain ⟨key', hwith', hres'⟩ := hkeep.checked st (by rw [step_station_of_ne hi, hst]) hc
  have hkey : key = key' := Option.some.inj (hwith.symm.trans hwith')
  exact hchanged (by rw [hres', hres, hkey])

end

/-- In every run of the process: an engine's verdicts and the key stay together throughout
exactly when nobody else changes the resident key while the engine shows verdicts. -/
theorem key_in_step_iff (w : Wally) (i : ℕ) (ops : List Op) :
    (∀ ops', ops' <+: ops → KeyInStep i (Runs.run (step w) start ops'))
      ↔ Runs.Along (step w) (LeavesAlone w i) start ops := by
  refine Runs.throughout_iff_along (I := SoundAt i) (fun _ h => h.keyInStep) ?_
    (fun _ _ h hbad => not_keyInStep_of_not_leavesAlone h hbad) ops (fun st hst => by cases hst)
  intro world op h hok
  by_cases hi : op.user = some i
  · exact soundAt_step_own hi h
  · exact soundAt_step_other hi hok h

/-! ### Two engines, two keys

The second engine puts its key into the slot while the first one shows what the other key has
verified. The first one's next `sign` then signs with the second one's key. -/

def otherKey : ExtKey := { (default : ExtKey) with depth := 1 }

def twoKeyLibrary : Wally :=
  { taprootLibrary with
    bip32KeyFromBase58 := fun xprv => some (if xprv = "xprv" then default else otherKey) }

def twoEngines : List Op :=
  [.construct 0 .mainnet, .construct 1 .mainnet]
    ++ Session.keyedSession.map (.engine 0)
    ++ [.engine 1 (.setKeyFromXprv "another xprv")]

/-- The first engine, once its key is entered. -/
def inspected : PsbtEngine :=
  PsbtEngine.loaded twoKeyLibrary { network := .mainnet } (.hold default) "/data/payment.psbt"
    taprootPsbt false

theorem signed_with_other_key :
    ¬ KeyInStep 0 (Runs.run (step twoKeyLibrary) start twoEngines) := by
  intro hkeep
  have hsafe := (signingGate_iff_summarise .mainnet false).mpr
    (signingGate_taprootPsbt twoKeyLibrary default rfl (by decide) (by decide))
  have hgate : PsbtEngine.signGate (.hold otherKey) inspected = .ok (taprootPsbt, otherKey) :=
    PsbtEngine.signGate_eq_ok.mpr ⟨rfl, rfl, hsafe.1, hsafe.2⟩
  have hsame : some default = some otherKey :=
    hkeep.signs ⟨inspected, some default⟩ rfl taprootPsbt otherKey hgate
  exact absurd (Option.some.inj hsame) (by decide)

end World

end SignerOS
