import SignerOS.Session

/-!
# The signing gate over whole sessions

`sign` checks nothing itself: it reads `safeToSign` and `signableInputs` off the summary. So
the gate holds if these are fresh, for the PSBT held and the key resident, whenever `sign`
is called. Every operation keeps them fresh but one: a `sign` that fails after libwally has
changed the PSBT leaves the summary as it was.

* `GateFresh`, the invariant, and `gateFresh_of_effect`, what a step does to it;
* `sign_guarded_throughout_iff`, the sessions in which the gate holds.
-/

namespace SignerOS

namespace Session

open PsbtEngine

variable {w : Wally} {s s' : Session}

/-! ## The gate -/

/-- libwally is asked to sign only a PSBT and with a key that meet the gate; wherever they do
not meet it, `sign` fails and changes nothing. -/
structure SignGuarded (w : Wally) (s : Session) : Prop where
  called : ∀ psbt key, signGate s.slot s.engine = .ok (psbt, key) →
    s.engine.psbt = some psbt ∧ s.slot.resident = some key ∧ SigningGate w key psbt
  refused : (¬ ∃ psbt key, s.engine.psbt = some psbt ∧ s.slot.resident = some key ∧
    SigningGate w key psbt) → ∃ err, s.engine.sign w s.slot = (.error err, s.engine)

/-- What `sign` reads is what the gate is, for the PSBT held and the key resident. -/
def GateFresh (w : Wally) (s : Session) : Prop :=
  ∀ psbt key, s.engine.psbt = some psbt → s.slot.resident = some key →
    ((s.engine.summary.safeToSign = true ∧ s.engine.summary.signableInputs ≠ 0)
      ↔ SigningGate w key psbt)

/-- A signing call that fails leaves a PSBT that still meets the gate. -/
def KeepsGate (w : Wally) (s : Session) (op : Op) : Prop :=
  op = .sign → ∀ psbt key, signGate s.slot s.engine = .ok (psbt, key) →
    SignFails w psbt key → SigningGate w key (w.psbtSignBip32 psbt key).2

theorem gateFresh_start (network : Network) : GateFresh w (start network) :=
  fun _ _ h => absurd h (by simp [start])

theorem gateFresh_of_effect {op : Op} (h : Effect w s op s') (hs : GateFresh w s)
    (hok : KeepsGate w s op) : GateFresh w s' := by
  intro p k hp hk
  -- without a PSBT or a key there is nothing to show
  cases h with
  | kept findings => exact hs p k hp hk
  | emptied => exact absurd hp (by simp [unload])
  | cleared => exact absurd hk (by simp)
  | keyed key hnone => exact absurd (hnone.symm.trans hp) (by simp)
  | summarised s' psbt hpsbt hsummary =>
    rw [hpsbt, Option.some.injEq] at hp
    subst hp
    rw [hsummary, SecureObject.eq_hold_of_resident hk]
    exact signingGate_iff_summarise _ _
  | mutated psbt key hop hgate hfail =>
    -- the summary still lets `sign` through, so the PSBT left behind has to meet the gate
    obtain ⟨-, hkey, hsafe, hsignable⟩ := signGate_eq_ok.mp hgate
    have hk' : key = k := Option.some.inj (hkey.symm.trans hk)
    have hp' : (w.psbtSignBip32 psbt key).2 = p := Option.some.inj hp
    rw [← hp', ← hk']
    exact iff_of_true ⟨hsafe, hsignable⟩ (hok hop psbt key hgate hfail)

theorem GateFresh.signGuarded (hs : GateFresh w s) : SignGuarded w s := by
  refine ⟨fun psbt key hgate => ?_, fun hnot => ?_⟩
  · obtain ⟨hp, hk, hsafe, hsignable⟩ := signGate_eq_ok.mp hgate
    exact ⟨hp, hk, (hs psbt key hp hk).mp ⟨hsafe, hsignable⟩⟩
  · rcases sign_cases w s.slot s.engine with
      ⟨err, -, h⟩ | ⟨psbt, key, -, hgate, -, -⟩ | ⟨psbt, key, hgate, -, -⟩
    · exact ⟨err, h⟩
    · obtain ⟨hp, hk, hsafe, hsignable⟩ := signGate_eq_ok.mp hgate
      exact absurd ⟨psbt, key, hp, hk, (hs psbt key hp hk).mp ⟨hsafe, hsignable⟩⟩ hnot
    · obtain ⟨hp, hk, hsafe, hsignable⟩ := signGate_eq_ok.mp hgate
      exact absurd ⟨psbt, key, hp, hk, (hs psbt key hp hk).mp ⟨hsafe, hsignable⟩⟩ hnot

/-- After a failed signing call `sign` goes to libwally again, with what the call left. -/
theorem signGate_after_failure {psbt : Psbt} {key : ExtKey}
    (hgate : signGate s.slot s.engine = .ok (psbt, key)) (hfail : SignFails w psbt key) :
    signGate (s.step w .sign).slot (s.step w .sign).engine
      = .ok ((w.psbtSignBip32 psbt key).2, key) := by
  show signGate s.slot (s.engine.sign w s.slot).2 = _
  rcases sign_cases w s.slot s.engine with
    ⟨err, hgate', -⟩ | ⟨p, k, err, hgate', -, h⟩ | ⟨p, k, hgate', hfail', -⟩
  · exact absurd (hgate'.symm.trans hgate) (by simp)
  · obtain ⟨rfl, rfl⟩ := Prod.mk.inj (Except.ok.inj (hgate'.symm.trans hgate))
    obtain ⟨-, hkey, hsafe, hsignable⟩ := signGate_eq_ok.mp hgate
    rw [h]
    exact signGate_eq_ok.mpr ⟨rfl, hkey, hsafe, hsignable⟩
  · obtain ⟨rfl, rfl⟩ := Prod.mk.inj (Except.ok.inj (hgate'.symm.trans hgate))
    exact absurd hfail hfail'

/-- A failing call that leaves a PSBT outside the gate leaves the gate open for it. -/
theorem not_signGuarded_of_not_keepsGate {op : Op} (h : ¬ KeepsGate w s op) :
    ¬ SignGuarded w (s.step w op) := by
  unfold KeepsGate at h
  push Not at h
  obtain ⟨rfl, psbt, key, hgate, hfail, hbad⟩ := h
  exact fun hguard => hbad (hguard.called _ _ (signGate_after_failure hgate hfail)).2.2

/-- The gate holds in every state of a session exactly when every signing call in it that
fails leaves a PSBT that still meets the gate. -/
theorem sign_guarded_throughout_iff (w : Wally) (network : Network) (ops : List Op) :
    (∀ ops', ops' <+: ops → SignGuarded w (Runs.run (step w) (start network) ops'))
      ↔ Runs.Along (step w) (KeepsGate w) (start network) ops :=
  Runs.throughout_iff_along (I := GateFresh w) (fun _ hs => hs.signGuarded)
    (fun s op hs hok => gateFresh_of_effect (step_effect w s op) hs hok)
    (fun _ _ _ h => not_signGuarded_of_not_keepsGate h) ops (gateFresh_start network)

/-! ### A signing call that fails after signing

The PSBT has one taproot input. libwally signs it, keeps the signature among the input's
`psbt_fields`, and afterwards finds nothing left to sign in it. `sign` counts only
`signatures`, so it reports a failure and leaves the summary saying that one input can be
signed. -/

def kPsbtInTapKeySig : UInt32 := 0x13

/-- A P2TR script. -/
def taprootScript : Bytes := 0x51 :: 0x20 :: List.replicate 32 0x02

def paymentTx : Tx where
  version := 2
  locktime := 0
  inputs := [⟨.replicate 32 0, 0, 0xfffffffd, [], []⟩]
  outputs := [⟨900, taprootScript⟩]

/-- A derivation `m/0` under some master. -/
def someKeypath : KeypathItem := ⟨List.replicate 32 0x02, some #v[0xd3, 0x4d, 0xb3, 0x3f], some [0]⟩

def taprootPsbt : Psbt where
  version := 0
  tx := some paymentTx
  inputs := [{ witnessUtxo := some ⟨1000, taprootScript⟩, taprootLeafPaths := [someKeypath] }]
  outputs := [{}]

/-- The input with a taproot key-path signature. -/
def tapSigned (inp : PsbtInput) : PsbtInput :=
  { inp with psbtFields := inp.psbtFields ++ [(kPsbtInTapKeySig, [0x01])] }

def taprootLibrary : Wally :=
  { Wally.failing with
    psbtFromBase64 := fun _ _ => some taprootPsbt
    psbtExtract := fun _ _ => some paymentTx
    bip32KeyFromBase58 := fun _ => some default
    psbtGetInputBip32KeyFrom := fun psbt i key =>
      if psbt.inputs[i]?.any (·.psbtFields.isEmpty) then some key else none
    psbtSignBip32 := fun psbt _ => (wallyOk, { psbt with inputs := psbt.inputs.map tapSigned }) }

/-- The PSBT is loaded and the key entered. -/
def keyedSession : List Op :=
  [.load "/data/payment.psbt" (.regular 4 [.data [0x41, 0x41, 0x41, 0x41]]),
    .setKeyFromXprv "xprv"]

/-- The taproot PSBT passes the gate under every key with which its input is signable. -/
theorem signingGate_taprootPsbt (w : Wally) (key : ExtKey)
    (hx : w.psbtExtract taprootPsbt .nonFinal = some paymentTx)
    (hfinal : isFinalised w taprootPsbt = false)
    (hsign : inputSignable w key taprootPsbt 0 = true) :
    SigningGate w key taprootPsbt := by
  refine ⟨⟨paymentTx, hx, ?_, fun key _ i po out hpo _ _ => ?_⟩, 0, by decide, hsign⟩
  · exact ⟨by decide, by decide, hfinal, by decide, by decide, _, List.mem_singleton_self _, rfl⟩
  · have hpo' : po = {} := List.mem_singleton.mp (List.mem_of_getElem? hpo)
    subst hpo'
    exact fun h => absurd (h.symm.trans rfl : OutputOwnership.mismatch = .thirdParty) (by decide)

/-- The next `sign` asks libwally to sign a PSBT in which nothing can be signed. -/
theorem stale_gate_after_failed_sign :
    ¬ SignGuarded taprootLibrary
      (Runs.run (step taprootLibrary) (start .mainnet) (keyedSession ++ [.sign])) := by
  rw [Runs.run_append, Runs.run_cons, Runs.run_nil]
  -- the gate is open before the call, which signs, reports nothing, and signs all there was
  refine not_signGuarded_of_not_keepsGate fun hkeeps => ?_
  have hfresh := (signingGate_iff_summarise .mainnet false).mpr
    (signingGate_taprootPsbt taprootLibrary default rfl (by decide) (by decide))
  have hgate := hkeeps rfl taprootPsbt default
    (signGate_eq_ok.mpr ⟨rfl, rfl, hfresh.1, hfresh.2⟩) (Or.inr (by decide))
  obtain ⟨-, i, hi, hsignable⟩ := hgate
  have h0 : i = 0 := Nat.lt_one_iff.mp hi
  subst h0
  exact absurd hsignable (by decide)

end Session

end SignerOS
