import SignerOS.Writers
import SignerOS.Gate
import SignerOS.Lib.Runs

/-!
# Sessions

A `PsbtEngine` that alone uses the process's key slot, and the operations a screen performs
on it. Each operation gets a lemma that says all it can do; the invariants of whole runs
rest on these and never look into the operations again.
-/

namespace SignerOS

/-- The engine, and the key slot it uses. -/
structure Session where
  slot : KeySlot
  engine : PsbtEngine

namespace Session

/-- A freshly constructed engine, in a process that holds no key. -/
def start (network : Network) : Session := ⟨.clear, { network := network }⟩

/-- The public operations of `PsbtEngine`, with what they are given from outside. -/
inductive Op
  | load (path : String) (file : FileNode)
  | unload
  | setKeyFromMnemonic (mnemonic passphrase : String)
  | setKeyFromXprv (xprv : String)
  | clearKey
  | sign
  | writeResult (env : PsbtEngine.WriteEnv) (files : Files.Disk Char) (dir fileName : String)
      (alsoFinalTx : Bool)

/-- What a setter derives from what is typed: a key, or the error it gives. -/
def Op.derived (w : Wally) (network : Network) : Op → Option (Except String ExtKey)
  | .setKeyFromMnemonic mnemonic passphrase =>
    some (PsbtEngine.masterFromMnemonic w network mnemonic passphrase)
  | .setKeyFromXprv xprv => some (PsbtEngine.masterFromXprv w xprv)
  | _ => none

/-- One operation. -/
def step (w : Wally) (s : Session) : Op → Session
  | .load path file => { s with engine := (s.engine.load w s.slot path file).2 }
  | .unload => { s with engine := s.engine.unload }
  | .setKeyFromMnemonic mnemonic passphrase =>
    let (_, slot, engine) := s.engine.setKeyFromMnemonic w mnemonic passphrase
    ⟨slot, engine⟩
  | .setKeyFromXprv xprv =>
    let (_, slot, engine) := s.engine.setKeyFromXprv w xprv
    ⟨slot, engine⟩
  | .clearKey =>
    let (slot, engine) := s.engine.clearKey
    ⟨slot, engine⟩
  | .sign => { s with engine := (s.engine.sign w s.slot).2 }
  | .writeResult env files dir fileName alsoFinalTx =>
    { s with engine := (s.engine.writeResult w env files dir fileName alsoFinalTx).engine }

end Session

/-! ## What each operation can do -/

namespace PsbtEngine

section
variable (w : Wally) (e : PsbtEngine)

/-- The engine a successful `load` leaves. -/
def loaded (slot : KeySlot) (path : String) (psbt : Psbt) (loose : Bool) : PsbtEngine :=
  { network := e.network
    psbt := some psbt
    sourcePath := path
    sourceName := baseName path
    summary := summarise w e.network loose slot psbt
    looseParse := loose }

/-- `load` leaves nothing loaded, or the parsed PSBT with a summary made with the key that is
resident. Which of the two, and the PSBT, do not depend on the key. -/
theorem load_cases (path : String) (file : FileNode) :
    (∃ err, ∀ slot, load w slot e path file = (.error err, e.unload)) ∨
      ∃ psbt loose, ∀ slot, load w slot e path file
        = (.ok (), e.loaded w slot path psbt loose) := by
  unfold load
  dsimp only
  cases readFileCapped path kMaxPsbtBytes file with
  | error err => exact Or.inl ⟨err, fun _ => rfl⟩
  | ok raw =>
    dsimp only
    cases raw.isEmpty with
    | true => exact Or.inl ⟨_, fun _ => rfl⟩
    | false =>
      cases parse w raw with
      | error err => exact Or.inl ⟨err, fun _ => rfl⟩
      | ok found => exact Or.inr ⟨found.1, found.2, fun _ => rfl⟩

/-- A setter that fails leaves the slot and the summary cleared. -/
theorem enterKey_error (err : String) :
    enterKey w e (.error err) = (.error err, .clear, e.clearKey.2) := rfl

/-- Without a PSBT there is nothing to summarise with the key. -/
theorem enterKey_of_unloaded (key : ExtKey) (h : e.psbt = none) :
    enterKey w e (.ok key) = (.ok (), .hold key, e.clearKey.2) := by
  simp [enterKey, clearKey, h]

/-- The PSBT that is held is summarised with the key. -/
theorem enterKey_of_loaded (key : ExtKey) {psbt : Psbt} (h : e.psbt = some psbt) :
    enterKey w e (.ok key) = (.ok (), .hold key,
      { e with summary := summarise w e.network e.looseParse (.hold key) psbt }) := by
  simp [enterKey, clearKey, resummarise, h]

/-- The refusals of `sign` are over exactly here. -/
theorem signGate_eq_ok {slot : KeySlot} {e : PsbtEngine} {psbt : Psbt} {key : ExtKey} :
    signGate slot e = .ok (psbt, key) ↔
      e.psbt = some psbt ∧ slot.resident = some key ∧ e.summary.safeToSign = true ∧
        e.summary.signableInputs ≠ 0 := by
  unfold signGate
  rw [SecureObject.resident_eq_some]
  cases e.psbt with
  | none => simp
  | some p =>
    cases slot.valid <;> cases e.summary.safeToSign <;>
      by_cases hn : e.summary.signableInputs = 0 <;> simp [hn]

/-- libwally reports a failure, or has added no signature `sign` counts. -/
def SignFails (psbt : Psbt) (key : ExtKey) : Prop :=
  (w.psbtSignBip32 psbt key).1 ≠ wallyOk ∨
    countSignatures (w.psbtSignBip32 psbt key).2 ≤ countSignatures psbt

/-- `sign` refuses and changes nothing, fails with the PSBT as libwally left it, or succeeds
and summarises it afresh. -/
theorem sign_cases (w : Wally) (slot : KeySlot) (e : PsbtEngine) :
    (∃ err, signGate slot e = .error err ∧ sign w slot e = (.error err, e)) ∨
      (∃ psbt key err, signGate slot e = .ok (psbt, key) ∧ SignFails w psbt key ∧
        sign w slot e = (.error err, { e with psbt := some (w.psbtSignBip32 psbt key).2 })) ∨
      ∃ psbt key, signGate slot e = .ok (psbt, key) ∧ ¬ SignFails w psbt key ∧
        sign w slot e =
          (.ok (countSignatures (w.psbtSignBip32 psbt key).2 - countSignatures psbt),
            { e with
              psbt := some (w.psbtSignBip32 psbt key).2
              summary :=
                summarise w e.network e.looseParse slot (w.psbtSignBip32 psbt key).2 }) := by
  unfold sign SignFails
  cases hg : signGate slot e with
  | error err => exact Or.inl ⟨err, rfl, rfl⟩
  | ok found =>
    obtain ⟨psbt, key⟩ := found
    dsimp only
    by_cases hrc : (w.psbtSignBip32 psbt key).1 = wallyOk
    · rw [if_neg (not_not.mpr hrc)]
      by_cases hn : countSignatures (w.psbtSignBip32 psbt key).2 ≤ countSignatures psbt
      · rw [if_pos hn]
        exact Or.inr (Or.inl ⟨psbt, key, _, rfl, Or.inr hn, rfl⟩)
      · rw [if_neg hn]
        exact Or.inr (Or.inr ⟨psbt, key, rfl, fun h => h.elim (· hrc) hn, rfl⟩)
    · rw [if_pos hrc]
      exact Or.inr (Or.inl ⟨psbt, key, _, rfl, Or.inl hrc, rfl⟩)

/-- The engine with other findings in its summary. -/
def withFindings (e : PsbtEngine) (findings : List Finding) : PsbtEngine :=
  { e with summary := { e.summary with findings := findings } }

/-- `writeResult` adds a finding at most. -/
theorem writeResult_engine (env : WriteEnv) (files : Files.Disk Char) (dir fileName : String)
    (alsoFinalTx : Bool) :
    ∃ findings, (writeResult w env files e dir fileName alsoFinalTx).engine
      = e.withFindings findings := by
  unfold writeResult
  cases hp : e.psbt with
  | none => exact ⟨e.summary.findings, rfl⟩
  | some psbt =>
    dsimp only
    cases resultPayload w psbt with
    | none => exact ⟨e.summary.findings, rfl⟩
    | some payload =>
      dsimp only
      split
      · exact ⟨e.summary.findings, rfl⟩
      · split
        · dsimp only
          split
          · exact ⟨e.summary.findings ++ [clockFinding], by rw [withFindings, hp]⟩
          · exact ⟨e.summary.findings, rfl⟩
        · exact ⟨e.summary.findings, rfl⟩

end

end PsbtEngine

/-! ## What a step can do -/

namespace Session

open PsbtEngine

/-- Everything a step can do to a session. -/
inductive Effect (w : Wally) (s : Session) (op : Op) : Session → Prop
  /-- Nothing but the findings changes. -/
  | kept (findings : List Finding) :
    Effect w s op { s with engine := s.engine.withFindings findings }
  /-- Nothing is loaded any more. -/
  | emptied : Effect w s op { s with engine := s.engine.unload }
  /-- The key is gone, and the summary is the cleared one. -/
  | cleared : Effect w s op ⟨.clear, s.engine.clearKey.2⟩
  /-- There is a key, and no PSBT to summarise with it. -/
  | keyed (key : ExtKey) (h : s.engine.psbt = none) :
    Effect w s op ⟨.hold key, s.engine.clearKey.2⟩
  /-- The summary is that of the PSBT held under the key that is resident. -/
  | summarised (s' : Session) (psbt : Psbt) (hpsbt : s'.engine.psbt = some psbt)
    (hsummary : s'.engine.summary
      = summarise w s'.engine.network s'.engine.looseParse s'.slot psbt) : Effect w s op s'
  /-- A signing call failed: the PSBT is what libwally left, the summary what it was. -/
  | mutated (psbt : Psbt) (key : ExtKey) (hop : op = .sign)
    (hgate : signGate s.slot s.engine = .ok (psbt, key)) (hfail : SignFails w psbt key) :
    Effect w s op
      { s with engine := { s.engine with psbt := some (w.psbtSignBip32 psbt key).2 } }

/-- A setter goes through `enterKey`. -/
theorem step_of_derived {w : Wally} {s : Session} {op : Op} {derived : Except String ExtKey}
    (h : op.derived w s.engine.network = some derived) :
    s.step w op = ⟨(enterKey w s.engine derived).2.1, (enterKey w s.engine derived).2.2⟩ := by
  cases op with
  | setKeyFromMnemonic mnemonic passphrase =>
    rw [← Option.some.inj h]
    rfl
  | setKeyFromXprv xprv =>
    rw [← Option.some.inj h]
    rfl
  | load => cases h
  | unload => cases h
  | clearKey => cases h
  | sign => cases h
  | writeResult => cases h

/-- Whatever key a setter ends up with, it has one of these effects. -/
theorem enterKey_effect (w : Wally) (s : Session) (op : Op) (derived : Except String ExtKey) :
    Effect w s op
      ⟨(enterKey w s.engine derived).2.1, (enterKey w s.engine derived).2.2⟩ := by
  cases derived with
  | error err =>
    -- the setter has cleared the key before it knew
    rw [enterKey_error]
    exact .cleared
  | ok key =>
    cases hpsbt : s.engine.psbt with
    | none =>
      rw [enterKey_of_unloaded w s.engine key hpsbt]
      exact .keyed key hpsbt
    | some psbt =>
      rw [enterKey_of_loaded w s.engine key hpsbt]
      exact .summarised _ psbt hpsbt rfl

theorem step_effect (w : Wally) (s : Session) (op : Op) : Effect w s op (s.step w op) := by
  cases op with
  | load path file =>
    show Effect w s _ { s with engine := (s.engine.load w s.slot path file).2 }
    rcases load_cases w s.engine path file with ⟨err, h⟩ | ⟨psbt, loose, h⟩
    · rw [h]
      exact .emptied
    · rw [h]
      exact .summarised _ psbt rfl rfl
  | unload => exact .emptied
  | setKeyFromMnemonic mnemonic passphrase => exact enterKey_effect w s _ _
  | setKeyFromXprv xprv => exact enterKey_effect w s _ _
  | clearKey => exact .cleared
  | sign =>
    show Effect w s _ { s with engine := (s.engine.sign w s.slot).2 }
    rcases sign_cases w s.slot s.engine with
      ⟨err, hgate, h⟩ | ⟨psbt, key, err, hgate, hfail, h⟩ | ⟨psbt, key, hgate, hfail, h⟩
    · rw [h]
      exact .kept s.engine.summary.findings
    · rw [h]
      exact .mutated psbt key rfl hgate hfail
    · rw [h]
      exact .summarised _ _ rfl rfl
  | writeResult env files dir fileName alsoFinalTx =>
    show Effect w s _
      { s with engine := (s.engine.writeResult w env files dir fileName alsoFinalTx).engine }
    obtain ⟨findings, h⟩ :=
      writeResult_engine w s.engine env files dir fileName alsoFinalTx
    rw [h]
    exact .kept findings

end Session

end SignerOS
