import SignerOS.SelfTestTheorems

/-!
# How a self-test ends

`runSelfTest_ends`. The parts of the test are taken one by one, each by what it needs and what it
leaves: the slot and the disk, and what is known by then of the PSBT and the key. What a failure may
say is `Failure.Possible`; what a PASS says is `Passed`.
-/

namespace SignerOS.SelfTest

open Files (Disk AddsOnly Creates Stops)
open Fallible

/-! ## The key and the summary -/

/-- With a key the gate is open for what was safe without one, unless an output is forged. -/
theorem safeToSign_withKey_iff {w : Wally} {network : Network} {loose : Bool} {key : ExtKey}
    {psbt : Psbt} :
    (summarise w network loose (.hold key) psbt).safeToSign = true ↔
      SafeGate w none psbt ∧
        ∀ out ∈ (summarise w network loose (.hold key) psbt).outputs,
          out.ownership ≠ .mismatch := by
  rw [safeToSign_summarise_iff, SecureObject.resident_hold]
  unfold SafeGate
  cases hx : w.psbtExtract psbt .nonFinal with
  | none => simp
  | some tx =>
    rw [summarise_of_extract hx, deriveFindings_eq]
    dsimp only
    rw [no_mismatch_iff]
    simp

/-- The errors of a signing the gate lets through. -/
def SignError (err : String) : Prop :=
  (∃ rc : ℤ, err = "libwally rejected the signing operation (error " ++ toString rc ++ ")") ∨
    err = "no signature was added. The key derives to public keys that "
      ++ "do not appear in this PSBT's derivation paths."

theorem signError_of_gate {w : Wally} {slot : KeySlot} {e e' : PsbtEngine} {psbt : Psbt}
    {key : ExtKey} {err : String} (hgate : PsbtEngine.signGate slot e = .ok (psbt, key))
    (h : e.sign w slot = (.error err, e')) : SignError err := by
  unfold PsbtEngine.sign at h
  rw [hgate] at h
  dsimp only at h
  split at h
  · exact .inl ⟨_, (Except.error.inj (Prod.mk.inj h).1).symm⟩
  · split at h
    · exact .inr (Except.error.inj (Prod.mk.inj h).1).symm
    · exact absurd (Prod.mk.inj h).1 (by simp)

/-- A signing the gate does not let through changes nothing. -/
theorem sign_of_not_safe (w : Wally) (slot : KeySlot) {e : PsbtEngine}
    (h : e.summary.safeToSign = false) : ∃ err, e.sign w slot = (.error err, e) := by
  have hclosed (psbt : Psbt) (key : ExtKey)
      (hgate : PsbtEngine.signGate slot e = .ok (psbt, key)) : False := by
    rw [(PsbtEngine.signGate_eq_ok.mp hgate).2.2.1] at h
    cases h
  rcases PsbtEngine.sign_cases w slot e with
    ⟨err, -, hsign⟩ | ⟨psbt, key, -, hgate, -⟩ | ⟨psbt, key, hgate, -⟩
  · exact ⟨err, hsign⟩
  · exact (hclosed psbt key hgate).elim
  · exact (hclosed psbt key hgate).elim

/-! ## What is left on the disk -/

section
variable {w : Wally} {env : PsbtEngine.WriteEnv} {files : Disk Char} {e : PsbtEngine}
  {dir fileName : String} {alsoFinalTx : Bool}

open PsbtEngine (writeResult resultPath txPathOf pendingPayload writeTx)

variable (env files dir fileName) in
/-- Where a result may add a file. -/
def MayWrite (path : String) : Prop :=
  path = resultPath env files dir fileName ∨ path = txPathOf env files dir fileName

variable (env files dir fileName alsoFinalTx) in
/-- What a result leaves that is written. -/
structure WrittenAs (payload : String) (out : PsbtEngine.WriteOutcome) : Prop where
  psbtPath : out.psbtPath = some (resultPath env files dir fileName)
  free : files (resultPath env files dir fileName) = none
  content : out.files (resultPath env files dir fileName) = some (.file payload.toList)
  adds : AddsOnly (MayWrite env files dir fileName) files out.files
  tx : ∀ path, out.txPath = some path →
    path = txPathOf env files dir fileName ∧ files path = none
  withoutTx : alsoFinalTx = false → out.txPath = none ∧
    out.files = Function.update files (resultPath env files dir fileName)
      (some (.file payload.toList))

theorem writeResult_mayWrite : AddsOnly (MayWrite env files dir fileName) files
    (writeResult w env files e dir fileName alsoFinalTx).files :=
  (writeResult_addsOnly alsoFinalTx (.inl rfl) (.inr rfl)).1

/-- A result that is written was created and filled. -/
theorem filled_of_ok (h : (writeResult w env files e dir fileName alsoFinalTx).result = .ok ()) :
    ∃ payload, pendingPayload w e = some payload ∧
      Creates files (resultPath env files dir fileName) env.psbtFile ∧
      ¬ Stops payload.toList.length env.psbtFile := by
  by_cases hc : ∃ payload, pendingPayload w e = some payload ∧
      Creates files (resultPath env files dir fileName) env.psbtFile
  · obtain ⟨payload, hpay, hc⟩ := hc
    refine ⟨payload, hpay, hc, ?_⟩
    intro hs
    obtain ⟨⟨err, herr⟩, -⟩ :=
      PsbtEngine.writeResult_of_stopped alsoFinalTx ⟨payload, hpay, hc, hs⟩
    rw [herr] at h
    cases h
  · obtain ⟨⟨err, herr⟩, -⟩ := PsbtEngine.writeResult_of_not_created (w := w) (e := e) alsoFinalTx
      fun payload hpay hcreates => hc ⟨payload, hpay, hcreates⟩
    rw [herr] at h
    cases h

theorem writtenAs_of_ok
    (h : (writeResult w env files e dir fileName alsoFinalTx).result = .ok ()) :
    ∃ payload, pendingPayload w e = some payload ∧
      WrittenAs env files dir fileName alsoFinalTx payload
        (writeResult w env files e dir fileName alsoFinalTx) := by
  obtain ⟨payload, hpay, hc, hs⟩ := filled_of_ok h
  refine ⟨payload, hpay, ?_⟩
  obtain ⟨psbt, -, -, hpath, hrest⟩ :=
    PsbtEngine.writeResult_of_filled alsoFinalTx hpay hc hs
  have hadds : AddsOnly (MayWrite env files dir fileName) files
      (writeResult w env files e dir fileName alsoFinalTx).files := writeResult_mayWrite
  generalize writeResult w env files e dir fileName alsoFinalTx = out at hpath hrest hadds
  have hnone (htx : out.txPath = none) (path : String) (hpath : out.txPath = some path) :
      path = txPathOf env files dir fileName ∧ files path = none := by
    rw [htx] at hpath
    cases hpath
  cases alsoFinalTx with
  | false =>
    obtain ⟨htx, hfiles⟩ := Prod.mk.inj hrest
    refine ⟨hpath, hc.1, ?_, hadds, hnone htx, fun _ => ⟨htx, hfiles⟩⟩
    rw [hfiles, Function.update_self]
  | true =>
    have hne : resultPath env files dir fileName ≠
        pathIn dir (txNameOf (PsbtEngine.resultName files env.laterClock dir fileName)) :=
      PsbtEngine.txPathOf_ne.symm
    rw [if_pos rfl] at hrest
    rcases PsbtEngine.writeTx_cases (w := w) psbt dir
        (PsbtEngine.resultName files env.laterClock dir fileName) env.txFile
        (Function.update files (resultPath env files dir fileName)
          (some (Files.Node.file payload.toList))) with
      ⟨hcase, -⟩ | ⟨tx, -, hctx, -, hcase⟩ | ⟨tx, content, -, hctx, -, hcase⟩
    all_goals
      rw [hcase] at hrest
      obtain ⟨htx, hfiles⟩ := Prod.mk.inj hrest
    · refine ⟨hpath, hc.1, ?_, hadds, hnone htx, fun h => by cases h⟩
      rw [hfiles, Function.update_self]
    · have hfree := (PsbtEngine.creates_txPathOf_update _ _).mp hctx
      refine ⟨hpath, hc.1, ?_, hadds, ?_, fun h => by cases h⟩
      · rw [hfiles, Function.update_of_ne hne, Function.update_self]
      · intro path hpath
        rw [htx] at hpath
        obtain rfl := Option.some.inj hpath
        exact ⟨rfl, hfree.1⟩
    -- the transaction was cut short: it is there, and not reported
    · refine ⟨hpath, hc.1, ?_, hadds, hnone htx, fun h => by cases h⟩
      rw [hfiles, Function.update_of_ne hne, Function.update_self]

theorem addsOnly_unlink {P : String → Prop} {t t' : Disk Char} (h : AddsOnly P t t')
    {path : String} (hfree : t path = none) : AddsOnly P t (t'.unlink path) := by
  intro other
  by_cases hother : other = path
  · subst hother
    exact .inl (by rw [Disk.unlink, Function.update_self, hfree])
  · rw [Disk.unlink, Function.update_of_ne hother]
    exact h other

namespace WrittenAs

variable {payload : String} {out : PsbtEngine.WriteOutcome}
  (h : WrittenAs env files dir fileName alsoFinalTx payload out)
include h

theorem unlinkOutput_adds : AddsOnly (MayWrite env files dir fileName) files
    (unlinkOutput (resultPath env files dir fileName) out.txPath out.files) := by
  have hpsbt := addsOnly_unlink h.adds h.free
  unfold unlinkOutput
  cases htx : out.txPath with
  | none => exact hpsbt
  | some path => exact addsOnly_unlink hpsbt (h.tx path htx).2

theorem unlinkOutput_gone :
    unlinkOutput (resultPath env files dir fileName) out.txPath out.files
      (resultPath env files dir fileName) = none := by
  unfold unlinkOutput
  have hgone : out.files.unlink (resultPath env files dir fileName)
      (resultPath env files dir fileName) = none := Function.update_self _ _ _
  cases htx : out.txPath with
  | none => exact hgone
  | some path =>
    dsimp only
    obtain ⟨rfl, -⟩ := h.tx path htx
    rwa [Disk.unlink, Function.update_of_ne PsbtEngine.txPathOf_ne.symm]

/-- Without a transaction nothing is left. -/
theorem unlinkOutput_eq (hno : alsoFinalTx = false) :
    unlinkOutput (resultPath env files dir fileName) out.txPath out.files = files := by
  obtain ⟨htx, hfiles⟩ := h.withoutTx hno
  rw [htx, hfiles, unlinkOutput, Disk.unlink, Function.update_idem, ← h.free,
    Function.update_eq_self]

end WrittenAs

end

/-! ## Reasons and outcomes -/

section
variable (w : Wally) (lib : Bip39) (hmac : Digest → Bytes → Option Digest) (opt : SelfTestOptions)
  (o : Outside)

/-- The reasons a self-test can fail for, whatever the library, the machine and the files do. The
others would be the program's own fault. -/
def Failure.Possible : Failure → Prop
  | .library => o.wallyInit = false
  | .unknownNetwork network => network = opt.network ∧ networkFromString network = none
  | .noCandidate dir => dir = opt.dataDir ∧ opt.psbtPath = "" ∧
    ∀ f ∈ listPsbtFiles dir o.entries, f.isSignerOutput = true
  | .noMnemonicFile => opt.mnemonicFile = ""
  | .mnemonicFile err => readMnemonicFile opt.mnemonicFile o.mnemonicFile = .error err
  | .grid err => GridError w err
  | .fileNames err => FileNameError err
  | .entropy err => EntropyError w lib hmac err
  | .wallet why | .walletOfAccountOne why => why.Possible
  | .sign err => SignError err
  | .forgeryNotBlocked | .forgerySigned | .refusedWithKey _ | .noSignature | .outputMissing => False
  | _ => True

/-- A failure before anything is written. -/
def FailsEarly (files : Disk Char) (why : Failure) (m : Machine) : Prop :=
  why.Possible w lib hmac opt o ∧ m.files = files

/-- The engine of a test on this network reads this PSBT from the file. -/
def Loads (net : Network) (slot : KeySlot) (path : String) (file : FileNode) (psbt : Psbt)
    (loose : Bool) : Prop :=
  ({ network := net } : PsbtEngine).load w slot path file =
    (.ok (), ({ network := net } : PsbtEngine).loaded w slot path psbt loose)

/-- The engine holds this PSBT, with a summary made with this slot. -/
structure Holding (net : Network) (loose : Bool) (psbt : Psbt) (slot : KeySlot)
    (e : PsbtEngine) : Prop where
  network_eq : e.network = net
  looseParse_eq : e.looseParse = loose
  psbt_eq : e.psbt = some psbt
  summary_eq : e.summary = summarise w net loose slot psbt

/-- The forged file has an output that is not what it claims, and is not signed. -/
def ForgeryBlocked (net : Network) (mnemonic : SecureString) : Prop :=
  ∃ psbt loose key, Loads w net .clear opt.blockedPsbtPath o.blockedFile psbt loose ∧
    PsbtEngine.masterFromMnemonic w net (cStr mnemonic.text) "" = .ok key ∧
    (∃ out ∈ (summarise w net loose (.hold key) psbt).outputs, out.ownership = .mismatch) ∧
    ¬ SigningGate w key psbt

/-- The PSBT is one the gate lets through for the key of the mnemonic, and is signed with it. -/
structure Signed (net : Network) (mnemonic : SecureString) (loose : Bool) (psbt signed : Psbt)
    (key : ExtKey) : Prop where
  key_eq : PsbtEngine.masterFromMnemonic w net (cStr mnemonic.text) "" = .ok key
  gate : SigningGate w key psbt
  call : w.psbtSignBip32 psbt key = (wallyOk, signed)
  added : PsbtEngine.countSignatures psbt < PsbtEngine.countSignatures signed
  txid : (summarise w net loose (.hold key) signed).txid =
    (summarise w net loose (.hold key) psbt).txid

/-- The result is read back, with the transaction that was signed and no fewer signatures. -/
def ReadsBack (net : Network) (key : ExtKey) (path txid : String) (added : ℕ) : Prop :=
  ∃ psbt loose, Loads w net (.hold key) path o.readBack psbt loose ∧
    added ≤ ((summarise w net loose (.hold key) psbt).inputs.map InputInfo.existingSignatures).sum ∧
    (summarise w net loose (.hold key) psbt).txid = txid

/-- The PSBT that is named, or one that is listed and is not a result. -/
def Located (path : String) : Prop :=
  if opt.psbtPath ≠ "" then path = opt.psbtPath
  else ∃ f ∈ listPsbtFiles opt.dataDir o.entries, f.isSignerOutput = false ∧ f.path = path

/-- The path of the result. -/
def outPath (files : Disk Char) : String :=
  PsbtEngine.resultPath o.write files opt.dataDir ""

/-- Where a self-test may add a file. -/
def MayAdd (files : Disk Char) : String → Prop := MayWrite o.write files opt.dataDir ""

/-- A failure, after which every file that was there is as it was. -/
def Fails (files : Disk Char) (why : Failure) (m : Machine) : Prop :=
  why.Possible w lib hmac opt o ∧ AddsOnly (MayAdd opt o files) files m.files

/-- The disk after a self-test that passes. -/
structure Left (payload : String) (files files' : Disk Char) : Prop where
  free : files (outPath opt o files) = none
  adds : AddsOnly (MayAdd opt o files) files files'
  kept : opt.keepOutput = true → files' (outPath opt o files) = some (.file payload.toList)
  removed : opt.keepOutput = false → files' (outPath opt o files) = none
  restored : opt.keepOutput = false → opt.writeFinalTx = false → files' = files

section
variable {opt : SelfTestOptions} {o : Outside} {files : Disk Char} {payload : String}
  {out : PsbtEngine.WriteOutcome}

theorem WrittenAs.left_of_kept
    (h : WrittenAs o.write files opt.dataDir "" opt.writeFinalTx payload out)
    (hkeep : opt.keepOutput = true) : Left opt o payload files out.files where
  free := h.free
  adds := h.adds
  kept _ := h.content
  removed hno := by rw [hkeep] at hno; cases hno
  restored hno := by rw [hkeep] at hno; cases hno

theorem WrittenAs.left_of_removed
    (h : WrittenAs o.write files opt.dataDir "" opt.writeFinalTx payload out)
    (hkeep : opt.keepOutput = false) :
    Left opt o payload files (unlinkOutput (outPath opt o files) out.txPath out.files) where
  free := h.free
  adds := h.unlinkOutput_adds
  kept hyes := by rw [hkeep] at hyes; cases hyes
  removed _ := h.unlinkOutput_gone
  restored _ hno := h.unlinkOutput_eq hno

end

/-- What a PASS says: the PSBT was let through and signed with the key of the mnemonic, the forged
one was not, and what was signed is what was written and what is read back. -/
def Passed (files files' : Disk Char) : Prop :=
  ∃ net path mnemonic loose psbt signed key payload,
    networkFromString opt.network = some net ∧ Located opt o path ∧
    Loads w net .clear path o.psbtFile psbt loose ∧
    readMnemonicFile opt.mnemonicFile o.mnemonicFile = .ok mnemonic ∧
    (opt.blockedPsbtPath ≠ "" → ForgeryBlocked w opt o net mnemonic) ∧
    Signed w net mnemonic loose psbt signed key ∧
    PsbtEngine.resultPayload w signed = some payload ∧
    ReadsBack w o net key (outPath opt o files) (summarise w net loose (.hold key) psbt).txid
      (PsbtEngine.countSignatures signed - PsbtEngine.countSignatures psbt) ∧
    Left opt o payload files files'

end

/-! ## The parts -/

section
variable {slot : KeySlot} {files : Disk Char} {E : Failure → Machine → Prop}

theorem load_spec {w : Wally} {net : Network} {path : String} {file : FileNode}
    {why : String → Failure} (hE : ∀ err m, On slot files m → E (why err) m) :
    Triple (On slot files) (load w { network := net } path file why)
      (fun e m => ∃ psbt loose, (Loads w net slot path file psbt loose ∧
        Holding w net loose psbt slot e) ∧ On slot files m) E := by
  intro m hm
  unfold load
  rw [hm.1]
  rcases PsbtEngine.load_cases w { network := net } path file with ⟨err, h⟩ | ⟨psbt, loose, h⟩
  · rw [h slot]
    exact .error (hE err m hm)
  · rw [h slot]
    exact .ok ⟨psbt, loose, ⟨h slot, rfl, rfl, rfl, rfl⟩, hm⟩

theorem setKeyFromMnemonic_spec {w : Wally} {net : Network} {loose : Bool} {psbt : Psbt}
    {before : KeySlot} {engine : PsbtEngine} {mnemonic : SecureString} {why : String → Failure}
    (h : Holding w net loose psbt before engine) (hE : ∀ err m, m.files = files → E (why err) m) :
    Triple (On slot files) (setKeyFromMnemonic w engine mnemonic why)
      (fun e m => ∃ key, (PsbtEngine.masterFromMnemonic w net (cStr mnemonic.text) "" = .ok key ∧
        Holding w net loose psbt (.hold key) e) ∧ On (.hold key) files m) E := by
  intro m hm
  unfold setKeyFromMnemonic PsbtEngine.setKeyFromMnemonic
  rw [h.network_eq]
  cases PsbtEngine.masterFromMnemonic w net (cStr mnemonic.text) "" with
  | error err =>
    rw [PsbtEngine.enterKey_error]
    exact .error (hE err _ hm.2)
  | ok key =>
    rw [PsbtEngine.enterKey_of_loaded w engine key h.psbt_eq, h.network_eq, h.looseParse_eq]
    exact .ok ⟨key, ⟨rfl, ⟨rfl, rfl, h.psbt_eq, rfl⟩⟩, rfl, hm.2⟩

end

section
variable {w : Wally} {lib : Bip39} {hmac : Digest → Bytes → Option Digest} {opt : SelfTestOptions}
  {o : Outside} {files : Disk Char}

theorem inspect_spec {slot : KeySlot} (s : TxSummary) :
    Triple (On slot files) (inspect s) (fun _ m => s.safeToSign = true ∧ On slot files m)
      (FailsEarly w lib hmac opt o files) := by
  unfold inspect
  refine (emit_spec _).bind fun _ => (emit_spec _).bind fun _ => (emit_spec _).bind fun _ => ?_
  refine (Triple.forM fun _ _ => emit_spec _).bind fun _ => ?_
  refine (Triple.forM fun _ _ => emit_spec _).bind fun _ => (emit_spec _).bind fun _ => ?_
  refine Triple.require_bind (fun _ m h => ⟨trivial, h.2⟩) fun _ => ?_
  refine (emit_spec _).bind fun _ => (emit_spec _).bind fun _ => ?_
  refine (Triple.forM fun _ _ => emit_spec _).bind fun _ => ?_
  refine Triple.require_bind (fun _ m h => ⟨trivial, h.2⟩) fun hsafe => ?_
  exact (emit_spec _).post fun _ _ h => ⟨hsafe, h⟩

theorem preflight_spec (sha512 : Bytes → Digest) (net : Network) :
    Triple (On .clear files) (preflight w lib sha512 hmac opt o net)
      (fun mnemonic m => readMnemonicFile opt.mnemonicFile o.mnemonicFile = .ok mnemonic ∧
        On .clear files m) (FailsEarly w lib hmac opt o files) := by
  unfold preflight
  refine Triple.require_bind
    (fun hno m h => ⟨(by simpa using hno : opt.mnemonicFile = ""), h.2⟩) fun _ => ?_
  refine Triple.bind (Q := fun mnemonic m =>
    readMnemonicFile opt.mnemonicFile o.mnemonicFile = .ok mnemonic ∧ On .clear files m)
    (Triple.mapError (Triple.ofExcept (fun _ h _ hm => ⟨h, hm⟩) fun _ h _ hm => ⟨h, hm.2⟩))
    fun mnemonic => Triple.lift fun hread => ?_
  refine (emit_spec _).bind fun _ => ?_
  have hpart {ε : Type} {part : Part ε Unit} (why : ε → Failure) {E : ε → Prop}
      (h : Triple (On .clear files) part (fun _ => On .clear files)
        fun err m => On .clear files m ∧ E err)
      (hE : ∀ err, E err → (why err).Possible w lib hmac opt o) :
      Triple (On .clear files) (mapError why part) (fun _ => On .clear files)
        (FailsEarly w lib hmac opt o files) :=
    Triple.mapError (h.onError fun err _ h => ⟨hE err h.2, h.1.2⟩)
  refine (hpart .grid (runGridChecks_spec w lib) fun _ h => h).bind fun _ => ?_
  refine Triple.get_bind fun m hm => ?_
  rw [hm.2]
  refine (hpart .fileNames runFileNameChecks_spec fun _ h => h).bind fun _ => ?_
  refine (hpart .entropy (runEntropyChecks_spec w lib hmac sha512 o) fun _ h => h).bind fun _ => ?_
  refine (hpart .wallet (runWalletChecks_spec w net mnemonic 0 "") fun _ h => h).bind fun _ => ?_
  refine (hpart .walletOfAccountOne (runWalletChecks_spec w net mnemonic 1 "-acct1")
    fun _ h => h).bind fun _ => ?_
  exact Triple.pure fun _ h => ⟨hread, h⟩

/-- The destructor clears the key, so that what holds behind it is about the disk. -/
theorem withEngine_spec {α : Type} {P : Machine → Prop} {net : Network}
    {body : PsbtEngine → Part Failure α} {A : α → Disk Char → Prop}
    {B : Failure → Disk Char → Prop}
    (h : Triple P (body { network := net }) (fun a m => A a m.files) fun why m => B why m.files) :
    Triple P (withEngine net body) (fun a m => m.slot = .clear ∧ A a m.files)
      fun why m => m.slot = .clear ∧ B why m.files :=
  Triple.leaving ((h.post fun _ _ h => ⟨rfl, h⟩).onError fun _ _ h => ⟨rfl, h⟩)

theorem blockedCheck_spec (net : Network) (mnemonic : SecureString) :
    Triple (On .clear files) (blockedCheck w opt o net mnemonic)
      (fun _ m => (opt.blockedPsbtPath ≠ "" → ForgeryBlocked w opt o net mnemonic) ∧
        On .clear files m) (FailsEarly w lib hmac opt o files) := by
  unfold blockedCheck
  split
  · rename_i hnone
    exact Triple.pure fun _ h => ⟨fun hsome => absurd hnone hsome, h⟩
  · refine ((withEngine_spec (A := fun _ files' =>
      ForgeryBlocked w opt o net mnemonic ∧ files' = files)
      (B := fun why files' => why.Possible w lib hmac opt o ∧ files' = files) ?_).post
        fun _ _ h => ⟨fun _ => h.2.1, h.1, h.2.2⟩).onError fun _ _ h => h.2
    refine (load_spec fun _ _ h => ⟨trivial, h.2⟩).bind fun loaded => ?_
    refine Triple.exists fun psbt => Triple.exists fun loose =>
      Triple.lift fun ⟨hload, hloaded⟩ => ?_
    refine (setKeyFromMnemonic_spec hloaded fun _ _ h => ⟨trivial, h⟩).bind fun attack => ?_
    refine Triple.exists fun key => Triple.lift fun ⟨hkey, hattack⟩ => ?_
    refine Triple.require_bind (fun _ m h => ⟨trivial, h.2⟩) fun hmismatch => ?_
    rw [hattack.summary_eq, List.any_eq_true] at hmismatch
    obtain ⟨out, hout, hforged⟩ := hmismatch
    have hforged : out.ownership = .mismatch := beq_iff_eq.mp hforged
    -- an output that is not what it claims closes the gate: the checks behind this one hold
    have hshut : attack.summary.safeToSign = false := by
      refine Bool.eq_false_iff.mpr fun hsafe => ?_
      rw [hattack.summary_eq] at hsafe
      exact (safeToSign_withKey_iff.mp hsafe).2 out hout hforged
    have hclosed : ¬ SigningGate w key psbt := fun hgate => by
      rw [hattack.summary_eq, ((signingGate_iff_summarise net loose).mpr hgate).1] at hshut
      cases hshut
    refine (require_of_true (by rw [hshut]; rfl) _).bind fun _ => ?_
    refine Triple.get_bind fun m hm => ?_
    obtain ⟨err, hsign⟩ := sign_of_not_safe w m.slot hshut
    rw [hsign]
    exact (emit_spec _).post fun _ _ h =>
      ⟨⟨psbt, loose, key, hload, hkey, ⟨out, hout, hforged⟩, hclosed⟩, h.2⟩

theorem inspectWithKey_spec {engine : PsbtEngine} {net : Network} {loose : Bool} {key : ExtKey}
    {psbt : Psbt} (h : Holding w net loose psbt (.hold key) engine) (hsafe : SafeGate w none psbt) :
    Triple (On (.hold key) files) (inspectWithKey w engine)
      (fun _ m => SigningGate w key psbt ∧ On (.hold key) files m)
      (FailsEarly w lib hmac opt o files) := by
  unfold inspectWithKey
  refine Triple.get_bind fun m _ => (emit_spec _).bind fun _ => ?_
  dsimp only
  refine (emit_spec _).bind fun _ => ?_
  refine Triple.require_bind (fun _ m h => ⟨trivial, h.2⟩) fun hsignable => ?_
  refine (Triple.forM_forall (A := fun x => x.1.ownership ≠ .mismatch) fun x _ => ?_).bind
    fun _ => Triple.lift fun hown => ?_
  · obtain ⟨out, i⟩ := x
    refine (emit_spec _).bind fun _ => ?_
    exact (Triple.require fun _ m h => ⟨trivial, h.2⟩).post fun _ _ h => ⟨by simpa using h.2, h.1⟩
  have hopen : engine.summary.safeToSign = true := by
    rw [h.summary_eq] at hown ⊢
    refine safeToSign_withKey_iff.mpr ⟨hsafe, fun out hout => ?_⟩
    obtain ⟨i, hi⟩ := List.mem_iff_getElem?.mp hout
    exact hown (out, i) (List.mem_zipIdx_iff_getElem?.mpr hi)
  have hgate : SigningGate w key psbt := by
    rw [h.summary_eq] at hopen hsignable
    exact (signingGate_iff_summarise net loose).mp ⟨hopen, by simpa using hsignable⟩
  refine (emit_spec _).bind fun _ => (Triple.forM fun _ _ => emit_spec _).bind fun _ => ?_
  exact (require_of_true hopen _).post fun _ _ h => ⟨hgate, h⟩

theorem signPsbt_spec {engine : PsbtEngine} {net : Network} {loose : Bool} {mnemonic : SecureString}
    {key : ExtKey} {psbt : Psbt} (h : Holding w net loose psbt (.hold key) engine)
    (hkey : PsbtEngine.masterFromMnemonic w net (cStr mnemonic.text) "" = .ok key)
    (hopen : SigningGate w key psbt) :
    Triple (On (.hold key) files) (signPsbt w engine)
      (fun r m => ∃ signed, (Signed w net mnemonic loose psbt signed key ∧
        r.1.psbt = some signed ∧
        r.2 = PsbtEngine.countSignatures signed - PsbtEngine.countSignatures psbt) ∧
          On (.hold key) files m) (FailsEarly w lib hmac opt o files) := by
  have hgate : PsbtEngine.signGate (.hold key) engine = .ok (psbt, key) := by
    have hboth := (signingGate_iff_summarise net loose).mpr hopen
    rw [← h.summary_eq] at hboth
    exact PsbtEngine.signGate_eq_ok.mpr ⟨h.psbt_eq, rfl, hboth⟩
  unfold signPsbt
  dsimp only
  refine Triple.get_bind fun m hm => ?_
  rw [hm.1]
  rcases PsbtEngine.sign_cases w (.hold key) engine with
    ⟨err, herr, -⟩ | ⟨_, _, err, -, -, hsign⟩ | ⟨psbt', key', hgate', hadds, hsign⟩
  · rw [hgate] at herr
    cases herr
  · rw [hsign]
    exact Triple.fail fun m h => ⟨signError_of_gate hgate hsign, h.2⟩
  · obtain ⟨rfl, rfl⟩ := Prod.mk.inj (Except.ok.inj (hgate'.symm.trans hgate))
    rw [hsign]
    dsimp only
    unfold PsbtEngine.SignFails at hadds
    push Not at hadds
    have hcount : (PsbtEngine.countSignatures (w.psbtSignBip32 psbt' key').2
        - PsbtEngine.countSignatures psbt' != 0) = true := by
      rw [bne_iff_ne]
      omega
    refine (emit_spec _).bind fun _ => (require_of_true hcount _).bind fun _ => ?_
    refine Triple.require_bind (fun _ m h => ⟨trivial, h.2⟩) fun htxid => ?_
    refine (emit_spec _).bind fun _ => Triple.pure fun m hm => ?_
    rw [h.summary_eq, h.network_eq, h.looseParse_eq] at htxid
    exact ⟨_, ⟨⟨hkey, hopen, Prod.ext hadds.1 rfl, hadds.2, beq_iff_eq.mp htxid⟩, rfl, rfl⟩, hm⟩

/-- A result is never empty: it ends with a newline. -/
theorem sizeOf_result {psbt : Psbt} {payload path : String} {files' : Disk Char}
    (hpay : PsbtEngine.resultPayload w psbt = some payload)
    (hfile : files' path = some (.file payload.toList)) :
    ∃ size, sizeOf files' path = some (size + 1) := by
  obtain ⟨text, -, rfl⟩ := Option.map_eq_some_iff.mp hpay
  refine ⟨text.toList.length, ?_⟩
  rw [sizeOf, hfile]
  simp

theorem writeOutput_spec {slot : KeySlot} {engine : PsbtEngine} {signed : Psbt}
    (hpsbt : engine.psbt = some signed) :
    Triple (On slot files) (writeOutput w opt o engine)
      (fun r m => ∃ payload, (PsbtEngine.resultPayload w signed = some payload ∧
        WrittenAs o.write files opt.dataDir "" opt.writeFinalTx payload
          (engine.writeResult w o.write files opt.dataDir "" opt.writeFinalTx) ∧
        r = (outPath opt o files,
          (engine.writeResult w o.write files opt.dataDir "" opt.writeFinalTx).txPath)) ∧
          On slot (engine.writeResult w o.write files opt.dataDir "" opt.writeFinalTx).files m)
      (Fails w lib hmac opt o files) := by
  unfold writeOutput
  refine Triple.get_bind fun m hm => ?_
  rw [hm.2]
  dsimp only
  have hok (h : (engine.writeResult w o.write files opt.dataDir "" opt.writeFinalTx).result =
    .ok ()) := writtenAs_of_ok h
  have hadds : AddsOnly (MayAdd opt o files) files
      (engine.writeResult w o.write files opt.dataDir "" opt.writeFinalTx).files :=
    writeResult_mayWrite
  generalize engine.writeResult w o.write files opt.dataDir "" opt.writeFinalTx = out at hok hadds ⊢
  refine Triple.bind (Q := fun _ => On slot out.files) (Triple.modify fun m h => ⟨h.1, rfl⟩)
    fun _ => ?_
  cases hresult : out.result with
  | error err => exact Triple.fail fun m h => ⟨trivial, by rw [h.2]; exact hadds⟩
  | ok done =>
    obtain ⟨payload, hpay, hwritten⟩ := hok hresult
    rw [PsbtEngine.pendingPayload, hpsbt, Option.bind_some] at hpay
    rw [hwritten.psbtPath]
    dsimp only [Option.getD_some]
    obtain ⟨size, hsize⟩ := sizeOf_result hpay hwritten.content
    have hdone : ∀ m, On slot out.files m → ∃ payload,
        (PsbtEngine.resultPayload w signed = some payload ∧
          WrittenAs o.write files opt.dataDir "" opt.writeFinalTx payload out ∧
          (outPath opt o files, out.txPath) = (outPath opt o files, out.txPath)) ∧
            On slot out.files m := fun m h => ⟨payload, ⟨hpay, hwritten, rfl⟩, h⟩
    refine (emit_spec _).bind fun _ => ?_
    rw [hsize]
    split
    · exact (emit_spec _).bind fun _ => (emit_spec _).bind fun _ => Triple.pure hdone
    · exact (emit_spec _).bind fun _ => Triple.pure hdone

theorem readBackCheck_spec {key : ExtKey} (net : Network) (path txid : String) (added : ℕ) :
    Triple (On (.hold key) files) (readBackCheck w o net path txid added)
      (fun _ m => m.slot = .clear ∧ ReadsBack w o net key path txid added ∧ m.files = files)
      (FailsEarly w lib hmac opt o files) := by
  unfold readBackCheck
  refine (withEngine_spec (A := fun _ files' =>
    ReadsBack w o net key path txid added ∧ files' = files)
    (B := fun why files' => why.Possible w lib hmac opt o ∧ files' = files) ?_).onError
      fun _ _ h => h.2
  refine (load_spec fun _ _ h => ⟨trivial, h.2⟩).bind fun verify => ?_
  refine Triple.exists fun psbt => Triple.exists fun loose => Triple.lift fun ⟨hload, hverify⟩ => ?_
  dsimp only
  rw [hverify.summary_eq]
  refine (emit_spec _).bind fun _ => ?_
  refine Triple.require_bind (fun _ m h => ⟨trivial, h.2⟩) fun hadded => ?_
  refine Triple.require_bind (fun _ m h => ⟨trivial, h.2⟩) fun htxid => ?_
  exact (emit_spec _).post fun _ _ h =>
    ⟨⟨psbt, loose, hload, of_decide_eq_true hadded, beq_iff_eq.mp htxid⟩, h.2⟩

/-- The state an engine's test ends in, before its destructor. -/
theorem testEngine_spec (sha512 : Bytes → Digest) {net : Network} {path : String}
    (hnet : networkFromString opt.network = some net) (hpath : Located opt o path) :
    Triple (On .clear files) (testEngine w lib sha512 hmac opt o net path { network := net })
      (fun _ m => Passed w opt o files m.files) (Fails w lib hmac opt o files) := by
  have hfails (why : Failure) (m : Machine) (h : FailsEarly w lib hmac opt o files why m) :
      Fails w lib hmac opt o files why m :=
    ⟨h.1, by rw [h.2]; exact AddsOnly.refl _ _⟩
  unfold testEngine
  -- up to the key the slot is clear and the disk is as it was
  refine (load_spec fun err m h => hfails (.load err) m ⟨trivial, h.2⟩).bind fun loaded => ?_
  refine Triple.exists fun psbt => Triple.exists fun loose => Triple.lift fun ⟨hload, hloaded⟩ => ?_
  refine ((inspect_spec _).onError hfails).bind fun _ => Triple.lift fun hsafe => ?_
  rw [hloaded.summary_eq, safeToSign_summarise_iff] at hsafe
  refine ((preflight_spec sha512 net).onError hfails).bind fun mnemonic =>
    Triple.lift fun hread => ?_
  refine ((blockedCheck_spec net mnemonic).onError hfails).bind fun _ =>
    Triple.lift fun hblocked => ?_
  refine (setKeyFromMnemonic_spec hloaded fun err m h => hfails (.key err) m ⟨trivial, h⟩).bind
    fun engine => ?_
  -- what was safe without a key is safe with it, and so `sign` is not refused
  refine Triple.exists fun key => Triple.lift fun ⟨hkey, hengine⟩ => ?_
  refine ((inspectWithKey_spec hengine hsafe).onError hfails).bind fun _ =>
    Triple.lift fun hopen => ?_
  dsimp only
  refine ((signPsbt_spec hengine hkey hopen).onError hfails).bind fun r => ?_
  obtain ⟨signedEngine, added⟩ := r
  refine Triple.exists fun signed => Triple.lift fun ⟨hsigned, hpsbt, hadded⟩ => ?_
  dsimp only at hpsbt hadded ⊢
  subst hadded
  refine (writeOutput_spec hpsbt).bind fun r => ?_
  obtain ⟨outPsbt, outTx⟩ := r
  refine Triple.exists fun payload => Triple.lift fun ⟨hpay, hwritten, hout⟩ => ?_
  generalize signedEngine.writeResult w o.write files opt.dataDir "" opt.writeFinalTx = out
    at hwritten hout ⊢
  obtain ⟨rfl, rfl⟩ := Prod.mk.inj hout
  have hwrote (why : Failure) (m : Machine) (h : FailsEarly w lib hmac opt o out.files why m) :
      Fails w lib hmac opt o files why m :=
    ⟨h.1, by rw [h.2]; exact hwritten.adds⟩
  refine ((readBackCheck_spec net _ _ _).onError hwrote).bind fun _ => ?_
  rw [hengine.summary_eq]
  have hpassed (files' : Disk Char) (hback : ReadsBack w o net key (outPath opt o files)
      (summarise w net loose (.hold key) psbt).txid
      (PsbtEngine.countSignatures signed - PsbtEngine.countSignatures psbt))
      (hleft : Left opt o payload files files') : Passed w opt o files files' :=
    ⟨net, path, mnemonic, loose, psbt, signed, key, payload, hnet, hpath, hload, hread, hblocked,
      hsigned, hpay, hback, hleft⟩
  split
  · rename_i hkeep
    -- the line that is printed behind it is the last change
    refine Triple.bind (Q := fun _ m => Passed w opt o files m.files)
      (Triple.modify fun m h => hpassed _ h.2.1 ?_) fun _ => Triple.modify fun m h => h
    rw [h.2.2]
    exact hwritten.left_of_removed (by simpa using hkeep)
  · rename_i hkeep
    refine Triple.pure fun m h => hpassed _ h.2.1 ?_
    rw [h.2.2]
    exact hwritten.left_of_kept (by simpa using hkeep)

theorem locatePsbt_spec {slot : KeySlot} : Triple (On slot files) (locatePsbt opt o)
    (fun path m => Located opt o path ∧ On slot files m) fun why m =>
      why.Possible w lib hmac opt o ∧ On slot files m := by
  unfold locatePsbt Located
  split
  · exact Triple.pure fun _ h => ⟨rfl, h⟩
  · rename_i hnamed
    dsimp only
    refine (emit_spec _).bind fun _ => ?_
    split
    · rename_i f hfind
      refine Triple.pure fun _ h => ⟨⟨f, List.mem_of_find?_eq_some hfind, ?_, rfl⟩, h⟩
      simpa using List.find?_some hfind
    · rename_i hfind
      refine Triple.fail fun _ h => ⟨⟨rfl, not_not.mp hnamed, fun f hf => ?_⟩, h⟩
      simpa using List.find?_eq_none.mp hfind f hf

theorem reportNetworkAbsence_spec {ε : Type} {slot : KeySlot} {E : ε → Machine → Prop} :
    Triple (On slot files) (reportNetworkAbsence o) (fun _ => On slot files) E := by
  unfold reportNetworkAbsence
  dsimp only
  split <;> split <;> exact (emit_spec _).bind fun _ => emit_spec _

theorem initLibrary_eq_none : initLibrary o = none ↔ o.wallyInit = false := by
  unfold initLibrary
  cases o.wallyInit with
  | false => simp
  | true =>
    rw [if_pos rfl]
    cases o.urandom with
    | none => simp
    | some got => by_cases h : got = 32 <;> simp [h]

theorem testSteps_spec (sha512 : Bytes → Digest) :
    Triple (On .clear files) (testSteps w lib sha512 hmac opt o)
      (fun _ m => m.slot = .clear ∧ Passed w opt o files m.files)
      fun why m => m.slot = .clear ∧ Fails w lib hmac opt o files why m := by
  have hearly (why : Failure) (m : Machine)
      (h : why.Possible w lib hmac opt o ∧ On .clear files m) :
      m.slot = .clear ∧ Fails w lib hmac opt o files why m :=
    ⟨h.2.1, h.1, by rw [h.2.2]; exact AddsOnly.refl _ _⟩
  unfold testSteps
  dsimp only
  split
  · rename_i hinit
    exact Triple.bind (Q := fun _ _ => False)
      (Triple.fail fun m h => hearly .library m ⟨initLibrary_eq_none.mp hinit, h⟩)
      fun _ _ h => h.elim
  -- the same steps follow, with a warning before them or without
  · split <;> [refine (emit_spec _).bind fun _ => ?_; skip]
    all_goals
      refine (emit_spec _).bind fun _ => (emit_spec _).bind fun _ => ?_
      refine reportNetworkAbsence_spec.bind fun _ => ?_
      split
      · rename_i hnet
        exact Triple.fail fun m h => hearly (.unknownNetwork _) m ⟨⟨rfl, hnet⟩, h⟩
      · rename_i net hnet
        refine (emit_spec _).bind fun _ => ?_
        refine (locatePsbt_spec.onError hearly).bind fun path =>
          Triple.lift fun hpath => (emit_spec _).bind fun _ => ?_
        exact withEngine_spec (A := fun _ files' => Passed w opt o files files')
          (B := fun why files' => why.Possible w lib hmac opt o ∧
            AddsOnly (MayAdd opt o files) files files')
          (testEngine_spec sha512 hnet hpath)

/-- A self-test ends with no key left, whatever the library, the machine and the files do. If it
passes, what it signed is what it should have signed, wrote and read back; if it fails, it is for
a reason that is not its own fault, and no file that was there has changed. -/
theorem runSelfTest_ends (w : Wally) (lib : Bip39) (sha512 : Bytes → Digest)
    (hmac : Digest → Bytes → Option Digest) (opt : SelfTestOptions) (o : Outside)
    (files : Disk Char) :
    Ends
      (fun _ m => m.lines.getLast? = some "SELFTEST: PASS" ∧ m.slot = .clear ∧
        Passed w opt o files m.files)
      (fun why m => m.lines.getLast? = some ("SELFTEST: FAIL " ++ why.text) ∧ m.slot = .clear ∧
        Fails w lib hmac opt o files why m)
      (runSelfTest w lib sha512 hmac opt o files) := by
  have hstart : On .clear files ((⟨[], .clear, files⟩ : Machine).emit "begin") := ⟨rfl, rfl⟩
  have hend : Ends _ _ (testSteps w lib sha512 hmac opt o
    ((⟨[], .clear, files⟩ : Machine).emit "begin")) := testSteps_spec sha512 _ hstart
  have hlast (m : Machine) (line : String) :
      (m.emit line).lines.getLast? = some ("SELFTEST: " ++ line) := List.getLast?_concat
  unfold runSelfTest
  generalize testSteps w lib sha512 hmac opt o _ = r at hend ⊢
  cases hend with
  | ok h => exact .ok ⟨hlast _ _, h⟩
  | error h =>
    refine .error ⟨?_, h⟩
    rw [hlast]
    rfl

end

end SignerOS.SelfTest
