import SignerOS.Writers

/-!
# What the writers leave on the stick

A writer that reports a failure should leave the data partition as it found it, and one that
reports success should have written all of its payload. `writeWalletExport` unlinks what it
could not finish; `writeResult` does not.

* `ExportAtomic` and `ResultAtomic`, the promise of one call;
* `writeTx_cases`, what becomes of the `.tx` next to a result;
* `writers_atomic_iff`, the export always keeps it, and a result exactly when no file it has
  created is cut short.
-/

namespace SignerOS

open Files (Disk Node Attempt Creates Stops)

/-! ## Paths -/

theorem pathIn_inj {dir a b : String} : pathIn dir a = pathIn dir b ↔ a = b := by
  unfold pathIn
  constructor
  · intro h
    rw [← String.toList_inj] at h ⊢
    simpa using h
  · intro h
    rw [h]

/-- The transaction never goes by the name of the result. -/
theorem txNameOf_ne (name : String) : txNameOf name ≠ name := by
  intro h
  have hlen := congrArg (fun s => s.toList.length) h
  unfold txNameOf at hlen
  dsimp only at hlen
  have htx : ".tx".toList.length = 3 := by decide
  have hpsbt : ".psbt".toList.length = 5 := by decide
  split at hlen
  · rename_i hsuffix
    rw [hpsbt] at hsuffix
    simp only [String.toList_append, String.toList_ofList, List.length_append,
      List.length_take, htx, hpsbt] at hlen
    omega
  · simp only [String.toList_append, List.length_append, htx] at hlen
    omega

/-- A result is always named `.psbt`. -/
theorem resultName_suffix (files : Disk Char) (clock : Clock) (dir fileName : String) :
    ∃ stem, PsbtEngine.resultName files clock dir fileName = stem ++ ".psbt" := by
  unfold PsbtEngine.resultName
  dsimp only
  split
  · exact freeFileName_suffix _ _ _ _
  · rename_i h
    exact sanitiseFileName_suffix (Bool.eq_false_iff.mpr h)

/-! ## The wallet export -/

/-- What a call of `writeWalletExport` promises. -/
structure ExportAtomic (clock : Clock) (files : Disk Char) (we : WalletExport)
    (out : ExportOutcome) : Prop where
  restored : ∀ err, out.result = .error err → out.files = files
  written : out.result = .ok () → ∃ path, out.pathOut = some path ∧
    out.files path
      = some (.file (renderWalletExport we (fileTimestamp clock).1).toList)

/-- The export unlinks what it could not finish. -/
theorem exportAtomic (clock laterClock : Clock) (os : Attempt) (files : Disk Char)
    (we : WalletExport) (dir fileName : String) :
    ExportAtomic clock files we
      (writeWalletExport clock laterClock os files we dir fileName) := by
  unfold writeWalletExport
  by_cases hnone : we.accounts.isEmpty = true
  · rw [if_pos hnone]
    exact ⟨fun _ _ => rfl, fun h => by simp at h⟩
  · rw [if_neg hnone]
    dsimp only
    generalize hpath : pathIn dir (exportName files laterClock we dir fileName) = path
    by_cases hc : Creates files path os
    · by_cases hs : Stops (renderWalletExport we (fileTimestamp clock).1).toList.length os
      · -- cut short: the unlink takes the partial file away again
        obtain ⟨content, -, hcreate⟩ := Files.create_failed hc hs
        rw [hcreate]
        refine ⟨fun _ _ => ?_, fun h => by simp at h⟩
        exact Files.unlink_create hc.1 _
      · rw [Files.create_complete hc hs]
        refine ⟨fun _ h => by simp at h, fun _ => ⟨path, rfl, ?_⟩⟩
        exact Function.update_self _ _ _
    · rw [Files.create_refused _ hc]
      exact ⟨fun _ _ => rfl, fun h => by simp at h⟩

/-! ## The result -/

namespace PsbtEngine

section
variable (w : Wally) (env : WriteEnv) (files : Disk Char) (e : PsbtEngine)
  (dir fileName : String) (alsoFinalTx : Bool)

/-- The path a result goes to. -/
def resultPath : String := pathIn dir (resultName files env.laterClock dir fileName)

/-- The path the transaction next to it goes to. -/
def txPathOf : String := pathIn dir (txNameOf (resultName files env.laterClock dir fileName))

/-- What a call of `writeResult` sets out to write. -/
def pendingPayload : Option String := e.psbt.bind (resultPayload w)

/-- The transaction it sets out to write. -/
def pendingTx : Option String := if alsoFinalTx then e.psbt.bind (finalTxPayload w) else none

/-- The `.psbt` is created, and then not filled. -/
def PsbtStopped : Prop :=
  ∃ payload, pendingPayload w e = some payload ∧
    Creates files (resultPath env files dir fileName) env.psbtFile ∧
    Stops payload.toList.length env.psbtFile

/-- The `.psbt` is created and filled. -/
def PsbtFilled : Prop :=
  ∃ payload, pendingPayload w e = some payload ∧
    Creates files (resultPath env files dir fileName) env.psbtFile ∧
    ¬ Stops payload.toList.length env.psbtFile

/-- The `.tx` is created after the `.psbt` was filled, and then not filled. -/
def TxStopped : Prop :=
  PsbtFilled w env files e dir fileName ∧
    ∃ tx, pendingTx w e alsoFinalTx = some tx ∧
      Creates files (txPathOf env files dir fileName) env.txFile ∧
      Stops tx.toList.length env.txFile

/-- A file of this path is there because of the call. -/
def CreatedBy (files files' : Disk Char) (path : String) : Prop :=
  files path = none ∧ files' path ≠ none

/-- What a call of `writeResult` promises. -/
structure ResultAtomic (out : WriteOutcome) : Prop where
  restored : ∀ err, out.result = .error err → out.files = files
  psbtWritten : out.result = .ok () → ∃ stem payload,
    out.psbtPath = some (pathIn dir (stem ++ ".psbt")) ∧
    pendingPayload w e = some payload ∧
    out.files (pathIn dir (stem ++ ".psbt")) = some (.file payload.toList)
  txReported : out.result = .ok () → ∀ path, out.psbtPath ≠ some path →
    (CreatedBy files out.files path ↔ out.txPath = some path)
  txWritten : out.result = .ok () → ∀ path, out.txPath = some path →
    ∃ tx, pendingTx w e alsoFinalTx = some tx ∧ out.files path = some (.file tx.toList)

end

section
variable {w : Wally} {env : WriteEnv} {files : Disk Char} {e : PsbtEngine}
  {dir fileName : String} {alsoFinalTx : Bool}

/-- Nothing is created: the call fails and leaves everything as it was. -/
theorem writeResult_of_not_created (alsoFinalTx : Bool)
    (h : ∀ payload, pendingPayload w e = some payload →
      ¬ Creates files (resultPath env files dir fileName) env.psbtFile) :
    (∃ err, (writeResult w env files e dir fileName alsoFinalTx).result = .error err) ∧
      (writeResult w env files e dir fileName alsoFinalTx).files = files ∧
      (writeResult w env files e dir fileName alsoFinalTx).engine = e := by
  unfold writeResult
  cases hp : e.psbt with
  | none => exact ⟨⟨_, rfl⟩, rfl, rfl⟩
  | some psbt =>
    dsimp only
    cases hpay : resultPayload w psbt with
    | none => exact ⟨⟨_, rfl⟩, rfl, rfl⟩
    | some payload =>
      dsimp only
      split
      · exact ⟨⟨_, rfl⟩, rfl, rfl⟩
      · have hno := h payload (by rw [pendingPayload, hp, Option.bind_some, hpay])
        unfold resultPath at hno
        rw [Files.create_refused _ hno]
        exact ⟨⟨_, rfl⟩, rfl, rfl⟩

/-- The `.psbt` is cut short: the call fails and leaves the file there. -/
theorem writeResult_of_stopped (alsoFinalTx : Bool)
    (h : PsbtStopped w env files e dir fileName) :
    (∃ err, (writeResult w env files e dir fileName alsoFinalTx).result = .error err) ∧
      (writeResult w env files e dir fileName alsoFinalTx).files ≠ files := by
  obtain ⟨payload, hpay, hc, hs⟩ := h
  obtain ⟨psbt, hp, hpay⟩ := Option.bind_eq_some_iff.mp hpay
  unfold resultPath at hc
  -- the file is there, with what was written of it
  obtain ⟨content, -, hcreate⟩ := Files.create_failed hc hs
  unfold writeResult
  rw [hp]
  dsimp only
  rw [hpay]
  dsimp only
  rw [if_neg (by rw [Files.accessible_of_none hc.1]; simp), hcreate]
  exact ⟨⟨_, rfl⟩, Files.update_some_ne hc.1 _⟩

/-- The `.psbt` is filled: the call succeeds, and goes on to the transaction. -/
theorem writeResult_of_filled {payload : String} (alsoFinalTx : Bool)
    (hpay : pendingPayload w e = some payload)
    (hc : Creates files (resultPath env files dir fileName) env.psbtFile)
    (hs : ¬ Stops payload.toList.length env.psbtFile) :
    ∃ psbt, e.psbt = some psbt ∧
      let out := writeResult w env files e dir fileName alsoFinalTx
      let filled := Function.update files (resultPath env files dir fileName)
        (some (Node.file payload.toList))
      out.result = .ok () ∧
        out.psbtPath = some (resultPath env files dir fileName) ∧
        (out.txPath, out.files) =
          if alsoFinalTx then
            writeTx w psbt dir (resultName files env.laterClock dir fileName) env.txFile filled
          else (none, filled) := by
  obtain ⟨psbt, hp, hpay⟩ := Option.bind_eq_some_iff.mp hpay
  refine ⟨psbt, hp, ?_⟩
  unfold resultPath at hc ⊢
  unfold writeResult
  rw [hp]
  dsimp only
  rw [hpay]
  dsimp only
  rw [if_neg (by rw [Files.accessible_of_none hc.1]; simp), Files.create_complete hc hs]
  exact ⟨rfl, rfl, rfl⟩

/-- What becomes of the transaction: it is not written at all, it is written and reported,
or it is created, cut short and left there unreported. -/
theorem writeTx_cases (psbt : Psbt) (dir name : String) (os : Attempt) (files : Disk Char) :
    (writeTx w psbt dir name os files = (none, files) ∧
        ∀ tx, finalTxPayload w psbt = some tx → ¬ Creates files (pathIn dir (txNameOf name)) os) ∨
      (∃ tx, finalTxPayload w psbt = some tx ∧
        Creates files (pathIn dir (txNameOf name)) os ∧ ¬ Stops tx.toList.length os ∧
        writeTx w psbt dir name os files = (some (pathIn dir (txNameOf name)),
          Function.update files (pathIn dir (txNameOf name)) (some (.file tx.toList)))) ∨
      (∃ tx content, finalTxPayload w psbt = some tx ∧
        Creates files (pathIn dir (txNameOf name)) os ∧ Stops tx.toList.length os ∧
        writeTx w psbt dir name os files = (none,
          Function.update files (pathIn dir (txNameOf name)) (some (.file content)))) := by
  unfold writeTx
  cases hpay : finalTxPayload w psbt with
  | none => exact Or.inl ⟨rfl, fun tx h => by simp at h⟩
  | some tx =>
    dsimp only
    by_cases hc : Creates files (pathIn dir (txNameOf name)) os
    · rw [if_neg (by rw [Files.accessible_of_none hc.1]; simp)]
      by_cases hs : Stops tx.toList.length os
      · obtain ⟨content, -, hcreate⟩ := Files.create_failed hc hs
        exact Or.inr (Or.inr ⟨tx, content, rfl, hc, hs, by rw [hcreate]⟩)
      · exact Or.inr (Or.inl ⟨tx, rfl, hc, hs, by rw [Files.create_complete hc hs]⟩)
    · refine Or.inl ⟨?_, fun _ _ => hc⟩
      split
      · rfl
      · rw [Files.create_refused _ hc]

/-- The two files of one call are different files. -/
theorem txPathOf_ne : txPathOf env files dir fileName ≠ resultPath env files dir fileName :=
  fun h => txNameOf_ne _ (pathIn_inj.mp h)

/-- Filling the result leaves the name of the transaction as free as it was. -/
theorem creates_txPathOf_update (node : Option (Node Char)) (os : Attempt) :
    Creates (Function.update files (resultPath env files dir fileName) node)
        (txPathOf env files dir fileName) os
      ↔ Creates files (txPathOf env files dir fileName) os := by
  unfold Creates
  rw [Function.update_of_ne txPathOf_ne]

/-- With the `.psbt` filled and nothing else touched, the promise is kept. -/
theorem resultAtomic_of_psbt_alone {out : WriteOutcome} {payload : String}
    (hpay : pendingPayload w e = some payload) (hok : out.result = .ok ())
    (hpath : out.psbtPath = some (resultPath env files dir fileName)) (htx : out.txPath = none)
    (hfiles : out.files = Function.update files (resultPath env files dir fileName)
      (some (Node.file payload.toList))) :
    ResultAtomic w files e dir alsoFinalTx out := by
  obtain ⟨stem, hstem⟩ := resultName_suffix files env.laterClock dir fileName
  unfold resultPath at hpath hfiles
  rw [hstem] at hpath hfiles
  refine ⟨fun err h => by simp [hok] at h, fun _ => ⟨stem, payload, hpath, hpay, ?_⟩, ?_, ?_⟩
  · rw [hfiles, Function.update_self]
  · intro _ path hne
    have hp : path ≠ pathIn dir (stem ++ ".psbt") := fun h => hne (h ▸ hpath)
    unfold CreatedBy
    rw [hfiles, Function.update_of_ne hp, htx]
    exact iff_of_false (fun h => h.2 h.1) (by simp)
  · intro _ path h
    rw [htx] at h
    exact absurd h (by simp)

/-- With the `.psbt` and the `.tx` filled and the latter reported, the promise is kept. -/
theorem resultAtomic_of_pair {out : WriteOutcome} {payload tx : String}
    (hpay : pendingPayload w e = some payload) (hpend : pendingTx w e alsoFinalTx = some tx)
    (hfree : files (txPathOf env files dir fileName) = none) (hok : out.result = .ok ())
    (hpath : out.psbtPath = some (resultPath env files dir fileName))
    (htx : out.txPath = some (txPathOf env files dir fileName))
    (hfiles : out.files =
      Function.update (Function.update files (resultPath env files dir fileName)
        (some (Node.file payload.toList))) (txPathOf env files dir fileName)
        (some (Node.file tx.toList))) :
    ResultAtomic w files e dir alsoFinalTx out := by
  obtain ⟨stem, hstem⟩ := resultName_suffix files env.laterClock dir fileName
  have hres : resultPath env files dir fileName = pathIn dir (stem ++ ".psbt") := by
    rw [resultPath, hstem]
  have hne : txPathOf env files dir fileName ≠ pathIn dir (stem ++ ".psbt") := hres ▸ txPathOf_ne
  rw [hres] at hpath hfiles
  refine ⟨fun err h => by simp [hok] at h, fun _ => ⟨stem, payload, hpath, hpay, ?_⟩, ?_, ?_⟩
  · rw [hfiles, Function.update_of_ne hne.symm, Function.update_self]
  · intro _ path hother
    have hp : path ≠ pathIn dir (stem ++ ".psbt") := fun h => hother (h ▸ hpath)
    unfold CreatedBy
    rw [hfiles, htx, Option.some.injEq]
    -- only the two files of the call are new, and one of them is the result
    by_cases hpt : path = txPathOf env files dir fileName
    · subst hpt
      rw [Function.update_self]
      exact iff_of_true ⟨hfree, by simp⟩ rfl
    · rw [Function.update_of_ne hpt, Function.update_of_ne hp]
      exact iff_of_false (fun h => h.2 h.1) (fun h => hpt h.symm)
  · intro _ path h
    rw [htx, Option.some.injEq] at h
    subst h
    exact ⟨tx, hpend, by rw [hfiles, Function.update_self]⟩

/-- A `.tx` left behind unreported breaks the promise. -/
theorem not_resultAtomic_of_tx_left {out : WriteOutcome} {node : Node Char}
    (hfree : files (txPathOf env files dir fileName) = none) (hok : out.result = .ok ())
    (hpath : out.psbtPath = some (resultPath env files dir fileName)) (htx : out.txPath = none)
    (hleft : out.files (txPathOf env files dir fileName) = some node) :
    ¬ ResultAtomic w files e dir alsoFinalTx out := by
  intro h
  have hne : out.psbtPath ≠ some (txPathOf env files dir fileName) := by
    rw [hpath]
    exact fun h => txPathOf_ne (Option.some.inj h).symm
  -- it is there because of the call, so it would have to be reported
  have hcreated : CreatedBy files out.files (txPathOf env files dir fileName) :=
    ⟨hfree, by simp [hleft]⟩
  rw [h.txReported hok _ hne, htx] at hcreated
  exact absurd hcreated (by simp)

/-! ### One call, by how far it gets -/

/-- A call that creates nothing keeps its promise, and cuts nothing short. -/
theorem resultAtomic_iff_of_not_created
    (h : ∀ payload, pendingPayload w e = some payload →
      ¬ Creates files (resultPath env files dir fileName) env.psbtFile) :
    ResultAtomic w files e dir alsoFinalTx
        (writeResult w env files e dir fileName alsoFinalTx)
      ↔ ¬ PsbtStopped w env files e dir fileName
        ∧ ¬ TxStopped w env files e dir fileName alsoFinalTx := by
  obtain ⟨⟨err, herr⟩, hsame, -⟩ := writeResult_of_not_created alsoFinalTx h
  have hfailed : (writeResult w env files e dir fileName alsoFinalTx).result ≠ .ok () := by
    rw [herr]
    simp
  refine iff_of_true ?_ ⟨fun hstopped => ?_, fun hstopped => ?_⟩
  · exact ⟨fun _ _ => hsame, fun hok => absurd hok hfailed, fun hok => absurd hok hfailed,
      fun hok => absurd hok hfailed⟩
  · obtain ⟨payload, hpay, hc, -⟩ := hstopped
    exact h payload hpay hc
  · obtain ⟨⟨payload, hpay, hc, -⟩, -⟩ := hstopped
    exact h payload hpay hc

/-- A result that is filled is not one that is cut short. -/
theorem not_psbtStopped {payload : String} (hpay : pendingPayload w e = some payload)
    (hs : ¬ Stops payload.toList.length env.psbtFile) :
    ¬ PsbtStopped w env files e dir fileName := by
  intro hstopped
  obtain ⟨payload', hpay', -, hs'⟩ := hstopped
  have hsame : payload = payload' := Option.some.inj (hpay.symm.trans hpay')
  exact hs (hsame ▸ hs')

/-- With the `.psbt` filled and no `.tx` asked for, the promise is kept. -/
theorem resultAtomic_of_filled {payload : String} (hpay : pendingPayload w e = some payload)
    (hc : Creates files (resultPath env files dir fileName) env.psbtFile)
    (hs : ¬ Stops payload.toList.length env.psbtFile) :
    ResultAtomic w files e dir false (writeResult w env files e dir fileName false) := by
  obtain ⟨psbt, -, hok, hpath, hrest⟩ := writeResult_of_filled false hpay hc hs
  rw [if_neg Bool.false_ne_true] at hrest
  obtain ⟨htx, hfiles⟩ := Prod.mk.inj hrest
  exact resultAtomic_of_psbt_alone hpay hok hpath htx hfiles

/-- With the `.psbt` filled, the promise is kept exactly when the `.tx` is not cut short. -/
theorem resultAtomic_iff_of_filled {payload : String} (hpay : pendingPayload w e = some payload)
    (hc : Creates files (resultPath env files dir fileName) env.psbtFile)
    (hs : ¬ Stops payload.toList.length env.psbtFile) :
    ResultAtomic w files e dir true (writeResult w env files e dir fileName true)
      ↔ ¬ TxStopped w env files e dir fileName true := by
  have hfilled : PsbtFilled w env files e dir fileName := ⟨payload, hpay, hc, hs⟩
  obtain ⟨psbt, hp, hok, hpath, hrest⟩ := writeResult_of_filled true hpay hc hs
  rw [if_pos rfl] at hrest
  have hpend : pendingTx w e true = finalTxPayload w psbt := by
    rw [pendingTx, if_pos rfl, hp, Option.bind_some]
  -- the `.tx` goes to a path the `.psbt` has left alone
  rcases writeTx_cases (w := w) psbt dir (resultName files env.laterClock dir fileName)
    env.txFile (Function.update files (resultPath env files dir fileName)
      (some (Node.file payload.toList))) with
    ⟨hw, hno⟩ | ⟨tx, htx, hct, hst, hw⟩ | ⟨tx, content, htx, hct, hst, hw⟩
  · obtain ⟨htxp, hfiles⟩ := Prod.mk.inj (hrest.trans hw)
    refine iff_of_true (resultAtomic_of_psbt_alone hpay hok hpath htxp hfiles) fun hstopped => ?_
    obtain ⟨-, tx, htx, hct, -⟩ := hstopped
    exact hno tx (hpend ▸ htx) ((creates_txPathOf_update _ _).mpr hct)
  · obtain ⟨htxp, hfiles⟩ := Prod.mk.inj (hrest.trans hw)
    have hfree := ((creates_txPathOf_update _ _).mp hct).1
    refine iff_of_true (resultAtomic_of_pair hpay (hpend.trans htx) hfree hok hpath htxp hfiles)
      fun hstopped => ?_
    obtain ⟨-, tx', htx', -, hst'⟩ := hstopped
    have hsame : tx = tx' := Option.some.inj ((hpend.trans htx).symm.trans htx')
    exact hst (hsame ▸ hst')
  · obtain ⟨htxp, hfiles⟩ := Prod.mk.inj (hrest.trans hw)
    have hcreates := (creates_txPathOf_update _ _).mp hct
    have hleft : (writeResult w env files e dir fileName true).files
        (txPathOf env files dir fileName) = some (Node.file content) := by
      rw [hfiles]
      exact Function.update_self _ _ _
    refine iff_of_false (not_resultAtomic_of_tx_left hcreates.1 hok hpath htxp hleft) ?_
    exact fun h => h ⟨hfilled, tx, hpend.trans htx, hcreates, hst⟩

/-- One call keeps its promise exactly when no file it has created is cut short. -/
theorem resultAtomic_iff :
    ResultAtomic w files e dir alsoFinalTx
        (writeResult w env files e dir fileName alsoFinalTx)
      ↔ ¬ PsbtStopped w env files e dir fileName
        ∧ ¬ TxStopped w env files e dir fileName alsoFinalTx := by
  by_cases hcreated : ∃ payload, pendingPayload w e = some payload ∧
      Creates files (resultPath env files dir fileName) env.psbtFile
  · obtain ⟨payload, hpay, hc⟩ := hcreated
    by_cases hs : Stops payload.toList.length env.psbtFile
    · have hstopped : PsbtStopped w env files e dir fileName := ⟨payload, hpay, hc, hs⟩
      obtain ⟨⟨err, herr⟩, hne⟩ := writeResult_of_stopped alsoFinalTx hstopped
      exact iff_of_false (fun h => hne (h.restored err herr)) (fun h => h.1 hstopped)
    · have hnot : ¬ PsbtStopped w env files e dir fileName := not_psbtStopped hpay hs
      cases alsoFinalTx with
      | false =>
        refine iff_of_true (resultAtomic_of_filled hpay hc hs) ⟨hnot, fun hstopped => ?_⟩
        obtain ⟨-, tx, hpend, -⟩ := hstopped
        exact absurd hpend (by simp [pendingTx])
      | true =>
        rw [resultAtomic_iff_of_filled hpay hc hs]
        exact (and_iff_right hnot).symm
  · exact resultAtomic_iff_of_not_created fun payload hpay hc => hcreated ⟨payload, hpay, hc⟩

end

end PsbtEngine

/-- Both writers: an export always keeps its promise, and a result exactly when neither
file the call has created is cut short. -/
theorem writers_atomic_iff (w : Wally) (env : PsbtEngine.WriteEnv) (e : PsbtEngine)
    (alsoFinalTx : Bool) (clock laterClock : Clock) (os : Attempt) (we : WalletExport)
    (files : Disk Char) (dir fileName : String) :
    ExportAtomic clock files we (writeWalletExport clock laterClock os files we dir fileName) ∧
    (PsbtEngine.ResultAtomic w files e dir alsoFinalTx
        (PsbtEngine.writeResult w env files e dir fileName alsoFinalTx)
      ↔ ¬ PsbtEngine.PsbtStopped w env files e dir fileName
        ∧ ¬ PsbtEngine.TxStopped w env files e dir fileName alsoFinalTx) :=
  ⟨exportAtomic clock laterClock os files we dir fileName, PsbtEngine.resultAtomic_iff⟩

/-! ### A write cut short

The stick is full: the first `write` takes one byte of the result, the second fails. -/

/-- A library that serialises every PSBT alike. -/
def printingLibrary : Wally :=
  { Wally.failing with psbtToBase64 := fun _ => some "cHNidP8=" }

/-- An engine that holds an empty PSBT. -/
def holdingEngine : PsbtEngine :=
  { network := .mainnet
    psbt := some { version := 0, tx := none, inputs := [], outputs := [] } }

/-- The outside of the call: a clock that is set, and a stick that fills up. -/
def fullStick : PsbtEngine.WriteEnv where
  clock := ⟨some ⟨2026, 8, 11, 19, 4, 38⟩, none⟩
  laterClock := ⟨some ⟨2026, 8, 11, 19, 4, 38⟩, none⟩
  psbtFile := { writes := [.wrote ⟨1, by decide⟩, .error] }
  txFile := {}

/-- The failed call leaves the one byte behind, under the name the operator chose. -/
theorem result_left_cut_short :
    ¬ PsbtEngine.ResultAtomic printingLibrary (fun _ => none) holdingEngine "/data" false
      (PsbtEngine.writeResult printingLibrary fullStick (fun _ => none) holdingEngine
        "/data" "mine" false) := by
  intro h
  have hleft : (PsbtEngine.writeResult printingLibrary fullStick (fun _ => none) holdingEngine
      "/data" "mine" false).files "/data/mine.psbt" = some (.file ['c']) := by decide
  have hfailed : (PsbtEngine.writeResult printingLibrary fullStick (fun _ => none) holdingEngine
      "/data" "mine" false).result
        = .error "could not write /data/mine.psbt. Is the data partition present and writable?" := by
    rfl
  rw [h.restored _ hfailed] at hleft
  exact absurd hleft (by simp)

end SignerOS
