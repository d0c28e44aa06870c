import SignerOS.Lib.Decimal
import SignerOS.ExportTheorems
import SignerOS.FileNameTheorems
import SignerOS.WriterTheorems

/-!
# Where the writers write

Both writers create their files exclusively, under names of one path component: what the operator
typed, reduced, or a name that is proposed.

* `NameChars`, no slash and no terminator, and what is printed without them;
* `resultName_eq` and `exportName_eq`, the names a file goes by;
* `writers_stay_inside`, no file that was there is touched, and every new one is in the directory.
-/

namespace SignerOS

open Files (Disk Attempt AddsOnly)
open PsbtEngine (WriteEnv WriteOutcome resultName resultPath txPathOf writeTx writeResult)

/-! ## Characters of a name -/

/-- The text could be a part of a file name. -/
def NameChars (s : String) : Prop := ∀ c ∈ s.toList, c ≠ '/' ∧ c ≠ '\x00'

instance (s : String) : Decidable (NameChars s) :=
  List.decidableBAll (fun c => c ≠ '/' ∧ c ≠ '\x00') s.toList

theorem NameChars.append {s t : String} (hs : NameChars s) (ht : NameChars t) :
    NameChars (s ++ t) := by
  intro c hc
  rw [String.toList_append] at hc
  rcases List.mem_append.mp hc with hc | hc
  · exact hs c hc
  · exact ht c hc

theorem nameChars_of_isDigit {s : String} (h : ∀ c ∈ s.toList, c.isDigit = true) :
    NameChars s := by
  intro c hc
  have hdigit := h c hc
  constructor
  · rintro rfl
    exact absurd hdigit (by decide)
  · rintro rfl
    exact absurd hdigit (by decide)

theorem nameChars_toString (n : ℕ) : NameChars (toString n) :=
  nameChars_of_isDigit fun _ => Decimal.isDigit_of_mem_toString

theorem nameChars_zeroPadded (width n : ℕ) : NameChars (zeroPadded width n) := by
  refine nameChars_of_isDigit fun c hc => ?_
  unfold zeroPadded at hc
  dsimp only at hc
  rw [String.toList_ofList] at hc
  rcases List.mem_append.mp hc with hc | hc
  · rw [List.eq_of_mem_replicate hc]
    rfl
  · exact Decimal.isDigit_of_mem_toString hc

theorem nameChars_fileTimestamp (clock : Clock) : NameChars (fileTimestamp clock).1 := by
  have hunset : NameChars ("noclock-" ++ zeroPadded 6 (clock.uptime.getD 0)) :=
    .append (by decide) (nameChars_zeroPadded 6 _)
  unfold fileTimestamp
  cases clock.localTime with
  | none => exact hunset
  | some tm =>
    dsimp only
    split
    · have hdate := ((nameChars_zeroPadded 4 tm.year).append
        (nameChars_zeroPadded 2 tm.month)).append (nameChars_zeroPadded 2 tm.day)
      have hdash : NameChars "-" := by decide
      exact ((((hdate.append hdash).append (nameChars_zeroPadded 2 tm.hour)).append
        (nameChars_zeroPadded 2 tm.minute)).append (nameChars_zeroPadded 2 tm.second))
    · exact hunset

theorem nameChars_hexOf (bytes : Bytes) : NameChars (hexOf bytes) := by
  intro c hc
  refine ⟨?_, ?_⟩
  · rintro rfl
    exact not_mem_hexOf (by decide) bytes hc
  · rintro rfl
    exact not_mem_hexOf (by decide) bytes hc

theorem nameChars_of_keepsChar {s : String} (h : ∀ c ∈ s.toList, keepsChar c = true ∧ c ≠ '/') :
    NameChars s := by
  intro c hc
  obtain ⟨hkept, hslash⟩ := h c hc
  refine ⟨hslash, ?_⟩
  rintro rfl
  exact absurd hkept (by decide)

/-! ## Names of one component -/

/-- A single path component. -/
structure Component (name : String) : Prop where
  chars : NameChars name
  ne_empty : name ≠ ""
  ne_dot : name ≠ "."
  ne_dots : name ≠ ".."

/-- A name that goes on with an extension is neither of the two special entries. -/
theorem component_append {stem ext : String} (hstem : NameChars stem) (hext : NameChars ext)
    (hlen : 3 ≤ ext.toList.length) : Component (stem ++ ext) := by
  have hlong : 3 ≤ (stem ++ ext).toList.length := by
    rw [String.toList_append, List.length_append]
    omega
  have hne {special : String} (hshort : special.toList.length < 3) : stem ++ ext ≠ special := by
    intro h
    rw [h] at hlong
    omega
  exact ⟨hstem.append hext, hne (by decide), hne (by decide), hne (by decide)⟩

/-- A stem, not empty, and an extension. -/
def HasStem (ext name : String) : Prop := ∃ stem, stem ≠ "" ∧ NameChars stem ∧ name = stem ++ ext

/-- What is proposed has a stem. -/
theorem hasStem_freeFileName (files : Disk Char) (dir : String) {stem ext : String}
    (hne : stem ≠ "") (hstem : NameChars stem) : HasStem ext (freeFileName files dir stem ext) := by
  obtain ⟨j, -, heq, -, -⟩ := freeFileName_eq files dir stem ext
  rw [heq]
  cases j with
  | zero => exact ⟨stem, hne, hstem, rfl⟩
  | succ n =>
    have hdash : NameChars "-" := by decide
    refine ⟨stem ++ "-" ++ toString (n + 2), ?_, (hstem.append hdash).append ?_, rfl⟩
    · intro h
      have hempty := congrArg String.toList h
      rw [String.toList_append, String.toList_append] at hempty
      exact hne (String.toList_inj.mp
        (List.append_eq_nil_iff.mp (List.append_eq_nil_iff.mp hempty).1).1)
    · exact nameChars_toString (n + 2)

/-- What is typed has a stem, where anything is left of it. -/
theorem hasStem_sanitiseFileName {name suffix : String} (hsuffix : suffix ∈ callerSuffixes)
    (h : (sanitiseFileName name suffix).isEmpty = false) :
    HasStem suffix (sanitiseFileName name suffix) := by
  rcases sanitiseFileName_cases name suffix with hempty | ⟨hne, hname⟩
  · rw [hempty] at h
    exact absurd h (by decide)
  · obtain ⟨stem, hstem, happend⟩ := withSuffix_eq_append suffix.toList hne
    refine ⟨String.ofList stem, fun hnil => ?_, ?_, ?_⟩
    · exact hstem (by rw [← String.toList_ofList (l := stem), hnil]; rfl)
    · refine nameChars_of_keepsChar fun c hc => ?_
      rw [String.toList_ofList] at hc
      have hmem : c ∈ withSuffix (nameStem name) suffix.toList := by
        rw [happend]
        exact List.mem_append_left _ hc
      exact mem_withSuffix (plainSuffix_of_caller hsuffix) hmem
    · refine String.toList_inj.mp ?_
      rw [hname, happend, String.toList_append, String.toList_ofList]

/-- A result has a stem. -/
theorem hasStem_resultName (files : Disk Char) (clock : Clock) (dir fileName : String) :
    HasStem ".psbt" (resultName files clock dir fileName) := by
  unfold resultName
  dsimp only
  split
  · refine hasStem_freeFileName files dir ?_ (.append (by decide) (nameChars_fileTimestamp clock))
    intro h
    have hempty := congrArg String.toList h
    rw [String.toList_append] at hempty
    exact absurd (List.append_eq_nil_iff.mp hempty).1 (by decide)
  · rename_i h
    exact hasStem_sanitiseFileName (by decide) (Bool.eq_false_iff.mpr h)

/-- The transaction next to a result: the extension is exchanged. -/
theorem txNameOf_append {stem : String} (hne : stem ≠ "") :
    txNameOf (stem ++ ".psbt") = stem ++ ".tx" := by
  have hpos : 0 < stem.toList.length := by
    refine List.length_pos_iff.mpr fun hnil => hne ?_
    exact String.toList_inj.mp hnil
  have hlen : ".psbt".toList.length < (stem.toList ++ ".psbt".toList).length := by
    rw [List.length_append]
    omega
  unfold txNameOf
  dsimp only
  rw [String.toList_append, if_pos ⟨hlen, List.suffix_append _ _⟩, List.length_append,
    Nat.add_sub_cancel, List.take_left, String.ofList_toList]

/-! ## The files -/

/-- What was there is as it was, and what is new has one of the names, directly in the
directory. -/
structure StaysInside (dir : String) (names : List String) (files files' : Disk Char) : Prop where
  kept : ∀ path, files path ≠ none → files' path = files path
  placed : ∀ path, files path = none → files' path ≠ none →
    ∃ name ∈ names, path = pathIn dir name
  component : ∀ name ∈ names, Component name

theorem staysInside_of_addsOnly {dir : String} {names : List String} {files files' : Disk Char}
    (h : AddsOnly (fun path => ∃ name ∈ names, path = pathIn dir name) files files')
    (hnames : ∀ name ∈ names, Component name) : StaysInside dir names files files' :=
  ⟨fun _ hthere => h.kept hthere, fun _ hnone hnew => h.placed hnone hnew, hnames⟩

section
variable {w : Wally} {env : WriteEnv} {files : Disk Char} {e : PsbtEngine} {dir fileName : String}

theorem writeTx_addsOnly {P : String → Prop} (psbt : Psbt) {name : String} (os : Attempt)
    (files : Disk Char) (hpath : P (pathIn dir (txNameOf name))) :
    AddsOnly P files (writeTx w psbt dir name os files).2 ∧
      ∀ path, (writeTx w psbt dir name os files).1 = some path →
        path = pathIn dir (txNameOf name) := by
  have hcreate (tx : String) := Files.create_addsOnly hpath files tx.toList os
  unfold writeTx
  cases PsbtEngine.finalTxPayload w psbt with
  | none => exact ⟨.refl P files, fun _ h => by simp at h⟩
  | some tx =>
    dsimp only
    specialize hcreate tx
    split
    · exact ⟨.refl P files, fun _ h => by simp at h⟩
    · split
      · rename_i heq
        rw [heq] at hcreate
        exact ⟨hcreate, fun _ h => (Option.some.inj h).symm⟩
      · rename_i heq
        rw [heq] at hcreate
        exact ⟨hcreate, fun _ h => by simp at h⟩

/-- A result adds the `.psbt` and the `.tx`, and reports no other. -/
theorem writeResult_addsOnly {P : String → Prop} (alsoFinalTx : Bool)
    (hpsbt : P (resultPath env files dir fileName))
    (htx : P (txPathOf env files dir fileName)) :
    AddsOnly P files (writeResult w env files e dir fileName alsoFinalTx).files ∧
      (∀ path, (writeResult w env files e dir fileName alsoFinalTx).psbtPath = some path →
        path = resultPath env files dir fileName) ∧
      ∀ path, (writeResult w env files e dir fileName alsoFinalTx).txPath = some path →
        path = txPathOf env files dir fileName := by
  unfold resultPath at hpsbt ⊢
  unfold txPathOf at htx ⊢
  have hcreate (payload : String) :=
    Files.create_addsOnly hpsbt files payload.toList env.psbtFile
  unfold writeResult
  cases e.psbt with
  | none => exact ⟨.refl P files, fun _ h => by simp at h, fun _ h => by simp at h⟩
  | some psbt =>
    dsimp only
    cases PsbtEngine.resultPayload w psbt with
    | none => exact ⟨.refl P files, fun _ h => by simp at h, fun _ h => by simp at h⟩
    | some payload =>
      dsimp only
      specialize hcreate payload
      split
      · exact ⟨.refl P files, fun _ h => by simp at h, fun _ h => by simp at h⟩
      · split
        · rename_i filled heq
          rw [heq] at hcreate
          refine ⟨?_, fun _ h => (Option.some.inj h).symm, ?_⟩
          · -- the transaction is added to what the result has left
            cases alsoFinalTx with
            | false => exact hcreate
            | true => exact hcreate.trans (writeTx_addsOnly psbt env.txFile filled htx).1
          · intro path h
            cases alsoFinalTx with
            | false => exact absurd h (by simp)
            | true => exact (writeTx_addsOnly psbt env.txFile filled htx).2 path h
        · rename_i heq
          rw [heq] at hcreate
          exact ⟨hcreate, fun _ h => by simp at h, fun _ h => by simp at h⟩

/-- An export adds one file, and reports no other; one that it cannot finish it removes. -/
theorem writeWalletExport_addsOnly {P : String → Prop} (clock laterClock : Clock) (os : Attempt)
    (we : WalletExport) (hpath : P (pathIn dir (exportName files laterClock we dir fileName))) :
    AddsOnly P files (writeWalletExport clock laterClock os files we dir fileName).files ∧
      ∀ path, (writeWalletExport clock laterClock os files we dir fileName).pathOut = some path →
        path = pathIn dir (exportName files laterClock we dir fileName) := by
  unfold writeWalletExport
  by_cases hnone : we.accounts.isEmpty = true
  · rw [if_pos hnone]
    exact ⟨.refl P files, fun _ h => by simp at h⟩
  · rw [if_neg hnone]
    dsimp only
    generalize pathIn dir (exportName files laterClock we dir fileName) = path at hpath ⊢
    generalize (renderWalletExport we (fileTimestamp clock).1).toList = payload
    by_cases hc : Files.Creates files path os
    · by_cases hs : Files.Stops payload.length os
      · -- nobody else has put a file there, so it is the partial one that is unlinked
        obtain ⟨content, -, hcreate⟩ := Files.create_failed hc hs
        rw [hcreate]
        refine ⟨?_, fun _ h => by simp at h⟩
        dsimp only
        rw [Files.unlink_create hc.1]
        exact .refl P files
      · have hadds := Files.create_addsOnly hpath files payload os
        rw [Files.create_complete hc hs] at hadds ⊢
        exact ⟨hadds, fun _ h => (Option.some.inj h).symm⟩
    · rw [Files.create_refused _ hc]
      exact ⟨.refl P files, fun _ h => by simp at h⟩

end

/-- The fingerprint of an export is printed in hexadecimal, or there is none. -/
theorem nameChars_fingerprint (w : Wally) (slot : KeySlot) (mnemonic passphrase : String)
    (network : Network) (account : UInt32) :
    NameChars (buildWalletExport w slot mnemonic passphrase network account).2.1.fingerprint := by
  have hnone : NameChars "" := by decide
  unfold buildWalletExport
  dsimp only
  split
  · exact hnone
  · split
    · exact hnone
    · rename_i we hbuilt
      cases hmaster : PsbtEngine.masterFromMnemonic w network mnemonic passphrase with
      | error err =>
        rw [hmaster] at hbuilt
        exact absurd hbuilt (by simp [Except.bind])
      | ok master =>
        rw [hmaster] at hbuilt
        obtain ⟨⟨bytes, hbytes⟩, -⟩ := exportOfMaster_ok hbuilt
        dsimp only
        rw [hbytes]
        exact nameChars_hexOf bytes

/-- An export has a stem. -/
theorem hasStem_exportName (files : Disk Char) (clock : Clock) {we : WalletExport}
    (hfingerprint : NameChars we.fingerprint) (dir fileName : String) :
    ∃ ext ∈ [".txt", ".descriptors.txt"], HasStem ext (exportName files clock we dir fileName) := by
  unfold exportName
  dsimp only
  split
  · refine ⟨".descriptors.txt", by simp, hasStem_freeFileName files dir ?_ ?_⟩
    · intro h
      have hempty := congrArg String.toList h
      rw [String.toList_append, String.toList_append, String.toList_append] at hempty
      exact absurd (List.append_eq_nil_iff.mp (List.append_eq_nil_iff.mp
        (List.append_eq_nil_iff.mp hempty).1).1).1 (by decide)
    · exact .append (.append (.append (by decide) hfingerprint) (by decide))
        (nameChars_fileTimestamp clock)
  · rename_i h
    exact ⟨".txt", by simp, hasStem_sanitiseFileName (by decide) (Bool.eq_false_iff.mpr h)⟩

/-- Whatever the operator typed and whatever is on the stick: a result goes to two names of one
stem at most and an export to one, nothing that was there is touched, and the names are single path
components in the directory. -/
theorem writers_stay_inside (w : Wally) (env : WriteEnv) (clock laterClock : Clock) (os : Attempt)
    (files : Disk Char) (e : PsbtEngine) (slot : KeySlot) (mnemonic passphrase : String)
    (network : Network) (account : UInt32) (dir fileName : String) (alsoFinalTx : Bool) :
    let result := writeResult w env files e dir fileName alsoFinalTx
    let we := (buildWalletExport w slot mnemonic passphrase network account).2.1
    let exported := writeWalletExport clock laterClock os files we dir fileName
    (∃ stem, StaysInside dir [stem ++ ".psbt", stem ++ ".tx"] files result.files ∧
      (∀ path, result.psbtPath = some path → path = pathIn dir (stem ++ ".psbt")) ∧
      ∀ path, result.txPath = some path → path = pathIn dir (stem ++ ".tx")) ∧
    ∃ name, StaysInside dir [name] files exported.files ∧
      ∀ path, exported.pathOut = some path → path = pathIn dir name := by
  intro result we exported
  constructor
  · obtain ⟨stem, hne, hstem, hname⟩ := hasStem_resultName files env.laterClock dir fileName
    have hpsbt : resultPath env files dir fileName = pathIn dir (stem ++ ".psbt") := by
      rw [resultPath, hname]
    have htx : txPathOf env files dir fileName = pathIn dir (stem ++ ".tx") := by
      rw [txPathOf, hname, txNameOf_append hne]
    obtain ⟨hadds, hpsbtPath, htxPath⟩ := writeResult_addsOnly (w := w) (e := e) alsoFinalTx
      (P := fun path => ∃ name ∈ [stem ++ ".psbt", stem ++ ".tx"], path = pathIn dir name)
      ⟨_, List.mem_cons_self, hpsbt⟩ ⟨_, List.mem_cons_of_mem _ List.mem_cons_self, htx⟩
    refine ⟨stem, staysInside_of_addsOnly hadds fun name hmem => ?_, ?_, ?_⟩
    · rcases List.mem_pair.mp hmem with rfl | rfl
      · exact component_append hstem (by decide) (by decide)
      · exact component_append hstem (by decide) (by decide)
    · rwa [hpsbt] at hpsbtPath
    · rwa [htx] at htxPath
  · obtain ⟨ext, hext, stem, -, hstem, hname⟩ := hasStem_exportName files laterClock
      (nameChars_fingerprint w slot mnemonic passphrase network account) dir fileName
    obtain ⟨hadds, hpath⟩ := writeWalletExport_addsOnly clock laterClock os we
      (P := fun path => ∃ name ∈ [exportName files laterClock we dir fileName],
        path = pathIn dir name) ⟨_, List.mem_cons_self, rfl⟩
    refine ⟨_, staysInside_of_addsOnly hadds fun name hmem => ?_, hpath⟩
    rw [List.mem_singleton.mp hmem, hname]
    rcases List.mem_pair.mp hext with rfl | rfl
    · exact component_append hstem (by decide) (by decide)
    · exact component_append hstem (by decide) (by decide)

end SignerOS
