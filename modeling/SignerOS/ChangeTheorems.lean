import SignerOS.Session

/-!
# What counts as our change

The ownership of an output in the summary, put back together from the entries of its output
map: which entries name the master, and what the key derived along each says about the
script. The order of the entries does not matter.

* `summarise_outputs`, the outputs of the summary, one by one;
* `VerdictSpec`, the precedence in the words of the entries, and `changeVerdict_spec`;
* `change_verdict`, the summary has that verdict, whatever the order, and a `mismatch`
  closes the gate.
-/

namespace SignerOS

variable {w : Wally} {network : Network} {loose : Bool} {key : ExtKey} {psbt : Psbt} {tx : Tx}

/-! ## The outputs of the summary -/

theorem summarise_outputs (hx : w.psbtExtract psbt .nonFinal = some tx) :
    (summarise w network loose (.hold key) psbt).outputs =
      tx.outputs.mapIdx fun i out =>
        evaluateOutput w key (masterFingerprint w (.hold key)) psbt tx i
          (outputInfo w network psbt.outputs[i]? out) := by
  rw [summarise_of_extract hx, deriveFindings_eq]
  exact evaluateSignability_outputs

/-- An output with an output map has the verdict of its entries. -/
theorem summarise_ownership (network : Network) (loose : Bool) (key : ExtKey) {i : ℕ}
    {po : PsbtOutput} {out : TxOutput}
    (hx : w.psbtExtract psbt .nonFinal = some tx) (hpo : psbt.outputs[i]? = some po)
    (hout : tx.outputs[i]? = some out) (hret : isOpReturnScript out.script = false) :
    ∃ info, (summarise w network loose (.hold key) psbt).outputs[i]? = some info ∧
      info.ownership = changeVerdict w key po out := by
  refine ⟨evaluateOutput w key (masterFingerprint w (.hold key)) psbt tx i
    (outputInfo w network psbt.outputs[i]? out), ?_, ?_⟩
  · rw [summarise_outputs hx, List.getElem?_mapIdx, hout, Option.map_some]
  · exact evaluateOutput_ownership hpo hout (by rw [outputInfo_isOpReturn, hret])

/-! ## The precedence -/

/-- Some entry of the two maps has the property. -/
def SomeEntry (po : PsbtOutput) (p : KeypathItem → Prop) : Prop :=
  ∃ item, (item ∈ po.keypaths ∨ item ∈ po.taprootLeafPaths) ∧ p item

/-- Some entry names the master, its path derives, and the key's verdict is `v`. -/
def EntrySays (w : Wally) (key : ExtKey) (po : PsbtOutput) (out : TxOutput)
    (v : OutputOwnership) : Prop :=
  SomeEntry po fun item => NamesMaster w key item ∧ DerivesTo w key (changeTarget po out) item v

/-- The verdict on an output, in the words of its entries. -/
structure VerdictSpec (w : Wally) (key : ExtKey) (po : PsbtOutput) (out : TxOutput)
    (ownership : OutputOwnership) : Prop where
  verified : ownership = .verified ↔ EntrySays w key po out .verified
  mismatch : ownership = .mismatch ↔
    ¬ EntrySays w key po out .verified ∧ EntrySays w key po out .mismatch
  unverifiable : ownership = .unverifiable ↔
    ¬ EntrySays w key po out .verified ∧ ¬ EntrySays w key po out .mismatch ∧
      SomeEntry po (NamesMaster w key)
  thirdParty : ownership = .thirdParty ↔ ¬ SomeEntry po (NamesMaster w key)

theorem someEntry_iff {po : PsbtOutput} {p : KeypathItem → Prop} :
    SomeEntry po p ↔ ∃ item ∈ changeEntries po, p item := by
  simp only [SomeEntry, changeEntries, List.mem_append]

/-- Which verdicts occur among those of the entries. -/
theorem mem_entryVerdicts (w : Wally) (key : ExtKey) (po : PsbtOutput) (out : TxOutput)
    {v : OutputOwnership} (hv : ∀ item, entryVerdict w key (changeTarget po out) item = some v ↔
      NamesMaster w key item ∧ DerivesTo w key (changeTarget po out) item v) :
    v ∈ (changeEntries po).filterMap (entryVerdict w key (changeTarget po out))
      ↔ EntrySays w key po out v := by
  rw [List.mem_filterMap, EntrySays, someEntry_iff]
  simp only [hv]

theorem changeVerdict_spec (w : Wally) (key : ExtKey) (po : PsbtOutput) (out : TxOutput) :
    VerdictSpec w key po out (changeVerdict w key po out) := by
  have hver := mem_entryVerdicts w key po out fun _ => entryVerdict_eq_verified
  have hmis := mem_entryVerdicts w key po out fun _ => entryVerdict_eq_mismatch
  have hnil : (changeEntries po).filterMap (entryVerdict w key (changeTarget po out)) = []
      ↔ ¬ SomeEntry po (NamesMaster w key) := by
    rw [filterMap_entryVerdict_eq_nil, someEntry_iff]
    push Not
    rfl
  -- one value of the verdict at a time
  refine ⟨?_, ?_, ?_, ?_⟩
  · rw [changeVerdict, mergeVerdicts_eq_verified, hver]
  · rw [changeVerdict, mergeVerdicts_eq_mismatch, hver, hmis]
  · rw [changeVerdict, mergeVerdicts_eq_unverifiable, hver, hmis, ne_eq, hnil, not_not]
  · rw [changeVerdict, mergeVerdicts_eq_thirdParty, hnil]

/-! ## The order of the entries -/

/-- The same output map, with the entries inside each of its two maps in another order. -/
structure SameEntries (po po' : PsbtOutput) : Prop where
  keypaths : po'.keypaths.Perm po.keypaths
  taprootLeafPaths : po'.taprootLeafPaths.Perm po.taprootLeafPaths
  psbtFields : po'.psbtFields = po.psbtFields
  taprootTree : po'.taprootTree = po.taprootTree

theorem changeVerdict_congr {po po' : PsbtOutput} (h : SameEntries po po') (out : TxOutput) :
    changeVerdict w key po' out = changeVerdict w key po out := by
  have htarget : changeTarget po' out = changeTarget po out := by
    unfold changeTarget
    rw [h.psbtFields, h.taprootTree]
  unfold changeVerdict
  rw [htarget]
  exact mergeVerdicts_perm ((h.keypaths.append h.taprootLeafPaths).filterMap _)

/-! ## A mismatch closes the gate -/

theorem safeToSign_of_mismatch (network : Network) (loose : Bool) {i : ℕ} {po : PsbtOutput}
    {out : TxOutput}
    (hx : w.psbtExtract psbt .nonFinal = some tx) (hpo : psbt.outputs[i]? = some po)
    (hout : tx.outputs[i]? = some out) (hret : isOpReturnScript out.script = false)
    (h : changeVerdict w key po out = .mismatch) :
    (summarise w network loose (.hold key) psbt).safeToSign = false := by
  rw [Bool.eq_false_iff]
  intro hsafe
  have hno := ((safeToSign_summarise_iff loose).mp hsafe).noMismatch hx rfl
  exact hno i po out hpo hout hret h

theorem sign_refuses_of_not_safe {slot : KeySlot} {e : PsbtEngine}
    (h : e.summary.safeToSign = false) : ∃ err, e.sign w slot = (.error err, e) := by
  rcases PsbtEngine.sign_cases w slot e with
    ⟨err, -, hs⟩ | ⟨psbt, key, -, hgate, -, -⟩ | ⟨psbt, key, hgate, -, -⟩
  · exact ⟨err, hs⟩
  · exact absurd (PsbtEngine.signGate_eq_ok.mp hgate).2.2.1 (by simp [h])
  · exact absurd (PsbtEngine.signGate_eq_ok.mp hgate).2.2.1 (by simp [h])

/-- The summary of a PSBT under a key: an output with an output map has the verdict of its
entries, the same for every order of the entries, and when it is a `mismatch` nothing is
signed. -/
theorem change_verdict (w : Wally) (network : Network) (loose : Bool) (key : ExtKey)
    (psbt : Psbt) (tx : Tx) (i : ℕ) (po : PsbtOutput) (out : TxOutput)
    (hx : w.psbtExtract psbt .nonFinal = some tx) (hpo : psbt.outputs[i]? = some po)
    (hout : tx.outputs[i]? = some out) (hret : isOpReturnScript out.script = false) :
    ∃ info, (summarise w network loose (.hold key) psbt).outputs[i]? = some info ∧
      VerdictSpec w key po out info.ownership ∧
      (∀ psbt' po', w.psbtExtract psbt' .nonFinal = some tx → psbt'.outputs[i]? = some po' →
        SameEntries po po' →
        ∃ info', (summarise w network loose (.hold key) psbt').outputs[i]? = some info' ∧
          info'.ownership = info.ownership) ∧
      (info.ownership = .mismatch →
        (summarise w network loose (.hold key) psbt).safeToSign = false ∧
        ∀ e : PsbtEngine, e.summary = summarise w network loose (.hold key) psbt →
          ∃ err, e.sign w (.hold key) = (.error err, e)) := by
  obtain ⟨info, hinfo, hown⟩ := summarise_ownership network loose key hx hpo hout hret
  refine ⟨info, hinfo, hown ▸ changeVerdict_spec w key po out, ?_, ?_⟩
  · intro psbt' po' hx' hpo' hsame
    obtain ⟨info', hinfo', hown'⟩ := summarise_ownership network loose key hx' hpo' hout hret
    exact ⟨info', hinfo', by rw [hown', hown, changeVerdict_congr hsame]⟩
  · intro hmis
    have hclosed := safeToSign_of_mismatch network loose hx hpo hout hret (hown.symm.trans hmis)
    exact ⟨hclosed, fun e he => sign_refuses_of_not_safe (he ▸ hclosed)⟩

/-! ### One change output -/

def changeFingerprint : Fingerprint := #v[0x73, 0xc5, 0xda, 0x0a]

/-- A library in which every key is the same and every output pays it. -/
def changeLibrary : Wally :=
  { Wally.failing with
    psbtExtract := fun _ _ => some ⟨2, 0, [], [⟨900, [0x00, 0x14]⟩]⟩
    bip32KeyGetFingerprint := fun _ => some changeFingerprint
    bip32KeyFromParentPath := fun key _ _ => some key
    scriptpubkeyGetType := fun _ => .p2wpkh
    witnessProgramFromBytes := fun _ _ => some [0x00, 0x14] }

/-- The output map names the master, with a path of two elements. -/
def changeMap : PsbtOutput := { keypaths := [⟨[], some changeFingerprint, some [1, 7]⟩] }

def changePsbt : Psbt where
  version := 2
  tx := none
  inputs := []
  outputs := [changeMap]

theorem change_verdict_verified :
    ∃ info, (summarise changeLibrary .mainnet false (.hold default) changePsbt).outputs[0]?
        = some info ∧ info.ownership = .verified := by
  obtain ⟨info, hinfo, hspec, -, -⟩ := change_verdict changeLibrary .mainnet false default
    changePsbt _ 0 changeMap ⟨900, [0x00, 0x14]⟩ rfl rfl rfl (by decide)
  refine ⟨info, hinfo, hspec.verified.mpr ⟨_, Or.inl (List.mem_singleton_self _), ?_⟩⟩
  exact ⟨⟨changeFingerprint, rfl, rfl⟩, [1, 7], default, rfl, by decide, by decide, rfl, by decide⟩

end SignerOS
