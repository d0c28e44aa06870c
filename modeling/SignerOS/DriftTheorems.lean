import SignerOS.FindingsTheorems
import SignerOS.FindingTexts

/-!
# When change to another account is reported

The account coins are spent from is read off the path shown for an input. That path is taken
from `keypaths`: it belongs to the first entry there that names our master, or else to the first
entry of all, and a taproot input, whose paths are in `taproot_leaf_paths`, shows none.

* `SpentFrom`, the accounts the coins are spent from, and `mem_inputAccounts`, the ones the
  findings know;
* `drift_reported_iff`, where the difference does not show.
-/

namespace SignerOS

section
variable (w : Wally) (key : ExtKey) (psbt : Psbt)

/-! ## The accounts of the inputs -/

/-- The first entry of a map that names the master of this fingerprint. -/
def firstNamed (ourFp : String) (items : List KeypathItem) : Option (String × String) :=
  items.findSome? fun item =>
    match keypathEntry item with
    | some (fp, path) => if fp = ourFp then some (fp, path) else none
    | none => none

/-- The entry of an input that names our master: the first one in `keypaths`, or else in
`taproot_leaf_paths`. -/
def ownEntry (inp : PsbtInput) : Option (String × String) :=
  (firstNamed (masterFingerprint w (.hold key)) inp.keypaths).or
    (firstNamed (masterFingerprint w (.hold key)) inp.taprootLeafPaths)

/-- A property of some input that the key can sign. -/
def ForSomeSignable (p : PsbtInput → Prop) : Prop :=
  ∃ i inp, psbt.inputs[i]? = some inp ∧ inputSignable w key psbt i = true ∧ p inp

/-- Coins are spent from this account. -/
def SpentFrom (a : String) : Prop :=
  a ≠ "" ∧ ForSomeSignable w key psbt fun inp =>
    ∃ own, ownEntry w key inp = some own ∧ pathAccountPrefix own.2 = a

/-- The account of an input whose `keypaths` name our master. -/
def Known (a : String) : Prop :=
  a ≠ "" ∧ ForSomeSignable w key psbt fun inp =>
    ∃ own, ourKeypath (masterFingerprint w (.hold key)) inp = some own ∧
      pathAccountPrefix own.2 = a

/-- The account of an input that names our master in `taproot_leaf_paths` only. -/
def Hidden (a : String) : Prop :=
  a ≠ "" ∧ ForSomeSignable w key psbt fun inp =>
    ourKeypath (masterFingerprint w (.hold key)) inp = none ∧
      ∃ own, firstNamed (masterFingerprint w (.hold key)) inp.taprootLeafPaths = some own ∧
        pathAccountPrefix own.2 = a

/-- The account in the first entry of an input whose `keypaths` name other masters only. -/
def Foreign (a : String) : Prop :=
  a ≠ "" ∧ ForSomeSignable w key psbt fun inp =>
    ourKeypath (masterFingerprint w (.hold key)) inp = none ∧
      pathAccountPrefix (inputHint inp).2 = a

/-- It makes no difference to change in this account that the hidden accounts are not known and
the foreign ones are taken for ours. -/
structure ReadAlike (a : String) : Prop where
  hidden : ¬ Known w key psbt a → Hidden w key psbt a →
    Foreign w key psbt a ∨ ∀ b, ¬ Known w key psbt b ∧ ¬ Foreign w key psbt b
  other : ¬ Known w key psbt a → ¬ Hidden w key psbt a →
    (∃ b, Known w key psbt b ∨ Hidden w key psbt b) →
      ¬ Foreign w key psbt a ∧ ∃ b, Known w key psbt b ∨ Foreign w key psbt b

end

section
variable {w : Wally} {key : ExtKey} {psbt : Psbt} {tx : Tx}

theorem forSomeSignable_or {p q : PsbtInput → Prop} :
    ForSomeSignable w key psbt (fun inp => p inp ∨ q inp)
      ↔ ForSomeSignable w key psbt p ∨ ForSomeSignable w key psbt q := by
  simp only [ForSomeSignable, and_or_left, exists_or]

theorem forSomeSignable_congr {p q : PsbtInput → Prop} (h : ∀ inp, p inp ↔ q inp) :
    ForSomeSignable w key psbt p ↔ ForSomeSignable w key psbt q := by
  simp only [ForSomeSignable, h]

theorem spentFrom_iff {a : String} :
    SpentFrom w key psbt a ↔ Known w key psbt a ∨ Hidden w key psbt a := by
  rw [SpentFrom, Known, Hidden, ← and_or_left, ← forSomeSignable_or]
  refine and_congr_right fun _ => forSomeSignable_congr fun inp => ?_
  rw [ownEntry, show ourKeypath _ inp = firstNamed _ inp.keypaths from rfl]
  cases firstNamed (masterFingerprint w (.hold key)) inp.keypaths <;> simp

/-- The path shown for an input is one of ours in `keypaths`, or else the first one there. -/
theorem shownAccount_iff {a : String} :
    (a ≠ "" ∧ ForSomeSignable w key psbt fun inp => pathAccountPrefix (inputDerivation w key inp) = a)
      ↔ Known w key psbt a ∨ Foreign w key psbt a := by
  rw [Known, Foreign, ← and_or_left, ← forSomeSignable_or]
  refine and_congr_right fun _ => forSomeSignable_congr fun inp => ?_
  rw [inputDerivation]
  cases ourKeypath (masterFingerprint w (.hold key)) inp <;> simp

/-! ## The accounts the findings know -/

theorem mem_addAccount {accounts : List String} {canSign : Bool} {derivation a : String} :
    a ∈ addAccount accounts canSign derivation
      ↔ a ∈ accounts ∨ (a ≠ "" ∧ canSign = true ∧ pathAccountPrefix derivation = a) := by
  unfold addAccount
  by_cases hskip : canSign = false ∨ derivation = ""
  · rw [if_pos (by simpa using hskip)]
    refine (or_iff_left fun hnew => ?_).symm
    rcases hskip with hsign | hempty
    · exact absurd (hsign.symm.trans hnew.2.1) (by decide)
    · rw [hempty] at hnew
      exact hnew.1 hnew.2.2.symm
  · obtain ⟨hsign, -⟩ := not_or.mp hskip
    rw [if_neg (by simpa using hskip)]
    dsimp only
    by_cases hold : pathAccountPrefix derivation = "" ∨ pathAccountPrefix derivation ∈ accounts
    · rw [if_pos (by simpa using hold)]
      refine (or_iff_left_of_imp fun hnew => ?_).symm
      rw [hnew.2.2] at hold
      exact hold.resolve_left hnew.1
    · obtain ⟨hne, -⟩ := not_or.mp hold
      rw [if_neg (by simpa using hold), List.mem_append, List.mem_singleton]
      refine or_congr_right ⟨fun heq => ?_, fun hnew => hnew.2.2.symm⟩
      rw [heq]
      exact ⟨hne, by simpa using hsign, rfl⟩

theorem mem_inputAccounts {s : TxSummary} {a : String} :
    a ∈ inputAccounts s
      ↔ a ≠ "" ∧ ∃ info ∈ s.inputs, info.canSign = true ∧ pathAccountPrefix info.derivation = a := by
  unfold inputAccounts
  induction s.inputs using List.reverseRecOn with
  | nil => simp
  | append_singleton infos info ih =>
    rw [List.foldl_append, List.foldl_cons, List.foldl_nil, mem_addAccount, ih]
    simp only [List.mem_append, List.mem_singleton, or_and_right, exists_or, exists_eq_left]
    rw [and_or_left]

/-- Under a key the findings know the accounts in the paths shown. -/
theorem mem_inputAccounts_evaluateSignability {network : Network} {a : String} :
    a ∈ inputAccounts (evaluateSignability w (.hold key) psbt tx (describe w network psbt tx))
      ↔ Known w key psbt a ∨ Foreign w key psbt a := by
  rw [mem_inputAccounts, ← shownAccount_iff, evaluateSignability_inputs]
  refine and_congr_right fun _ => ?_
  constructor
  · rintro ⟨info, hinfo, hsign, hacct⟩
    obtain ⟨i, hi, rfl⟩ := List.mem_mapIdx.mp hinfo
    have hget : psbt.inputs[i]? = some psbt.inputs[i] := List.getElem?_eq_getElem hi
    rw [evaluateInput_derivation i _ hget] at hacct
    rw [evaluateInput_canSign _ hget rfl] at hsign
    exact ⟨i, _, hget, hsign, hacct⟩
  · rintro ⟨i, inp, hget, hsign, hacct⟩
    obtain ⟨hi, rfl⟩ := List.getElem?_eq_some_iff.mp hget
    refine ⟨_, List.mem_mapIdx.mpr ⟨i, hi, rfl⟩, ?_, ?_⟩
    · rw [evaluateInput_canSign _ hget rfl]
      exact hsign
    · rw [evaluateInput_derivation i _ hget]
      exact hacct

/-! ## When a warning is given -/

/-- A finding warns of the account of a verified output exactly when the output has one, the
findings know some account, and not that one. -/
theorem warned_iff (network : Network) (loose : Bool)
    (hx : w.psbtExtract psbt .nonFinal = some tx) {i : ℕ} {po : PsbtOutput} {out : TxOutput}
    {path : String} (he : Evaluated psbt tx i po out)
    (hv : changeVerdict w key po out = .verified) (hpath : changePath w key po out = some path) :
    (∃ f ∈ (summarise w network loose (.hold key) psbt).findings, AccountWarning i f)
      ↔ pathAccountPrefix path ≠ "" ∧ (∃ b, Known w key psbt b ∨ Foreign w key psbt b) ∧
        ¬ (Known w key psbt (pathAccountPrefix path)
          ∨ Foreign w key psbt (pathAccountPrefix path)) := by
  have hwarns {calls : List Check} :
      (∃ f ∈ calls.map Check.finding, AccountWarning i f) ↔ Warns i calls := by
    simp only [List.mem_map, exists_exists_and_eq_and]
    rfl
  have hkeyless := (keylessChecks_elsewhere loose (describe w network psbt tx)).not_warns i
  have hknown : inputAccounts
        (evaluateSignability w (.hold key) psbt tx (describe w network psbt tx)) ≠ []
      ↔ ∃ b, Known w key psbt b ∨ Foreign w key psbt b := by
    rw [← List.length_pos_iff, List.length_pos_iff_exists_mem]
    exact exists_congr fun b => mem_inputAccounts_evaluateSignability
  rw [findings_summarise network loose _ hx, checks_hold, hwarns, warns_append,
    or_iff_right hkeyless, addedChecks, warns_keyedChecks_iff, evaluateSignability_outputs,
    List.getElem?_mapIdx, he.output]
  simp only [Option.map_some, Option.some.injEq, exists_eq_left']
  rw [he.evaluateOutput_eq, hpath, PaysElsewhere, hknown, mem_inputAccounts_evaluateSignability]
  exact and_iff_right hv

/-! ## When the warnings are right -/

/-- Every verified output that has an account is warned of if coins are spent from some account
and not from its own, and is not warned of if they are. -/
def DriftReported (w : Wally) (network : Network) (loose : Bool) (key : ExtKey) (psbt : Psbt) :
    Prop :=
  ∀ tx, w.psbtExtract psbt .nonFinal = some tx →
    ∀ i po out, Evaluated psbt tx i po out → changeVerdict w key po out = .verified →
      ∀ path, changePath w key po out = some path → pathAccountPrefix path ≠ "" →
        ((∃ b, SpentFrom w key psbt b) → ¬ SpentFrom w key psbt (pathAccountPrefix path) →
          ∃ f ∈ (summarise w network loose (.hold key) psbt).findings, AccountWarning i f) ∧
        (SpentFrom w key psbt (pathAccountPrefix path) →
          ¬ ∃ f ∈ (summarise w network loose (.hold key) psbt).findings, AccountWarning i f)

/-- An output in this account is warned of as it should be. -/
theorem readAlike_iff {a : String} :
    ReadAlike w key psbt a
      ↔ ((∃ b, SpentFrom w key psbt b) → ¬ SpentFrom w key psbt a →
          (∃ b, Known w key psbt b ∨ Foreign w key psbt b) ∧
            ¬ (Known w key psbt a ∨ Foreign w key psbt a)) ∧
        (SpentFrom w key psbt a →
          ¬ ((∃ b, Known w key psbt b ∨ Foreign w key psbt b) ∧
            ¬ (Known w key psbt a ∨ Foreign w key psbt a))) := by
  simp only [spentFrom_iff]
  constructor
  · rintro ⟨hhidden, hother⟩
    constructor
    · intro hsome hnot
      obtain ⟨hknown, hnothidden⟩ := not_or.mp hnot
      obtain ⟨hforeign, hread⟩ := hother hknown hnothidden hsome
      exact ⟨hread, not_or.mpr ⟨hknown, hforeign⟩⟩
    · rintro hspent ⟨⟨b, hb⟩, hnot⟩
      obtain ⟨hknown, hnotforeign⟩ := not_or.mp hnot
      rcases hhidden hknown (hspent.resolve_left hknown) with hforeign | hnone
      · exact hnotforeign hforeign
      · exact hb.elim (hnone b).1 (hnone b).2
  · rintro ⟨hmissing, hfalse⟩
    constructor
    · intro hknown hhid
      by_contra hnot
      obtain ⟨hforeign, hsome⟩ := not_or.mp hnot
      push Not at hsome
      obtain ⟨b, hb⟩ := hsome
      refine hfalse (.inr hhid) ⟨⟨b, ?_⟩, not_or.mpr ⟨hknown, hforeign⟩⟩
      exact or_iff_not_imp_left.mpr hb
    · intro hknown hhid hsome
      obtain ⟨hread, hnot⟩ := hmissing hsome (not_or.mpr ⟨hknown, hhid⟩)
      exact ⟨(not_or.mp hnot).2, hread⟩

/-- The warnings are right exactly when every verified output that has an account is in one to
which the reading of the paths makes no difference. -/
theorem drift_reported_iff (w : Wally) (network : Network) (loose : Bool) (key : ExtKey)
    (psbt : Psbt) :
    DriftReported w network loose key psbt ↔
      ∀ tx, w.psbtExtract psbt .nonFinal = some tx →
        ∀ i po out, Evaluated psbt tx i po out → changeVerdict w key po out = .verified →
          ∀ path, changePath w key po out = some path → pathAccountPrefix path ≠ "" →
            ReadAlike w key psbt (pathAccountPrefix path) := by
  refine forall₂_congr fun tx hx => forall₃_congr fun i po out => forall₂_congr fun he hv => ?_
  refine forall₃_congr fun path hpath hacct => ?_
  rw [warned_iff network loose hx he hv hpath, readAlike_iff, and_iff_right hacct]

/-- With our master named in the `keypaths` of every input the key signs, the warnings are
right. -/
theorem readAlike_of_named (h : ∀ i inp, psbt.inputs[i]? = some inp →
      inputSignable w key psbt i = true →
      ourKeypath (masterFingerprint w (.hold key)) inp ≠ none) (a : String) :
    ReadAlike w key psbt a := by
  have hhidden (b : String) : ¬ Hidden w key psbt b :=
    fun ⟨_, i, inp, hi, hsign, hnone, _⟩ => h i inp hi hsign hnone
  have hforeign (b : String) : ¬ Foreign w key psbt b :=
    fun ⟨_, i, inp, hi, hsign, hnone, _⟩ => h i inp hi hsign hnone
  constructor
  · intro _ hhid
    exact absurd hhid (hhidden a)
  · rintro _ _ ⟨b, hb⟩
    exact ⟨hforeign a, b, .inl (hb.resolve_right (hhidden b))⟩

end

/-! ### A taproot spend

The one input is a taproot key of account 0, and the one output returns to account 5. -/

def taprootKeypath (account : UInt32) (branch : UInt32) : KeypathItem where
  key := List.replicate 32 0x02
  fingerprint := Session.someKeypath.fingerprint
  path := some [0x80000056, 0x80000000, 0x80000000 + account, branch, 0]

def driftPsbt : Psbt :=
  { Session.taprootPsbt with
    inputs := [{ witnessUtxo := some ⟨1000, Session.taprootScript⟩
                 taprootLeafPaths := [taprootKeypath 0 0] }]
    outputs := [{ taprootLeafPaths := [taprootKeypath 5 1] }] }

/-- A library in which the key derives the key of the output. -/
def driftLibrary : Wally :=
  { Session.decoyLibrary with scriptpubkeyP2trFromBytes := fun _ => some Session.taprootScript }

theorem inputs_driftPsbt {i : ℕ} {inp : PsbtInput} (h : driftPsbt.inputs[i]? = some inp) :
    inp.keypaths = [] := by
  have hmem := List.mem_of_getElem? h
  rw [show driftPsbt.inputs = [_] from rfl, List.mem_singleton] at hmem
  rw [hmem]

/-- The coins go from account 0 to account 5 and no finding says so. -/
theorem taproot_drift_unreported :
    ¬ DriftReported driftLibrary .mainnet false default driftPsbt := by
  intro h
  have he : Evaluated driftPsbt Session.paymentTx 0 { taprootLeafPaths := [taprootKeypath 5 1] }
      ⟨900, Session.taprootScript⟩ := ⟨rfl, rfl, by decide⟩
  have hv : changeVerdict driftLibrary default { taprootLeafPaths := [taprootKeypath 5 1] }
      ⟨900, Session.taprootScript⟩ = .verified := by decide
  have hpath : changePath driftLibrary default { taprootLeafPaths := [taprootKeypath 5 1] }
      ⟨900, Session.taprootScript⟩ = some "m/86'/0'/5'/1/0" := by decide
  have hspent : SpentFrom driftLibrary default driftPsbt "m/86'/0'/0'" :=
    ⟨by decide, 0, _, rfl, by decide, ("d34db33f", "m/86'/0'/0'/0/0"), by decide, by decide⟩
  have hother : ¬ SpentFrom driftLibrary default driftPsbt
      (pathAccountPrefix "m/86'/0'/5'/1/0") := by
    rintro ⟨-, i, inp, hi, -, own, hown, hacct⟩
    have hmem := List.mem_of_getElem? hi
    rw [show driftPsbt.inputs = [_] from rfl, List.mem_singleton] at hmem
    rw [hmem, show ownEntry _ _ _ = some ("d34db33f", "m/86'/0'/0'/0/0") by decide,
      Option.some.injEq] at hown
    rw [← hown] at hacct
    exact absurd hacct (by decide)
  have hwarned := (h Session.paymentTx rfl 0 _ _ he hv _ hpath (by decide)).1 ⟨_, hspent⟩ hother
  rw [warned_iff .mainnet false rfl he hv hpath] at hwarned
  -- but the only input has no `keypaths` to read an account from
  obtain ⟨-, ⟨b, hb⟩, -⟩ := hwarned
  rcases hb with ⟨-, i, inp, hi, -, own, hown, -⟩ | ⟨hne, i, inp, hi, -, -, hacct⟩
  · rw [ourKeypath, inputs_driftPsbt hi] at hown
    exact absurd hown (by simp)
  · rw [inputHint, inputs_driftPsbt hi] at hacct
    exact hne hacct.symm

end SignerOS
