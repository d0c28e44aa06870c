import SignerOS.Bookkeeping
import SignerOS.GateTheorems

/-!
# The amounts behind the fee

The fee an operator confirms is a difference of two sums, over amounts the file supplies.
Two things can be wrong with it: an amount may be one nobody vouches for, and the sums may
have wrapped.

* `Authenticated`, an amount a signature or a transaction id commits to, and `Forgeable`,
  the inputs whose amount the engine takes from elsewhere;
* `amountsAuthenticated_iff`, when an open gate means authenticated amounts;
* `ExactTotals`, totals that are the sums they stand for;
* `noWrappedTotals_iff`, when an open gate means exact totals.
-/

namespace SignerOS

open WrapSum (wrapSum exactSum)

/-! ## Where an amount comes from -/

def kPsbtInRedeemScript : UInt32 := 0x04

/-- A version opcode, then one push of 2 to 40 bytes that ends the script. -/
def isWitnessProgram : Bytes → Bool
  | version :: len :: program =>
    (version == 0x00 || (0x51 ≤ version && version ≤ 0x60)) && len.toNat == program.length
      && 2 ≤ program.length && program.length ≤ 40
  | _ => false

section
variable (w : Wally)

/-- The script spent is a witness program, or a P2SH of one the input supplies: its
signatures commit to the amount. -/
def SpendsSegwit (inp : PsbtInput) (script : Bytes) : Prop :=
  isWitnessProgram script = true ∨
    ∃ redeem, psbtField inp.psbtFields kPsbtInRedeemScript = some redeem ∧
      p2shOf w redeem = some script ∧ isWitnessProgram redeem = true

/-- The transaction is the one the outpoint names. -/
def NamesTx (txin : TxInput) (prev : Tx) : Prop := w.txGetTxid prev = some txin.txhash

/-- An amount that cannot be lied about. -/
def Authenticated (txin : Option TxInput) (inp : PsbtInput) : AmountSource → Prop
  | .witnessUtxo utxo => SpendsSegwit w inp utxo.script
  | .nonWitnessUtxo prevout =>
    ∃ prev ti, inp.utxo = some prev ∧ txin = some ti ∧
      prev.outputs[ti.index.toNat]? = some prevout ∧ NamesTx w ti prev
  | .explicitAmount _ => False
  | .missing => False

/-- An input whose amount the engine takes on the file's word: a `witness_utxo` for a script
that is not segwit, a `non_witness_utxo` that is not the transaction spent, or, with neither
to look at, the explicit amount. -/
inductive Forgeable (txin : Option TxInput) (inp : PsbtInput) : Prop
  | witnessUtxo (utxo : TxOutput) (h : inp.witnessUtxo = some utxo)
    (hscript : ¬ SpendsSegwit w inp utxo.script)
  | nonWitnessUtxo (prev : Tx) (ti : TxInput) (prevout : TxOutput) (h : inp.witnessUtxo = none)
    (hprev : inp.utxo = some prev) (hti : txin = some ti)
    (hprevout : prev.outputs[ti.index.toNat]? = some prevout) (htx : ¬ NamesTx w ti prev)
  | explicitAmount (h : inp.witnessUtxo = none) (hprev : inp.utxo = none ∨ txin = none)
    (hamount : inp.hasAmount = true)

end

section
variable {w : Wally} {txin : Option TxInput} {inp : PsbtInput}

theorem amountSource_witnessUtxo {utxo : TxOutput} (h : inp.witnessUtxo = some utxo) :
    amountSource txin inp = .witnessUtxo utxo := by
  unfold amountSource
  rw [h]

theorem amountSource_nonWitnessUtxo {prev : Tx} {ti : TxInput} {prevout : TxOutput}
    (h : inp.witnessUtxo = none) (hprev : inp.utxo = some prev) (hti : txin = some ti)
    (hprevout : prev.outputs[ti.index.toNat]? = some prevout) :
    amountSource txin inp = .nonWitnessUtxo prevout := by
  unfold amountSource
  rw [h, hprev, hti]
  simp only [hprevout]

theorem amountSource_explicitAmount (h : inp.witnessUtxo = none)
    (hprev : inp.utxo = none ∨ txin = none) (hamount : inp.hasAmount = true) :
    amountSource txin inp = .explicitAmount inp.amount := by
  unfold amountSource
  rw [h]
  rcases hprev with hprev | hti
  · rw [hprev]
    simp [hamount]
  · rw [hti]
    cases inp.utxo <;> simp [hamount]

/-- A known amount is authenticated exactly when the input is not a forgeable one. -/
theorem authenticated_iff (hknown : (amountSource txin inp).known = true) :
    Authenticated w txin inp (amountSource txin inp) ↔ ¬ Forgeable w txin inp := by
  constructor
  · intro h hf
    -- each kind of forgeable input is also the source the engine takes
    cases hf with
    | witnessUtxo utxo hw hscript =>
      rw [amountSource_witnessUtxo hw] at h
      exact hscript h
    | nonWitnessUtxo prev ti prevout hw hprev hti hprevout htx =>
      rw [amountSource_nonWitnessUtxo hw hprev hti hprevout] at h
      obtain ⟨prev', ti', hprev', hti', -, hnames⟩ := h
      have h1 : prev' = prev := Option.some.inj (hprev'.symm.trans hprev)
      have h2 : ti' = ti := Option.some.inj (hti'.symm.trans hti)
      exact htx (h1 ▸ h2 ▸ hnames)
    | explicitAmount hw hprev hamount =>
      rw [amountSource_explicitAmount hw hprev hamount] at h
      exact h
  · intro hnot
    cases hw : inp.witnessUtxo with
    | some utxo =>
      rw [amountSource_witnessUtxo hw]
      by_contra hscript
      exact hnot (.witnessUtxo utxo hw hscript)
    | none =>
      -- the engine looks at the previous transaction only with an input to look it up by
      by_cases hboth : ∃ prev ti, inp.utxo = some prev ∧ txin = some ti
      · obtain ⟨prev, ti, hprev, hti⟩ := hboth
        cases hout : prev.outputs[ti.index.toNat]? with
        | none => exact absurd hknown (by simp [amountSource, hw, hprev, hti, hout,
            AmountSource.known])
        | some prevout =>
          rw [amountSource_nonWitnessUtxo hw hprev hti hout]
          by_contra htx
          refine hnot (.nonWitnessUtxo prev ti prevout hw hprev hti hout fun hnames => htx ?_)
          exact ⟨prev, ti, hprev, hti, hout, hnames⟩
      · have hprev : inp.utxo = none ∨ txin = none := by
          by_contra h
          push Not at h
          obtain ⟨prev, hp⟩ := Option.ne_none_iff_exists'.mp h.1
          obtain ⟨ti, ht⟩ := Option.ne_none_iff_exists'.mp h.2
          exact hboth ⟨prev, ti, hp, ht⟩
        cases hamount : inp.hasAmount with
        | true => exact absurd (.explicitAmount hw hprev hamount) hnot
        | false =>
          have hmissing : amountSource txin inp = .missing := by
            unfold amountSource
            rw [hw]
            rcases hprev with hp | ht
            · rw [hp]
              simp [hamount]
            · rw [ht]
              cases inp.utxo <;> simp [hamount]
          rw [hmissing] at hknown
          exact absurd hknown (by simp [AmountSource.known])

end

/-! ## An open gate over authenticated amounts -/

/-- With the gate open, the total of the inputs is made of authenticated amounts. -/
def AmountsAuthenticated (w : Wally) (e : PsbtEngine) : Prop :=
  ∀ psbt tx, e.psbt = some psbt → w.psbtExtract psbt .nonFinal = some tx →
    e.summary.safeToSign = true →
    e.summary.totalInSat = wrapSum ((inputSources psbt tx).map AmountSource.amountSat) ∧
    ∀ (i : ℕ) inp, psbt.inputs[i]? = some inp →
      Authenticated w tx.inputs[i]? inp (amountSource tx.inputs[i]? inp)

/-- A PSBT that passes the gate has no input whose amount is forgeable. -/
def NothingForgeable (w : Wally) (resident : Option ExtKey) (psbt : Psbt) : Prop :=
  SafeGate w resident psbt → ∀ tx, w.psbtExtract psbt .nonFinal = some tx →
    ∀ (i : ℕ) inp, psbt.inputs[i]? = some inp → ¬ Forgeable w tx.inputs[i]? inp

theorem amountSource_known_of_safe {w : Wally} {resident : Option ExtKey} {psbt : Psbt} {tx : Tx}
    {i : ℕ} {inp : PsbtInput} (hsafe : SafeGate w resident psbt)
    (hx : w.psbtExtract psbt .nonFinal = some tx) (hinp : psbt.inputs[i]? = some inp) :
    (amountSource tx.inputs[i]? inp).known = true := by
  exact Indexed.forall_mem_mapIdx.mp (hsafe.fileGate hx).amountsKnown i inp hinp

/-- After every successful load: an open gate means authenticated amounts exactly when the
PSBT, if it passes the gate, has no input whose amount is forgeable. -/
theorem amountsAuthenticated_iff (w : Wally) (slot : KeySlot) (e e' : PsbtEngine) (path : String)
    (file : FileNode) (h : e.load w slot path file = (.ok (), e')) :
    AmountsAuthenticated w e'
      ↔ ∀ psbt, e'.psbt = some psbt → NothingForgeable w slot.resident psbt := by
  rcases PsbtEngine.load_cases w e path file with ⟨err, hl⟩ | ⟨psbt, loose, hl⟩
  · exact absurd ((hl slot).symm.trans h) (by simp)
  · have he' := (Prod.mk.inj ((hl slot).symm.trans h)).2
    subst he'
    unfold AmountsAuthenticated NothingForgeable
    constructor
    · intro hall psbt' hpsbt' hsafe tx hx i inp hinp
      have hp : psbt = psbt' := Option.some.inj hpsbt'
      subst hp
      have hauth := (hall psbt tx rfl hx ((safeToSign_summarise_iff loose).mpr hsafe)).2 i inp hinp
      exact (authenticated_iff (amountSource_known_of_safe hsafe hx hinp)).mp hauth
    · intro hall psbt' tx hpsbt' hx hopen
      have hp : psbt = psbt' := Option.some.inj hpsbt'
      subst hp
      have hsafe := (safeToSign_summarise_iff loose).mp hopen
      refine ⟨?_, fun i inp hinp => ?_⟩
      · show (summarise w e.network loose slot psbt).totalInSat = _
        rw [(books_summarise w e.network loose slot psbt).totalIn, summarise_inputAmounts loose hx]
      · exact (authenticated_iff (amountSource_known_of_safe hsafe hx hinp)).mpr
          (hall psbt rfl hsafe tx hx i inp hinp)

/-! ### An explicit amount

The only input comes with no previous output at all, and with an amount. -/

def explicitPsbt : Psbt where
  version := 2
  tx := none
  inputs := [{ hasAmount := true, amount := 1000, keypaths := [Session.someKeypath] }]
  outputs := [{}]

def explicitLibrary : Wally :=
  { Wally.failing with
    psbtFromBase64 := fun _ _ => some explicitPsbt
    psbtExtract := fun _ _ => some Session.paymentTx }

/-- The engine after the file is loaded, without a key. -/
def explicitEngine : PsbtEngine :=
  (({ network := .mainnet } : PsbtEngine).load explicitLibrary .clear "/data/payment.psbt"
    (.regular 4 [.data [0x41, 0x41, 0x41, 0x41]])).2

theorem explicitPsbt_safe : SafeGate explicitLibrary none explicitPsbt := by
  refine ⟨Session.paymentTx, rfl, ?_, fun key h => absurd h (by simp)⟩
  exact ⟨by decide, by decide, by decide, by decide, by decide, ⟨_, List.mem_singleton_self _, rfl⟩⟩

/-- The gate is open, over an amount nobody vouches for. -/
theorem explicit_amount_accepted : ¬ AmountsAuthenticated explicitLibrary explicitEngine := by
  intro h
  have hopen : (summarise explicitLibrary .mainnet false .clear explicitPsbt).safeToSign = true :=
    (safeToSign_summarise_iff false).mpr explicitPsbt_safe
  exact (h explicitPsbt Session.paymentTx rfl rfl hopen).2 0 _ rfl

theorem amountsAuthenticated_iff_explicit :
    AmountsAuthenticated explicitLibrary explicitEngine
      ↔ ∀ psbt, explicitEngine.psbt = some psbt → NothingForgeable explicitLibrary none psbt :=
  amountsAuthenticated_iff explicitLibrary .clear { network := .mainnet } explicitEngine
    "/data/payment.psbt" (.regular 4 [.data [0x41, 0x41, 0x41, 0x41]]) rfl

/-! ### A previous output that is not segwit

An ordinary file can carry this one: the output spent stands in `witness_utxo`, and its script is
P2PKH. No signature commits to its amount. -/

def pubkeyHashScript : Bytes := [0x76, 0xa9, 0x14] ++ List.replicate 20 0x11 ++ [0x88, 0xac]

def pubkeyHashPsbt : Psbt where
  version := 0
  tx := some Session.paymentTx
  inputs := [{ witnessUtxo := some ⟨1000, pubkeyHashScript⟩, keypaths := [Session.someKeypath] }]
  outputs := [{}]

def pubkeyHashLibrary : Wally :=
  { explicitLibrary with psbtFromBase64 := fun _ _ => some pubkeyHashPsbt }

/-- The engine after this file is loaded, without a key. -/
def pubkeyHashEngine : PsbtEngine :=
  (({ network := .mainnet } : PsbtEngine).load pubkeyHashLibrary .clear "/data/payment.psbt"
    (.regular 4 [.data [0x41, 0x41, 0x41, 0x41]])).2

theorem pubkeyHashPsbt_safe : SafeGate pubkeyHashLibrary none pubkeyHashPsbt := by
  refine ⟨Session.paymentTx, rfl, ?_, fun key h => absurd h (by simp)⟩
  exact ⟨by decide, by decide, by decide, by decide, by decide, ⟨_, List.mem_singleton_self _, rfl⟩⟩

/-- The gate is open over this amount too. -/
theorem pubkeyHash_amount_accepted :
    ¬ AmountsAuthenticated pubkeyHashLibrary pubkeyHashEngine := by
  intro h
  have hopen :
      (summarise pubkeyHashLibrary .mainnet false .clear pubkeyHashPsbt).safeToSign = true :=
    (safeToSign_summarise_iff false).mpr pubkeyHashPsbt_safe
  obtain hprogram | ⟨redeem, hredeem, -⟩ :=
    (h pubkeyHashPsbt Session.paymentTx rfl rfl hopen).2 0 _ rfl
  · exact absurd hprogram (by decide)
  · exact absurd hredeem (by simp [psbtField])

/-! ## Totals that wrap -/

/-- What the inputs of the PSBT sum to. -/
def exactIn (psbt : Psbt) (tx : Tx) : ℕ :=
  exactSum ((inputSources psbt tx).map AmountSource.amountSat)

/-- What the outputs of the transaction sum to. -/
def exactOut (tx : Tx) : ℕ := exactSum (tx.outputs.map TxOutput.satoshi)

theorem toNat_totalOut (tx : Tx) : (totalOut tx).toNat = exactOut tx % 2 ^ 64 :=
  WrapSum.toNat_wrapSum _

/-- The totals of the summary are the sums and differences they stand for. The fee being one
of naturals, the outputs do not exceed the inputs. -/
structure ExactTotals (psbt : Psbt) (tx : Tx) (s : TxSummary) : Prop where
  totalIn : s.totalInSat.toNat = exactIn psbt tx
  totalOut : s.totalOutSat.toNat = exactOut tx
  fee : s.feeSat.toNat + exactOut tx = exactIn psbt tx
  change : s.verifiedChangeSat.toNat = exactSum s.changeAmounts
  leaving : s.leavingSat.toNat + exactSum s.changeAmounts = exactOut tx

/-- With the gate open, the totals are exact. -/
def NoWrappedTotals (w : Wally) (network : Network) (loose : Bool) (slot : KeySlot)
    (psbt : Psbt) : Prop :=
  ∀ tx, w.psbtExtract psbt .nonFinal = some tx →
    (summarise w network loose slot psbt).safeToSign = true →
    ExactTotals psbt tx (summarise w network loose slot psbt)

/-- A PSBT that passes the gate has amounts that sum below `2 ^ 64` on both sides. -/
def SumsBelow (w : Wally) (resident : Option ExtKey) (psbt : Psbt) : Prop :=
  ∀ tx, w.psbtExtract psbt .nonFinal = some tx → SafeGate w resident psbt →
    exactIn psbt tx < 2 ^ 64 ∧ exactOut tx < 2 ^ 64

/-- Past the gate the fee is known. -/
theorem feeKnown_of_safe {w : Wally} {network : Network} {loose : Bool} {slot : KeySlot}
    {psbt : Psbt} {tx : Tx} (hx : w.psbtExtract psbt .nonFinal = some tx)
    (hsafe : SafeGate w slot.resident psbt) :
    (summarise w network loose slot psbt).feeKnown = true := by
  -- the gate has looked at the amounts of the file, which a key does not change
  have hfile := hsafe.fileGate hx
  have hkeyless : allow (keylessChecks loose (describe w network psbt tx)) = true :=
    (allow_keylessChecks_describe loose).mpr hfile
  obtain ⟨-, -, -, hknown, htotals, -⟩ := (allow_keylessChecks _ _).mp hkeyless
  have hdescribe : (describe w network psbt tx).feeKnown = true :=
    feeBooks_describe.known.mpr ⟨hknown, htotals⟩
  rw [summarise_of_extract hx, deriveFindings_eq]
  show (evaluateSignability w slot psbt tx (describe w network psbt tx)).fileView.feeKnown = true
  rw [fileView_evaluateSignability]
  exact hdescribe

theorem noWrappedTotals_iff (w : Wally) (network : Network) (loose : Bool) (slot : KeySlot)
    (psbt : Psbt) :
    NoWrappedTotals w network loose slot psbt ↔ SumsBelow w slot.resident psbt := by
  have hbooks := books_summarise w network loose slot psbt
  unfold NoWrappedTotals SumsBelow
  refine forall₂_congr fun tx hx => ?_
  rw [safeToSign_summarise_iff]
  have hin : exactIn psbt tx = exactSum (summarise w network loose slot psbt).inputAmounts := by
    rw [exactIn, summarise_inputAmounts loose hx]
  have hout : exactOut tx = exactSum (summarise w network loose slot psbt).outputAmounts := by
    rw [exactOut, summarise_outputAmounts loose hx]
  refine forall_congr' fun hsafe => ⟨fun h => ?_, fun h => ?_⟩
  · -- a sum that is a 64-bit total is below 2 ^ 64
    rw [← h.totalIn, ← h.totalOut]
    exact ⟨UInt64.toNat_lt _, UInt64.toNat_lt _⟩
  · have hexact := hbooks.exact ⟨hin ▸ h.1, hout ▸ h.2⟩
    have hknown : (summarise w network loose slot psbt).feeKnown = true := feeKnown_of_safe hx hsafe
    have hfee : FeeBooks (summarise w network loose slot psbt) := feeBooks_summarise loose hx
    have hle := (hfee.known.mp hknown).2
    have hfeeSat := congrArg UInt64.toNat (hfee.fee hknown)
    rw [UInt64.toNat_sub_of_le _ _ hle] at hfeeSat
    have hle' := UInt64.le_iff_toNat_le.mp hle
    have htotalIn := hexact.totalIn
    have htotalOut := hexact.totalOut
    have hchange := hexact.change
    have hchangeLe := hexact.change_le
    have hleaving := hexact.leaving
    exact ⟨by omega, by omega, by omega, hchange, by omega⟩

/-! ### Outputs that wrap around

8785 outputs of 21 million bitcoin each are more than `2 ^ 64` satoshi together. In 64 bits
they come to less than 18 bitcoin, which the one input of 20 covers. -/

def maxMoney : UInt64 := 2100000000000000

def wrappingTx : Tx where
  version := 2
  locktime := 0
  inputs := [⟨.replicate 32 0, 0, 0xfffffffd, [], []⟩]
  outputs := List.replicate 8785 ⟨maxMoney, []⟩

def wrappingPsbt : Psbt where
  version := 0
  tx := some wrappingTx
  inputs := [{ witnessUtxo := some ⟨2000000000000000, Session.taprootScript⟩
               taprootLeafPaths := [Session.someKeypath] }]
  outputs := List.replicate 8785 {}

def wrappingLibrary : Wally := { Wally.failing with psbtExtract := fun _ _ => some wrappingTx }

theorem exactOut_wrappingTx : exactOut wrappingTx = 18448500000000000000 := by
  unfold exactOut wrappingTx
  rw [List.map_replicate, WrapSum.exactSum_replicate]
  rfl

theorem wrappingPsbt_safe : SafeGate wrappingLibrary none wrappingPsbt := by
  refine ⟨wrappingTx, rfl, ?_, fun key h => absurd h (by simp)⟩
  have hout : (totalOut wrappingTx).toNat = 1755926290448384 := by
    rw [toNat_totalOut, exactOut_wrappingTx]
    decide
  have hin : (totalIn wrappingPsbt wrappingTx).toNat = 2000000000000000 := by decide
  refine ⟨by decide, ?_, by decide, by decide, ?_, ⟨_, List.mem_singleton_self _, rfl⟩⟩
  · exact List.cons_ne_nil _ _
  · rw [UInt64.le_iff_toNat_le, hout, hin]
    decide

/-- The gate is open, and the outputs exceed the inputs. -/
theorem wrapped_totals_accepted :
    ¬ NoWrappedTotals wrappingLibrary .mainnet false .clear wrappingPsbt := by
  intro h
  have hfee := (h wrappingTx rfl ((safeToSign_summarise_iff false).mpr wrappingPsbt_safe)).fee
  have hin : exactIn wrappingPsbt wrappingTx = 2000000000000000 := by decide
  rw [exactOut_wrappingTx, hin] at hfee
  omega

end SignerOS
