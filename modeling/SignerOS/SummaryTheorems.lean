import SignerOS.GateTheorems
import SignerOS.Bookkeeping

/-!
# The summary over whole sessions

The totals of the summary are written by `resummarise`, by `evaluateSignability`, by
`clearKey` and by `unload`, and a failing call can return half way through any of the
operations that use them. In every state a session reaches the totals still follow from the
inputs and outputs listed, and nothing rests on a key that is not there.

* `SessionBooks`, the invariant, and `sessionBooks_of_effect`, that every step keeps it;
* `AmountsFit` and `sumsFit_of_effect`, when the sums do not wrap;
* `summary_bookkept`, the books in unbounded integers, in every reachable state.
-/

namespace SignerOS

open WrapSum (exactSum)

namespace Session

variable {w : Wally} {s s' : Session} {op : Op}

/-! ## The invariant -/

/-- The books of the engine's summary. Without a fee, either nothing is held or the PSBT
held describes no transaction and the gate is closed. -/
structure SessionBooks (w : Wally) (s : Session) : Prop where
  books : Books s.engine.summary
  fee : FeeBooks s.engine.summary ∨
    ∀ psbt, s.engine.psbt = some psbt →
      w.psbtExtract psbt .nonFinal = none ∧ s.engine.summary.safeToSign = false
  keyless : s.slot.resident = none → Keyless s.engine.summary

theorem sessionBooks_start (network : Network) : SessionBooks w (start network) :=
  ⟨books_empty, Or.inr fun _ h => absurd h (by simp [start]), fun _ => keyless_empty⟩

/-- The fee of a cleared summary, over the same PSBT. -/
theorem SessionBooks.fee_cleared (h : SessionBooks w s) :
    FeeBooks s.engine.clearKey.2.summary ∨
      ∀ psbt, s.engine.psbt = some psbt →
        w.psbtExtract psbt .nonFinal = none ∧ s.engine.clearKey.2.summary.safeToSign = false :=
  h.fee.imp FeeBooks.cleared fun hnone => hnone

theorem sessionBooks_of_effect (h : Effect w s op s') (hs : SessionBooks w s) :
    SessionBooks w s' := by
  cases h with
  | kept findings =>
    obtain ⟨hb, hf, hk⟩ := hs
    refine ⟨⟨hb.totalIn, hb.totalOut, hb.change, hb.leaving, hb.signable⟩, ?_, fun hr => ?_⟩
    · exact hf.imp (fun hf => ⟨hf.known, hf.fee⟩) fun hnone => hnone
    · exact ⟨(hk hr).unchecked, (hk hr).unsigned, (hk hr).unverified⟩
  | emptied =>
    exact ⟨books_empty, Or.inr fun _ h => absurd h (by simp [PsbtEngine.unload]),
      fun _ => keyless_empty⟩
  -- `clearKey` and a setter that fails leave the same summary
  | cleared => exact ⟨hs.books.cleared, hs.fee_cleared, fun _ => keyless_clearedSummary _⟩
  | keyed key hnone =>
    exact ⟨hs.books.cleared, hs.fee_cleared, fun hr => absurd hr (by simp)⟩
  | summarised s' psbt hpsbt hsummary =>
    refine ⟨?_, ?_, fun hr => ?_⟩
    · rw [hsummary]
      exact books_summarise w _ _ _ _
    · -- without a transaction there is no fee, and the gate is closed
      cases hx : w.psbtExtract psbt .nonFinal with
      | none =>
        refine Or.inr fun psbt' hpsbt' => ?_
        rw [hpsbt, Option.some.injEq] at hpsbt'
        subst hpsbt'
        rw [hsummary, summarise_of_no_extract hx]
        exact ⟨hx, rfl⟩
      | some tx =>
        rw [hsummary]
        exact Or.inl (feeBooks_summarise _ hx)
    · rw [hsummary]
      exact keyless_summarise _ hr
  | mutated psbt key hop hgate hfail =>
    obtain ⟨hpsbt, hkey, hsafe, -⟩ := PsbtEngine.signGate_eq_ok.mp hgate
    refine ⟨hs.books, ?_, fun hr => absurd (hkey.symm.trans hr) (by simp)⟩
    -- the gate was open, so the summary that is left describes a transaction
    refine hs.fee.imp_right fun hnone => ?_
    exact absurd (hnone psbt hpsbt).2 (by simp [hsafe])

/-- The books are kept in every state a session reaches. -/
theorem sessionBooks_run (network : Network) (ops : List Op) :
    SessionBooks w (Runs.run (step w) (start network) ops) :=
  Runs.run_invariant (fun s op hs => sessionBooks_of_effect (step_effect w s op) hs) ops
    (sessionBooks_start network)

/-! ## Sums that do not wrap -/

/-- The amounts of the PSBT held sum below `2 ^ 64`. -/
def AmountsFit (w : Wally) (s : Session) : Prop :=
  ∀ psbt tx, s.engine.psbt = some psbt → w.psbtExtract psbt .nonFinal = some tx →
    exactSum ((inputSources psbt tx).map AmountSource.amountSat) < 2 ^ 64 ∧
      exactSum (tx.outputs.map TxOutput.satoshi) < 2 ^ 64

theorem sumsFit_empty : SumsFit {} := ⟨by decide, by decide⟩

theorem sumsFit_cleared (h : SumsFit s.engine.summary) :
    SumsFit s.engine.clearKey.2.summary := by
  refine ⟨?_, ?_⟩
  · show exactSum (PsbtEngine.clearedSummary s.engine.summary).inputAmounts < _
    rw [clearedSummary_inputAmounts]
    exact h.inputs
  · show exactSum (PsbtEngine.clearedSummary s.engine.summary).outputAmounts < _
    rw [clearedSummary_outputAmounts]
    exact h.outputs

theorem sumsFit_of_effect (h : Effect w s op s') (hs : SumsFit s.engine.summary)
    (hfit : AmountsFit w s') : SumsFit s'.engine.summary := by
  cases h with
  | kept findings => exact ⟨hs.inputs, hs.outputs⟩
  | emptied => exact sumsFit_empty
  | cleared => exact sumsFit_cleared hs
  | keyed key hnone => exact sumsFit_cleared hs
  | summarised s' psbt hpsbt hsummary =>
    rw [hsummary]
    cases hx : w.psbtExtract psbt .nonFinal with
    | none =>
      rw [summarise_of_no_extract hx]
      exact ⟨sumsFit_empty.inputs, sumsFit_empty.outputs⟩
    | some tx =>
      obtain ⟨hin, hout⟩ := hfit psbt tx hpsbt hx
      refine ⟨?_, ?_⟩
      · rw [summarise_inputAmounts _ hx]
        exact hin
      · rw [summarise_outputAmounts _ hx]
        exact hout
  | mutated psbt key hop hgate hfail => exact hs

/-! ## The books -/

/-- What the operator reads off the summary. -/
structure Bookkept (w : Wally) (s : Session) : Prop where
  change : s.engine.summary.verifiedChangeSat.toNat = exactSum s.engine.summary.changeAmounts
  leaving : s.engine.summary.leavingSat.toNat + s.engine.summary.verifiedChangeSat.toNat
    = s.engine.summary.totalOutSat.toNat
  payments : s.engine.summary.leavingSat.toNat = exactSum s.engine.summary.paymentAmounts
  totals : s.engine.summary.totalInSat.toNat = exactSum s.engine.summary.inputAmounts ∧
    s.engine.summary.totalOutSat.toNat = exactSum s.engine.summary.outputAmounts
  signable : s.engine.summary.signableInputs = s.engine.summary.inputs.countP InputInfo.canSign
  fee : ∀ psbt tx, s.engine.psbt = some psbt → w.psbtExtract psbt .nonFinal = some tx →
    (s.engine.summary.feeKnown = true ↔
      (∀ i ∈ s.engine.summary.inputs, i.amountKnown = true) ∧
        s.engine.summary.totalOutSat ≤ s.engine.summary.totalInSat) ∧
    (s.engine.summary.feeKnown = true →
      s.engine.summary.feeSat.toNat + s.engine.summary.totalOutSat.toNat
        = s.engine.summary.totalInSat.toNat)
  keyless : s.slot.resident = none →
    s.engine.summary.ownershipChecked = false ∧
      (∀ i ∈ s.engine.summary.inputs, i.canSign = false) ∧
      (∀ o ∈ s.engine.summary.outputs,
        o.ownership ≠ .verified ∧ o.ownership ≠ .mismatch ∧ o.ownership ≠ .unverifiable) ∧
      s.engine.summary.verifiedChangeSat = 0 ∧
      s.engine.summary.leavingSat = s.engine.summary.totalOutSat

theorem SessionBooks.bookkept (h : SessionBooks w s) (hfit : SumsFit s.engine.summary) :
    Bookkept w s := by
  have hexact := h.books.exact hfit
  have hleaving := hexact.leaving
  have hle := hexact.change_le
  refine ⟨hexact.change, by omega, hexact.payments, ⟨hexact.totalIn, hexact.totalOut⟩,
    h.books.signable, fun psbt tx hpsbt hx => ?_, fun hr => ?_⟩
  · have hfee : FeeBooks s.engine.summary := by
      rcases h.fee with hfee | hnone
      · exact hfee
      · exact absurd ((hnone psbt hpsbt).1.symm.trans hx) (by simp)
    refine ⟨hfee.known, fun hknown => ?_⟩
    have hle := (hfee.known.mp hknown).2
    rw [hfee.fee hknown, UInt64.toNat_sub_of_le _ _ hle]
    exact Nat.sub_add_cancel (UInt64.le_iff_toNat_le.mp hle)
  · have hk := h.keyless hr
    refine ⟨hk.unchecked, hk.unsigned, fun o ho => ?_, hk.change h.books, hk.leaving h.books⟩
    rcases hk.unverified o ho with hown | hown <;> simp [hown]

/-- In every state a session reaches the books are kept, as long as the amounts of no PSBT it
holds on the way sum to `2 ^ 64` or more. -/
theorem summary_bookkept (w : Wally) (network : Network) (ops : List Op)
    (hfit : ∀ ops', ops' <+: ops → AmountsFit w (Runs.run (step w) (start network) ops')) :
    Bookkept w (Runs.run (step w) (start network) ops) := by
  have hsums : SumsFit (Runs.run (step w) (start network) ops).engine.summary :=
    Runs.Along.invariant (I := fun s => SumsFit s.engine.summary)
      (fun s op hs hop => sumsFit_of_effect (step_effect w s op) hs hop) sumsFit_empty
      (Runs.along_of_forall_prefix hfit)
  exact (sessionBooks_run network ops).bookkept hsums

theorem summary_bookkept_keyed :
    Bookkept taprootLibrary (Runs.run (step taprootLibrary) (start .mainnet) keyedSession) := by
  refine summary_bookkept taprootLibrary .mainnet keyedSession fun ops' hops => ?_
  have hsums : exactSum ((inputSources taprootPsbt paymentTx).map AmountSource.amountSat) < 2 ^ 64 ∧
      exactSum (paymentTx.outputs.map TxOutput.satoshi) < 2 ^ 64 := by decide
  intro psbt tx hpsbt hx
  have htx : paymentTx = tx := Option.some.inj hx
  simp only [keyedSession, List.prefix_cons_iff, List.prefix_nil] at hops
  rcases hops with rfl | ⟨_, rfl, rfl | ⟨_, rfl, rfl⟩⟩
  · exact absurd hpsbt (by simp [start])
  · have hp : taprootPsbt = psbt := Option.some.inj hpsbt
    exact hp ▸ htx ▸ hsums
  · have hp : taprootPsbt = psbt := Option.some.inj hpsbt
    exact hp ▸ htx ▸ hsums

end Session

end SignerOS
