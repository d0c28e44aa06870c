import SignerOS.ClearKeyTheorems

/-!
# What a key adds to the findings

The findings, the gate and its reason are read off the calls `deriveFindings` makes. Under a key
these are the calls made without one and some more, so what was said is kept.
-/

namespace SignerOS

/-! ## Entering a key only adds -/

/-- One verdict keeps what another has said: its findings come first, it allows nothing the
other refuses, and a reason that was given stays. -/
structure OnlyAdds (before after : TxSummary) : Prop where
  findings : before.findings <+: after.findings
  gate : after.safeToSign = true → before.safeToSign = true
  reason : before.blockReason ≠ "" → after.blockReason = before.blockReason

theorem OnlyAdds.refl (s : TxSummary) : OnlyAdds s s := ⟨List.prefix_rfl, id, fun _ => rfl⟩

/-- `block` keeps the first reason. -/
theorem recordedReason_of_ne_empty {before : String} (h : before ≠ "") (calls : List Check) :
    recordedReason before calls = before := by
  induction calls with
  | nil => rfl
  | cons c calls ih =>
    have hstep : (if before.isEmpty then c.reason.getD before else before) = before :=
      if_neg (mt String.isEmpty_iff.mp h)
    rw [recordedReason, List.foldl_cons, hstep]
    exact ih

section
variable {w : Wally} {psbt : Psbt} {tx : Tx}

theorem evaluateSignability_findings (network : Network) (slot : KeySlot) :
    (evaluateSignability w slot psbt tx (describe w network psbt tx)).findings = [] := by
  unfold evaluateSignability
  split <;> rfl

/-- The findings are those of the calls, in their order. -/
theorem findings_summarise (network : Network) (loose : Bool) (slot : KeySlot)
    (hx : w.psbtExtract psbt .nonFinal = some tx) :
    (summarise w network loose slot psbt).findings =
      (checks w slot loose (evaluateSignability w slot psbt tx (describe w network psbt tx))).map
        Check.finding := by
  rw [summarise_of_extract hx, deriveFindings_eq]
  dsimp only
  rw [evaluateSignability_findings, List.nil_append]

theorem safeToSign_summarise (network : Network) (loose : Bool) (slot : KeySlot)
    (hx : w.psbtExtract psbt .nonFinal = some tx) :
    (summarise w network loose slot psbt).safeToSign =
      allow (checks w slot loose
        (evaluateSignability w slot psbt tx (describe w network psbt tx))) := by
  rw [summarise_of_extract hx, deriveFindings_eq]

theorem blockReason_summarise (network : Network) (loose : Bool) (slot : KeySlot)
    (hx : w.psbtExtract psbt .nonFinal = some tx) :
    (summarise w network loose slot psbt).blockReason =
      recordedReason "" (checks w slot loose
        (evaluateSignability w slot psbt tx (describe w network psbt tx))) := by
  rw [summarise_of_extract hx, deriveFindings_eq]

end

/-- The verdict on a PSBT under a key is the one without a key and what is added to it. -/
theorem key_entry_only_adds (w : Wally) (network : Network) (loose : Bool) (key : ExtKey)
    (psbt : Psbt) :
    OnlyAdds (summarise w network loose .clear psbt)
      (summarise w network loose (.hold key) psbt) := by
  cases hx : w.psbtExtract psbt .nonFinal with
  | none =>
    rw [summarise_of_no_extract hx, summarise_of_no_extract hx]
    exact OnlyAdds.refl _
  | some tx =>
    constructor
    · rw [findings_summarise network loose _ hx, findings_summarise network loose _ hx,
        checks_hold, checks_clear, List.map_append]
      exact List.prefix_append _ _
    · intro hsafe
      rw [safeToSign_summarise network loose _ hx, checks_hold, allow_append,
        Bool.and_eq_true] at hsafe
      rw [safeToSign_summarise network loose _ hx, checks_clear]
      exact hsafe.1
    · rw [blockReason_summarise network loose _ hx, blockReason_summarise network loose _ hx,
        checks_hold, checks_clear, recordedReason_append]
      intro hreason
      exact recordedReason_of_ne_empty hreason _

end SignerOS
