import SignerOS.SignTheorems
import SignerOS.Ui.SigningTheorems

/-!
# The secret fields off the entry page

* `SignView.TypesOffEntry`, the keys of the floating keyboard that type into a buffer although
  the entry page does not show;
* `AppWindow.secret_fields_frozen`, in a run without such a key no event off the entry page
  changes a buffer but by wiping it, and after a successful `doSign` they stay empty;
* `AppWindow.key_typed_on_confirm_page`, a run with such a key.
-/

namespace SignerOS

open Files (Disk)

/-! ## Buffers -/

namespace SecretBuffers

variable {b b' b'' : SecretBuffers}

/-- The buffers of the key, the passphrase and its confirmation are each what they were, or
wiped. -/
def Frozen (b b' : SecretBuffers) : Prop := ∀ f, b'.get f = b.get f ∨ b'.get f = .wiped

theorem Frozen.refl (b : SecretBuffers) : b.Frozen b := fun _ => Or.inl rfl

theorem Frozen.trans (h : b.Frozen b') (h' : b'.Frozen b'') : b.Frozen b'' := by
  intro f
  rcases h' f with hf | hf
  · rw [hf]
    exact h f
  · exact Or.inr hf

theorem frozen_of_wiped (h : b' = .wiped) : b.Frozen b' := by
  intro f
  rw [h]
  cases f
  all_goals exact Or.inr rfl

theorem frozen_dropConfirmation (b : SecretBuffers) : b.Frozen b.dropConfirmation := by
  unfold dropConfirmation
  split
  · exact .refl b
  · intro f
    cases f with
    | mnemonic => exact Or.inl rfl
    | passphrase => exact Or.inl rfl
    | confirm => exact Or.inr (Secret.clear_eq_wiped _)

/-- One buffer is replaced by a wiped one. -/
theorem frozen_set {s : Secret} (h : s = .wiped) (b : SecretBuffers) (f : Field) :
    b.Frozen (b.set s f) := by
  subst h
  intro g
  cases f
  all_goals
    cases g
    all_goals first | exact Or.inl rfl | exact Or.inr rfl

end SecretBuffers

/-! ## The sign screen -/

/-- The event is a key of the floating keyboard. -/
def Event.isOsk : Event → Bool
  | .osk _ => true
  | _ => false

namespace SignView

variable {w : Wally} {lib : Bip39} {out : Outside} {v v' : SignView} {event : Event}

/-- A key of the floating keyboard, over the confirmation page or the result page, that changes
the buffer it types into: a character the field takes and has room for, a backspace or a word
delete that leaves something of the text, or a word that is suggested. -/
def TypesOffEntry (v : SignView) (event : Event) : Prop :=
  (v.page = .confirm ∨ v.page = .result) ∧ v.panel.visible = true ∧
    match event with
    | .osk (.character c) =>
      v.allowed c = true ∧ (v.secrets.get v.field).text.length + 1 < kCapacity
    | .osk .backspace => 1 < (v.secrets.get v.field).text.length
    | .osk .deleteWord => Secret.beforeLastWord (v.secrets.get v.field).text ≠ []
    | .osk (.suggestion i) => i.val < v.panel.suggestions ∧ (v.row.word i).isSome = true
    | _ => False

/-- The buffers are frozen, and of an empty key no words are suggested. -/
structure Muted (v v' : SignView) : Prop where
  frozen : v.secrets.Frozen v'.secrets
  suggestions : v'.secrets.mnemonic = .wiped → v.panel.suggestions = 0 →
    v'.panel.suggestions = 0

theorem Muted.refl (v : SignView) : Muted v v := ⟨.refl _, fun _ h => h⟩

theorem frozen_refreshDisplays (lib : Bip39) (v : SignView) :
    v.secrets.Frozen (v.refreshDisplays lib).secrets := by
  unfold refreshDisplays
  split
  · exact .refl _
  · exact SecretBuffers.frozen_dropConfirmation _

theorem muted_refreshDisplays (lib : Bip39) (h : v.secrets.Frozen v'.secrets) :
    Muted v (v'.refreshDisplays lib) where
  frozen := h.trans (frozen_refreshDisplays lib v')
  suggestions := by
    intro hwiped _
    have hkey : (v'.refreshDisplays lib).secrets.mnemonic = v'.secrets.mnemonic := by
      unfold refreshDisplays
      split
      · rfl
      · exact SecretBuffers.mnemonic_dropConfirmation _
    exact suggestions_refreshDisplays lib (hkey.symm.trans hwiped)

theorem muted_setOskVisible (lib : Bip39) (v : SignView) (visible : Bool) :
    Muted v (v.setOskVisible lib visible) := by
  unfold setOskVisible
  exact muted_refreshDisplays lib (.refl v.secrets)

theorem muted_doSign : Muted v (v.doSign w lib out) := by
  unfold doSign
  split
  · dsimp only [Machine.sign]
    split
    · exact ⟨.refl _, fun _ h => h⟩
    · have hnamed := named_nameResult lib out { v with
        engine := (v.engine.sign w v.slot).2, log := .sign v.signing :: v.log }
      exact ⟨SecretBuffers.frozen_of_wiped hnamed.secrets, fun _ _ => hnamed.suggestions⟩
  · exact .refl v

theorem muted_doWrite : Muted v (v.doWrite w out) := by
  unfold doWrite
  dsimp only
  split
  · exact ⟨.refl _, fun _ h => h⟩
  · exact ⟨.refl _, fun _ h => h⟩

theorem muted_typeCharacter {c : UInt8}
    (h : v.page = .name ∨ ¬ (v.allowed c = true ∧
      (v.secrets.get v.field).text.length + 1 < kCapacity)) : Muted v (v.typeCharacter lib c) := by
  unfold typeCharacter
  by_cases hpage : v.page = .name
  · rw [if_pos hpage]
    exact ⟨.refl _, fun _ h => h⟩
  rw [if_neg hpage]
  by_cases hallowed : v.allowed c = false
  · rw [if_pos hallowed]
    exact .refl v
  rw [if_neg hallowed]
  -- the check is dropped all the same, but nothing is appended to a full buffer
  have hfull : ¬ (v.secrets.get v.field).text.length + 1 < kCapacity := fun hroom =>
    h.resolve_left hpage ⟨Bool.eq_true_of_not_eq_false hallowed, hroom⟩
  obtain ⟨hrefused, -⟩ := Secret.append_of_full c hfull
  dsimp only
  split_ifs with hchecked happended happended
  · exact absurd (hrefused.symm.trans happended) Bool.false_ne_true
  · exact ⟨.refl _, fun _ h => h⟩
  · exact absurd (hrefused.symm.trans happended) Bool.false_ne_true
  · exact .refl v

theorem muted_edit {onBuffer : Secret → Secret} {onName : SaveAsPage → SaveAsPage}
    (h : v.page = .name ∨ (onBuffer (v.secrets.get v.field)).text = []) :
    Muted v (v.edit lib onBuffer onName) := by
  unfold edit
  by_cases hpage : v.page = .name
  · rw [if_pos hpage]
    exact ⟨.refl _, fun _ h => h⟩
  rw [if_neg hpage]
  have hwiped := Secret.text_eq_nil_iff.mp (h.resolve_left hpage)
  exact muted_refreshDisplays lib (SecretBuffers.frozen_set hwiped v.secrets v.field)

/-- A key of the floating keyboard off the entry page. -/
theorem muted_osk (hpage : v.page ≠ .entry) {key : OskKey} (hok : ¬ v.TypesOffEntry (.osk key))
    (hname : v.page = .name → v.panel.suggestions = 0) : Muted v (v.osk lib key) := by
  unfold osk
  by_cases hvisible : v.panel.visible = true
  swap
  · rw [if_neg hvisible]
    exact .refl v
  rw [if_pos hvisible]
  -- on the name page the keys go to the file name, on the other two to the active buffer
  have hcases : v.page = .name ∨ (v.page = .confirm ∨ v.page = .result) := by
    cases h : v.page
    case entry => exact absurd h hpage
    case confirm => exact Or.inr (Or.inl rfl)
    case name => exact Or.inl rfl
    case result => exact Or.inr (Or.inr rfl)
  cases key with
  | character c =>
    exact muted_typeCharacter (hcases.imp_right fun hoff hkey => hok ⟨hoff, hvisible, hkey⟩)
  | backspace =>
    refine muted_edit (hcases.imp_right fun hoff => ?_)
    have hshort := Nat.le_of_not_lt fun hkey => hok ⟨hoff, hvisible, hkey⟩
    -- the one character that is left goes
    rw [Secret.text_backspace, ← List.length_eq_zero_iff, List.length_dropLast]
    omega
  | deleteWord =>
    refine muted_edit (hcases.imp_right fun hoff => ?_)
    rw [Secret.text_backspaceWord]
    exact Classical.not_not.mp fun hkey => hok ⟨hoff, hvisible, hkey⟩
  | clear => exact muted_edit (Or.inr (by rw [Secret.clear_eq_wiped, Secret.text_wiped]))
  | hide => exact muted_setOskVisible lib v false
  | suggestion i =>
    dsimp only
    by_cases hshown : i.val < v.panel.suggestions
    · rw [if_pos hshown]
      rcases hcases with hoff | hoff
      · -- none is shown over the name page
        rw [hname hoff] at hshown
        exact absurd hshown (Nat.not_lt_zero _)
      · unfold applySuggestion
        cases hword : v.row.word i with
        | none => exact .refl v
        | some word => exact absurd ⟨hoff, hvisible, hshown, by rw [hword]; rfl⟩ hok
    · rw [if_neg hshown]
      exact .refl v

/-- Whatever event comes off the entry page. -/
theorem muted_handles (hpage : v.page ≠ .entry) (hok : ¬ v.TypesOffEntry event)
    (hname : v.page = .name → v.panel.suggestions = 0) (h : v.Handles w lib event v') :
    Muted v v' := by
  cases h with
  | osk key => exact muted_osk hpage hok hname
  | accept out hname hkey => exact muted_doWrite
  | key h =>
    unfold keyPress at h
    split at h
    · rename_i hentry
      exact absurd hentry hpage
    · split at h
      · cases h
        split
        · exact muted_doSign
        · exact .refl v
      · cases h
    · split at h
      · cases h
        exact muted_setOskVisible lib v _
      · obtain ⟨page, -, rfl⟩ := Option.map_eq_some_iff.mp h
        exact ⟨.refl _, fun _ h => h⟩
    · cases h
  | @click button out h =>
    -- the buttons of the entry page are not there
    rw [page_of_clickable h] at hpage
    cases button
    case confirmBack => exact ⟨.refl _, fun _ h => h⟩
    case signNow => exact muted_doSign
    case nameOskToggle => exact muted_setOskVisible lib v _
    case nameClear => exact ⟨.refl _, fun _ h => h⟩
    case nameAccept => exact muted_doWrite
    case nameBack => exact .refl v
    case signAnother => exact .refl v
    case secureShutdown => exact .refl v
    all_goals exact absurd rfl hpage

/-- A character that the key takes and has room for is typed, whatever page shows but that of the
name. -/
theorem key_typeCharacter {c : UInt8} (hpage : v.page ≠ .name) (hallowed : v.allowed c = true)
    (hfield : v.field = .mnemonic) (hroom : v.secrets.mnemonic.text.length + 1 < kCapacity) :
    (v.typeCharacter lib c).secrets.mnemonic.text = v.secrets.mnemonic.text ++ [c] := by
  obtain ⟨happended, htext⟩ := Secret.text_append_of_room c hroom
  -- the check is dropped or not, and the buffers are the same in both cases
  have htyped : ∀ v₁ : SignView, v₁.secrets = v.secrets → v₁.field = .mnemonic →
      (if ((v₁.secrets.get v₁.field).append c).1 = true then
        refreshDisplays lib { v₁ with
          secrets := v₁.secrets.set ((v₁.secrets.get v₁.field).append c).2 v₁.field }
        else v₁).secrets.mnemonic.text = v.secrets.mnemonic.text ++ [c] := by
    intro v₁ hsecrets hfield₁
    have hroom : ((v.secrets.get .mnemonic).append c).1 = true := happended
    rw [hsecrets, hfield₁, if_pos hroom]
    exact (congrArg Signing.key (steady_refreshDisplays lib _).signing).trans htext
  unfold typeCharacter
  rw [if_neg hpage, if_neg (by simp [hallowed])]
  dsimp only
  split
  · exact htyped _ rfl hfield
  · exact htyped _ rfl hfield

/-- On the page that names the file and on the page behind it the buffers are empty, and the
floating keyboard suggests nothing. -/
def Emptied (v : SignView) : Prop :=
  v.page = .name ∨ v.page = .result →
    (∀ f, v.secrets.get f = .wiped) ∧ v.panel.suggestions = 0

/-- On the other two pages there is nothing to show. -/
theorem emptied_of_page {page : SignPage} (h : v.page = page) (hname : page ≠ .name)
    (hresult : page ≠ .result) : v.Emptied := by
  intro hpage
  rcases hpage with hpage | hpage
  · exact absurd (h.symm.trans hpage) hname
  · exact absurd (h.symm.trans hpage) hresult

theorem emptied_handles (hv : v.Emptied) (hok : ¬ v.TypesOffEntry event)
    (h : v.Handles w lib event v') : v'.Emptied := by
  intro hpage'
  by_cases hpage : v.page = .name ∨ v.page = .result
  · obtain ⟨hempty, hsuggestions⟩ := hv hpage
    have hentry : v.page ≠ .entry := by
      intro hentry
      rcases hpage with hpage | hpage
      all_goals exact absurd (hentry.symm.trans hpage) (by simp)
    -- wiped buffers that are frozen stay wiped
    have hmuted := muted_handles hentry hok (fun _ => hsuggestions) h
    have hempty' : ∀ f, v'.secrets.get f = .wiped := by
      intro f
      rcases hmuted.frozen f with hf | hf
      · exact hf.trans (hempty f)
      · exact hf
    exact ⟨hempty', hmuted.suggestions (hempty' .mnemonic) hsuggestions⟩
  · -- these pages are come to from the others through `doSign` only
    cases h.effect with
    | kept page keyChecked signing log =>
      rcases page with page | page
      · exact absurd (page ▸ hpage') hpage
      · exact emptied_of_page page (by simp) (by simp) hpage'
    | dropped page keyChecked log => exact absurd (page ▸ hpage') hpage
    | checked check page log vouches => exact emptied_of_page page (by simp) (by simp) hpage'
    | confirmed page keyChecked signing log =>
      exact emptied_of_page page (by simp) (by simp) hpage'
    | failed pressed page keyChecked log sign signing => exact absurd (page ▸ hpage') hpage
    | signed pressed keyChecked log dropped named =>
      refine ⟨fun f => ?_, named.suggestions⟩
      rw [named.secrets]
      cases f
      all_goals rfl
    | wrote hnamed page keyChecked log findings => exact absurd (Or.inl hnamed) hpage

end SignView

/-! ## Runs -/

namespace AppWindow

variable {w : Wally} {lib : Bip39} {a a' : AppWindow} {event : Event}

/-- While a page other than the entry page of the sign screen shows, the event changes no secret
field but by wiping it. -/
def Frozen (w : Wally) (lib : Bip39) (a : AppWindow) (event : Event) : Prop :=
  a.current = .sign → a.sign.page ≠ .entry → a.secrets.Frozen (a.step w lib event).secrets

/-- After a successful `doSign` the secret fields are empty. -/
def EmptyBehindSign (a : AppWindow) : Prop :=
  a.current = .sign → a.sign.page = .name ∨ a.sign.page = .result →
    ∀ f, a.secrets.get f = .wiped

/-- The event is no key of the floating keyboard that types into a buffer off the entry page. -/
def KeepsOffEntry (a : AppWindow) (event : Event) : Prop :=
  a.current = .sign → ¬ a.signView.TypesOffEntry event

/-- Leaving the sign screen wipes the buffers. -/
theorem secrets_left (h : Left a a') (hcurrent : a.current = .sign) : a'.secrets = .wiped := by
  have hleave : a.leaveCurrent.secrets = .wiped := by
    unfold leaveCurrent
    rw [hcurrent]
    exact SecretBuffers.wipeAllSecrets_eq _
  cases h with
  | home => exact SecretBuffers.wipeAllSecrets_eq _
  | scan => exact SecretBuffers.wipeAllSecrets_eq _
  | inspect => exact hleave
  | shutdown => exact hleave

theorem frozen_step (h : a.current = .sign → a.signView.Emptied) (hok : a.KeepsOffEntry event) :
    a.Frozen w lib event := by
  intro hcurrent hpage
  -- whether the screen is left behind the event or not
  have hleave : ∀ {b b' : AppWindow}, Relation.ReflGen Left b b' → b.current = .sign →
      b.secrets.Frozen b'.secrets := by
    intro b b' hleft hb
    cases hleft with
    | refl => exact .refl _
    | single hleft => exact SecretBuffers.frozen_of_wiped (secrets_left hleft hb)
  have hstep := step_stepped w lib a event
  generalize a.step w lib event = a' at hstep ⊢
  cases hstep with
  | left hleft => exact hleave hleft hcurrent
  | sign _ hv hleft =>
    have hname : a.signView.page = .name → a.signView.panel.suggestions = 0 :=
      fun hname => (h hcurrent (Or.inl hname)).2
    have hmuted := SignView.muted_handles hpage (hok hcurrent) hname hv
    exact hmuted.frozen.trans (hleave hleft hcurrent)
  | create hcreate => exact absurd (hcurrent.symm.trans hcreate) (by simp)
  | importing himport => exact absurd (hcurrent.symm.trans himport) (by simp)
  | moved htyping => exact absurd (Or.inl hcurrent) htyping
  | polled mounted files =>
    obtain ⟨createEnabled, writeEnabled, hpoll⟩ := a.poll_eq mounted files
    rw [hpoll]
    exact .refl _

theorem emptied_step (h : a.current = .sign → a.signView.Emptied) (hok : a.KeepsOffEntry event) :
    (a.step w lib event).current = .sign → (a.step w lib event).signView.Emptied := by
  refine signView_invariant ?_ ?_ ?_ h
  · intro v hpage
    rw [SignView.page_onEnter] at hpage
    simp at hpage
  · intro v mounted files hv
    exact hv
  · intro v hcurrent hv hempty
    exact SignView.emptied_handles hempty (hok hcurrent) hv

/-- In a run in which no key of the floating keyboard types into a buffer off the entry page, no
event that comes while another page of the sign screen shows changes the key, the passphrase or
the confirmation but by wiping it, and behind a successful `doSign` they stay empty. -/
theorem secret_fields_frozen (w : Wally) (lib : Bip39) (config : AppConfig)
    (files : Disk Char) (events : List Event)
    (h : Runs.Along (step w lib) KeepsOffEntry (start config files) events) :
    Runs.Along (step w lib) (fun a event => a.Frozen w lib event ∧
      (a.step w lib event).EmptyBehindSign) (start config files) events := by
  refine Runs.Along.along (I := fun a : AppWindow => a.current = .sign → a.signView.Emptied)
    ?_ ?_ (fun h => by cases h) h
  · intro a event ha hok
    exact emptied_step ha hok
  · intro a event ha hok
    refine ⟨frozen_step ha hok, fun hcurrent hpage => ?_⟩
    exact (emptied_step ha hok hcurrent hpage).1

theorem step_osk_of_sign (hexited : a.exited = false) (hcurrent : a.current = .sign)
    (key : OskKey) :
    a.step w lib (.osk key) = a.withSign (a.signView.osk lib key) := by
  unfold step
  rw [if_neg (by simp [hexited])]
  dsimp only [osk]
  rw [hcurrent]

theorem keepsOffEntry_of_not_osk (h : event.isOsk = false) : a.KeepsOffEntry event := by
  intro _ htypes
  cases event
  case osk key => cases h
  all_goals exact htypes.2.2

/-- A character that is typed into the key on the confirmation page is a change. -/
theorem not_frozen_of_typed {c : UInt8} (hexited : a.exited = false) (hcurrent : a.current = .sign)
    (hpage : a.signView.page = .confirm) (hvisible : a.signView.panel.visible = true)
    (hallowed : a.signView.allowed c = true) (hfield : a.signView.field = .mnemonic)
    (hroom : a.signView.secrets.mnemonic.text.length + 1 < kCapacity) :
    ¬ a.Frozen w lib (.osk (.character c)) := by
  intro hfrozen
  -- the text of the key is one character longer, so the key is neither as it was nor wiped
  have hosk : a.signView.osk lib (.character c) = a.signView.typeCharacter lib c := if_pos hvisible
  have htyped : (a.signView.typeCharacter lib c).secrets.mnemonic.text
      = a.signView.secrets.mnemonic.text ++ [c] :=
    SignView.key_typeCharacter (by simp [hpage]) hallowed hfield hroom
  have hentry : a.sign.page ≠ .entry := by
    rw [show a.sign.page = .confirm from hpage]
    simp
  have hkey := hfrozen hcurrent hentry .mnemonic
  rw [step_osk_of_sign hexited hcurrent, hosk] at hkey
  rcases hkey with hkey | hkey
  · have hsame := htyped.symm.trans (congrArg Secret.text hkey)
    exact absurd (congrArg List.length hsame) (by simp [AppWindow.signView, SecretBuffers.get])
  · have hempty := htyped.symm.trans ((congrArg Secret.text hkey).trans Secret.text_wiped)
    exact absurd hempty (by simp)

/-! ### Off the entry page

The sample run hides the floating keyboard on the confirmation page, signs, and types on the page
behind it. -/

open Session (taprootLibrary taprootPsbt)

section
variable {lib : Bip39} {a : AppWindow} {event : Event}

/-- The event is no press of "Sign now" and no Enter. -/
def leavesSigning : Event → Bool
  | .key press _ => press.key != .enter
  | .click (.sign .signNow) _ => false
  | _ => true

/-- Without it nothing depends on how libwally signs. -/
theorem step_leavesSigning (w : Wally) (sign : Psbt → ExtKey → ℤ × Psbt)
    (h : leavesSigning event = true) :
    a.step { w with psbtSignBip32 := sign } lib event = a.step w lib event := by
  cases event with
  | key press out =>
    have hsign : a.signView.keyPress { w with psbtSignBip32 := sign } lib out press =
        a.signView.keyPress w lib out press := by
      unfold SignView.keyPress
      have hkey : press.key ≠ .enter := ne_of_beq_false (Bool.not_eq_true' _ ▸ h)
      rw [if_neg hkey, if_neg hkey]
      rfl
    have hscreen : a.screenKeyPress { w with psbtSignBip32 := sign } lib out press =
        a.screenKeyPress w lib out press := by
      unfold screenKeyPress
      rw [hsign]
      rfl
    unfold step
    dsimp only
    rw [keyPress, keyPress, hscreen]
    rfl
  | click button out =>
    have hclick : a.click { w with psbtSignBip32 := sign } lib out button =
        a.click w lib out button := by
      cases button
      case sign button =>
        cases button
        case signNow => exact absurd h Bool.false_ne_true
        all_goals rfl
      all_goals rfl
    unfold step
    dsimp only
    rw [hclick]
  | osk key => rfl
  | splashTimeout => rfl
  | poll mounted files => rfl

theorem run_leavesSigning (w : Wally) (sign : Psbt → ExtKey → ℤ × Psbt) {events : List Event}
    (h : ∀ event ∈ events, leavesSigning event = true) (a : AppWindow) :
    Runs.run (step { w with psbtSignBip32 := sign } lib) a events =
      Runs.run (step w lib) a events := by
  induction events generalizing a with
  | nil => rfl
  | cons event events ih =>
    rw [Runs.run_cons, Runs.run_cons, step_leavesSigning w sign (h event List.mem_cons_self)]
    exact ih (fun event hevent => h event (List.mem_cons_of_mem _ hevent)) _

end

/-- A signature that `sign` counts. -/
def partiallySigned (inp : PsbtInput) : PsbtInput :=
  { inp with signatures := [(List.replicate 33 0x02, [0x30])] }

/-- The library of the taproot PSBT, adding such a signature. -/
def countedLibrary : Wally :=
  { taprootLibrary with
    psbtSignBip32 := fun psbt _ =>
      (wallyOk, { psbt with inputs := psbt.inputs.map partiallySigned }) }

/-- The floating keyboard is hidden on the confirmation page, "Sign now" is pressed, and on the
page behind it a letter is typed into the name of the file. -/
def offEntryEvents : List Event :=
  [.osk .hide, .click (.sign .signNow) quietOutside, .osk (.character 0x61), .osk .clear,
    .click (.sign .nameClear) quietOutside, .click (.sign .nameOskToggle) quietOutside]

/-- The floating keyboard is hidden. -/
def hidden : AppWindow := confirming.withSign (confirming.signView.setOskVisible noWords false)

section
attribute [local semireducible] Secret.perform

theorem hidden_reachesSign : hidden.ReachesSign (.click (.sign .signNow) quietOutside) := by
  obtain ⟨hsafe, hsignable⟩ := taprootPsbt_gate
  refine ⟨rfl, rfl, ⟨rfl, ?_, trivial⟩, decide_eq_true (Nat.pos_of_ne_zero hsignable)⟩
  exact confirming_reachesSign.2.2.1.2.1

theorem hidden_signGate :
    PsbtEngine.signGate hidden.slot hidden.engine = .ok (taprootPsbt, default) :=
  confirming_signGate

theorem step_hide : confirming.step countedLibrary noWords (.osk .hide) = hidden :=
  step_osk_of_sign rfl rfl .hide

end

/-- The signature is counted, and the page that names the file shows. -/
theorem page_signed : (hidden.step countedLibrary noWords
    (.click (.sign .signNow) quietOutside)).sign.page = .name := by
  obtain ⟨out, hstep⟩ := step_of_reached countedLibrary noWords hidden_reachesSign
  obtain ⟨hfails, -⟩ | ⟨-, hsign⟩ := sign_of_gate countedLibrary hidden_signGate
  · exact absurd hfails (by rw [PsbtEngine.SignFails]; decide)
  have hchecked : hidden.signView.keyChecked = true := hidden_reachesSign.2.2.2
  have hsigned : (hidden.engine.sign countedLibrary hidden.slot).1 = .ok _ := hsign
  rw [hstep]
  show (hidden.signView.doSign countedLibrary noWords out).page = .name
  unfold SignView.doSign
  rw [if_pos hchecked]
  dsimp only [Machine.sign]
  split
  · next herr => exact absurd (herr.symm.trans hsigned) (by simp)
  · exact (SignView.named_nameResult noWords out _).page

theorem run_confirming_counted :
    Runs.run (step countedLibrary noWords) (start {} fun _ => none) confirmingEvents =
      confirming := by
  rw [countedLibrary, run_leavesSigning taprootLibrary _ (by decide), run_confirmingEvents]

/-- A key on the page that names the file goes to the name. -/
theorem keepsOffEntry_of_name (h : a.sign.page = .name) : a.KeepsOffEntry event := by
  rintro - ⟨hpage | hpage, -⟩
  · exact absurd (h.symm.trans hpage) (by simp)
  · exact absurd (h.symm.trans hpage) (by simp)

/-- The run gets past "Sign now", and no event of it off the entry page touches the secret
fields. -/
theorem secret_fields_frozen_offEntryEvents :
    (Runs.run (step countedLibrary noWords) (start {} fun _ => none)
      (confirmingEvents ++ offEntryEvents.take 2)).sign.page = .name ∧
    Runs.Along (step countedLibrary noWords) (fun a event =>
      a.Frozen countedLibrary noWords event ∧
        (a.step countedLibrary noWords event).EmptyBehindSign) (start {} fun _ => none)
        (confirmingEvents ++ offEntryEvents) := by
  refine ⟨?_, secret_fields_frozen countedLibrary noWords {} (fun _ => none) _ ?_⟩
  · rw [Runs.run_append, run_confirming_counted, offEntryEvents, List.take_succ_cons,
      Runs.run_cons, step_hide]
    exact page_signed
  · have hkeys : ∀ event ∈ confirmingEvents, event.isOsk = false := by decide
    rw [Runs.along_append, run_confirming_counted]
    refine ⟨Runs.along_of_forall (fun _ event hevent => ?_) _, fun _ htypes => htypes.2.2, ?_⟩
    · exact keepsOffEntry_of_not_osk (hkeys event hevent)
    · rw [step_hide]
      exact ⟨keepsOffEntry_of_not_osk rfl, keepsOffEntry_of_name page_signed,
        fun _ htypes => htypes.2.2, keepsOffEntry_of_not_osk rfl, keepsOffEntry_of_not_osk rfl,
        trivial⟩

section
attribute [local semireducible] Secret.perform

theorem text_confirming : confirming.secrets.mnemonic.text = [0x78] := by
  obtain ⟨s, hs⟩ : ∃ s : Secret, confirming.secrets.mnemonic
      = (s.clear.append 0x78).2.normaliseWhitespace := ⟨_, rfl⟩
  have hroom : Secret.wiped.text.length + 1 < kCapacity := by
    rw [Secret.text_wiped]
    decide
  rw [hs, Secret.clear_eq_wiped, Secret.text_normaliseWhitespace,
    (Secret.text_append_of_room 0x78 hroom).2, Secret.text_wiped]
  decide

theorem not_frozen_confirming :
    ¬ confirming.Frozen taprootLibrary noWords (.osk (.character 0x61)) := by
  have hpage : confirming.signView.page = .confirm := rfl
  have hvisible : confirming.signView.panel.visible = true := rfl
  have hallowed : confirming.signView.allowed 0x61 = true := rfl
  have hfield : confirming.signView.field = .mnemonic := rfl
  have hroom : confirming.signView.secrets.mnemonic.text.length + 1 < kCapacity := by
    have hlength : confirming.signView.secrets.mnemonic.text.length = 1 :=
      congrArg List.length text_confirming
    rw [hlength]
    decide
  exact not_frozen_of_typed rfl rfl hpage hvisible hallowed hfield hroom

/-- A letter of the floating keyboard is typed behind the key that has been checked, while the
confirmation page shows. -/
theorem key_typed_on_confirm_page :
    ¬ Runs.Along (step taprootLibrary noWords) (fun a event =>
      a.Frozen taprootLibrary noWords event ∧
        (a.step taprootLibrary noWords event).EmptyBehindSign) (start {} fun _ => none)
          (confirmingEvents ++ [.osk (.character 0x61)]) := by
  rw [Runs.along_append, run_confirmingEvents]
  rintro ⟨-, ⟨hfrozen, -⟩, -⟩
  exact not_frozen_confirming hfrozen

end

end AppWindow

end SignerOS
