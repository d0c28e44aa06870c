import SignerOS.Ui.Shared

/-!
# `CreateScreen`

The wizard that makes a wallet: entropy, the generated words, typing them back, a passphrase,
and the watch-only file. The pool that is filled on the entropy page is outside this model;
whether it is full, and what `finalise` returns, are answers from outside.
-/

namespace SignerOS

/-! ## Comparing the grids -/

/-- `GridMatch`. -/
structure GridMatch where
  wrong : UInt32 := 0
  correct : ℕ := 0
  filled : ℕ := 0
  complete : Bool := false
deriving DecidableEq, Repr

/-- The loop body of `compareGrid`: cell `i`. -/
def compareCell (typed reference : Secret) (cursor : ℕ) (m : GridMatch) (i : ℕ) : GridMatch :=
  match typed.slotSpan i, reference.slotSpan i with
  | some (ts, tl), some (rs, rl) =>
    if tl = 0 then m
    else
      let m := { m with filled := m.filled + 1 }
      let same := (typed.text.drop ts).take tl = (reference.text.drop rs).take tl
      if tl = rl ∧ same then { m with correct := m.correct + 1 }
      else if cursor = i ∧ tl < rl ∧ same then m
      else { m with wrong := m.wrong ||| (1 <<< UInt32.ofNat i) }
  | _, _ => m

/-- `compareGrid`. -/
def compareGrid (typed reference : Secret) (cursor : ℕ) : GridMatch :=
  let cellCount := reference.slotCount
  let m := (List.range (min cellCount 32)).foldl (compareCell typed reference cursor) {}
  { m with complete := decide (0 < cellCount) && m.correct == cellCount }

/-! ## The screen -/

/-- `CreateScreen::Page`. -/
inductive CreatePage
  | intro | entropy | seed | verify | passphrase | confirm | name | result
deriving DecidableEq, Repr

/-- The members of `CreateScreen`, and the states of its buttons. `verifyCells` is the count of
cells the verification grid is drawn with. -/
structure CreateScreen where
  page : CreatePage := .intro
  exported : WalletExport := {}
  wordCount : WordCount := .twelve
  generateEnabled : Bool := false
  verified : Bool := false
  verifyCursor : ℕ := 0
  verifyCells : ℕ := 0
  verifyNextEnabled : Bool := false
  passConfirming : Bool := false
  createEnabled : Bool := true
  panel : OskPanel := {}
  row : SuggestionRow := {}
  namePage : SaveAsPage := {}

/-- The screen, and the machine it works on. -/
structure CreateView extends CreateScreen, Machine

/-- The buttons of the screen, and what else takes a click. -/
inductive CreateButton
  | introBack | words (count : WordCount) | understood
  | entropyBack | pad | generate
  | discard | written
  | cell (i : ℕ) | suggestion (i : Fin kSuggestionCount)
  | showAgain | verifyClear | verifyOskToggle | verifyNext
  | passBox | passConfirmBox | passBack | passOskToggle | passNext
  | confirmBack | create
  | nameBack | nameOskToggle | nameClear | nameAccept
  | backToStart | secureShutdown
deriving DecidableEq

/-- The page a button is on. -/
def CreateButton.page : CreateButton → CreatePage
  | introBack | words _ | understood => .intro
  | entropyBack | pad | generate => .entropy
  | discard | written => .seed
  | cell _ | suggestion _ | showAgain | verifyClear | verifyOskToggle | verifyNext => .verify
  | passBox | passConfirmBox | passBack | passOskToggle | passNext => .passphrase
  | confirmBack | create => .confirm
  | nameBack | nameOskToggle | nameClear | nameAccept => .name
  | backToStart | secureShutdown => .result

namespace CreateView

variable (w : Wally) (lib : Bip39) (out : Outside) (v : CreateView)

def setOskVisible (visible : Bool) : CreateView :=
  { v with panel := { v.panel with visible := visible } }

/-! ## Verification -/

def refreshVerifySuggestions : CreateView :=
  let words :=
    bip39Suggestions lib (v.secrets.verification.copySlot v.verifyCursor (kMaxWordLength + 2))
      kSuggestionCount
  let (row, panel) :=
    offerSuggestions words (v.panel.visible && v.page == .verify) v.row v.panel
  { v with row := row, panel := panel }

def refreshVerify : CreateView :=
  let total := v.secrets.mnemonic.wordCount
  let cursor := if total ≤ v.verifyCursor then total - 1 else v.verifyCursor
  let verified := (compareGrid v.secrets.verification v.secrets.mnemonic cursor).complete
  refreshVerifySuggestions lib
    { v with verifyCursor := cursor, verified := verified, verifyNextEnabled := verified }

/-- `verifySetCursor`: the index is clamped to the grid. -/
def verifySetCursor (index : ℤ) : CreateView :=
  let cells := v.secrets.mnemonic.wordCount
  if cells = 0 then v
  else
    let index := (min (max index 0) (cells - 1 : ℤ)).toNat
    if index = v.verifyCursor then v
    else refreshVerify lib { v with verifyCursor := index }

def verifyMoveCursor (delta : ℤ) : CreateView := v.verifySetCursor lib (v.verifyCursor + delta)

/-- The verification buffer is replaced. -/
def setVerification (s : Secret) : CreateView :=
  { v with secrets := { v.secrets with verification := s } }

def verifyType (c : UInt8) : CreateView :=
  if isBip39Char c = false then v
  -- a space ends the cell, the separator is there already
  else if c = SecureString.space then v.verifyMoveCursor lib 1
  else if kMaxWordLength ≤ v.secrets.verification.slotLength v.verifyCursor then v
  else
    let (appended, typed) := v.secrets.verification.appendToSlot v.verifyCursor c
    if appended then (v.setVerification typed).refreshVerify lib else v

def verifyBackspace : CreateView :=
  if v.secrets.verification.slotLength v.verifyCursor = 0 then
    -- an empty cell is stepped out of
    if 0 < v.verifyCursor then v.verifyMoveCursor lib (-1) else v
  else
    (v.setVerification (v.secrets.verification.backspaceInSlot v.verifyCursor)).refreshVerify lib

def verifyDeleteWord : CreateView :=
  (v.setVerification (v.secrets.verification.clearSlot v.verifyCursor)).refreshVerify lib

/-- A grid with one slot for each word of the mnemonic. -/
def slotsForMnemonic (s : Secret) : Secret :=
  s.setSlotCount v.secrets.mnemonic.wordCount v.secrets.mnemonic.wordCount_le

def verifyClear : CreateView :=
  let v := v.setVerification (v.slotsForMnemonic v.secrets.verification.clear)
  refreshVerify lib { v with verifyCursor := 0 }

def applyVerifySuggestion (i : Fin kSuggestionCount) : CreateView :=
  match v.row.word i with
  | none => v
  | some word =>
    let v := v.setVerification (v.secrets.verification.setSlot v.verifyCursor word)
    if v.verifyCursor + 1 < v.secrets.mnemonic.wordCount then v.verifyMoveCursor lib 1
    else v.refreshVerify lib

/-- `verifyMask_->columns()`. -/
def verifyColumns : ℕ :=
  columnsFor <|
    if 0 < v.verifyCells then v.verifyCells
    else if v.secrets.verification.empty then 0
    else v.secrets.verification.slotCount

/-! ## The passphrase -/

/-- The buffer that is typed into. -/
def passField : Field := if v.passConfirming then .confirm else .passphrase

def refreshPassphrase : CreateView :=
  if v.secrets.passphrase.empty then
    { v with secrets := v.secrets.dropConfirmation, passConfirming := false }
  else v

/-- An edit of the field that is typed into. -/
def editPassphrase (f : Secret → Secret) : CreateView :=
  refreshPassphrase
    { v with secrets := v.secrets.set (f (v.secrets.get v.passField)) v.passField }

def passphraseType (c : UInt8) : CreateView :=
  if isPrintableAscii c = false then v else v.editPassphrase fun s => (s.append c).2

def setPassphraseField (confirming : Bool) : CreateView :=
  refreshPassphrase { v with passConfirming := confirming && !v.secrets.passphrase.empty }

def passphraseReady : Bool × CreateView :=
  if v.secrets.passphrase.empty then (true, v)
  else if v.secrets.passphraseConfirmed then (true, v)
  else (false, v.setPassphraseField true)

/-! ## Navigation -/

def rebuildConfirm : CreateView := { v with createEnabled := v.dataMounted }

def goTo (page : CreatePage) : CreateView :=
  let v := { v with page := page }
  match page with
  | .entropy => { v with generateEnabled := out.targetReached }
  | .verify =>
    let v := { v with verifyCells := v.secrets.mnemonic.wordCount }
    -- words that are there already stay, also behind `showAgain`
    let v := v.setVerification (v.slotsForMnemonic v.secrets.verification)
    (v.setOskVisible (!v.config.physicalKeyboard)).refreshVerify lib
  | .passphrase =>
    let v := { v with panel := { v.panel with suggestions := 0 } }
    (v.setOskVisible (!v.config.physicalKeyboard)).refreshPassphrase
  | .confirm => (v.setOskVisible false).rebuildConfirm
  | _ => v

def leavePassphrasePage : CreateView :=
  let (ready, v) := v.passphraseReady
  if ready then v.goTo lib out .confirm else v

def wipeSecrets : CreateView :=
  { v with
    passConfirming := false
    toMachine := v.toMachine.wipeAllSecrets
    verified := false
    verifyCursor := 0
    verifyNextEnabled := false
    row := v.row.hide }

def onEnter : CreateView :=
  let v := v.wipeSecrets
  goTo lib out { v with exported := {}, verified := false, passConfirming := false }
    .intro

def onLeave : CreateView := v.wipeSecrets

/-! ## Generating and writing -/

def generate : CreateView :=
  match out.entropy v.wordCount.entropyBytes with
  | .error _ => v
  | .ok entropy =>
    let (result, mnemonic) :=
      mnemonicFromEntropy w lib entropy v.secrets.mnemonic.clear
    let v := { v with secrets := { v.secrets with mnemonic := mnemonic } }
    match result with
    | .error _ => v
    | .ok () =>
      -- a new mnemonic, and nothing of it is checked
      let v := v.setVerification v.secrets.verification.clear
      goTo lib out
        { v with verified := false, log := .generated v.secrets.mnemonic.text :: v.log } .seed

def showNamePage : CreateView :=
  -- the export of what is in the buffers now
  let (result, we, machine) := v.toMachine.buildExport w 0
  let v := { v with toMachine := machine, exported := we }
  match result with
  | .error _ => v
  | .ok () =>
    setOskVisible
      { v with
        namePage := .start
          (proposedWalletExportName v.files out.clock v.exported v.config.dataDir)
        page := .name }
      (!v.config.physicalKeyboard)

def doCreate : CreateView :=
  let (result, machine) :=
    v.toMachine.writeExport out.clock out.laterClock out.file v.exported v.namePage.fileName
  let v := { v with toMachine := machine }
  match result with
  | .error _ => v
  | .ok () => { v.wipeSecrets with page := .result }

/-! ## Input -/

/-- `keyPressEvent` on the verification page. -/
def keyOnVerify (press : KeyPress) : Option CreateView :=
  if press.key = .f2 then some (v.setOskVisible (!v.panel.visible))
  else
    match v.row.pick press with
    | some i => some (v.applyVerifySuggestion lib i)
    | none =>
      match press.key with
      | .tab => some v
      | .backspace => some (v.verifyBackspace lib)
      | .space => some (v.verifyType lib SecureString.space)
      | .enter =>
        some (if v.verified then v.goTo lib out .passphrase
          else v.verifyMoveCursor lib 1)
      | .right => some (v.verifyMoveCursor lib 1)
      | .left => some (v.verifyMoveCursor lib (-1))
      | .down => some (v.verifyMoveCursor lib v.verifyColumns)
      | .up => some (v.verifyMoveCursor lib (-v.verifyColumns))
      | .home => some (v.verifySetCursor lib 0)
      | .endKey => some (v.verifySetCursor lib (v.secrets.mnemonic.wordCount - 1))
      | .letter i => some (v.verifyType lib (letterChar i false))
      | _ => none

/-- `keyPressEvent` on the passphrase page. -/
def keyOnPassphrase (press : KeyPress) : Option CreateView :=
  match press.key with
  | .f2 => some (v.setOskVisible (!v.panel.visible))
  | .backspace => some (v.editPassphrase Secret.backspace)
  | .f3 => some (v.setPassphraseField (!v.passConfirming))
  | .enter =>
    some <|
      if v.passConfirming = false ∧ v.secrets.passphrase.empty = false ∧
          v.secrets.passphraseConfirmed = false then
        v.setPassphraseField true
      else v.leavePassphrasePage lib out
  | _ => press.char.map fun c => v.passphraseType c

/-- `keyPressEvent`: `none` when the key goes on to `AppWindow`. -/
def keyPress (press : KeyPress) : Option CreateView :=
  match v.page with
  | .name =>
    if press.key = .f2 then some (v.setOskVisible (!v.panel.visible))
    else (v.namePage.handleKey press).map fun page => { v with namePage := page }
  | .entropy =>
    -- every other key is a sample
    if press.key = .enter then
      some (if v.generateEnabled then v.generate w lib out else v)
    else some { v with generateEnabled := out.targetReached }
  | .verify => v.keyOnVerify lib out press
  | .passphrase => v.keyOnPassphrase lib out press
  | _ => none

/-- `oskType`, `oskBackspace`, `oskDeleteWord` and `oskClear`: by the page that is showing. -/
def oskDispatch (onVerify onPassphrase : CreateView) (onName : SaveAsPage) : CreateView :=
  match v.page with
  | .verify => onVerify
  | .passphrase => onPassphrase
  | .name => { v with namePage := onName }
  | _ => v

/-- A key of the floating keyboard, which can be pressed while the panel is up. -/
def osk (key : OskKey) : CreateView :=
  if v.panel.visible then
    match key with
    | .character c =>
      v.oskDispatch (v.verifyType lib c) (v.passphraseType c)
        (v.namePage.typeCharacter (Char.ofNat c.toNat))
    | .backspace =>
      v.oskDispatch (v.verifyBackspace lib) (v.editPassphrase Secret.backspace)
        v.namePage.backspace
    | .deleteWord =>
      v.oskDispatch (v.verifyDeleteWord lib) (v.editPassphrase Secret.backspaceWord)
        v.namePage.clearName
    | .clear =>
      v.oskDispatch (v.verifyClear lib) (v.editPassphrase Secret.clear) v.namePage.clearName
    | .hide => v.setOskVisible false
    | .suggestion i => if i.val < v.panel.suggestions then v.applyVerifySuggestion lib i else v
  else v

/-- A button can be clicked: its page is showing, and it is visible and enabled. -/
def clickable (button : CreateButton) : Bool :=
  v.page == button.page &&
    match button with
    | .generate => v.generateEnabled
    | .suggestion i => i.val < v.row.shown
    | .verifyNext => v.verifyNextEnabled
    | .passConfirmBox => !v.secrets.passphrase.empty
    | .create => v.createEnabled
    | .nameAccept => v.namePage.acceptEnabled
    | _ => true

/-- What a click does on this screen. The buttons that lead to another screen do the rest of
their work in `AppWindow`. -/
def click (button : CreateButton) : CreateView :=
  match button with
  | .words count => { v with wordCount := count }
  | .understood => v.goTo lib out .entropy
  | .entropyBack => v.goTo lib out .intro
  | .pad => { v with generateEnabled := out.targetReached }
  | .generate => v.generate w lib out
  | .discard => v.wipeSecrets.goTo lib out .intro
  | .written => v.goTo lib out .verify
  | .cell i => v.verifySetCursor lib i
  | .suggestion i => v.applyVerifySuggestion lib i
  | .showAgain => v.goTo lib out .seed
  | .verifyClear => v.verifyClear lib
  | .verifyOskToggle | .passOskToggle | .nameOskToggle => v.setOskVisible (!v.panel.visible)
  | .verifyNext => v.goTo lib out .passphrase
  | .passBox => v.setPassphraseField false
  | .passConfirmBox => v.setPassphraseField true
  | .passBack => v.goTo lib out .verify
  | .passNext => v.leavePassphrasePage lib out
  | .confirmBack => v.goTo lib out .passphrase
  | .create => v.showNamePage w out
  | .nameBack => v.goTo lib out .confirm
  | .nameClear => { v with namePage := v.namePage.clearName }
  | .nameAccept => v.doCreate out
  | .introBack | .backToStart | .secureShutdown => v

end CreateView

end SignerOS
