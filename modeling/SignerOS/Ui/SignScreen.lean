import SignerOS.Ui.Shared

/-!
# `SignScreen`

Entering a key, checking it, confirming the transaction, signing it and naming the file. The
handlers act on a `SignView`, the screen's own state beside the machine; what only decides how
a label looks is left out.
-/

namespace SignerOS

/-- `SignScreen::Page`. -/
inductive SignPage
  | entry | confirm | name | result
deriving DecidableEq, Repr

/-- The members of `SignScreen`, and the states of its buttons. -/
structure SignScreen where
  page : SignPage := .entry
  field : Field := .mnemonic
  source : KeySource := .mnemonic
  keyChecked : Bool := false
  signEnabled : Bool := false
  confirmSignEnabled : Bool := true
  oskVisible : Bool := true
  panel : OskPanel := {}
  row : SuggestionRow := {}
  namePage : SaveAsPage := {}

/-- The screen, and the machine it works on. -/
structure SignView extends SignScreen, Machine

/-- The buttons of the screen, and the cards that take a click. -/
inductive SignButton
  | sourceMnemonic | sourceXprv
  | mnemonicBox | passphraseBox | confirmBox
  | suggestion (i : Fin kSuggestionCount)
  | back | oskToggle | checkKey | review
  | confirmBack | signNow
  | nameBack | nameOskToggle | nameClear | nameAccept
  | signAnother | secureShutdown
deriving DecidableEq

/-- The page a button is on. -/
def SignButton.page : SignButton → SignPage
  | confirmBack | signNow => .confirm
  | nameBack | nameOskToggle | nameClear | nameAccept => .name
  | signAnother | secureShutdown => .result
  | _ => .entry

namespace SignView

variable (w : Wally) (lib : Bip39) (out : Outside) (v : SignView)

/-! ## The displays -/

def refreshSuggestions : SignView :=
  let words :=
    if v.source = .mnemonic ∧ v.field = .mnemonic then
      bip39Suggestions lib (v.secrets.mnemonic.copyTrailingWord 16) kSuggestionCount
    else []
  let (row, panel) := offerSuggestions words v.panel.visible v.row v.panel
  { v with row := row, panel := panel }

/-- `refreshDisplays`. -/
def refreshDisplays : SignView :=
  let v :=
    if v.source = .mnemonic ∧ v.secrets.passphrase.empty = false then v
    else
      { v with
        secrets := v.secrets.dropConfirmation
        field := if v.field = .confirm then .passphrase else v.field }
  v.refreshSuggestions lib

def setField (f : Field) : SignView :=
  let f :=
    if f = .confirm ∧ (v.source ≠ .mnemonic ∨ v.secrets.passphrase.empty = true) then .passphrase
    else f
  let f := if f = .passphrase ∧ v.source ≠ .mnemonic then .mnemonic else f
  refreshDisplays lib { v with field := f }

def setOskVisible (visible : Bool) : SignView :=
  refreshDisplays lib
    { v with oskVisible := visible, panel := { v.panel with visible := visible } }

/-! ## Editing -/

/-- `keyChecked_ = false`, with the button it enables. -/
def dropCheck : SignView := { v with keyChecked := false, signEnabled := false }

def setKeySource (s : KeySource) : SignView :=
  let v :=
    if v.source = s then v
    else dropCheck { v with secrets := { v.secrets with mnemonic := v.secrets.mnemonic.clear } }
  let v := { v with source := s }
  if s = .xprv ∧ v.field = .passphrase then v.setField lib .mnemonic
  else v.setField lib v.field

/-- The characters the field takes. -/
def allowed (c : UInt8) : Bool :=
  match v.field, v.source with
  | .mnemonic, .mnemonic => isBip39Char c
  | .mnemonic, .xprv => isBase58Char c
  | _, _ => isPrintableAscii c

def typeCharacter (c : UInt8) : SignView :=
  if v.page = .name then
    { v with namePage := v.namePage.typeCharacter (Char.ofNat c.toNat) }
  else if v.allowed c = false then v
  else
    -- any edit invalidates a previous check, and this one takes the key with it
    let v := if v.keyChecked then { v.dropCheck with toMachine := v.toMachine.clearKey } else v
    -- a full buffer is left as it is, and an error shown
    let (appended, buffer) := (v.secrets.get v.field).append c
    if appended then
      refreshDisplays lib { v with secrets := v.secrets.set buffer v.field }
    else v

/-- What `backspace`, `deleteWord` and `clearAll` share. -/
def edit (onBuffer : Secret → Secret) (onName : SaveAsPage → SaveAsPage) : SignView :=
  if v.page = .name then { v with namePage := onName v.namePage }
  else
    refreshDisplays lib <| dropCheck
      { v with secrets := v.secrets.set (onBuffer (v.secrets.get v.field)) v.field }

def backspace : SignView := v.edit lib Secret.backspace SaveAsPage.backspace

def deleteWord : SignView := v.edit lib Secret.backspaceWord SaveAsPage.clearName

def clearAll : SignView := v.edit lib Secret.clear SaveAsPage.clearName

def applySuggestion (i : Fin kSuggestionCount) : SignView :=
  match v.row.word i with
  | none => v
  | some word =>
    let key := (v.secrets.mnemonic.backspaceWord.appendWord word).append SecureString.space
    refreshDisplays lib <| dropCheck
      { v with secrets := { v.secrets with mnemonic := key.2 } }

/-! ## Checking and confirming -/

/-- `passphraseReady`: an unconfirmed passphrase moves the typing to its confirmation. -/
def passphraseReady : Bool × SignView :=
  if v.source ≠ .mnemonic ∨ v.secrets.passphrase.empty = true then (true, v)
  else if v.secrets.passphraseConfirmed then (true, v)
  else (false, v.setField lib .confirm)

def checkKey : SignView :=
  let v := v.dropCheck
  if v.secrets.mnemonic.empty then v
  else
    let (ready, v) := v.passphraseReady lib
    if ready then
      -- mnemonic or xprv, the buffer is normalised
      let key := v.secrets.mnemonic.normaliseWhitespace
      let v := { v with secrets := { v.secrets with mnemonic := key } }
      let (result, machine) := v.toMachine.enterKey w v.source
      let v := { v with toMachine := machine }
      match result with
      | .error _ => v
      | .ok () =>
        -- a key that signs nothing is entered all the same, and not checked
        let canSign := decide (0 < v.engine.summary.signableInputs)
        { v with keyChecked := canSign, signEnabled := canSign && v.engine.summary.safeToSign }
    else v

def rebuildConfirm : SignView :=
  { v with
    confirmSignEnabled :=
      v.engine.summary.safeToSign && decide (0 < v.engine.summary.signableInputs)
    log := .rebuildConfirm v.slot v.engine :: v.log }

def showConfirm : SignView :=
  if v.keyChecked then { v.rebuildConfirm with page := .confirm } else v

/-! ## Signing and writing -/

def wipeSecrets : SignView :=
  { v with
    toMachine := v.toMachine.wipeAllSecrets.clearKey
    keyChecked := false
    row := v.row.hide
    signEnabled := false }

/-- What `doSign` does once `sign` has returned true. -/
def nameResult : SignView :=
  let v := v.wipeSecrets
  setOskVisible lib
    { v with
      namePage := .start (proposedResultName v.files out.clock v.config.dataDir)
      page := .name
      panel := { v.panel with suggestions := 0 } }
    (!v.config.physicalKeyboard)

def doSign : SignView :=
  if v.keyChecked then
    let (result, machine) := v.toMachine.sign w v.source
    let v := { v with toMachine := machine }
    match result with
    -- the page stays, with an error over it
    | .error _ => v
    | .ok _ => v.nameResult lib out
  else v

def doWrite : SignView :=
  let (result, machine) :=
    v.toMachine.writeResult w ⟨out.clock, out.laterClock, out.file, out.secondFile⟩
      v.namePage.fileName
  let v := { v with toMachine := machine }
  match result with
  | .error _ => v
  | .ok () => { v with page := .result }

/-! ## Entering and leaving -/

def onEnter : SignView :=
  let v := dropCheck { v with page := .entry }
  let v := v.setField lib .mnemonic
  let v := v.setKeySource lib .mnemonic
  let v := v.setOskVisible lib (!v.config.physicalKeyboard)
  v.refreshDisplays lib

def onLeave : SignView := v.wipeSecrets

/-! ## Input -/

/-- The field F3 moves on to. -/
def nextField : Field :=
  match v.field with
  | .mnemonic => .passphrase
  | .passphrase => if v.secrets.passphrase.empty then .mnemonic else .confirm
  | .confirm => .mnemonic

/-- `keyPressEvent` on the entry page. -/
def keyOnEntry (press : KeyPress) : Option SignView :=
  let wordsTyped := v.source = .mnemonic ∧ v.field = .mnemonic
  if press.key = .f2 then some (v.setOskVisible lib (!v.oskVisible))
  else if press.key = .f3 ∧ v.source = .mnemonic then some (v.setField lib v.nextField)
  else
    -- 1 to 5 and Tab accept a word, where words are typed
    match if wordsTyped then v.row.pick press else none with
    | some i => some (v.applySuggestion lib i)
    | none =>
      match press.key with
      | .tab => if wordsTyped then some v else none
      | .backspace => some (v.backspace lib)
      | .enter => some (if v.keyChecked then v.showConfirm else v.checkKey w lib)
      | _ => press.char.map fun c => v.typeCharacter lib c

/-- `keyPressEvent`: `none` when the key goes on to `AppWindow`. -/
def keyPress (press : KeyPress) : Option SignView :=
  match v.page with
  | .entry => v.keyOnEntry w lib press
  | .confirm =>
    if press.key = .enter then some (if v.confirmSignEnabled then v.doSign w lib out else v)
    else none
  | .name =>
    if press.key = .f2 then some (v.setOskVisible lib (!v.panel.visible))
    else (v.namePage.handleKey press).map fun page => { v with namePage := page }
  | .result => none

/-- A key of the floating keyboard, which can be pressed while the panel is up. -/
def osk (key : OskKey) : SignView :=
  if v.panel.visible then
    match key with
    | .character c => v.typeCharacter lib c
    | .backspace => v.backspace lib
    | .deleteWord => v.deleteWord lib
    | .clear => v.clearAll lib
    | .hide => v.setOskVisible lib false
    | .suggestion i => if i.val < v.panel.suggestions then v.applySuggestion lib i else v
  else v

/-- A button can be clicked: its page is showing, and it is visible and enabled. -/
def clickable (button : SignButton) : Bool :=
  v.page == button.page &&
    match button with
    | .suggestion i => i.val < v.row.shown
    | .review => v.signEnabled
    | .signNow => v.confirmSignEnabled
    | .passphraseBox => v.source == .mnemonic
    | .confirmBox => v.source == .mnemonic && !v.secrets.passphrase.empty
    | .nameAccept => v.namePage.acceptEnabled
    | _ => true

/-- What a click does on this screen. The buttons that lead to another screen do the rest of
their work in `AppWindow`. -/
def click (button : SignButton) : SignView :=
  match button with
  | .sourceMnemonic => v.setKeySource lib .mnemonic
  | .sourceXprv => v.setKeySource lib .xprv
  | .mnemonicBox => v.setField lib .mnemonic
  | .passphraseBox => v.setField lib .passphrase
  | .confirmBox => v.setField lib .confirm
  | .suggestion i => v.applySuggestion lib i
  | .back => v.wipeSecrets
  | .oskToggle => v.setOskVisible lib (!v.oskVisible)
  | .checkKey => v.checkKey w lib
  | .review => v.showConfirm
  | .confirmBack => { v with page := .entry }
  | .signNow => v.doSign w lib out
  | .nameOskToggle => v.setOskVisible lib (!v.oskVisible)
  | .nameClear => { v with namePage := v.namePage.clearName }
  | .nameAccept => v.doWrite w out
  | .nameBack | .signAnother | .secureShutdown => v

end SignView

end SignerOS
