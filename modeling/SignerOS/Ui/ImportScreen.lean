import SignerOS.Ui.Shared

/-!
# `ImportScreen`

Typing the words of a wallet that exists into a grid, deriving its export, choosing the account
and naming the file.
-/

namespace SignerOS

/-! ## Unknown words -/

/-- `bip39UnknownSlots`: bit `i` is set for a word that is typed, not in progress, and not in
the list. Of a list that cannot be read, no word is known. -/
def bip39UnknownSlots (wordlist : List Bytes) (mnemonic : Secret) (inProgressSlot : Option ℕ) :
    UInt32 :=
  (List.range (min mnemonic.slotCount 32)).foldl (fun unknown i =>
    let typed := mnemonic.slotSpan i
    let text := (typed.map fun span => (mnemonic.text.drop span.1).take span.2).getD []
    if inProgressSlot = some i ∨ mnemonic.slotLength i = 0 ∨ wordlist.contains text then unknown
    else unknown ||| (1 <<< UInt32.ofNat i)) 0

/-! ## The screen -/

/-- `ImportScreen::Page`. -/
inductive ImportPage
  | entry | review | name | result
deriving DecidableEq, Repr

/-- `kMaxAccount`. -/
def kMaxAccount : ℕ := 9

/-- The members of `ImportScreen`, and the states of its buttons. -/
structure ImportScreen where
  page : ImportPage := .entry
  exported : WalletExport := {}
  account : ℕ := 0
  field : Field := .mnemonic
  wordCount : WordCount := .twelve
  cursor : ℕ := 0
  deriveEnabled : Bool := true
  writeEnabled : Bool := true
  panel : OskPanel := {}
  row : SuggestionRow := {}
  namePage : SaveAsPage := {}

/-- The screen, and the machine it works on. -/
structure ImportView extends ImportScreen, Machine

/-- The buttons of the screen, and what else takes a click. -/
inductive ImportButton
  | words (count : WordCount) | reveal
  | cell (i : ℕ) | wordsBox | passphraseBox | confirmBox
  | suggestion (i : Fin kSuggestionCount)
  | back | clear | oskToggle | derive
  | account (i : Fin (kMaxAccount + 1)) | reviewBack | write
  | nameBack | nameOskToggle | nameClear | nameAccept
  | backToStart | secureShutdown
deriving DecidableEq

/-- The page a button is on. -/
def ImportButton.page : ImportButton → ImportPage
  | account _ | reviewBack | write => .review
  | nameBack | nameOskToggle | nameClear | nameAccept => .name
  | backToStart | secureShutdown => .result
  | _ => .entry

namespace ImportView

variable (w : Wally) (lib : Bip39) (out : Outside) (v : ImportView)

/-! ## The entry page -/

def setOskVisible (visible : Bool) : ImportView :=
  { v with panel := { v.panel with visible := visible } }

def refreshSuggestions : ImportView :=
  let words :=
    if v.field = .mnemonic then
      bip39Suggestions lib (v.secrets.mnemonic.copySlot v.cursor (kMaxWordLength + 2))
        kSuggestionCount
    else []
  let (row, panel) := offerSuggestions words v.panel.visible v.row v.panel
  { v with row := row, panel := panel }

def refreshEntry : ImportView :=
  let unknown :=
    bip39UnknownSlots ((lib.wordlist.getD []).map Word.letters) v.secrets.mnemonic
      (if v.field = .mnemonic then some v.cursor else none)
  let complete := v.secrets.mnemonic.wordCount = v.wordCount.toNat
  let v := { v with deriveEnabled := decide (complete ∧ unknown = 0) }
  let v :=
    if v.secrets.passphrase.empty then
      { v with
        secrets := v.secrets.dropConfirmation
        field := if v.field = .confirm then .passphrase else v.field }
    else v
  v.refreshSuggestions lib

def setField (f : Field) : ImportView :=
  refreshEntry lib
    { v with field := if f = .confirm ∧ v.secrets.passphrase.empty = true then .passphrase else f }

def passphraseReady : Bool × ImportView :=
  if v.secrets.passphrase.empty then (true, v)
  else if v.secrets.passphraseConfirmed then (true, v)
  else (false, v.setField lib .confirm)

/-- The mnemonic buffer is replaced. -/
def setMnemonic (s : Secret) : ImportView :=
  { v with secrets := { v.secrets with mnemonic := s } }

/-- A grid with a slot for each of so many words. -/
def slotsFor (s : Secret) (words : WordCount) : Secret :=
  s.setSlotCount words.toNat (Nat.le_trans words.toNat_le (by decide))

/-- `setWordCount`. Every `WordCount` is valid. -/
def setWordCount (words : WordCount) : ImportView :=
  let v := { v with wordCount := words }
  let v := v.setMnemonic (slotsFor v.secrets.mnemonic words)
  refreshEntry lib
    { v with cursor := if words.toNat ≤ v.cursor then words.toNat - 1 else v.cursor }

def cycleWordCount : ImportView := v.setWordCount lib v.wordCount.next

/-- `setWordCursor`: the index is clamped to the grid. -/
def setWordCursor (index : ℤ) : ImportView :=
  let index := (min (max index 0) (v.wordCount.toNat - 1 : ℤ)).toNat
  if index = v.cursor then v else refreshEntry lib { v with cursor := index }

def moveWordCursor (delta : ℤ) : ImportView := v.setWordCursor lib (v.cursor + delta)

/-- An edit of the field that is typed into. -/
def editField (f : Secret → Secret) : ImportView :=
  refreshEntry lib { v with secrets := v.secrets.set (f (v.secrets.get v.field)) v.field }

def typeCharacter (c : UInt8) : ImportView :=
  if v.page = .name then
    { v with namePage := v.namePage.typeCharacter (Char.ofNat c.toNat) }
  else if v.field ≠ .mnemonic then
    if isPrintableAscii c = false then v
    else if ((v.secrets.get v.field).append c).1 then v.editField lib fun s => (s.append c).2
    else v
  else if isBip39Char c = false then v
  -- a space ends the cell, the separator is there already
  else if c = SecureString.space then v.moveWordCursor lib 1
  else if kMaxWordLength ≤ v.secrets.mnemonic.slotLength v.cursor then v
  else
    let (appended, key) := v.secrets.mnemonic.appendToSlot v.cursor c
    if appended then (v.setMnemonic key).refreshEntry lib else v

def backspace : ImportView :=
  if v.page = .name then { v with namePage := v.namePage.backspace }
  else if v.field ≠ .mnemonic then v.editField lib Secret.backspace
  else if v.secrets.mnemonic.slotLength v.cursor = 0 then
    -- an empty cell is stepped out of
    if 0 < v.cursor then v.moveWordCursor lib (-1) else v
  else (v.setMnemonic (v.secrets.mnemonic.backspaceInSlot v.cursor)).refreshEntry lib

def deleteWord : ImportView :=
  if v.page = .name then { v with namePage := v.namePage.clearName }
  else if v.field ≠ .mnemonic then v.editField lib Secret.backspaceWord
  else (v.setMnemonic (v.secrets.mnemonic.clearSlot v.cursor)).refreshEntry lib

def clearAll : ImportView :=
  if v.page = .name then { v with namePage := v.namePage.clearName }
  else if v.field ≠ .mnemonic then v.editField lib Secret.clear
  else
    -- `clear` takes the cells with the words
    let v := v.setMnemonic (slotsFor v.secrets.mnemonic.clear v.wordCount)
    refreshEntry lib { v with cursor := 0 }

def applySuggestion (i : Fin kSuggestionCount) : ImportView :=
  match v.row.word i with
  | none => v
  | some word =>
    let v := v.setMnemonic (v.secrets.mnemonic.setSlot v.cursor word)
    if v.cursor + 1 < v.wordCount.toNat then v.moveWordCursor lib 1 else v.refreshEntry lib

/-- `mnemonicGrid_->columns()`: the grid is drawn with `wordCount_` cells. -/
def gridColumns : ℕ := columnsFor v.wordCount.toNat

/-! ## Deriving -/

/-- `derive`. -/
def derive (reportOnEntryPage : Bool) : Bool × ImportView :=
  let empty := v.secrets.mnemonic.firstEmptySlot
  if empty < v.wordCount.toNat then
    (false, if reportOnEntryPage then v.setWordCursor lib empty else v)
  else
    -- no cell is empty, so no word goes with the whitespace
    let v := v.setMnemonic v.secrets.mnemonic.normaliseWhitespace
    let (result, we, machine) := v.toMachine.buildExport w (UInt32.ofNat v.account)
    let v := { v with toMachine := machine, exported := we }
    match result with
    | .error _ => (false, v)
    | .ok () => (true, v)

def rebuildReview : ImportView := { v with writeEnabled := v.dataMounted }

def goTo (page : ImportPage) : ImportView :=
  let v := { v with page := page }
  match page with
  | .entry => (v.setOskVisible (!v.config.physicalKeyboard)).refreshEntry lib
  | .review => (v.setOskVisible false).rebuildReview
  | _ => v

/-- Deriving for the review page: `passphraseReady() && derive(true)`. -/
def deriveForReview : ImportView :=
  let (ready, v) := v.passphraseReady lib
  if ready then
    let (derived, v) := v.derive w lib true
    if derived then v.goTo lib .review else v
  else v

/-- `setAccount`: on the review page the export is derived again. -/
def setAccount (account : ℤ) : ImportView :=
  if account < 0 ∨ (kMaxAccount : ℤ) < account then v
  else
    let v := { v with account := account.toNat }
    if v.page = .review then
      let (derived, v) := v.derive w lib false
      -- a failing derivation keeps the page, with an export without accounts behind it
      if derived then v.rebuildReview else v
    else v

/-! ## Writing -/

def wipeSecrets : ImportView :=
  { v with toMachine := v.toMachine.wipeAllSecrets, cursor := 0, row := v.row.hide }

def showNamePage : ImportView :=
  setOskVisible
    { v with
      namePage := .start
        (proposedWalletExportName v.files out.clock v.exported v.config.dataDir)
      page := .name
      panel := { v.panel with suggestions := 0 } }
    (!v.config.physicalKeyboard)

def doWrite : ImportView :=
  let (result, machine) :=
    v.toMachine.writeExport out.clock out.laterClock out.file v.exported v.namePage.fileName
  let v := { v with toMachine := machine }
  match result with
  | .error _ => v
  | .ok () => { v.wipeSecrets with page := .result }

/-! ## Entering and leaving -/

def onEnter : ImportView :=
  let v := v.wipeSecrets
  let v := { v with exported := {}, account := 0, cursor := 0 }
  let v := v.setWordCount lib v.wordCount
  let v := v.setAccount w lib 0
  let v := v.setField lib .mnemonic
  v.goTo lib .entry

def onLeave : ImportView := v.wipeSecrets

/-! ## Input -/

/-- The field F3 moves on to. -/
def nextField : Field :=
  match v.field with
  | .mnemonic => .passphrase
  | .passphrase => if v.secrets.passphrase.empty then .mnemonic else .confirm
  | .confirm => .mnemonic

/-- Enter on the entry page walks from the words to the passphrase and on. -/
def enterOnEntry : ImportView :=
  if v.field = .mnemonic then
    if v.deriveEnabled then v.setField lib .passphrase else v.moveWordCursor lib 1
  else if v.field = .passphrase ∧ v.secrets.passphrase.empty = false ∧
      v.secrets.passphraseConfirmed = false then
    v.setField lib .confirm
  else if v.deriveEnabled then v.deriveForReview w lib
  else v

/-- The keys that move through the grid, where the words are typed into. -/
def moveKey (press : KeyPress) : Option ImportView :=
  match press.key with
  | .right => some (v.moveWordCursor lib 1)
  | .left => some (v.moveWordCursor lib (-1))
  | .down => some (v.moveWordCursor lib v.gridColumns)
  | .up => some (v.moveWordCursor lib (-v.gridColumns))
  | .home => some (v.setWordCursor lib 0)
  | .endKey => some (v.setWordCursor lib (v.wordCount.toNat - 1))
  | _ =>
    match v.row.pick press with
    | some i => some (v.applySuggestion lib i)
    | none => if press.key = .tab then some v else none

/-- `keyPressEvent` on the entry page. -/
def keyOnEntry (press : KeyPress) : Option ImportView :=
  match press.key with
  | .f2 => some (v.setOskVisible (!v.panel.visible))
  | .f3 => some (v.setField lib v.nextField)
  | .f4 => some (v.cycleWordCount lib)
  | _ =>
    match if v.field = .mnemonic then v.moveKey lib press else none with
    | some v => some v
    | none =>
      match press.key with
      | .backspace => some (v.backspace lib)
      | .enter => some (v.enterOnEntry w lib)
      | _ => press.char.map fun c => v.typeCharacter lib c

/-- `keyPressEvent` on the review page. -/
def keyOnReview (press : KeyPress) : Option ImportView :=
  match press.key with
  | .digit d => some (v.setAccount w lib d.val)
  | .left => some (v.setAccount w lib (v.account - 1))
  | .right => some (v.setAccount w lib (v.account + 1))
  | .enter => some (if v.writeEnabled then v.showNamePage out else v)
  | _ => none

/-- `keyPressEvent`: `none` when the key goes on to `AppWindow`. -/
def keyPress (press : KeyPress) : Option ImportView :=
  match v.page with
  | .entry => v.keyOnEntry w lib press
  | .review => v.keyOnReview w lib out press
  | .name =>
    if press.key = .f2 then some (v.setOskVisible (!v.panel.visible))
    else (v.namePage.handleKey press).map fun page => { v with namePage := page }
  | .result => none

/-- A key of the floating keyboard, which can be pressed while the panel is up. -/
def osk (key : OskKey) : ImportView :=
  if v.panel.visible then
    match key with
    | .character c => v.typeCharacter lib c
    | .backspace => v.backspace lib
    | .deleteWord => v.deleteWord lib
    | .clear => v.clearAll lib
    | .hide => v.setOskVisible false
    | .suggestion i => if i.val < v.panel.suggestions then v.applySuggestion lib i else v
  else v

/-- A button can be clicked: its page is showing, and it is visible and enabled. -/
def clickable (button : ImportButton) : Bool :=
  v.page == button.page &&
    match button with
    | .confirmBox => !v.secrets.passphrase.empty
    | .suggestion i => i.val < v.row.shown
    | .derive => v.deriveEnabled
    | .write => v.writeEnabled
    | .nameAccept => v.namePage.acceptEnabled
    | _ => true

/-- What a click does on this screen. The buttons that lead to another screen do the rest of
their work in `AppWindow`. -/
def click (button : ImportButton) : ImportView :=
  match button with
  | .words count => v.setWordCount lib count
  | .reveal => v.refreshEntry lib
  | .cell i =>
    let v := if v.field = .mnemonic then v else v.setField lib .mnemonic
    v.setWordCursor lib i
  | .wordsBox => v.setField lib .mnemonic
  | .passphraseBox => v.setField lib .passphrase
  | .confirmBox => v.setField lib .confirm
  | .suggestion i => v.applySuggestion lib i
  | .clear => v.clearAll lib
  | .oskToggle | .nameOskToggle => v.setOskVisible (!v.panel.visible)
  | .derive => v.deriveForReview w lib
  | .account i => v.setAccount w lib i.val
  | .reviewBack => v.goTo lib .entry
  | .write => v.showNamePage out
  | .nameBack => v.goTo lib .review
  | .nameClear => { v with namePage := v.namePage.clearName }
  | .nameAccept => v.doWrite out
  | .back | .backToStart | .secureShutdown => v

end ImportView

end SignerOS
