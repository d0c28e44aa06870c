import SignerOS.Ui.Secrets
import SignerOS.Session
import SignerOS.Writers

/-!
# What the screens share

The keys that can be pressed, the widgets more than one screen has, and the `Machine`: all a
screen reaches through `AppWindow` or through the process-wide buffers.

The machine comes with a history variable: the calls the screens have made on the engine and
the confirmation page, and the mnemonics they have generated. No function reads it; it is what
is said about the order of these calls.
-/

namespace SignerOS

open Files (Disk Attempt)

/-- `AppConfig`, less the label of the data partition. -/
structure AppConfig where
  network : Network := .mainnet
  dataDir : String := "/mnt/data"
  writeFinalTx : Bool := false
  physicalKeyboard : Bool := false

/-! ## Keys -/

/-- `Qt::Key`, as far as the screens tell keys apart; `enter` is `Key_Return` or `Key_Enter`. -/
inductive Key
  | letter (i : Fin 26)
  | digit (d : Fin 10)
  | space | backspace | enter | tab | escape
  | f2 | f3 | f4 | f12
  | left | right | up | down | home | endKey
  | other
deriving DecidableEq, Repr

/-- `QKeyEvent`: `key`, the shift modifier and `text`. -/
structure KeyPress where
  key : Key
  shift : Bool := false
  text : List Char := []
deriving DecidableEq, Repr

/-- The character a letter key types. -/
def letterChar (i : Fin 26) (shift : Bool) : UInt8 :=
  (if shift then 0x41 else 0x61) + UInt8.ofNat i

/-- The character a digit key types. -/
def digitChar (d : Fin 10) : UInt8 := 0x30 + UInt8.ofNat d

/-- The character the secret fields take from a key. -/
def KeyPress.char (press : KeyPress) : Option UInt8 :=
  match press.key with
  | .space => some SecureString.space
  | .letter i => some (letterChar i press.shift)
  | .digit d => some (digitChar d)
  | _ => none

/-- Which buffer is typed into: `SignScreen::Field` and `ImportScreen::Field`. -/
inductive Field
  | mnemonic | passphrase | confirm
deriving DecidableEq, Repr

namespace SecretBuffers

/-- `activeBuffer`. -/
def get (b : SecretBuffers) : Field → Secret
  | .mnemonic => b.mnemonic
  | .passphrase => b.passphrase
  | .confirm => b.passphraseConfirm

def set (b : SecretBuffers) (s : Secret) : Field → SecretBuffers
  | .mnemonic => { b with mnemonic := s }
  | .passphrase => { b with passphrase := s }
  | .confirm => { b with passphraseConfirm := s }

/-- A confirmation with nothing to confirm is cleared. -/
def dropConfirmation (b : SecretBuffers) : SecretBuffers :=
  if b.passphraseConfirm.empty then b
  else { b with passphraseConfirm := b.passphraseConfirm.clear }

end SecretBuffers

/-! ## The save-as page -/

/-- `SaveAsPage`: the name being edited. -/
structure SaveAsPage where
  name : List Char := []

namespace SaveAsPage

/-- `isPrintableAscii(QChar)`. -/
def isPrintable (c : Char) : Bool := 0x20 ≤ c.toNat && c.toNat ≤ 0x7e

/-- `begin`. -/
def start (proposedName : String) : SaveAsPage := ⟨proposedName.toList⟩

/-- `fileName`: the name, trimmed. -/
def fileName (page : SaveAsPage) : String :=
  String.ofList ((page.name.dropWhile Char.isWhitespace).rdropWhile Char.isWhitespace)

/-- `acceptBtn_->isEnabled()`, as `refresh` leaves it after every change of the name. -/
def acceptEnabled (page : SaveAsPage) : Bool := !(sanitiseFileName page.fileName "").isEmpty

def typeCharacter (page : SaveAsPage) (c : Char) : SaveAsPage :=
  if !isPrintable c then page
  else if 120 ≤ page.name.length then page
  else ⟨page.name ++ [c]⟩

def backspace (page : SaveAsPage) : SaveAsPage := ⟨page.name.dropLast⟩

def clearName (_ : SaveAsPage) : SaveAsPage := ⟨[]⟩

/-- `handleKey`: `none` when the key was not used. Enter does not get here, since
`AppWindow::eventFilter` consumes it. -/
def handleKey (page : SaveAsPage) (press : KeyPress) : Option SaveAsPage :=
  if press.key = .backspace then some page.backspace
  else
    match press.text with
    | [c] => if isPrintable c then some (page.typeCharacter c) else none
    | _ => none

end SaveAsPage

/-! ## Suggestions and the floating keyboard -/

/-- `kSuggestionCount`. -/
def kSuggestionCount : ℕ := 5

/-- A page's row of suggestion buttons: the word each holds, and how many are showing. -/
structure SuggestionRow where
  word : Fin kSuggestionCount → Option Word := fun _ => none
  shown : ℕ := 0

/-- `OskPanel`: whether it is up, and how many of its suggestion buttons are showing. -/
structure OskPanel where
  visible : Bool := false
  suggestions : ℕ := 0

/-- The keys of the floating keyboard. -/
inductive OskKey
  | character (c : UInt8)
  | backspace | deleteWord | clear | hide
  | suggestion (i : Fin kSuggestionCount)
deriving DecidableEq

/-- The wiping of the row: the labels go, the words of the buttons stay. -/
def SuggestionRow.hide (row : SuggestionRow) : SuggestionRow := { row with shown := 0 }

/-- Offering words: the buttons hold them, and either the panel or the page's row shows them. -/
def offerSuggestions (words : List Word) (onPanel : Bool) (row : SuggestionRow)
    (panel : OskPanel) : SuggestionRow × OskPanel :=
  let word := fun i : Fin kSuggestionCount => (words[i.val]?).or (row.word i)
  if onPanel then (⟨word, 0⟩, { panel with suggestions := words.length })
  else (⟨word, words.length⟩, { panel with suggestions := 0 })

/-- The word a suggestion key picks, if the row shows it. -/
def SuggestionRow.pick (row : SuggestionRow) (press : KeyPress) : Option (Fin kSuggestionCount) :=
  let index : Option (Fin kSuggestionCount) :=
    match press.key with
    | .digit d =>
      if h : 1 ≤ d.val ∧ d.val ≤ kSuggestionCount then some ⟨d.val - 1, by omega⟩ else none
    | .tab => some ⟨0, by decide⟩
    | _ => none
  index.filter fun i => i.val < row.shown

/-! ## The machine -/

/-- `SignScreen::KeySource`. -/
inductive KeySource
  | mnemonic | xprv
deriving DecidableEq, Repr

/-- The key a setter derives from what is typed. -/
def derivedKey (w : Wally) (network : Network) (source : KeySource) (key passphrase : Bytes) :
    Except String ExtKey :=
  match source with
  | .mnemonic => PsbtEngine.masterFromMnemonic w network (cStr key) (cStr passphrase)
  | .xprv => PsbtEngine.masterFromXprv w (cStr key)

/-- What is typed when a key is entered. -/
structure KeyCheck where
  source : KeySource
  key : Bytes
  passphrase : Bytes
  confirmation : Bytes

/-- The slot and the engine when `sign` is called, and what is typed then. -/
structure Signing where
  slot : KeySlot
  engine : PsbtEngine
  source : KeySource
  key : Bytes
  passphrase : Bytes

/-- A call a screen makes on the engine or on the confirmation page, or a mnemonic it has
generated. -/
inductive Call
  | load | unload | clearKey
  | generated (mnemonic : Bytes)
  | enterKey (check : KeyCheck)
  | rebuildConfirm (slot : KeySlot) (engine : PsbtEngine)
  | sign (signing : Signing)

/-- What the screens share. `log` lists the calls they have made, newest first. -/
structure Machine where
  config : AppConfig
  dataMounted : Bool
  engine : PsbtEngine
  slot : KeySlot
  secrets : SecretBuffers
  files : Disk Char
  log : List Call

namespace Machine

variable (w : Wally) (m : Machine)

def load (path : String) (file : FileNode) : Except String Unit × Machine :=
  let (result, engine) := m.engine.load w m.slot path file
  (result, { m with engine := engine, log := .load :: m.log })

def unload : Machine := { m with engine := m.engine.unload, log := .unload :: m.log }

def clearKey : Machine :=
  let (slot, engine) := m.engine.clearKey
  { m with slot := slot, engine := engine, log := .clearKey :: m.log }

def wipeAllSecrets : Machine := { m with secrets := m.secrets.wipeAllSecrets }

/-- `setKeyFromMnemonic` or `setKeyFromXprv`, with the buffers. -/
def enterKey (source : KeySource) : Except String Unit × Machine :=
  let key := m.secrets.mnemonic.text
  let passphrase := m.secrets.passphrase.text
  let (result, slot, engine) :=
    match source with
    | .mnemonic => m.engine.setKeyFromMnemonic w (cStr key) (cStr passphrase)
    | .xprv => m.engine.setKeyFromXprv w (cStr key)
  (result, { m with
    slot := slot, engine := engine
    log := .enterKey ⟨source, key, passphrase, m.secrets.passphraseConfirm.text⟩ :: m.log })

def sign (source : KeySource) : Except String ℕ × Machine :=
  let (result, engine) := m.engine.sign w m.slot
  (result, { m with
    engine := engine
    log := .sign ⟨m.slot, m.engine, source, m.secrets.mnemonic.text, m.secrets.passphrase.text⟩
      :: m.log })

def writeResult (env : PsbtEngine.WriteEnv) (fileName : String) : Except String Unit × Machine :=
  let outcome :=
    m.engine.writeResult w env m.files m.config.dataDir fileName m.config.writeFinalTx
  (outcome.result, { m with engine := outcome.engine, files := outcome.files })

/-- `buildWalletExport` of the words and the passphrase in the buffers. -/
def buildExport (account : UInt32) : Except String Unit × WalletExport × Machine :=
  let (result, we, slot) :=
    buildWalletExport w m.slot (cStr m.secrets.mnemonic.text) (cStr m.secrets.passphrase.text)
      m.config.network account
  (result, we, { m with slot := slot })

def writeExport (clock laterClock : Clock) (os : Attempt) (we : WalletExport)
    (fileName : String) : Except String Unit × Machine :=
  let outcome := writeWalletExport clock laterClock os m.files we m.config.dataDir fileName
  (outcome.result, { m with files := outcome.files })

end Machine

/-! ## What comes from outside -/

/-- What the world outside the program answers while an event is handled. -/
structure Outside where
  clock : Clock
  laterClock : Clock
  file : Attempt
  secondFile : Attempt
  /-- `EntropyPool::userTargetReached`. -/
  targetReached : Bool
  /-- `EntropyPool::finalise`: the bytes, or why there are none. -/
  entropy : ℕ → Except String Bytes

end SignerOS
