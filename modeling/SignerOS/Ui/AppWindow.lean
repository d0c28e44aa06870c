import SignerOS.Ui.SignScreen
import SignerOS.Ui.CreateScreen
import SignerOS.Ui.ImportScreen

/-!
# `AppWindow`

The window, one screen of which shows at a time, and everything that can happen to it: a key, a
key of the floating keyboard, a click, the end of the splash, and the poll of the data
partition.

A button can be clicked while it is showing and enabled, the floating keyboard while its panel
is up. A key goes to the screen that shows, and to the window if the screen has no use for it.
-/

namespace SignerOS

open Files (Disk)

/-- The pages of `stack_`. -/
inductive Screen
  | splash | home | scan | inspect | sign | create | importing | shutdown
deriving DecidableEq, Repr

/-- The members of `AppWindow` beside the machine, and of the screens that are little else than
buttons. `exited` once `QApplication::exit` has been called. -/
structure AppWindow extends Machine where
  current : Screen := .splash
  sign : SignScreen := {}
  create : CreateScreen := {}
  importing : ImportScreen := {}
  /-- The splash has finished. -/
  splashDone : Bool := false
  /-- `InspectScreen::signBtn_` is enabled. -/
  inspectSignEnabled : Bool := true
  exited : Bool := false

/-- What can be clicked. -/
inductive Button
  | splash
  | homeCreate | homeSign | homeImport | homeShutdown
  | scanBack
  /-- The selected file is opened, and read as often as the click is delivered. -/
  | scanOpen (path : String) (reads : List FileNode)
  | inspectBack | inspectSign
  | sign (button : SignButton)
  | create (button : CreateButton)
  | importing (button : ImportButton)
  | shutdownCancel | shutdownNow

/-- What can happen. -/
inductive Event
  | key (press : KeyPress) (out : Outside)
  | osk (key : OskKey)
  | click (button : Button) (out : Outside)
  | splashTimeout
  | poll (mounted : Bool) (files : Disk Char)

namespace AppWindow

variable (w : Wally) (lib : Bip39) (out : Outside) (a : AppWindow)

/-- The window when the process has started. -/
def start (config : AppConfig) (files : Disk Char) : AppWindow where
  config := config
  dataMounted := false
  engine := { network := config.network }
  slot := .clear
  secrets := .wiped
  files := files
  log := []

/-! ## The screens -/

def signView : SignView := { toSignScreen := a.sign, toMachine := a.toMachine }

def createView : CreateView := { toCreateScreen := a.create, toMachine := a.toMachine }

def importView : ImportView := { toImportScreen := a.importing, toMachine := a.toMachine }

/-- The window after its sign screen has worked. -/
def withSign (v : SignView) : AppWindow :=
  { a with toMachine := v.toMachine, sign := v.toSignScreen }

/-- The window after its create screen has worked. -/
def withCreate (v : CreateView) : AppWindow :=
  { a with toMachine := v.toMachine, create := v.toCreateScreen }

/-- The window after its import screen has worked. -/
def withImport (v : ImportView) : AppWindow :=
  { a with toMachine := v.toMachine, importing := v.toImportScreen }

/-! ## Navigation -/

def leaveCurrent : AppWindow :=
  match a.current with
  | .sign => a.withSign a.signView.onLeave
  | .create => a.withCreate a.createView.onLeave
  | .importing => a.withImport a.importView.onLeave
  | _ => a

def clearKey : AppWindow := { a with toMachine := a.toMachine.clearKey }

def unload : AppWindow := { a with toMachine := a.toMachine.unload }

def wipeAllSecrets : AppWindow := { a with toMachine := a.toMachine.wipeAllSecrets }

def showHome : AppWindow :=
  { a.leaveCurrent.clearKey.unload.wipeAllSecrets with current := .home }

def showScan : AppWindow :=
  let a := a.leaveCurrent
  { (a.withSign a.signView.onLeave).unload with current := .scan }

/-- `showInspect`, with `InspectScreen::onEnter`. -/
def showInspect : AppWindow :=
  let a := a.leaveCurrent
  { a with
    current := .inspect
    inspectSignEnabled := a.engine.psbt.isSome && a.engine.summary.safeToSign }

def showSign : AppWindow :=
  let a := { a.leaveCurrent with current := .sign }
  a.withSign (a.signView.onEnter lib)

def showCreate : AppWindow :=
  let a := { a.leaveCurrent.clearKey.unload with current := .create }
  a.withCreate (a.createView.onEnter lib out)

def showImport : AppWindow :=
  let a := { a.leaveCurrent.clearKey.unload with current := .importing }
  a.withImport (a.importView.onEnter w lib)

def showShutdown : AppWindow := { a.leaveCurrent with current := .shutdown }

def requestPoweroff : AppWindow :=
  let a := a.clearKey.unload
  let a := a.withSign a.signView.onLeave
  let a := a.withCreate a.createView.onLeave
  { a.wipeAllSecrets with exited := true }

/-- `SplashScreen::finish`. -/
def finishSplash : AppWindow :=
  if a.splashDone then a else { a with splashDone := true }.showHome

/-- `ScanScreen::openSelected`. -/
def openSelected (path : String) (file : FileNode) : AppWindow :=
  let (result, machine) := a.toMachine.load w path file
  let a := { a with toMachine := machine }
  match result with
  | .error _ => a
  | .ok () => a.showInspect

/-! ## Keys -/

/-- `activeSaveAsPage() != nullptr`. -/
def savePageActive : Bool :=
  match a.current with
  | .sign => a.sign.page == .name
  | .create => a.create.page == .name
  | .importing => a.importing.page == .name
  | _ => false

/-- `SaveAsPage::accept` of the page that is active. -/
def acceptSavePage : AppWindow :=
  match a.current with
  | .sign => if a.sign.namePage.acceptEnabled then a.withSign (a.signView.doWrite w out) else a
  | .create =>
    if a.create.namePage.acceptEnabled then a.withCreate (a.createView.doCreate out) else a
  | .importing =>
    if a.importing.namePage.acceptEnabled then a.withImport (a.importView.doWrite out) else a
  | _ => a

/-- `AppWindow::keyPressEvent`. -/
def ownKeyPress (press : KeyPress) : AppWindow :=
  match press.key with
  | .escape =>
    if a.current = .create ∨ a.current = .home ∨ a.current = .splash then a else a.showHome
  | .f12 => a.showShutdown
  | _ => a

/-- The screen that shows gets the key: `none` when it has no use for it. -/
def screenKeyPress (press : KeyPress) : Option AppWindow :=
  match a.current with
  | .splash => if press.key = .f12 then none else some a.finishSplash
  | .sign => (a.signView.keyPress w lib out press).map a.withSign
  | .create => (a.createView.keyPress w lib out press).map a.withCreate
  | .importing => (a.importView.keyPress w lib out press).map a.withImport
  | _ => none

/-- A key, behind `AppWindow::eventFilter`. -/
def keyPress (press : KeyPress) : AppWindow :=
  if press.key = .enter ∧ a.savePageActive = true then a.acceptSavePage w out
  else (a.screenKeyPress w lib out press).getD (a.ownKeyPress press)

/-! ## Clicks -/

/-- A key of the floating keyboard of the screen that shows. -/
def osk (key : OskKey) : AppWindow :=
  match a.current with
  | .sign => a.withSign (a.signView.osk lib key)
  | .create => a.withCreate (a.createView.osk lib key)
  | .importing => a.withImport (a.importView.osk lib key)
  | _ => a

/-- The screen a button is on. -/
def Button.screen : Button → Screen
  | .splash => .splash
  | .homeCreate | .homeSign | .homeImport | .homeShutdown => .home
  | .scanBack | .scanOpen .. => .scan
  | .inspectBack | .inspectSign => .inspect
  | .sign _ => .sign
  | .create _ => .create
  | .importing _ => .importing
  | .shutdownCancel | .shutdownNow => .shutdown

/-- A button can be clicked: its screen is showing, and it is visible and enabled. -/
def clickable (button : Button) : Bool :=
  a.current == Button.screen button &&
    match button with
    | .inspectSign => a.inspectSignEnabled
    | .sign b => a.signView.clickable b
    | .create b => a.createView.clickable b
    | .importing b => a.importView.clickable b
    | _ => true

/-- What a click of the sign screen leads to. -/
def afterSign : SignButton → AppWindow
  | .back => a.showInspect
  | .nameBack | .signAnother => a.showScan
  | .secureShutdown => a.showShutdown
  | _ => a

/-- What a click of the create screen leads to. -/
def afterCreate : CreateButton → AppWindow
  | .introBack | .backToStart => a.showHome
  | .secureShutdown => a.showShutdown
  | _ => a

/-- What a click of the import screen leads to. -/
def afterImport : ImportButton → AppWindow
  | .back | .backToStart => a.showHome
  | .secureShutdown => a.showShutdown
  | _ => a

def click (button : Button) : AppWindow :=
  match button with
  | .splash => a.finishSplash
  | .homeCreate => a.showCreate lib out
  | .homeSign => a.showScan
  | .homeImport => a.showImport w lib
  | .homeShutdown => a.showShutdown
  | .scanBack => a.showHome
  | .scanOpen path reads => reads.foldl (fun a file => a.openSelected w path file) a
  | .inspectBack => a.showScan
  | .inspectSign => a.showSign lib
  | .sign b => (a.withSign (a.signView.click w lib out b)).afterSign b
  | .create b => (a.withCreate (a.createView.click w lib out b)).afterCreate b
  | .importing b => (a.withImport (a.importView.click w lib out b)).afterImport b
  | .shutdownCancel => a.showHome
  | .shutdownNow => a.requestPoweroff

/-! ## The poll -/

/-- `pollDataMount`, and what has happened on the partition since the last one. A change of
`dataMounted_` rebuilds the pages whose buttons depend on it. -/
def poll (mounted : Bool) (files : Disk Char) : AppWindow :=
  let a := { a with files := files }
  if mounted = a.dataMounted then a
  else
    let a := { a with dataMounted := mounted }
    let a := if a.create.page = .confirm then a.withCreate a.createView.rebuildConfirm else a
    if a.importing.page = .review then a.withImport a.importView.rebuildReview else a

/-! ## Runs -/

/-- One event. After `exit` nothing is handled any more. -/
def step (a : AppWindow) (event : Event) : AppWindow :=
  if a.exited then a
  else
    match event with
    | .key press out => a.keyPress w lib out press
    | .osk key => a.osk lib key
    | .click button out => if a.clickable button then a.click w lib out button else a
    | .splashTimeout => if a.current = .splash then a.finishSplash else a
    | .poll mounted files => a.poll mounted files

end AppWindow

end SignerOS
