import Mathlib.Data.Rat.Defs
import Mathlib.Data.List.Basic
import Mathlib.Tactic.Linarith

/-!
# The touchpad

`Touchpad` reads a pad's events, keeps what it knows of the fingers, and turns each frame into
pointer movements, scroll amounts and button events. Lengths are exact, and the square root that
the acceleration needs is a parameter; where the pointer is on the screen, and which window gets
the event, are outside this model.
-/

namespace SignerOS

/-! ## Events -/

/-- The codes of an `EV_ABS` event. -/
inductive AbsCode
  | mtSlot | mtTrackingId | mtPositionX | mtPositionY | x | y | other
deriving DecidableEq, Repr

/-- The codes of an `EV_KEY` event. -/
inductive KeyCode
  | touch | toolFinger | toolDoubletap | toolTripletap | toolQuadtap | toolQuinttap
  | left | right | middle | other
deriving DecidableEq, Repr

/-- `input_event`, less the `SYN_REPORT` that ends a frame. -/
inductive PadEvent
  | abs (code : AbsCode) (value : ℤ)
  | key (code : KeyCode) (value : ℤ)
  | other
deriving DecidableEq, Repr

/-- The events up to a `SYN_REPORT`, and what the clock shows when it is read. -/
structure Frame where
  events : List PadEvent
  time : ℤ
deriving DecidableEq, Repr

/-- `Qt::MouseButton`. -/
inductive MouseButton
  | left | right | middle
deriving DecidableEq, Repr

/-- What is handed to the window system: a button, the amount the pointer is moved by, or the pixel
and angle deltas of a wheel event. -/
inductive Output
  | button (b : MouseButton) (pressed : Bool)
  | move (x y : ℚ)
  | wheel (pixelX pixelY angleX angleY : ℤ)
deriving DecidableEq

/-! ## The pad -/

def kAccelBase : ℚ := 45 / 100
def kAccelGain : ℚ := 42
def kAccelMin : ℚ := 45 / 100
def kAccelMax : ℚ := 26 / 10
def kJumpReject : ℚ := 35 / 100
def kPixelsPerNotch : ℚ := 50
def kTapMs : ℤ := 180
def kTapSlop : ℚ := 3 / 100

/-- `Touchpad::Contact`. -/
structure Contact where
  trackingId : ℤ := -1
  x : ℤ := 0
  y : ℤ := 0
deriving DecidableEq, Repr

/-- What `init` reads from the device: a pad with a degenerate axis, or with one whose span is no
`int`, is refused, and there is room for one slot at least. -/
structure PadDevice where
  multitouch : Bool
  minX : ℤ
  maxX : ℤ
  minY : ℤ
  maxY : ℤ
  gainX : ℚ
  gainY : ℚ
  slotCount : ℕ
  spanX_pos : minX < maxX
  spanY_pos : minY < maxY
  spanX_lt : maxX - minX < 2 ^ 31
  spanY_lt : maxY - minY < 2 ^ 31
  slotCount_pos : 0 < slotCount
  slotCount_le : slotCount ≤ 16

/-- The members of `Touchpad`, but for the file and the position of the pointer. -/
structure Touchpad where
  contacts : List Contact
  currentSlot : ℕ := 0
  singleX : ℤ := 0
  singleY : ℤ := 0
  singleTouch : Bool := false
  toolFinger : Bool := false
  toolDouble : Bool := false
  toolTriple : Bool := false
  prevFingers : ℕ := 0
  prevX : ℤ := 0
  prevY : ℤ := 0
  havePrev : Bool := false
  tapTimer : Option ℤ := none
  tapCandidate : Bool := false
  tapStartX : ℤ := 0
  tapStartY : ℤ := 0
  physicalButtonDown : Bool := false
  buttons : MouseButton → Bool := fun _ => false

namespace Touchpad

/-- The pad as `init` leaves it. -/
def opened (dev : PadDevice) : Touchpad := { contacts := List.replicate dev.slotCount {} }

section
variable (dev : PadDevice) (pad : Touchpad)

def setButton (b : MouseButton) (pressed : Bool) : Touchpad × List Output :=
  if pressed = pad.buttons b then (pad, [])
  else
    ({ pad with buttons := fun b' => if b' = b then pressed else pad.buttons b' },
      [.button b pressed])

/-- The contact of the current slot is changed. -/
def modifyContact (f : Contact → Contact) : Touchpad :=
  { pad with contacts := pad.contacts.modify pad.currentSlot f }

/-- `handleEvent`, the case of an `EV_ABS`. -/
def handleAbs (code : AbsCode) (value : ℤ) : Touchpad :=
  match code with
  | .mtSlot =>
    { pad with currentSlot := if 0 ≤ value ∧ value < pad.contacts.length then value.toNat else 0 }
  | .mtTrackingId => pad.modifyContact fun c => { c with trackingId := value }
  | .mtPositionX => pad.modifyContact fun c => { c with x := value }
  | .mtPositionY => pad.modifyContact fun c => { c with y := value }
  | .x => { pad with singleX := value }
  | .y => { pad with singleY := value }
  | .other => pad

/-- `handleEvent`, the case of an `EV_KEY`. -/
def handleKey (code : KeyCode) (value : ℤ) : Touchpad × List Output :=
  let down := decide (value ≠ 0)
  match code with
  | .touch => ({ pad with singleTouch := down }, [])
  | .toolFinger => ({ pad with toolFinger := down }, [])
  | .toolDoubletap => ({ pad with toolDouble := down }, [])
  | .toolTripletap => ({ pad with toolTriple := down }, [])
  | .left =>
    let pad := { pad with
      physicalButtonDown := down
      -- a short physical click is no tap
      tapCandidate := if down then false else pad.tapCandidate }
    pad.setButton .left down
  | .right => pad.setButton .right down
  | .middle => pad.setButton .middle down
  | .toolQuadtap | .toolQuinttap | .other => (pad, [])

/-- `handleEvent`. -/
def handleEvent : PadEvent → Touchpad × List Output
  | .abs code value => (pad.handleAbs code value, [])
  | .key code value => pad.handleKey code value
  | .other => (pad, [])

/-- The events of a frame, and what they put out. -/
def handleEvents : Touchpad → List PadEvent → Touchpad × List Output
  | pad, [] => (pad, [])
  | pad, ev :: evs =>
    let (pad, outs) := pad.handleEvent ev
    let (pad, outs') := handleEvents pad evs
    (pad, outs ++ outs')

/-! ## Fingers -/

def activeContacts : ℕ :=
  if dev.multitouch then pad.contacts.countP fun c => 0 ≤ c.trackingId
  else if pad.toolTriple then 3
  else if pad.toolDouble then 2
  else if pad.toolFinger || pad.singleTouch then 1
  else 0

def primaryPosition : Option (ℤ × ℤ) :=
  if dev.multitouch then
    (pad.contacts.find? fun c => 0 ≤ c.trackingId).map fun c => (c.x, c.y)
  else if pad.toolFinger || pad.toolDouble || pad.toolTriple || pad.singleTouch then
    some (pad.singleX, pad.singleY)
  else none

/-! ## Motion -/

/-- The difference of two `int`s, which wraps around. -/
def intSub (a b : ℤ) : ℤ := (a - b).bmod (2 ^ 32)

@[simp] theorem intSub_self (a : ℤ) : intSub a a = 0 := by
  rw [intSub, sub_self, Int.zero_bmod]

theorem intSub_of_abs_lt {a b : ℤ} (h : |a - b| < 2 ^ 31) : intSub a b = a - b := by
  obtain ⟨hlow, hhigh⟩ := abs_lt.mp h
  exact Int.bmod_eq_of_le_mul_two (by omega) (by omega)

def qFuzzyIsNull (d : ℚ) : Bool := |d| ≤ 1 / 10 ^ 12

/-- The amount `movePointer` moves the pointer by. -/
def movePointer (sqrt : ℚ → ℚ) (dxUnits dyUnits : ℚ) : List Output :=
  if qFuzzyIsNull dxUnits && qFuzzyIsNull dyUnits then []
  else
    let fx := dxUnits / (dev.maxX - dev.minX)
    let fy := dyUnits / (dev.maxY - dev.minY)
    let travelled := sqrt (fx * fx + fy * fy)
    let accel := kAccelBase + kAccelGain * travelled
    let accel := if accel < kAccelMin then kAccelMin else accel
    let accel := if kAccelMax < accel then kAccelMax else accel
    [.move (dxUnits * dev.gainX * accel) (dyUnits * dev.gainY * accel)]

/-- `int(d)`: towards zero. -/
def toInt (d : ℚ) : ℤ := d.num.tdiv d.den

/-- The amount `scroll` scrolls by. -/
def scroll (dxUnits dyUnits : ℚ) : List Output :=
  let dxPx := dxUnits * dev.gainX
  let dyPx := dyUnits * dev.gainY
  if qFuzzyIsNull dxPx && qFuzzyIsNull dyPx then []
  else
    let pixelX := toInt (-dxPx)
    let pixelY := toInt (-dyPx)
    let angleX := toInt (-dxPx / kPixelsPerNotch * 120)
    let angleY := toInt (-dyPx / kPixelsPerNotch * 120)
    if pixelX = 0 ∧ pixelY = 0 ∧ angleX = 0 ∧ angleY = 0 then []
    else [.wheel pixelX pixelY angleX angleY]

/-- One finger moves the pointer, and so do two while a button is held; two scroll otherwise. -/
def gesture (sqrt : ℚ → ℚ) (fingers : ℕ) (dx dy : ℚ) : List Output :=
  let held := pad.buttons .left || pad.buttons .right || pad.buttons .middle
  if fingers = 1 ∨ fingers = 2 ∧ held = true then movePointer dev sqrt dx dy
  else if fingers = 2 then scroll dev dx dy
  else []

/-- A delta no finger makes in one frame. -/
def isJump (dx dy : ℚ) : Prop :=
  kJumpReject < |dx / (dev.maxX - dev.minX)| ∨ kJumpReject < |dy / (dev.maxY - dev.minY)|

instance (dx dy : ℚ) : Decidable (isJump dev dx dy) :=
  inferInstanceAs (Decidable (_ ∨ _))

/-- A distance is more than a tap may travel: `std::sqrt(tx * tx + ty * ty) > kTapSlop`, squared. -/
def tooFar (dx dy : ℤ) : Prop :=
  let tx : ℚ := dx / (dev.maxX - dev.minX)
  let ty : ℚ := dy / (dev.maxY - dev.minY)
  kTapSlop * kTapSlop < tx * tx + ty * ty

instance (dx dy : ℤ) : Decidable (tooFar dev dx dy) :=
  inferInstanceAs (Decidable (_ < _))

/-- Two positions are further apart than a tap may travel. -/
def beyondSlop (x y startX startY : ℤ) : Prop := tooFar dev (x - startX) (y - startY)

instance (x y startX startY : ℤ) : Decidable (beyondSlop dev x y startX startY) :=
  inferInstanceAs (Decidable (tooFar ..))

/-! ## Frames -/

/-- The button goes down and up. -/
def click : Touchpad × List Output :=
  let (pad, pressed) := pad.setButton .left true
  let (pad, released) := pad.setButton .left false
  (pad, pressed ++ released)

/-- `frameComplete`, when the number of fingers has changed. -/
def fingersChanged (fingers : ℕ) (pos : Option (ℤ × ℤ)) (now : ℤ) : Touchpad × List Output :=
  let pad := { pad with havePrev := false }
  if pad.prevFingers = 0 ∧ fingers = 1 ∧ pos.isSome = true then
    let (x, y) := pos.getD (0, 0)
    ({ pad with
      tapCandidate := !pad.physicalButtonDown
      tapStartX := x
      tapStartY := y
      tapTimer := some now }, [])
  else if fingers = 0 then
    let tapped := pad.tapCandidate && pad.prevFingers == 1 && !pad.physicalButtonDown
      && pad.tapTimer.any fun start => now - start ≤ kTapMs
    let (pad, outs) := if tapped then pad.click else (pad, [])
    ({ pad with tapCandidate := false }, outs)
  else ({ pad with tapCandidate := false }, [])

/-- `frameComplete`, once there is a position. -/
def track (sqrt : ℚ → ℚ) (fingers : ℕ) (x y : ℤ) : Touchpad × List Output :=
  if pad.havePrev then
    let dx : ℚ := intSub x pad.prevX
    let dy : ℚ := intSub y pad.prevY
    if isJump dev dx dy then
      -- the position is current all the same
      ({ pad with prevX := x, prevY := y }, [])
    else
      let outs := pad.gesture dev sqrt fingers dx dy
      let tapCandidate :=
        if pad.tapCandidate = true ∧
          tooFar dev (intSub x pad.tapStartX) (intSub y pad.tapStartY) then false
        else pad.tapCandidate
      ({ pad with tapCandidate := tapCandidate, prevX := x, prevY := y, havePrev := true }, outs)
  else ({ pad with prevX := x, prevY := y, havePrev := true }, [])

/-- `frameComplete`. -/
def frameComplete (sqrt : ℚ → ℚ) (now : ℤ) : Touchpad × List Output :=
  let fingers := pad.activeContacts dev
  let pos := pad.primaryPosition dev
  let (pad, tap) :=
    if fingers ≠ pad.prevFingers then pad.fingersChanged fingers pos now else (pad, [])
  let pad := { pad with prevFingers := fingers }
  match pos with
  | none => ({ pad with havePrev := false }, tap)
  | some (x, y) =>
    let (pad, moved) := pad.track dev sqrt fingers x y
    (pad, tap ++ moved)

end

end Touchpad

end SignerOS
