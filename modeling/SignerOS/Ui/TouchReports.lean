import SignerOS.Ui.Touchpad

/-!
# What a touchpad reports

The events of a pad as the protocols of the kernel mean them, kept beside the state the code makes
of them: a slot is any number the device sends, a contact is a slot and a tracking id, and a pad
without slots counts its fingers by the tool bits.

* `Surface`, what is on the pad, and `Report`, one frame of it;
* `TapAllowed` and `OneFinger`, what a tap and a movement may be made of;
* `Watched`, the code and the reports it was sent.
-/

namespace SignerOS

/-! ## Fingers -/

/-- What is on the pad: the contact in each slot, what a pad without slots says, and whether the
left button is down. -/
structure Surface where
  slot : ℤ := 0
  contacts : ℤ → Contact := fun _ => {}
  x : ℤ := 0
  y : ℤ := 0
  touch : Bool := false
  finger : Bool := false
  double : Bool := false
  triple : Bool := false
  quad : Bool := false
  quint : Bool := false
  left : Bool := false

/-- A finger is known by its slot and its tracking id, where there are slots. -/
inductive Finger
  | contact (slot trackingId : ℤ)
  | single
deriving DecidableEq

namespace Surface

/-- The contact of the slot that was named last is changed. -/
def modifyContact (s : Surface) (f : Contact → Contact) : Surface :=
  { s with contacts := fun i => if i = s.slot then f (s.contacts i) else s.contacts i }

/-- What an event says. -/
def apply (s : Surface) : PadEvent → Surface
  | .abs .mtSlot value => { s with slot := value }
  | .abs .mtTrackingId value => s.modifyContact fun c => { c with trackingId := value }
  | .abs .mtPositionX value => s.modifyContact fun c => { c with x := value }
  | .abs .mtPositionY value => s.modifyContact fun c => { c with y := value }
  | .abs .x value => { s with x := value }
  | .abs .y value => { s with y := value }
  | .key .touch value => { s with touch := decide (value ≠ 0) }
  | .key .toolFinger value => { s with finger := decide (value ≠ 0) }
  | .key .toolDoubletap value => { s with double := decide (value ≠ 0) }
  | .key .toolTripletap value => { s with triple := decide (value ≠ 0) }
  | .key .toolQuadtap value => { s with quad := decide (value ≠ 0) }
  | .key .toolQuinttap value => { s with quint := decide (value ≠ 0) }
  | .key .left value => { s with left := decide (value ≠ 0) }
  | .abs .other _ | .key .right _ | .key .middle _ | .key .other _ | .other => s

/-- The slots that hold a finger, of those the code has room for. -/
def slotsInUse (dev : PadDevice) (s : Surface) : List ℕ :=
  (List.range dev.slotCount).filter fun i => 0 ≤ (s.contacts i).trackingId

/-- How many fingers a pad without slots reports. -/
def toolFingers (s : Surface) : ℕ :=
  if s.quint then 5
  else if s.quad then 4
  else if s.triple then 3
  else if s.double then 2
  else if s.finger || s.touch then 1
  else 0

section
variable (dev : PadDevice) (s : Surface)

/-- The finger is on the pad. -/
def Down : Finger → Prop
  | .contact slot trackingId =>
    dev.multitouch = true ∧ (s.contacts slot).trackingId = trackingId ∧ 0 ≤ trackingId
  | .single => dev.multitouch = false ∧ s.toolFingers ≠ 0

/-- The finger is on the pad, and no other is. -/
structure Alone (c : Finger) : Prop where
  down : s.Down dev c
  only : ∀ c', s.Down dev c' → c' = c
  tools : dev.multitouch = false → s.toolFingers = 1

/-- What `activeContacts` counts. -/
def counted : ℕ :=
  if dev.multitouch then (s.slotsInUse dev).length
  else if s.triple then 3
  else if s.double then 2
  else if s.finger || s.touch then 1
  else 0

/-- The finger whose place `primaryPosition` gives. -/
def primary : Option Finger :=
  if dev.multitouch then
    (s.slotsInUse dev).head?.map fun i : ℕ => .contact i (s.contacts i).trackingId
  else if counted dev s ≠ 0 then some .single
  else none

/-- Where the finger is. -/
def position : Finger → ℤ × ℤ
  | .contact slot _ => ((s.contacts slot).x, (s.contacts slot).y)
  | .single => (s.x, s.y)

end

end Surface

/-! ## Reports -/

/-- A press of one of the buttons of the pad. -/
def PadEvent.presses (buttons : List KeyCode) : PadEvent → Bool
  | .key code value => buttons.contains code && decide (value ≠ 0)
  | _ => false

def physicalButtons : List KeyCode := [.left, .right, .middle]

/-- A frame: what is on the pad at its end, when that was read, and whether a button was pressed. -/
structure Report where
  surface : Surface
  time : ℤ
  pressed : Bool

section
variable (dev : PadDevice)

/-- A finger that was put down and is gone now, `past` being the reports before, the last one first:
it lasted so long, was alone all the time, no button was pressed, and it kept near the place where
it was put down. -/
structure TapAllowed (now : Report) (past : List Report) : Prop where
  lifted : ∃ (c : Finger) (lifetime rest : List Report) (first : Report),
    past = lifetime ++ rest ∧ lifetime.getLast? = some first ∧
    (∀ r ∈ rest.head?, ¬ r.surface.Down dev c) ∧ ¬ now.surface.Down dev c ∧
    now.time - first.time ≤ kTapMs ∧
    (∀ r ∈ now :: lifetime, r.pressed = false) ∧
    ∀ r ∈ lifetime, r.surface.Alone dev c ∧
      ¬ Touchpad.beyondSlop dev (r.surface.position c).1 (r.surface.position c).2
        (first.surface.position c).1 (first.surface.position c).2

/-- What is moved or scrolled by is the way of one finger from the last report to this one, as the
code measures it. -/
def OneFinger (sqrt : ℚ → ℚ) (now last : Surface) (out : Output) : Prop :=
  ∃ c, now.Down dev c ∧ last.Down dev c ∧
    let dx : ℚ := Touchpad.intSub (now.position c).1 (last.position c).1
    let dy : ℚ := Touchpad.intSub (now.position c).2 (last.position c).2
    out ∈ Touchpad.movePointer dev sqrt dx dy ∨ out ∈ Touchpad.scroll dev dx dy

end

/-! ## The code, and what it was sent -/

/-- The state of the code, what is on the pad, and the reports so far, the last one first. -/
structure Watched where
  pad : Touchpad
  surface : Surface := {}
  past : List Report := []

namespace Watched

section
variable (dev : PadDevice) (sqrt : ℚ → ℚ)

/-- The pad is opened. -/
def start : Watched := { pad := .opened dev }

/-- What is on the pad at the end of a frame. -/
def after (s : Watched) (f : Frame) : Surface := f.events.foldl Surface.apply s.surface

/-- The report of a frame. -/
def report (s : Watched) (f : Frame) : Report where
  surface := s.after f
  time := f.time
  pressed := f.events.any (PadEvent.presses physicalButtons)

/-- The state of the code when the frame is complete. -/
def complete (s : Watched) (f : Frame) : Touchpad := (s.pad.handleEvents f.events).1

/-- What the frame makes the code put out, beside the buttons that are pressed or released in it. -/
def outputs (s : Watched) (f : Frame) : List Output :=
  ((s.complete f).frameComplete dev sqrt f.time).2

/-- All that is put out from one frame to the next. -/
def emitted (s : Watched) (f : Frame) : List Output :=
  (s.pad.handleEvents f.events).2 ++ s.outputs dev sqrt f

/-- A frame is read. -/
def step (s : Watched) (f : Frame) : Watched where
  pad := ((s.complete f).frameComplete dev sqrt f.time).1
  surface := s.after f
  past := s.report f :: s.past

end

end Watched

end SignerOS
