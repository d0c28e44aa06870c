import SignerOS.Lib.Runs
import SignerOS.Ui.TouchReports

/-!
# The code follows the pad

* `Agrees`, the state of the code is what is on the pad, as long as no slot is named that it has no
  room for;
* `Kept`, what the events of a frame leave alone;
* `Agrees.not_down` and `Agrees.alone`, the fingers behind a count and a position;
* `Touchpad.fingersChanged_cases` and `Touchpad.track_cases`, what the end of a frame does;
* `Watched.motion_one_finger`, what is moved and scrolled by.
-/

namespace SignerOS

variable {dev : PadDevice} {sqrt : ℚ → ℚ} {pad pad' : Touchpad} {s : Surface}

/-! ## The events of a frame -/

/-- The slots of the code hold the contacts of the pad, and the pad has no other. -/
structure SlotsAgree (dev : PadDevice) (pad : Touchpad) (s : Surface) : Prop where
  slot_lt : pad.currentSlot < dev.slotCount
  slot : s.slot = pad.currentSlot
  inside : ∀ i < dev.slotCount, pad.contacts[i]? = some (s.contacts i)
  outside : ∀ i : ℤ, i < 0 ∨ dev.slotCount ≤ i → (s.contacts i).trackingId < 0

/-- The state of the code is what is on the pad. -/
structure Agrees (dev : PadDevice) (pad : Touchpad) (s : Surface) : Prop where
  length : pad.contacts.length = dev.slotCount
  x : s.x = pad.singleX
  y : s.y = pad.singleY
  touch : s.touch = pad.singleTouch
  finger : s.finger = pad.toolFinger
  double : s.double = pad.toolDouble
  triple : s.triple = pad.toolTriple
  left : s.left = pad.physicalButtonDown
  slots : dev.multitouch = true → SlotsAgree dev pad s

theorem SlotsAgree.modifyContact (h : SlotsAgree dev pad s) (f : Contact → Contact) :
    SlotsAgree dev (pad.modifyContact f) (s.modifyContact f) := by
  refine ⟨h.slot_lt, h.slot, fun i hi => ?_, fun i hi => ?_⟩
  · show (pad.contacts.modify pad.currentSlot f)[i]? =
      some (if (i : ℤ) = s.slot then f (s.contacts i) else s.contacts i)
    rw [List.getElem?_modify, h.inside i hi, h.slot]
    by_cases heq : pad.currentSlot = i
    · subst heq
      simp
    · have hne : (i : ℤ) ≠ pad.currentSlot := by omega
      simp [heq, hne]
  · show (if i = s.slot then f (s.contacts i) else s.contacts i).trackingId < 0
    have hlt := h.slot_lt
    have hslot := h.slot
    rw [if_neg (by omega)]
    exact h.outside i hi

theorem agrees_modifyContact (h : Agrees dev pad s) (f : Contact → Contact) :
    Agrees dev (pad.modifyContact f) (s.modifyContact f) :=
  ⟨(List.length_modify f pad.contacts pad.currentSlot).trans h.length, h.x, h.y, h.touch, h.finger,
    h.double, h.triple, h.left, fun hm => (h.slots hm).modifyContact f⟩

theorem agrees_setButton (h : Agrees dev pad s) (b : MouseButton) (pressed : Bool) :
    Agrees dev (pad.setButton b pressed).1 s := by
  unfold Touchpad.setButton
  split
  · exact h
  · exact ⟨h.length, h.x, h.y, h.touch, h.finger, h.double, h.triple, h.left,
      fun hm => { h.slots hm with }⟩

/-- A slot the code has room for is the current one. -/
theorem SlotsAgree.names (h : SlotsAgree dev pad s) (hlen : pad.contacts.length = dev.slotCount)
    {value : ℤ} (h0 : 0 ≤ value) (hlt : value < dev.slotCount) :
    SlotsAgree dev (pad.handleAbs .mtSlot value) (s.apply (.abs .mtSlot value)) := by
  have hnat : (value.toNat : ℤ) = value := Int.toNat_of_nonneg h0
  have hcur : (pad.handleAbs .mtSlot value).currentSlot = value.toNat := by
    simp [Touchpad.handleAbs, hlen, h0, hlt]
  refine ⟨?_, ?_, h.inside, h.outside⟩
  · rw [hcur]
    omega
  · rw [hcur, hnat]
    rfl

/-- A slot that is named is one the code has room for. -/
def NamesSlot (dev : PadDevice) : PadEvent → Prop
  | .abs .mtSlot value => 0 ≤ value ∧ value < dev.slotCount
  | _ => True

theorem agrees_handleAbs (h : Agrees dev pad s) (code : AbsCode) (value : ℤ)
    (hslot : dev.multitouch = true → NamesSlot dev (.abs code value)) :
    Agrees dev (pad.handleAbs code value) (s.apply (.abs code value)) := by
  cases code with
  | mtSlot =>
    exact ⟨h.length, h.x, h.y, h.touch, h.finger, h.double, h.triple, h.left,
      fun hm => (h.slots hm).names h.length (hslot hm).1 (hslot hm).2⟩
  | mtTrackingId | mtPositionX | mtPositionY => exact agrees_modifyContact h _
  | x => exact { h with x := rfl, slots := fun hm => { h.slots hm with } }
  | y => exact { h with y := rfl, slots := fun hm => { h.slots hm with } }
  | other => exact h

theorem agrees_handleKey (h : Agrees dev pad s) (code : KeyCode) (value : ℤ) :
    Agrees dev (pad.handleKey code value).1 (s.apply (.key code value)) := by
  cases code with
  | touch => exact { h with touch := rfl, slots := fun hm => { h.slots hm with } }
  | toolFinger => exact { h with finger := rfl, slots := fun hm => { h.slots hm with } }
  | toolDoubletap => exact { h with double := rfl, slots := fun hm => { h.slots hm with } }
  | toolTripletap => exact { h with triple := rfl, slots := fun hm => { h.slots hm with } }
  | toolQuadtap | toolQuinttap => exact { h with slots := fun hm => { h.slots hm with } }
  | left =>
    refine agrees_setButton ?_ .left (decide (value ≠ 0))
    exact { h with left := rfl, slots := fun hm => { h.slots hm with } }
  | right => exact agrees_setButton h .right (decide (value ≠ 0))
  | middle => exact agrees_setButton h .middle (decide (value ≠ 0))
  | other => exact h

theorem agrees_handleEvent (h : Agrees dev pad s) (ev : PadEvent)
    (hslot : dev.multitouch = true → NamesSlot dev ev) :
    Agrees dev (pad.handleEvent ev).1 (s.apply ev) := by
  cases ev with
  | abs code value => exact agrees_handleAbs h code value hslot
  | key code value => exact agrees_handleKey h code value
  | other => exact h

/-- The events of a frame are read as they are meant. -/
theorem agrees_handleEvents {events : List PadEvent} (h : Agrees dev pad s)
    (hslots : dev.multitouch = true → ∀ ev ∈ events, NamesSlot dev ev) :
    Agrees dev (pad.handleEvents events).1 (events.foldl Surface.apply s) := by
  induction events generalizing pad s with
  | nil => exact h
  | cons ev events ih =>
    have hev : Agrees dev (pad.handleEvent ev).1 (s.apply ev) :=
      agrees_handleEvent h ev fun hm => hslots hm ev List.mem_cons_self
    exact ih hev fun hm ev' hmem => hslots hm ev' (List.mem_cons_of_mem ev hmem)

/-- What the events of a frame leave alone: the last position, and the tap that may come of it,
unless the left button is pressed. -/
structure Kept (events : List PadEvent) (pad pad' : Touchpad) : Prop where
  prevFingers : pad'.prevFingers = pad.prevFingers
  havePrev : pad'.havePrev = pad.havePrev
  prevX : pad'.prevX = pad.prevX
  prevY : pad'.prevY = pad.prevY
  tapTimer : pad'.tapTimer = pad.tapTimer
  tapStartX : pad'.tapStartX = pad.tapStartX
  tapStartY : pad'.tapStartY = pad.tapStartY
  tapCandidate : pad'.tapCandidate = true →
    pad.tapCandidate = true ∧ ∀ ev ∈ events, ev.presses [.left] = false

/-- Something is put out, and it is a button. -/
def IsButton (out : Output) : Prop := ∃ b pressed, out = .button b pressed

theorem Kept.refl (pad : Touchpad) : Kept [] pad pad :=
  ⟨rfl, rfl, rfl, rfl, rfl, rfl, rfl, fun h => ⟨h, by simp⟩⟩

theorem kept_setButton (pad : Touchpad) (b : MouseButton) (pressed : Bool) :
    Kept [] pad (pad.setButton b pressed).1 ∧
      ∀ out ∈ (pad.setButton b pressed).2, IsButton out := by
  unfold Touchpad.setButton
  split
  · exact ⟨Kept.refl pad, by simp⟩
  · exact ⟨{ Kept.refl pad with }, fun out hout => ⟨b, pressed, List.mem_singleton.mp hout⟩⟩

theorem Kept.trans {events events' : List PadEvent} {pad'' : Touchpad} (h : Kept events pad pad')
    (h' : Kept events' pad' pad'') : Kept (events ++ events') pad pad'' where
  prevFingers := h'.prevFingers.trans h.prevFingers
  havePrev := h'.havePrev.trans h.havePrev
  prevX := h'.prevX.trans h.prevX
  prevY := h'.prevY.trans h.prevY
  tapTimer := h'.tapTimer.trans h.tapTimer
  tapStartX := h'.tapStartX.trans h.tapStartX
  tapStartY := h'.tapStartY.trans h.tapStartY
  tapCandidate := by
    intro htap
    obtain ⟨hmid, hlater⟩ := h'.tapCandidate htap
    obtain ⟨hfirst, hearlier⟩ := h.tapCandidate hmid
    exact ⟨hfirst, fun ev hev => (List.mem_append.mp hev).elim (hearlier ev) (hlater ev)⟩

/-- An event that is no press of the left button leaves the tap alone. -/
theorem kept_same {ev : PadEvent} (pad : Touchpad) (h : ev.presses [.left] = false) :
    Kept [ev] pad pad :=
  ⟨rfl, rfl, rfl, rfl, rfl, rfl, rfl,
    fun htap => ⟨htap, fun _ hev => List.mem_singleton.mp hev ▸ h⟩⟩

theorem kept_handleKey (pad : Touchpad) (code : KeyCode) (value : ℤ) :
    Kept [.key code value] pad (pad.handleKey code value).1 ∧
      ∀ out ∈ (pad.handleKey code value).2, IsButton out := by
  cases code with
  | touch | toolFinger | toolDoubletap | toolTripletap | toolQuadtap | toolQuinttap | other =>
    exact ⟨{ kept_same pad rfl with }, by simp [Touchpad.handleKey]⟩
  | right =>
    have hset := kept_setButton pad .right (decide (value ≠ 0))
    exact ⟨(kept_same pad rfl).trans hset.1, hset.2⟩
  | middle =>
    have hset := kept_setButton pad .middle (decide (value ≠ 0))
    exact ⟨(kept_same pad rfl).trans hset.1, hset.2⟩
  | left =>
    have hpress : Kept [.key .left value] pad { pad with
        physicalButtonDown := decide (value ≠ 0)
        tapCandidate := if decide (value ≠ 0) then false else pad.tapCandidate } := by
      refine ⟨rfl, rfl, rfl, rfl, rfl, rfl, rfl, fun htap => ?_⟩
      -- the tap is still possible, so the button is not going down
      by_cases hdown : value = 0
      · refine ⟨by simpa [hdown] using htap, fun ev hev => ?_⟩
        rw [List.mem_singleton.mp hev]
        simp [PadEvent.presses, hdown]
      · simp [hdown] at htap
    exact ⟨hpress.trans (kept_setButton _ .left (decide (value ≠ 0))).1,
      (kept_setButton _ .left (decide (value ≠ 0))).2⟩

theorem kept_handleEvent (pad : Touchpad) (ev : PadEvent) :
    Kept [ev] pad (pad.handleEvent ev).1 ∧ ∀ out ∈ (pad.handleEvent ev).2, IsButton out := by
  cases ev with
  | abs code value =>
    refine ⟨?_, by simp [Touchpad.handleEvent]⟩
    cases code <;> exact { kept_same pad rfl with }
  | key code value => exact kept_handleKey pad code value
  | other => exact ⟨kept_same pad rfl, by simp [Touchpad.handleEvent]⟩

theorem kept_handleEvents (pad : Touchpad) (events : List PadEvent) :
    Kept events pad (pad.handleEvents events).1 ∧
      ∀ out ∈ (pad.handleEvents events).2, IsButton out := by
  induction events generalizing pad with
  | nil => exact ⟨Kept.refl pad, by simp [Touchpad.handleEvents]⟩
  | cons ev events ih =>
    have hev := kept_handleEvent pad ev
    have hrest := ih (pad.handleEvent ev).1
    refine ⟨hev.1.trans hrest.1, fun out hout => ?_⟩
    exact (List.mem_append.mp hout).elim (hev.2 out) (hrest.2 out)

/-! ## Fingers -/

theorem SlotsAgree.contacts (h : SlotsAgree dev pad s)
    (hlen : pad.contacts.length = dev.slotCount) :
    pad.contacts = (List.range dev.slotCount).map fun i : ℕ => s.contacts i := by
  apply List.ext_getElem?
  intro i
  by_cases hi : i < dev.slotCount
  · rw [h.inside i hi]
    simp [hi]
  · rw [List.getElem?_eq_none (by omega), List.getElem?_eq_none (by simpa using hi)]

theorem Agrees.activeContacts (h : Agrees dev pad s) : pad.activeContacts dev = s.counted dev := by
  unfold Touchpad.activeContacts Surface.counted
  split
  · next hm =>
    rw [(h.slots hm).contacts h.length, List.countP_map, List.countP_eq_length_filter]
    rfl
  · rw [h.triple, h.double, h.finger, h.touch]

theorem Agrees.primaryPosition (h : Agrees dev pad s) :
    pad.primaryPosition dev = (s.primary dev).map s.position := by
  unfold Touchpad.primaryPosition Surface.primary
  split
  · next hm =>
    rw [(h.slots hm).contacts h.length, List.find?_map, Surface.slotsInUse, List.head?_filter,
      Option.map_map, Option.map_map]
    rfl
  · next hm =>
    simp only [Surface.counted, hm, ← h.x, ← h.y, ← h.triple, ← h.double, ← h.finger, ← h.touch]
    cases s.triple <;> cases s.double <;> cases s.finger <;> cases s.touch <;> rfl

/-- A pad without slots says of no more fingers than the code asks for. -/
def KnownTools (dev : PadDevice) (s : Surface) : Prop :=
  dev.multitouch = false → s.quad = false ∧ s.quint = false

theorem toolFingers_eq_counted (hm : dev.multitouch = false) (htools : KnownTools dev s) :
    s.toolFingers = s.counted dev := by
  obtain ⟨hquad, hquint⟩ := htools hm
  simp [Surface.toolFingers, Surface.counted, hm, hquad, hquint]

theorem counted_eq_length (hm : dev.multitouch = true) :
    s.counted dev = (s.slotsInUse dev).length := by
  simp [Surface.counted, hm]

/-- A finger is in a slot the code has room for. -/
theorem SlotsAgree.mem_slotsInUse (h : SlotsAgree dev pad s) {slot trackingId : ℤ}
    (hdown : s.Down dev (.contact slot trackingId)) : ∃ i ∈ s.slotsInUse dev, slot = (i : ℤ) := by
  obtain ⟨-, hid, hpos⟩ := hdown
  have hin : 0 ≤ slot ∧ slot < dev.slotCount := by
    by_contra hout
    have hneg := h.outside slot (by omega)
    omega
  have hnat : (slot.toNat : ℤ) = slot := Int.toNat_of_nonneg hin.1
  refine ⟨slot.toNat, ?_, hnat.symm⟩
  simp only [Surface.slotsInUse, List.mem_filter, List.mem_range, hnat, hid, decide_eq_true_eq]
  exact ⟨by omega, hpos⟩

theorem Agrees.not_down (h : Agrees dev pad s) (htools : KnownTools dev s)
    (hzero : s.counted dev = 0) (c : Finger) : ¬ s.Down dev c := by
  intro hdown
  cases c with
  | contact slot trackingId =>
    obtain ⟨i, hi, -⟩ := (h.slots hdown.1).mem_slotsInUse hdown
    rw [counted_eq_length hdown.1] at hzero
    rw [List.length_eq_zero_iff.mp hzero] at hi
    exact List.not_mem_nil hi
  | single =>
    apply hdown.2
    rw [toolFingers_eq_counted hdown.1 htools, hzero]

theorem down_of_head? {i : ℕ} (hm : dev.multitouch = true)
    (hi : (s.slotsInUse dev).head? = some i) :
    s.Down dev (.contact i (s.contacts i).trackingId) := by
  have hmem : i ∈ s.slotsInUse dev := List.mem_of_mem_head? hi
  have hpos := (List.mem_filter.mp hmem).2
  exact ⟨hm, rfl, of_decide_eq_true hpos⟩

theorem Surface.down_of_primary {c : Finger} (hm : dev.multitouch = true)
    (hc : s.primary dev = some c) : s.Down dev c := by
  simp only [Surface.primary, hm, if_true, Option.map_eq_some_iff] at hc
  obtain ⟨i, hi, rfl⟩ := hc
  exact down_of_head? hm hi

/-- One finger that is counted is alone on the pad, and its place is the one that is read. -/
theorem Agrees.alone (h : Agrees dev pad s) (htools : KnownTools dev s)
    (hone : s.counted dev = 1) : ∃ c, s.Alone dev c ∧ s.primary dev = some c := by
  cases hm : dev.multitouch with
  | true =>
    rw [counted_eq_length hm] at hone
    obtain ⟨i, hi⟩ := List.length_eq_one_iff.mp hone
    have hhead : (s.slotsInUse dev).head? = some i := by rw [hi, List.head?_cons]
    refine ⟨.contact i (s.contacts i).trackingId, ⟨down_of_head? hm hhead, ?_, ?_⟩, ?_⟩
    · intro c' hdown
      cases c' with
      | contact slot trackingId =>
        obtain ⟨j, hj, rfl⟩ := (h.slots hm).mem_slotsInUse hdown
        rw [hi, List.mem_singleton] at hj
        rw [hj, ← hdown.2.1, hj]
      | single => exact absurd (hdown.1.symm.trans hm) Bool.false_ne_true
    · intro hfalse
      exact absurd (hfalse.symm.trans hm) Bool.false_ne_true
    · simp [Surface.primary, hm, hhead]
  | false =>
    have htool : s.toolFingers = 1 := (toolFingers_eq_counted hm htools).trans hone
    refine ⟨.single, ⟨⟨hm, by omega⟩, ?_, fun _ => htool⟩, by simp [Surface.primary, hm, hone]⟩
    intro c' hdown
    cases c' with
    | contact slot trackingId => exact absurd (hm.symm.trans hdown.1) Bool.false_ne_true
    | single => rfl

/-! ## The end of a frame -/

namespace Touchpad

section
variable {fingers : ℕ} {pos : Option (ℤ × ℤ)} {now x y : ℤ}

theorem kept_click (pad : Touchpad) :
    Kept [] pad pad.click.1 ∧ ∀ out ∈ pad.click.2, IsButton out := by
  have hdown := kept_setButton pad .left true
  have hup := kept_setButton (pad.setButton .left true).1 .left false
  exact ⟨hdown.1.trans hup.1,
    fun out hout => (List.mem_append.mp hout).elim (hdown.2 out) (hup.2 out)⟩

theorem agrees_click (h : Agrees dev pad s) : Agrees dev pad.click.1 s :=
  agrees_setButton (agrees_setButton h .left true) .left false

/-- A new number of fingers is one put down alone, one lifted in time, or no tap. -/
theorem fingersChanged_cases (pad : Touchpad) (fingers : ℕ) (pos : Option (ℤ × ℤ)) (now : ℤ) :
    (pad.prevFingers = 0 ∧ fingers = 1 ∧ ∃ x y, pos = some (x, y) ∧
      pad.fingersChanged fingers pos now =
        ({ pad with havePrev := false, tapCandidate := !pad.physicalButtonDown, tapStartX := x,
                    tapStartY := y, tapTimer := some now }, [])) ∨
    (fingers = 0 ∧ pad.prevFingers = 1 ∧ pad.tapCandidate = true ∧
      (∃ start, pad.tapTimer = some start ∧ now - start ≤ kTapMs) ∧
      pad.fingersChanged fingers pos now =
        ({ (click { pad with havePrev := false }).1 with tapCandidate := false },
          (click { pad with havePrev := false }).2)) ∨
    pad.fingersChanged fingers pos now =
      ({ pad with havePrev := false, tapCandidate := false }, []) := by
  by_cases hland : pad.prevFingers = 0 ∧ fingers = 1 ∧ pos.isSome = true
  · obtain ⟨hprev, hone, hsome⟩ := hland
    obtain ⟨⟨x, y⟩, rfl⟩ := Option.isSome_iff_exists.mp hsome
    exact Or.inl ⟨hprev, hone, x, y, rfl, by simp [fingersChanged, hprev, hone]⟩
  by_cases hzero : fingers = 0
  · by_cases htap : (pad.tapCandidate && pad.prevFingers == 1 && !pad.physicalButtonDown
        && pad.tapTimer.any fun start => decide (now - start ≤ kTapMs)) = true
    · have htap' := htap
      simp only [Bool.and_eq_true, beq_iff_eq, Option.any_eq_true, decide_eq_true_eq] at htap'
      obtain ⟨⟨⟨hcand, hprev⟩, -⟩, htimer⟩ := htap'
      refine Or.inr (Or.inl ⟨hzero, hprev, hcand, htimer, ?_⟩)
      simp only [fingersChanged, if_neg hland, if_pos hzero, if_pos htap]
    · refine Or.inr (Or.inr ?_)
      simp only [fingersChanged, if_neg hland, if_pos hzero, if_neg htap]
  · refine Or.inr (Or.inr ?_)
    simp only [fingersChanged, if_neg hland, if_neg hzero]

/-- A position is the first one, a jump, or the end of a movement. -/
theorem track_cases (dev : PadDevice) (pad : Touchpad) (sqrt : ℚ → ℚ) (fingers : ℕ) (x y : ℤ) :
    (pad.havePrev = false ∧ pad.track dev sqrt fingers x y =
      ({ pad with prevX := x, prevY := y, havePrev := true }, [])) ∨
    (pad.havePrev = true ∧ isJump dev (intSub x pad.prevX) (intSub y pad.prevY) ∧
      pad.track dev sqrt fingers x y =
        ({ pad with prevX := x, prevY := y, havePrev := true }, [])) ∨
    (pad.havePrev = true ∧ ¬ isJump dev (intSub x pad.prevX) (intSub y pad.prevY) ∧
      pad.track dev sqrt fingers x y =
        ({ pad with
            tapCandidate := pad.tapCandidate &&
              !decide (tooFar dev (intSub x pad.tapStartX) (intSub y pad.tapStartY))
            prevX := x
            prevY := y
            havePrev := true },
          pad.gesture dev sqrt fingers (intSub x pad.prevX) (intSub y pad.prevY))) := by
  cases hprev : pad.havePrev with
  | false => exact Or.inl ⟨rfl, by simp [track, hprev]⟩
  | true =>
    by_cases hjump : isJump dev (intSub x pad.prevX) (intSub y pad.prevY)
    · exact Or.inr (Or.inl ⟨rfl, hjump, by simp only [track, hprev, if_pos hjump, if_true]⟩)
    · refine Or.inr (Or.inr ⟨rfl, hjump, ?_⟩)
      simp only [track, hprev, if_neg hjump, if_true]
      cases pad.tapCandidate <;> simp

/-- `frameComplete`, up to the new number of fingers. -/
def fingersCounted (dev : PadDevice) (pad : Touchpad) (now : ℤ) : Touchpad × List Output :=
  let fingers := pad.activeContacts dev
  let changed :=
    if fingers ≠ pad.prevFingers then pad.fingersChanged fingers (pad.primaryPosition dev) now
    else (pad, [])
  ({ changed.1 with prevFingers := fingers }, changed.2)

theorem frameComplete_of_none (h : pad.primaryPosition dev = none) :
    pad.frameComplete dev sqrt now =
      ({ (pad.fingersCounted dev now).1 with havePrev := false },
        (pad.fingersCounted dev now).2) := by
  simp only [frameComplete, fingersCounted, h]

theorem frameComplete_of_some (h : pad.primaryPosition dev = some (x, y)) :
    pad.frameComplete dev sqrt now =
      (((pad.fingersCounted dev now).1.track dev sqrt (pad.activeContacts dev) x y).1,
        (pad.fingersCounted dev now).2 ++
          ((pad.fingersCounted dev now).1.track dev sqrt (pad.activeContacts dev) x y).2) := by
  simp only [frameComplete, fingersCounted, h]

/-- The number of fingers is the same, or one is put down alone, one is lifted in time, or there is
no tap. -/
theorem fingersCounted_cases (dev : PadDevice) (pad : Touchpad) (now : ℤ) :
    (pad.activeContacts dev = pad.prevFingers ∧ pad.fingersCounted dev now = (pad, [])) ∨
    (pad.activeContacts dev ≠ pad.prevFingers ∧
      ((pad.prevFingers = 0 ∧ pad.activeContacts dev = 1 ∧
        ∃ x y, pad.primaryPosition dev = some (x, y) ∧ pad.fingersCounted dev now =
          ({ pad with havePrev := false, tapCandidate := !pad.physicalButtonDown, tapStartX := x,
                      tapStartY := y, tapTimer := some now,
                      prevFingers := pad.activeContacts dev }, [])) ∨
      (pad.activeContacts dev = 0 ∧ pad.prevFingers = 1 ∧ pad.tapCandidate = true ∧
        (∃ start, pad.tapTimer = some start ∧ now - start ≤ kTapMs) ∧
        pad.fingersCounted dev now =
          ({ (click { pad with havePrev := false }).1 with
              tapCandidate := false, prevFingers := pad.activeContacts dev },
            (click { pad with havePrev := false }).2)) ∨
      pad.fingersCounted dev now =
        ({ pad with havePrev := false, tapCandidate := false,
                    prevFingers := pad.activeContacts dev }, []))) := by
  by_cases hsame : pad.activeContacts dev = pad.prevFingers
  · exact Or.inl ⟨hsame, by simp [fingersCounted, hsame]⟩
  refine Or.inr ⟨hsame, ?_⟩
  simp only [fingersCounted, if_pos hsame]
  obtain ⟨hnone, hone, x, y, hpos, heq⟩ | ⟨hzero, hone, hcand, htimer, heq⟩ | heq :=
    fingersChanged_cases pad (pad.activeContacts dev) (pad.primaryPosition dev) now
  · exact Or.inl ⟨hnone, hone, x, y, hpos, by rw [heq]⟩
  · exact Or.inr (Or.inl ⟨hzero, hone, hcand, htimer, by rw [heq]⟩)
  · exact Or.inr (Or.inr (by rw [heq]))

theorem fingersCounted_same (h : pad.activeContacts dev = pad.prevFingers) :
    pad.fingersCounted dev now = (pad, []) := by
  obtain ⟨-, heq⟩ | ⟨hne, -⟩ := fingersCounted_cases dev pad now
  · exact heq
  · exact absurd h hne

/-- A number of fingers that has changed makes the last position worthless. -/
theorem fingersCounted_changed (h : pad.activeContacts dev ≠ pad.prevFingers) :
    (pad.fingersCounted dev now).1.havePrev = false := by
  obtain ⟨hsame, -⟩ | ⟨-, ⟨-, -, x, y, -, heq⟩ | ⟨-, -, -, -, heq⟩ | heq⟩ :=
    fingersCounted_cases dev pad now
  · exact absurd hsame h
  · rw [heq]
  · rw [heq]
    exact (kept_click _).1.havePrev
  · rw [heq]

theorem agrees_fingersCounted (h : Agrees dev pad s) :
    Agrees dev (pad.fingersCounted dev now).1 s := by
  obtain ⟨-, heq⟩ | ⟨-, ⟨-, -, x, y, -, heq⟩ | ⟨-, -, -, -, heq⟩ | heq⟩ :=
    fingersCounted_cases dev pad now
  · rw [heq]
    exact h
  · rw [heq]
    exact { h with slots := fun hm => { h.slots hm with } }
  · have hprev : Agrees dev { pad with havePrev := false } s :=
      { h with slots := fun hm => { h.slots hm with } }
    have hclick := agrees_click hprev
    rw [heq]
    exact { hclick with slots := fun hm => { hclick.slots hm with } }
  · rw [heq]
    exact { h with slots := fun hm => { h.slots hm with } }

theorem agrees_track (h : Agrees dev pad s) : Agrees dev (pad.track dev sqrt fingers x y).1 s := by
  obtain ⟨-, heq⟩ | ⟨-, -, heq⟩ | ⟨-, -, heq⟩ := track_cases dev pad sqrt fingers x y
  all_goals
    rw [heq]
    exact { h with slots := fun hm => { h.slots hm with } }

/-- The end of a frame changes nothing of what is known of the fingers. -/
theorem agrees_frameComplete (h : Agrees dev pad s) :
    Agrees dev (pad.frameComplete dev sqrt now).1 s := by
  have hcounted : Agrees dev (pad.fingersCounted dev now).1 s := agrees_fingersCounted h
  match hpos : pad.primaryPosition dev with
  | none =>
    rw [frameComplete_of_none hpos]
    exact { hcounted with slots := fun hm => { hcounted.slots hm with } }
  | some (x, y) =>
    rw [frameComplete_of_some hpos]
    exact agrees_track hcounted

theorem track_prev (dev : PadDevice) (pad : Touchpad) (sqrt : ℚ → ℚ) (fingers : ℕ) (x y : ℤ) :
    (pad.track dev sqrt fingers x y).1.prevFingers = pad.prevFingers ∧
      (pad.track dev sqrt fingers x y).1.prevX = x ∧
      (pad.track dev sqrt fingers x y).1.prevY = y ∧
      (pad.track dev sqrt fingers x y).1.havePrev = true := by
  obtain ⟨-, heq⟩ | ⟨-, -, heq⟩ | ⟨-, -, heq⟩ := track_cases dev pad sqrt fingers x y
  all_goals
    rw [heq]
    exact ⟨rfl, rfl, rfl, rfl⟩

theorem frameComplete_prevFingers :
    (pad.frameComplete dev sqrt now).1.prevFingers = pad.activeContacts dev := by
  match hpos : pad.primaryPosition dev with
  | none =>
    rw [frameComplete_of_none hpos]
    rfl
  | some (x, y) =>
    rw [frameComplete_of_some hpos, (track_prev dev _ sqrt _ x y).1]
    rfl

/-- The last position is the one that was read, if there was one. -/
theorem frameComplete_prev (dev : PadDevice) (pad : Touchpad) (sqrt : ℚ → ℚ) (now : ℤ) :
    pad.primaryPosition dev =
      if (pad.frameComplete dev sqrt now).1.havePrev = true then
        some ((pad.frameComplete dev sqrt now).1.prevX, (pad.frameComplete dev sqrt now).1.prevY)
      else none := by
  match hpos : pad.primaryPosition dev with
  | none =>
    rw [frameComplete_of_none hpos]
    rfl
  | some (x, y) =>
    obtain ⟨-, hx, hy, hhave⟩ := track_prev dev (pad.fingersCounted dev now).1 sqrt
      (pad.activeContacts dev) x y
    rw [frameComplete_of_some hpos, if_pos hhave, hx, hy]

theorem fingersCounted_buttons (pad : Touchpad) :
    ∀ out ∈ (pad.fingersCounted dev now).2, IsButton out := by
  obtain ⟨-, heq⟩ | ⟨-, ⟨-, -, x, y, -, heq⟩ | ⟨-, -, -, -, heq⟩ | heq⟩ :=
    fingersCounted_cases dev pad now
  · simp [heq]
  · simp [heq]
  · rw [heq]
    exact (kept_click _).2
  · simp [heq]

/-- One or two fingers make a gesture, and it is made of a way that is not none. -/
theorem gesture_cases {dx dy : ℚ} {out : Output} (h : out ∈ pad.gesture dev sqrt fingers dx dy) :
    0 < fingers ∧ fingers ≤ 2 ∧ (dx ≠ 0 ∨ dy ≠ 0) ∧
      (out ∈ movePointer dev sqrt dx dy ∨ out ∈ scroll dev dx dy) := by
  have hstill : ∀ out, out ∈ movePointer dev sqrt dx dy ∨ out ∈ scroll dev dx dy →
      dx ≠ 0 ∨ dy ≠ 0 := by
    intro out hout
    by_contra hnone
    obtain ⟨rfl, rfl⟩ : dx = 0 ∧ dy = 0 := by simpa using hnone
    simp [movePointer, scroll, qFuzzyIsNull] at hout
  simp only [gesture] at h
  split_ifs at h with hmove htwo
  · exact ⟨by omega, by omega, hstill out (Or.inl h), Or.inl h⟩
  · exact ⟨by omega, by omega, hstill out (Or.inr h), Or.inr h⟩
  · exact absurd h List.not_mem_nil

/-- What a frame moves or scrolls by is the way from the last position to this one, and the number
of fingers is the same in both. -/
theorem frameComplete_moves {out : Output} (h : out ∈ (pad.frameComplete dev sqrt now).2)
    (hmove : ¬ IsButton out) :
    pad.activeContacts dev = pad.prevFingers ∧ pad.havePrev = true ∧
      ∃ x y, pad.primaryPosition dev = some (x, y) ∧
        ¬ isJump dev (intSub x pad.prevX) (intSub y pad.prevY) ∧
        out ∈ pad.gesture dev sqrt (pad.activeContacts dev) (intSub x pad.prevX)
          (intSub y pad.prevY) := by
  match hpos : pad.primaryPosition dev with
  | none =>
    rw [frameComplete_of_none hpos] at h
    exact absurd (fingersCounted_buttons pad out h) hmove
  | some (x, y) =>
    rw [frameComplete_of_some hpos] at h
    have htrack := (List.mem_append.mp h).resolve_left
      fun hleft => hmove (fingersCounted_buttons pad out hleft)
    obtain ⟨-, heq⟩ | ⟨-, -, heq⟩ | ⟨hprev, hjump, heq⟩ := track_cases dev
      (pad.fingersCounted dev now).1 sqrt (pad.activeContacts dev) x y
    · simp [heq] at htrack
    · simp [heq] at htrack
    · by_cases hsame : pad.activeContacts dev = pad.prevFingers
      · rw [heq] at htrack
        rw [fingersCounted_same hsame] at hprev hjump htrack
        exact ⟨hsame, hprev, x, y, rfl, hjump, htrack⟩
      · rw [fingersCounted_changed hsame] at hprev
        exact absurd hprev Bool.false_ne_true

end

end Touchpad

/-! ## Movements -/

namespace Watched

variable {w : Watched} {f : Frame}

/-- The number of fingers and the last position are those of the last report. -/
structure Following (dev : PadDevice) (w : Watched) : Prop where
  agrees : Agrees dev w.pad w.surface
  prevFingers : w.pad.prevFingers = w.surface.counted dev
  prev : (w.surface.primary dev).map w.surface.position =
    if w.pad.havePrev = true then some (w.pad.prevX, w.pad.prevY) else none

theorem following_start : Following dev (start dev) where
  agrees := by
    refine ⟨List.length_replicate, rfl, rfl, rfl, rfl, rfl, rfl, rfl, fun _ => ?_⟩
    exact ⟨dev.slotCount_pos, rfl, fun i hi => by simp [start, Touchpad.opened, hi],
      fun i _ => Int.negSucc_lt_zero 0⟩
  prevFingers := by simp [start, Touchpad.opened, Surface.counted, Surface.slotsInUse]
  prev := by
    have hnone : ({} : Surface).primary dev = none := by
      simp [Surface.primary, Surface.counted, Surface.slotsInUse]
    exact congrArg (Option.map _) hnone

theorem agrees_complete (h : Agrees dev w.pad w.surface)
    (hslots : dev.multitouch = true → ∀ ev ∈ f.events, NamesSlot dev ev) :
    Agrees dev (w.complete f) (w.after f) :=
  agrees_handleEvents h hslots

theorem following_step (h : Following dev w)
    (hslots : dev.multitouch = true → ∀ ev ∈ f.events, NamesSlot dev ev) :
    Following dev (w.step dev sqrt f) := by
  have hagree : Agrees dev (w.complete f) (w.after f) := agrees_complete h.agrees hslots
  refine ⟨Touchpad.agrees_frameComplete hagree, ?_, ?_⟩
  · exact Touchpad.frameComplete_prevFingers.trans hagree.activeContacts
  · exact hagree.primaryPosition.symm.trans
      (Touchpad.frameComplete_prev dev (w.complete f) sqrt f.time)

/-- No slot is named that the code has no room for, and a way it measures, between two frames with
as many fingers, is that of the finger in the lowest slot in use, before and after. -/
structure SameContact (dev : PadDevice) (w : Watched) (f : Frame) : Prop where
  slots : ∀ ev ∈ f.events, NamesSlot dev ev
  same : ∀ c ∈ w.surface.primary dev, ∀ c' ∈ (w.after f).primary dev,
    (w.after f).counted dev = w.surface.counted dev → (w.after f).counted dev ≤ 2 →
    (w.after f).position c' ≠ w.surface.position c →
    ¬ Touchpad.isJump dev
      (Touchpad.intSub ((w.after f).position c').1 (w.surface.position c).1)
      (Touchpad.intSub ((w.after f).position c').2 (w.surface.position c).2) →
    c' = c

/-- Each movement and each scroll amount of a frame is the way of one finger. -/
def OneFingerMoves (dev : PadDevice) (sqrt : ℚ → ℚ) (w : Watched) (f : Frame) : Prop :=
  ∀ out ∈ w.emitted dev sqrt f, ¬ IsButton out → OneFinger dev sqrt (w.after f) w.surface out

/-- What a frame moves or scrolls by is the way of the finger in the lowest slot in use. -/
theorem oneFingerMoves_of_sameContact (hm : dev.multitouch = true) (h : Following dev w)
    (hok : SameContact dev w f) : OneFingerMoves dev sqrt w f := by
  intro out hout hmove
  have hkept := kept_handleEvents w.pad f.events
  have hagree : Agrees dev (w.complete f) (w.after f) := agrees_complete h.agrees fun _ => hok.slots
  have hout' : out ∈ w.outputs dev sqrt f :=
    (List.mem_append.mp hout).resolve_left fun hleft => hmove (hkept.2 out hleft)
  obtain ⟨hfingers, hhave, x, y, hpos, hjump, hgesture⟩ := Touchpad.frameComplete_moves hout' hmove
  rw [hagree.activeContacts] at hfingers hgesture
  have hcounted : (w.after f).counted dev = w.surface.counted dev :=
    hfingers.trans (hkept.1.prevFingers.trans h.prevFingers)
  -- the last position and this one are those of the fingers in the lowest slots in use
  have hlast := h.prev.trans (if_pos (hkept.1.havePrev.symm.trans hhave))
  obtain ⟨c, hc, hpos'⟩ := Option.map_eq_some_iff.mp hlast
  obtain ⟨c', hc', hpos''⟩ := Option.map_eq_some_iff.mp (hagree.primaryPosition.symm.trans hpos)
  have hx : (w.complete f).prevX = w.pad.prevX := hkept.1.prevX
  have hy : (w.complete f).prevY = w.pad.prevY := hkept.1.prevY
  rw [hx, hy] at hjump hgesture
  obtain ⟨-, htwo, hmoved, hway⟩ := Touchpad.gesture_cases hgesture
  have hsame : c' = c := by
    refine hok.same c hc c' hc' hcounted htwo ?_ ?_
    · rw [hpos', hpos'']
      rintro ⟨rfl, rfl⟩
      simp at hmoved
    · rwa [hpos', hpos'']
  subst hsame
  refine ⟨c', Surface.down_of_primary hm hc', Surface.down_of_primary hm hc, ?_⟩
  rw [hpos', hpos'']
  exact hway

/-- On a pad with slots, each movement and each scroll amount of a run is the way of one contact
from one frame to the next, as long as the contact the code takes for it is still the same. -/
theorem motion_one_finger (hm : dev.multitouch = true) (frames : List Frame)
    (h : Runs.Along (step dev sqrt) (SameContact dev) (start dev) frames) :
    Runs.Along (step dev sqrt) (OneFingerMoves dev sqrt) (start dev) frames :=
  Runs.Along.along (fun _ _ hw hok => following_step hw fun _ => hok.slots)
    (fun _ _ hw hok => oneFingerMoves_of_sameContact hm hw hok) following_start h

/-! ### A pad of two slots -/

/-- A pad of two slots, a thousand units wide and a thousand high. -/
def twoSlots : PadDevice where
  multitouch := true
  minX := 0
  maxX := 1000
  minY := 0
  maxY := 1000
  gainX := 1
  gainY := 1
  slotCount := 2
  spanX_pos := by decide
  spanY_pos := by decide
  spanX_lt := by decide
  spanY_lt := by decide
  slotCount_pos := by decide
  slotCount_le := by decide

/-- Contact 5 is put down in slot 0. -/
def contactDown : Frame where
  events := [.abs .mtSlot 0, .abs .mtTrackingId 5, .abs .mtPositionX 100, .abs .mtPositionY 100]
  time := 0

/-- It moves on. -/
def contactMoved : Frame where
  events := [.abs .mtPositionX 300]
  time := 10

/-- It is lifted, and contact 6 is put down in the same slot, all in one frame. -/
def contactReplaced : Frame where
  events := [.abs .mtTrackingId (-1), .abs .mtTrackingId 6, .abs .mtPositionX 300]
  time := 10

theorem motion_one_finger_moved :
    Runs.Along (step twoSlots fun q => 5 * q) (OneFingerMoves twoSlots fun q => 5 * q)
      (start twoSlots) [contactDown, contactMoved] := by
  refine motion_one_finger rfl [contactDown, contactMoved] ⟨⟨?_, ?_⟩, ⟨?_, ?_⟩, trivial⟩
  · simp [contactDown, NamesSlot, twoSlots]
  · intro c hc
    have hnone : (start twoSlots).surface.primary twoSlots = none := by decide
    exact absurd (hnone.symm.trans hc) (Option.some_ne_none c).symm
  · simp [contactMoved, NamesSlot]
  · intro c hc c' hc' _ _ _ _
    have hbefore : ((start twoSlots).after contactDown).primary twoSlots =
      some (.contact 0 5) := by decide
    have hafter : ((step twoSlots (fun q => 5 * q) (start twoSlots) contactDown).after
      contactMoved).primary twoSlots = some (.contact 0 5) := by decide
    exact Option.some.inj (hc'.symm.trans (hafter.trans (hbefore.symm.trans hc)))

/-- The pointer goes from where contact 5 was lifted to where contact 6 is put down. -/
theorem replaced_contact_moves :
    ¬ Runs.Along (step twoSlots fun q => 5 * q) (OneFingerMoves twoSlots fun q => 5 * q)
      (start twoSlots) [contactDown, contactReplaced] := by
  rintro ⟨-, hmove, -⟩
  have hout : .move 520 0 ∈ (step twoSlots (fun q => 5 * q) (start twoSlots) contactDown).emitted
      twoSlots (fun q => 5 * q) contactReplaced := by decide +kernel
  obtain ⟨c, hnow, hlast, -⟩ := hmove _ hout (by rintro ⟨b, pressed, h⟩; cases h)
  cases c with
  | contact slot trackingId =>
    by_cases hslot : slot = 0
    · subst hslot
      exact absurd (hnow.2.1.trans hlast.2.1.symm) (by decide)
    · have hempty : ((step twoSlots (fun q => 5 * q) (start twoSlots) contactDown).surface.contacts
          slot).trackingId = -1 := by
        simp [step, after, start, contactDown, Surface.apply, Surface.modifyContact, hslot]
      have hneg := hempty.symm.trans hlast.2.1
      have hpos := hlast.2.2
      omega
  | single => exact absurd hnow.1 (by decide)

end Watched

end SignerOS
