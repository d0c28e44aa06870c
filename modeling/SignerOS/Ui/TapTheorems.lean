import Mathlib.Algebra.Order.Field.Basic
import Mathlib.Algebra.Order.Ring.Abs
import SignerOS.Ui.TouchpadTheorems

/-!
# Taps

* `Touchpad.frameComplete_tap` and `Touchpad.frameComplete_candidate`, what a tap needs and what
  keeps one possible;
* `Watched.Pending`, the reports of a finger that may still become a tap;
* `Watched.taps_allowed`, a tap is one finger that was put down and lifted where it was.
-/

namespace SignerOS

variable {dev : PadDevice} {sqrt : ℚ → ℚ} {pad : Touchpad} {now : ℤ}

/-! ## The end of a frame -/

/-- A finger has not gone anywhere from where it is. -/
theorem not_beyondSlop_self (dev : PadDevice) (x y : ℤ) : ¬ Touchpad.beyondSlop dev x y x y := by
  simp only [Touchpad.beyondSlop, Touchpad.tooFar, sub_self, Int.cast_zero, zero_div, mul_zero,
    add_zero, not_lt]
  exact mul_self_nonneg kTapSlop

/-! ## Distances on the pad -/

/-- A fraction of a span, in units. -/
theorem abs_le_mul_of_div {d low high : ℤ} {q : ℚ} (hspan : low < high)
    (h : |(d : ℚ) / (high - low)| ≤ q) : |(d : ℚ)| ≤ q * (high - low) := by
  have hpos : (0 : ℚ) < high - low := by
    rw [sub_pos]
    exact_mod_cast hspan
  rwa [abs_div, abs_of_pos hpos, div_le_iff₀ hpos] at h

theorem abs_le_of_not_isJump {dx dy : ℤ} (h : ¬ Touchpad.isJump dev dx dy) :
    |(dx : ℚ)| ≤ kJumpReject * (dev.maxX - dev.minX) ∧
      |(dy : ℚ)| ≤ kJumpReject * (dev.maxY - dev.minY) := by
  obtain ⟨hx, hy⟩ := not_or.mp h
  exact ⟨abs_le_mul_of_div dev.spanX_pos (not_lt.mp hx),
    abs_le_mul_of_div dev.spanY_pos (not_lt.mp hy)⟩

theorem abs_le_of_not_tooFar {dx dy : ℤ} (h : ¬ Touchpad.tooFar dev dx dy) :
    |(dx : ℚ)| ≤ kTapSlop * (dev.maxX - dev.minX) ∧
      |(dy : ℚ)| ≤ kTapSlop * (dev.maxY - dev.minY) := by
  have hsum := not_lt.mp h
  have hle {t : ℚ} (ht : t * t ≤ kTapSlop * kTapSlop) : |t| ≤ kTapSlop := by
    have habs := abs_le_iff_mul_self_le.mpr ht
    rwa [abs_of_pos (by norm_num [kTapSlop] : (0 : ℚ) < kTapSlop)] at habs
  refine ⟨abs_le_mul_of_div dev.spanX_pos (hle ?_), abs_le_mul_of_div dev.spanY_pos (hle ?_)⟩
  · exact (le_add_of_nonneg_right (mul_self_nonneg _)).trans hsum
  · exact (le_add_of_nonneg_left (mul_self_nonneg _)).trans hsum

/-- A step that is no jump, and one from there that is not too far, are no more than two fifths of a
span: no `int` wraps around. -/
theorem intSub_of_steps {a b c low high : ℤ} (hlt : high - low < 2 ^ 31)
    (hjump : |((a - b : ℤ) : ℚ)| ≤ kJumpReject * (high - low))
    (hslop : |((b - c : ℤ) : ℚ)| ≤ kTapSlop * (high - low)) :
    Touchpad.intSub a b = a - b ∧ Touchpad.intSub a c = a - c := by
  have hspan : (high - low : ℚ) < 2 ^ 31 := by exact_mod_cast hlt
  obtain ⟨hlow, hhigh⟩ := abs_le.mp hjump
  obtain ⟨hlow', hhigh'⟩ := abs_le.mp hslop
  unfold kJumpReject at hlow hhigh
  unfold kTapSlop at hlow' hhigh'
  have hab : |((a - b : ℤ) : ℚ)| < 2 ^ 31 := abs_lt.mpr ⟨by linarith, by linarith⟩
  have hac : |((a - c : ℤ) : ℚ)| < 2 ^ 31 := by
    push_cast at hlow hhigh hlow' hhigh' ⊢
    exact abs_lt.mpr ⟨by linarith, by linarith⟩
  exact ⟨Touchpad.intSub_of_abs_lt (by exact_mod_cast hab),
    Touchpad.intSub_of_abs_lt (by exact_mod_cast hac)⟩

namespace Touchpad

theorem gesture_not_button {fingers : ℕ} {dx dy : ℚ} {out : Output}
    (h : out ∈ pad.gesture dev sqrt fingers dx dy) : ¬ IsButton out := by
  rintro ⟨b, pressed, rfl⟩
  obtain ⟨-, -, -, hmove | hscroll⟩ := gesture_cases h
  · simp only [movePointer] at hmove
    split at hmove <;> simp at hmove
  · simp only [scroll] at hscroll
    split_ifs at hscroll <;> simp at hscroll

theorem track_not_button {fingers : ℕ} {x y : ℤ} {out : Output}
    (h : out ∈ (pad.track dev sqrt fingers x y).2) : ¬ IsButton out := by
  obtain ⟨-, heq⟩ | ⟨-, -, heq⟩ | ⟨-, -, heq⟩ := track_cases dev pad sqrt fingers x y
  · simp [heq] at h
  · simp [heq] at h
  · rw [heq] at h
    exact gesture_not_button h

/-- A tap needs the last finger to be lifted in time. -/
theorem fingersCounted_tap {out : Output} (h : out ∈ (pad.fingersCounted dev now).2) :
    pad.activeContacts dev = 0 ∧ pad.prevFingers = 1 ∧ pad.tapCandidate = true ∧
      ∃ start, pad.tapTimer = some start ∧ now - start ≤ kTapMs := by
  obtain ⟨-, heq⟩ | ⟨-, ⟨-, -, x, y, -, heq⟩ | ⟨hzero, hone, hcand, htimer, -⟩ | heq⟩ :=
    fingersCounted_cases dev pad now
  · simp [heq] at h
  · simp [heq] at h
  · exact ⟨hzero, hone, hcand, htimer⟩
  · simp [heq] at h

theorem frameComplete_tap {out : Output} (h : out ∈ (pad.frameComplete dev sqrt now).2)
    (hbutton : IsButton out) :
    pad.activeContacts dev = 0 ∧ pad.prevFingers = 1 ∧ pad.tapCandidate = true ∧
      ∃ start, pad.tapTimer = some start ∧ now - start ≤ kTapMs := by
  match hpos : pad.primaryPosition dev with
  | none =>
    rw [frameComplete_of_none hpos] at h
    exact fingersCounted_tap h
  | some (x, y) =>
    rw [frameComplete_of_some hpos] at h
    exact fingersCounted_tap ((List.mem_append.mp h).resolve_right
      fun hright => track_not_button hright hbutton)

/-- Where and when the finger was put down is not forgotten. -/
structure SameStart (pad pad' : Touchpad) : Prop where
  tapTimer : pad'.tapTimer = pad.tapTimer
  tapStartX : pad'.tapStartX = pad.tapStartX
  tapStartY : pad'.tapStartY = pad.tapStartY

/-- A tap stays possible if the position is a jump away, or near enough. -/
theorem track_candidate {fingers : ℕ} {x y : ℤ}
    (h : (pad.track dev sqrt fingers x y).1.tapCandidate = true) :
    pad.tapCandidate = true ∧ SameStart pad (pad.track dev sqrt fingers x y).1 ∧
      (pad.havePrev = true → ¬ isJump dev (intSub x pad.prevX) (intSub y pad.prevY) →
        ¬ tooFar dev (intSub x pad.tapStartX) (intSub y pad.tapStartY)) := by
  obtain ⟨hprev, heq⟩ | ⟨-, hjump, heq⟩ | ⟨-, -, heq⟩ := track_cases dev pad sqrt fingers x y
  · rw [heq] at h ⊢
    exact ⟨h, ⟨rfl, rfl, rfl⟩, fun hhave => absurd (hprev.symm.trans hhave) Bool.false_ne_true⟩
  · rw [heq] at h ⊢
    exact ⟨h, ⟨rfl, rfl, rfl⟩, fun _ hnot => absurd hjump hnot⟩
  · rw [heq] at h ⊢
    obtain ⟨hcand, hnear⟩ : pad.tapCandidate = true ∧
      ¬ tooFar dev (intSub x pad.tapStartX) (intSub y pad.tapStartY) := by simpa using h
    exact ⟨hcand, ⟨rfl, rfl, rfl⟩, fun _ _ => hnear⟩

/-- A finger is put down alone, and the left button is up. -/
structure Landed (dev : PadDevice) (pad : Touchpad) (now : ℤ) (pad' : Touchpad) : Prop where
  none : pad.prevFingers = 0
  one : pad.activeContacts dev = 1
  up : pad.physicalButtonDown = false
  start : pad.primaryPosition dev = some (pad'.tapStartX, pad'.tapStartY)
  timer : pad'.tapTimer = some now

theorem fingersCounted_candidate (h : (pad.fingersCounted dev now).1.tapCandidate = true) :
    Landed dev pad now (pad.fingersCounted dev now).1 ∨
      pad.activeContacts dev = pad.prevFingers := by
  obtain ⟨hsame, -⟩ | ⟨-, ⟨hnone, hone, x, y, hpos, heq⟩ | ⟨-, -, -, -, heq⟩ | heq⟩ :=
    fingersCounted_cases dev pad now
  · exact Or.inr hsame
  · rw [heq] at h ⊢
    exact Or.inl ⟨hnone, hone, by simpa using h, hpos, rfl⟩
  · simp [heq] at h
  · simp [heq] at h

/-- A tap is possible after a frame if its finger has just been put down, or is still near where it
was put down; a position that is a jump away is not looked at. -/
theorem frameComplete_candidate (h : (pad.frameComplete dev sqrt now).1.tapCandidate = true) :
    Landed dev pad now (pad.frameComplete dev sqrt now).1 ∨
      (pad.activeContacts dev = pad.prevFingers ∧ pad.tapCandidate = true ∧
        SameStart pad (pad.frameComplete dev sqrt now).1 ∧
        ∀ x y, pad.primaryPosition dev = some (x, y) → pad.havePrev = true →
          ¬ isJump dev (intSub x pad.prevX) (intSub y pad.prevY) →
          ¬ tooFar dev (intSub x pad.tapStartX) (intSub y pad.tapStartY)) := by
  match hpos : pad.primaryPosition dev with
  | none =>
    rw [frameComplete_of_none hpos] at h ⊢
    obtain hland | hsame := fingersCounted_candidate h
    · exact absurd (hpos.symm.trans hland.start) (Option.some_ne_none _).symm
    · rw [fingersCounted_same hsame] at h ⊢
      exact Or.inr ⟨hsame, h, ⟨rfl, rfl, rfl⟩, fun x y hxy => by simp at hxy⟩
  | some (x, y) =>
    rw [frameComplete_of_some hpos] at h ⊢
    obtain ⟨hcand, hstart, hnear⟩ := track_candidate h
    obtain hland | hsame := fingersCounted_candidate hcand
    · refine Or.inl ⟨hland.none, hland.one, hland.up, ?_, hstart.tapTimer.trans hland.timer⟩
      rw [hland.start, hstart.tapStartX, hstart.tapStartY]
    · rw [fingersCounted_same hsame] at hcand hstart hnear
      refine Or.inr ⟨hsame, hcand, ?_, ?_⟩
      · rw [fingersCounted_same hsame]
        exact hstart
      · rintro x' y' hxy
        obtain ⟨rfl, rfl⟩ : x = x' ∧ y = y' := by simpa using hxy
        exact hnear

end Touchpad

/-! ## The finger a tap may come of -/

namespace Watched

variable {w : Watched} {f : Frame}

/-- A finger was put down in the report `first`, where and when the code remembers it, and in all
reports since it was alone, near that place, and no button was pressed. -/
structure Pending (dev : PadDevice) (w : Watched) (c : Finger) (lifetime rest : List Report)
    (first : Report) : Prop where
  past : w.past = lifetime ++ rest
  oldest : lifetime.getLast? = some first
  before : ∀ r ∈ rest.head?, ¬ r.surface.Down dev c
  timer : w.pad.tapTimer = some first.time
  start : first.surface.position c = (w.pad.tapStartX, w.pad.tapStartY)
  fingers : w.pad.prevFingers = 1
  alone : w.surface.Alone dev c
  quiet : ∀ r ∈ lifetime, r.pressed = false ∧ r.surface.Alone dev c ∧
    ¬ Touchpad.beyondSlop dev (r.surface.position c).1 (r.surface.position c).2
      (first.surface.position c).1 (first.surface.position c).2

/-- The finger is near where it was put down. -/
theorem Pending.near {c : Finger} {lifetime rest : List Report} {first : Report}
    (h : Pending dev w c lifetime rest first) (hlast : ∀ r ∈ w.past.head?, r.surface = w.surface) :
    ¬ Touchpad.beyondSlop dev (w.surface.position c).1 (w.surface.position c).2
      w.pad.tapStartX w.pad.tapStartY := by
  cases lifetime with
  | nil => exact absurd h.oldest (by simp)
  | cons r lifetime =>
    have hr : r.surface = w.surface := hlast r (by rw [h.past]; rfl)
    have hquiet := (h.quiet r List.mem_cons_self).2.2
    rwa [hr, h.start] at hquiet

/-- Where a tap is possible, there is the finger it may come of. -/
structure Tapping (dev : PadDevice) (w : Watched) : Prop extends Following dev w where
  tools : KnownTools dev w.surface
  last : ∀ r ∈ w.past.head?, r.surface = w.surface
  pending : w.pad.tapCandidate = true →
    ∃ c lifetime rest first, Pending dev w c lifetime rest first

/-- What must not come between the landing of a finger and its tap, because the code does not see
it, and what must not be in the frame of the landing. -/
structure QuietFrame (dev : PadDevice) (w : Watched) (f : Frame) : Prop where
  slots : dev.multitouch = true → ∀ ev ∈ f.events, NamesSlot dev ev
  tools : KnownTools dev (w.after f)
  buttons : w.pad.tapCandidate = true → ∀ ev ∈ f.events, ev.presses [.right, .middle] = false
  contact : w.pad.tapCandidate = true → ∀ c c', w.surface.Alone dev c →
    (w.after f).Alone dev c' → c' = c
  jump : w.pad.tapCandidate = true → ∀ c, w.surface.Alone dev c → (w.after f).Alone dev c →
    ¬ Touchpad.isJump dev (((w.after f).position c).1 - (w.surface.position c).1 : ℤ)
      (((w.after f).position c).2 - (w.surface.position c).2 : ℤ)
  landing : (∀ c, ¬ w.surface.Down dev c) → ∀ c, (w.after f).Alone dev c →
    (w.report f).pressed = true → (w.after f).left = true

theorem tapping_start : Tapping dev (start dev) where
  toFollowing := following_start
  tools := fun _ => ⟨rfl, rfl⟩
  last := fun r hr => absurd hr (Option.not_mem_none r)
  pending := fun h => absurd h Bool.false_ne_true

theorem presses_physicalButtons (ev : PadEvent) :
    ev.presses physicalButtons = (ev.presses [.left] || ev.presses [.right, .middle]) := by
  cases ev with
  | key code value => cases code <;> simp [PadEvent.presses, physicalButtons]
  | abs code value => rfl
  | other => rfl

/-- While a tap stays possible, no button is pressed. -/
theorem pressed_eq_false (hok : QuietFrame dev w f)
    (hcand : (w.complete f).tapCandidate = true) :
    w.pad.tapCandidate = true ∧ (w.report f).pressed = false := by
  obtain ⟨hbefore, hleft⟩ := (kept_handleEvents w.pad f.events).1.tapCandidate hcand
  refine ⟨hbefore, List.any_eq_false.mpr fun ev hev => ?_⟩
  simp [presses_physicalButtons, hleft ev hev, hok.buttons hbefore ev hev]

/-- A button that is put out at the end of a frame is a tap that is allowed. -/
def TapsAllowed (dev : PadDevice) (sqrt : ℚ → ℚ) (w : Watched) (f : Frame) : Prop :=
  ∀ out ∈ w.outputs dev sqrt f, IsButton out → TapAllowed dev (w.report f) w.past

theorem tapsAllowed_of_quietFrame (h : Tapping dev w) (hok : QuietFrame dev w f) :
    TapsAllowed dev sqrt w f := by
  intro out hout hbutton
  have hagree : Agrees dev (w.complete f) (w.after f) :=
    agrees_complete h.agrees hok.slots
  have hkept := (kept_handleEvents w.pad f.events).1
  obtain ⟨hzero, -, hcand, stamp, htimer, hintime⟩ := Touchpad.frameComplete_tap hout hbutton
  obtain ⟨hbefore, hpressed⟩ := pressed_eq_false hok hcand
  obtain ⟨c, lifetime, rest, first, hpend⟩ := h.pending hbefore
  have hstamp : stamp = first.time :=
    Option.some.inj (htimer.symm.trans (hkept.tapTimer.trans hpend.timer))
  refine ⟨c, lifetime, rest, first, hpend.past, hpend.oldest, hpend.before, ?_, ?_, ?_, ?_⟩
  · exact hagree.not_down hok.tools (hagree.activeContacts.symm.trans hzero) c
  · rw [← hstamp]
    exact hintime
  · intro r hr
    obtain rfl | hr := List.mem_cons.mp hr
    · exact hpressed
    · exact (hpend.quiet r hr).1
  · exact fun r hr => (hpend.quiet r hr).2

/-- The finger has just been put down. -/
theorem pending_of_landed (h : Tapping dev w) (hok : QuietFrame dev w f)
    (hland : Touchpad.Landed dev (w.complete f) f.time (w.step dev sqrt f).pad) :
    ∃ c, Pending dev (w.step dev sqrt f) c [w.report f] w.past (w.report f) := by
  have hagree : Agrees dev (w.complete f) (w.after f) := agrees_complete h.agrees hok.slots
  have hkept := (kept_handleEvents w.pad f.events).1
  have hzero : w.surface.counted dev = 0 :=
    h.prevFingers.symm.trans (hkept.prevFingers.symm.trans hland.none)
  have hnone := h.agrees.not_down h.tools hzero
  have hone : (w.after f).counted dev = 1 := hagree.activeContacts.symm.trans hland.one
  obtain ⟨c, halone, hprimary⟩ := hagree.alone hok.tools hone
  have hplace : (w.after f).position c =
      ((w.step dev sqrt f).pad.tapStartX, (w.step dev sqrt f).pad.tapStartY) := by
    have hpos := hagree.primaryPosition.symm.trans hland.start
    rw [hprimary] at hpos
    exact Option.some.inj hpos
  have hpressed : (w.report f).pressed = false := by
    by_contra hpress
    have hleft := hok.landing hnone c halone (Bool.eq_true_of_not_eq_false hpress)
    rw [hagree.left, hland.up] at hleft
    exact Bool.false_ne_true hleft
  refine ⟨c, rfl, rfl, ?_, hland.timer, hplace, ?_, halone, ?_⟩
  · intro r hr
    rw [h.last r hr]
    exact hnone c
  · exact Touchpad.frameComplete_prevFingers.trans hland.one
  · intro r hr
    rw [List.mem_singleton.mp hr]
    exact ⟨hpressed, halone, not_beyondSlop_self dev _ _⟩

/-- The finger is still where it was put down. -/
theorem pending_of_still {c : Finger} {lifetime rest : List Report} {first : Report}
    (h : Tapping dev w) (hok : QuietFrame dev w f)
    (hpend : Pending dev w c lifetime rest first)
    (hsame : (w.complete f).activeContacts dev = (w.complete f).prevFingers)
    (hcand : (w.complete f).tapCandidate = true)
    (hstart : Touchpad.SameStart (w.complete f) (w.step dev sqrt f).pad)
    (hnear : ∀ x y, (w.complete f).primaryPosition dev = some (x, y) →
      (w.complete f).havePrev = true →
      ¬ Touchpad.isJump dev (Touchpad.intSub x (w.complete f).prevX)
        (Touchpad.intSub y (w.complete f).prevY) →
      ¬ Touchpad.tooFar dev (Touchpad.intSub x (w.complete f).tapStartX)
        (Touchpad.intSub y (w.complete f).tapStartY)) :
    Pending dev (w.step dev sqrt f) c (w.report f :: lifetime) rest first := by
  have hagree : Agrees dev (w.complete f) (w.after f) := agrees_complete h.agrees hok.slots
  have hkept : Kept f.events w.pad (w.complete f) := (kept_handleEvents w.pad f.events).1
  obtain ⟨hbefore, hpressed⟩ := pressed_eq_false hok hcand
  have hfingers : (w.complete f).activeContacts dev = 1 :=
    hsame.trans (hkept.prevFingers.trans hpend.fingers)
  -- the finger that is there is the one that was there
  obtain ⟨c', halone, hprimary⟩ :=
    hagree.alone hok.tools (hagree.activeContacts.symm.trans hfingers)
  obtain rfl : c' = c := hok.contact hbefore c c' hpend.alone halone
  have hlast : w.pad.havePrev = true ∧ w.surface.position c' = (w.pad.prevX, w.pad.prevY) := by
    obtain ⟨c, halone', hprimary'⟩ :=
      h.agrees.alone h.tools (h.prevFingers.symm.trans hpend.fingers)
    obtain rfl : c' = c := halone'.only c' hpend.alone.down
    have hprev := h.prev
    rw [hprimary'] at hprev
    split at hprev
    · next hhave => exact ⟨hhave, Option.some.inj hprev⟩
    · exact absurd hprev (Option.some_ne_none _)
  have hjump := hok.jump hbefore c' hpend.alone halone
  rw [hlast.2] at hjump
  dsimp only at hjump
  -- the position before was near the start, so the `int`s of the code are exact
  have hclose := hpend.near h.last
  rw [hlast.2] at hclose
  dsimp only at hclose
  obtain ⟨hx, hx'⟩ := intSub_of_steps dev.spanX_lt (abs_le_of_not_isJump hjump).1
    (abs_le_of_not_tooFar hclose).1
  obtain ⟨hy, hy'⟩ := intSub_of_steps dev.spanY_lt (abs_le_of_not_isJump hjump).2
    (abs_le_of_not_tooFar hclose).2
  have hplace : ¬ Touchpad.beyondSlop dev ((w.after f).position c').1 ((w.after f).position c').2
      w.pad.tapStartX w.pad.tapStartY := by
    have hpos : (w.complete f).primaryPosition dev = some ((w.after f).position c') := by
      rw [hagree.primaryPosition, hprimary, Option.map_some]
    have hnear' := hnear ((w.after f).position c').1 ((w.after f).position c').2 hpos
      (hkept.havePrev.trans hlast.1)
    rw [hkept.prevX, hkept.prevY, hkept.tapStartX, hkept.tapStartY, hx, hy, hx', hy'] at hnear'
    exact hnear' hjump
  refine ⟨congrArg (w.report f :: ·) hpend.past, ?_, hpend.before, ?_, ?_, ?_, halone, ?_⟩
  · rw [List.getLast?_cons, hpend.oldest, Option.getD_some]
  · rw [hstart.tapTimer, hkept.tapTimer, hpend.timer]
  · rw [hstart.tapStartX, hstart.tapStartY, hkept.tapStartX, hkept.tapStartY, hpend.start]
  · exact Touchpad.frameComplete_prevFingers.trans hfingers
  · intro r hr
    obtain rfl | hr := List.mem_cons.mp hr
    · refine ⟨hpressed, halone, ?_⟩
      rw [hpend.start]
      exact hplace
    · exact hpend.quiet r hr

theorem tapping_step (h : Tapping dev w) (hok : QuietFrame dev w f) :
    Tapping dev (w.step dev sqrt f) where
  toFollowing := following_step h.toFollowing hok.slots
  tools := hok.tools
  last := fun r hr => by rw [← Option.some.inj hr]; rfl
  pending := by
    intro hcand
    obtain hland | ⟨hsame, hstill, hstart, hnear⟩ := Touchpad.frameComplete_candidate hcand
    · obtain ⟨c, hpend⟩ := pending_of_landed h hok hland
      exact ⟨c, _, _, _, hpend⟩
    · obtain ⟨c, lifetime, rest, first, hpend⟩ := h.pending (pressed_eq_false hok hstill).1
      exact ⟨c, _, _, _, pending_of_still h hok hpend hsame hstill hstart hnear⟩

/-- Every tap of a run is allowed, as long as nothing comes between that the code does not see. -/
theorem taps_allowed (frames : List Frame)
    (h : Runs.Along (step dev sqrt) (QuietFrame dev) (start dev) frames) :
    Runs.Along (step dev sqrt) (TapsAllowed dev sqrt) (start dev) frames :=
  Runs.Along.along (fun _ _ hw hok => tapping_step hw hok)
    (fun _ _ hw hok => tapsAllowed_of_quietFrame hw hok) tapping_start h

/-! ### On a pad of two slots -/

/-- Contact 5 is lifted. -/
def contactLifted : Frame where
  events := [.abs .mtTrackingId (-1)]
  time := 100

/-- The right button is pressed and released. -/
def rightClicked : Frame where
  events := [.key .right 1, .key .right 0]
  time := 50

/-- Contact 5 is half a pad away from where it was put down. -/
def contactFar : Frame where
  events := [.abs .mtPositionX 600]
  time := 50

theorem taps_allowed_lifted :
    Runs.Along (step twoSlots fun q => 5 * q) (TapsAllowed twoSlots fun q => 5 * q)
      (start twoSlots) [contactDown, contactLifted] := by
  refine taps_allowed [contactDown, contactLifted] ⟨?_, ?_, trivial⟩
  · refine ⟨fun _ => ?_, fun h => absurd h (by decide), fun h => absurd h (by decide),
      fun h => absurd h (by decide), fun h => absurd h (by decide), fun _ _ _ h => ?_⟩
    · simp [contactDown, NamesSlot, twoSlots]
    · exact absurd h (by decide)
  · have hgone : ∀ c, ¬ ((step twoSlots (fun q => 5 * q) (start twoSlots) contactDown).after
        contactLifted).Down twoSlots c := by
      intro c hdown
      cases c with
      | contact slot trackingId =>
        have hempty : (((step twoSlots (fun q => 5 * q) (start twoSlots) contactDown).after
            contactLifted).contacts slot).trackingId = -1 := by
          by_cases hslot : slot = 0 <;>
            simp [step, after, start, contactDown, contactLifted, Surface.apply,
              Surface.modifyContact, hslot]
        have hneg := hempty.symm.trans hdown.2.1
        have hpos := hdown.2.2
        omega
      | single => exact absurd hdown.1 (by decide)
    refine ⟨fun _ => ?_, fun h => absurd h (by decide), fun _ => ?_,
      fun _ c c' _ h => absurd h.down (hgone c'), fun _ c _ h => absurd h.down (hgone c),
      fun _ c h => absurd h.down (hgone c)⟩
    · simp [contactLifted, NamesSlot]
    · simp [contactLifted, PadEvent.presses]

/-- A right click, or a movement that is taken for a jump, does not keep the finger from making a
tap when it is lifted. -/
theorem false_taps :
    ¬ Runs.Along (step twoSlots fun q => 5 * q) (TapsAllowed twoSlots fun q => 5 * q)
      (start twoSlots) [contactDown, rightClicked, contactLifted] ∧
    ¬ Runs.Along (step twoSlots fun q => 5 * q) (TapsAllowed twoSlots fun q => 5 * q)
      (start twoSlots) [contactDown, contactFar, contactLifted] := by
  constructor
  · rintro ⟨-, -, htap, -⟩
    obtain ⟨c, lifetime, rest, first, hpast, hfirst, -, -, -, hpressed, -⟩ :=
      htap (.button .left true) (by decide +kernel) ⟨.left, true, rfl⟩
    cases lifetime with
    | nil => simp at hfirst
    | cons r lifetime =>
      have hr : _ = r := Option.some.inj (congrArg List.head? hpast)
      have hquiet := hpressed r (List.mem_cons_of_mem _ List.mem_cons_self)
      rw [← hr] at hquiet
      exact absurd hquiet (by decide)
  · rintro ⟨-, -, htap, -⟩
    obtain ⟨c, lifetime, rest, first, hpast, hfirst, hbefore, -, -, -, hnear⟩ :=
      htap (.button .left true) (by decide +kernel) ⟨.left, true, rfl⟩
    cases lifetime with
    | nil => simp at hfirst
    | cons r lifetime =>
      have hr : _ = r := Option.some.inj (congrArg List.head? hpast)
      have hnear' := hnear r List.mem_cons_self
      have hc : Finger.contact 0 5 = c := by
        refine hnear'.1.only _ ?_
        rw [← hr]
        exact ⟨rfl, by decide, by decide⟩
      subst hc
      have hrest : [_] = lifetime ++ rest := congrArg List.tail hpast
      cases lifetime with
      | nil =>
        -- it was already there in the report before
        have hlast : some _ = rest.head? := congrArg List.head? hrest
        exact hbefore _ hlast.symm ⟨rfl, by decide, by decide⟩
      | cons r' lifetime =>
        have hr' : _ = r' := Option.some.inj (congrArg List.head? hrest)
        have hnil : lifetime = [] := by
          have hlen := congrArg List.length hrest
          simp only [List.length_cons, List.length_nil, List.length_append] at hlen
          exact List.eq_nil_of_length_eq_zero (by omega)
        subst hnil
        obtain rfl : r' = first := Option.some.inj hfirst
        rw [← hr, ← hr'] at hnear'
        exact hnear'.2 (by decide +kernel)

end Watched

end SignerOS
