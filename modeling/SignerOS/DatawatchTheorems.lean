import SignerOS.Lib.Runs
import SignerOS.Datawatch

/-!
# When the data volume can be trusted

The flags of a mount are checked once, right after it comes up. Everything else decides from the
mount being there, so the volume is only ever used with the right flags exactly as long as every
mount that came up without them was taken away by the `umount` that follows
(`trusted_throughout_iff`).
-/

namespace SignerOS.Datawatch

/-- Every mount at `MOUNT_POINT` came up with the flags. -/
def Trusted (s : Watch) : Prop := ∀ m ∈ s.mounts, flagsTook m.flags = true

instance : DecidablePred Trusted := fun s => inferInstanceAs (Decidable (∀ m ∈ s.mounts, _))

/-- If this turn mounts something that comes up without the flags, its `umount` takes it away. -/
def CleansUp (cfg : Config) (s : Watch) (t : Turn) : Prop :=
  isMounted s = false →
    ∀ dev ∈ (findDataDev cfg t.found s.warning).1, ∀ flags ∈ bringUp t dev,
      flagsTook flags = true ∨ t.umount.gone = true

instance (cfg : Config) (s : Watch) (t : Turn) : Decidable (CleansUp cfg s t) :=
  inferInstanceAs (Decidable (_ → _))

/-- The body of the loop of `try_mount_for`. -/
def body (cfg : Config) (s : Watch) (t : Turn) : Watch := (attempt cfg t s).2

/-- Every turn of a call of the script cleans up. -/
def OpCleansUp (cfg : Config) (s : Watch) : Op → Prop
  | .once turn =>
    Runs.Along (body cfg) (CleansUp cfg) s ((List.range (cfg.dataWaitSecs + 1)).map turn)
  | .poll t => CleansUp cfg s t
  | .umount _ _ => True

/-! ## One turn -/

theorem isMounted_iff (s : Watch) : isMounted s = true ↔ s.mounts ≠ [] := by
  simp [isMounted]

/-- What mounting on an empty mount point can come to: nothing is there afterwards, a mount with
the flags is, or one without them was left. -/
theorem findAndMount_cases (cfg : Config) (t : Turn) {s : Watch} (h : isMounted s = false) :
    ((findAndMount cfg t s).1 = false ∧ (findAndMount cfg t s).2.mounts = [] ∧ CleansUp cfg s t) ∨
    (∃ m, (findAndMount cfg t s).1 = true ∧ (findAndMount cfg t s).2.mounts = [m] ∧
      flagsTook m.flags = true ∧ CleansUp cfg s t) ∨
    (∃ m, (findAndMount cfg t s).1 = false ∧ (findAndMount cfg t s).2.mounts = [m] ∧
      flagsTook m.flags = false ∧ ¬ CleansUp cfg s t) := by
  have hempty : s.mounts = [] := by simpa [isMounted] using h
  unfold findAndMount CleansUp
  generalize findDataDev cfg t.found s.warning = found
  obtain ⟨dev, warning⟩ := found
  cases dev with
  | none => exact Or.inl ⟨rfl, hempty, by simp⟩
  | some dev =>
    cases hup : bringUp t dev with
    | none => exact Or.inl ⟨by simp [mountData, hup], by simp [mountData, hup, hempty], by simp [hup]⟩
    | some flags =>
      cases hflags : flagsTook flags with
      | true =>
        refine Or.inr (Or.inl ⟨⟨dev, flags⟩, ?_, ?_, hflags, ?_⟩)
        · simp [mountData, hup, hempty, hflags]
        · simp [mountData, hup, hempty, hflags]
        · simp [hup, hflags]
      | false =>
        cases hgone : t.umount.gone with
        | true =>
          refine Or.inl ⟨?_, ?_, ?_⟩
          · simp [mountData, hup, hempty, hflags]
          · simp [mountData, hup, hempty, hflags, Watch.umount, hgone]
          · simp
        | false =>
          refine Or.inr (Or.inr ⟨⟨dev, flags⟩, ?_, ?_, hflags, ?_⟩)
          · simp [mountData, hup, hempty, hflags]
          · simp [mountData, hup, hempty, hflags, Watch.umount, hgone]
          · simp [h, hup, hflags]

/-- A turn on an empty mount point leaves a mount that can be trusted exactly if it cleans up. -/
theorem trusted_findAndMount_iff (cfg : Config) (t : Turn) {s : Watch} (h : isMounted s = false) :
    Trusted (findAndMount cfg t s).2 ↔ CleansUp cfg s t := by
  rcases findAndMount_cases cfg t h with ⟨-, hmounts, hclean⟩ | ⟨m, -, hmounts, hflags, hclean⟩ |
    ⟨m, -, hmounts, hflags, hclean⟩
  · simp [Trusted, hmounts, hclean]
  · simp [Trusted, hmounts, hflags, hclean]
  · simp [Trusted, hmounts, hflags, hclean]

/-- Success means that a mount is there. -/
theorem isMounted_findAndMount (cfg : Config) (t : Turn) {s : Watch} (h : isMounted s = false)
    (hok : (findAndMount cfg t s).1 = true) : isMounted (findAndMount cfg t s).2 = true := by
  rcases findAndMount_cases cfg t h with ⟨hfail, -⟩ | ⟨m, -, hmounts, -⟩ | ⟨m, hfail, -⟩
  · exact absurd hok (by simp [hfail])
  · simp [isMounted, hmounts]
  · exact absurd hok (by simp [hfail])

theorem isMounted_attempt (cfg : Config) (t : Turn) (s : Watch)
    (hok : (attempt cfg t s).1 = true) : isMounted (attempt cfg t s).2 = true := by
  by_cases h : isMounted s = true
  · rwa [attempt, if_pos h]
  · rw [attempt, if_neg h] at hok ⊢
    exact isMounted_findAndMount cfg t (Bool.not_eq_true _ ▸ h) hok

theorem cleansUp_of_isMounted {cfg : Config} {s : Watch} (h : isMounted s = true) (t : Turn) :
    CleansUp cfg s t := by
  intro hnot
  rw [h] at hnot
  exact absurd hnot (by decide)

theorem trusted_umount {s : Watch} (hs : Trusted s) (answer : Umounted) :
    Trusted (s.umount answer) := by
  unfold Watch.umount
  split
  · exact fun m hm => hs m ((List.dropLast_sublist s.mounts).subset hm)
  · exact hs

/-! ## `try_mount_for` -/

theorem body_of_isMounted {cfg : Config} {s : Watch} (h : isMounted s = true) (t : Turn) :
    body cfg s t = s := by
  rw [body, attempt, if_pos h]

theorem run_body_of_isMounted {cfg : Config} {s : Watch} (h : isMounted s = true)
    (turns : List Turn) : Runs.run (body cfg) s turns = s := by
  induction turns with
  | nil => rfl
  | cons t turns ih => rw [Runs.run_cons, body_of_isMounted h, ih]

/-- Leaving the loop early changes nothing: the turns that are not taken would have found the
volume mounted. -/
theorem tryMountFor_snd (cfg : Config) (turns : List Turn) (s : Watch) :
    (tryMountFor cfg turns s).2 = Runs.run (body cfg) s turns := by
  induction turns generalizing s with
  | nil => rfl
  | cons t turns ih =>
    rw [Runs.run_cons, tryMountFor]
    cases hattempt : attempt cfg t s with
    | mk ok s' =>
      have hbody : body cfg s t = s' := congrArg Prod.snd hattempt
      rw [hbody]
      cases ok with
      | false => exact ih s'
      | true =>
        have hmounted : isMounted s' = true := by
          have hthere := isMounted_attempt cfg t s
          rw [hattempt] at hthere
          exact hthere rfl
        exact (run_body_of_isMounted hmounted turns).symm

/-- Success of the loop means that a mount is there. -/
theorem isMounted_tryMountFor (cfg : Config) (turns : List Turn) (s : Watch)
    (hok : (tryMountFor cfg turns s).1 = true) : isMounted (tryMountFor cfg turns s).2 = true := by
  induction turns generalizing s with
  | nil => exact absurd hok (by simp [tryMountFor])
  | cons t turns ih =>
    have hthere := isMounted_attempt cfg t s
    rw [tryMountFor] at hok ⊢
    cases hattempt : attempt cfg t s with
    | mk ok s' =>
      rw [hattempt] at hok hthere
      cases ok with
      | false => exact ih s' hok
      | true => exact hthere rfl

/-- The turns of one call leave a volume that can be trusted exactly if all of them clean up. -/
theorem trusted_run_body_iff (cfg : Config) (turns : List Turn) {s : Watch} (hs : Trusted s) :
    Trusted (Runs.run (body cfg) s turns) ↔ Runs.Along (body cfg) (CleansUp cfg) s turns := by
  induction turns generalizing s with
  | nil => exact iff_of_true hs trivial
  | cons t turns ih =>
    rw [Runs.run_cons, Runs.Along]
    cases hmounted : isMounted s with
    | true =>
      rw [body_of_isMounted hmounted, ih hs]
      exact ⟨fun h => ⟨cleansUp_of_isMounted hmounted t, h⟩, fun h => h.2⟩
    | false =>
      have hbody : body cfg s t = (findAndMount cfg t s).2 := by
        rw [body, attempt, hmounted]
        rfl
      by_cases hclean : CleansUp cfg s t
      · rw [ih (hbody ▸ (trusted_findAndMount_iff cfg t hmounted).mpr hclean)]
        exact ⟨fun h => ⟨hclean, h⟩, fun h => h.2⟩
      · -- a mount that was left stays, since every later turn finds it
        refine iff_of_false ?_ fun h => hclean h.1
        have hcame := (findAndMount_cases cfg t hmounted).resolve_left fun h => hclean h.2.2
        have hstayed := hcame.resolve_left (by
          rintro ⟨m, h⟩
          exact hclean h.2.2.2)
        obtain ⟨m, -, hmounts, hflags, -⟩ := hstayed
        have hleft : isMounted (body cfg s t) = true := by simp [hbody, isMounted, hmounts]
        rw [run_body_of_isMounted hleft, hbody]
        intro htrusted
        have htook := htrusted m (by simp [hmounts])
        rw [hflags] at htook
        exact absurd htook (by decide)

/-! ## Whole runs -/

theorem trusted_step_iff (cfg : Config) {s : Watch} (hs : Trusted s) (op : Op) :
    Trusted (step cfg s op) ↔ OpCleansUp cfg s op := by
  cases op with
  | once turn =>
    rw [step, once, tryMountFor_snd]
    exact trusted_run_body_iff cfg _ hs
  | poll t =>
    rw [step, poll, OpCleansUp]
    cases hmounted : isMounted s with
    | false => exact trusted_findAndMount_iff cfg t hmounted
    | true =>
      refine iff_of_true ?_ (cleansUp_of_isMounted hmounted t)
      rw [if_pos rfl]
      split
      · split
        · exact trusted_umount hs t.umount
        · exact hs
      · exact hs
  | umount first second =>
    refine iff_of_true ?_ trivial
    rw [step, umountData]
    split
    · split
      · exact trusted_umount hs first
      · exact trusted_umount (trusted_umount hs first) second
    · exact hs

/-- What the script takes a volume for at a call: `--once` reports one that is ready, the daemon
one that is still mounted. Both times it is there, and came up with the flags. -/
def UsedSafely (cfg : Config) (s : Watch) : Op → Prop
  | .once turn =>
    (once cfg turn s).1 = true →
      (once cfg turn s).2.mounts ≠ [] ∧ Trusted (once cfg turn s).2
  | .poll _ => isMounted s = true → s.mounts ≠ [] ∧ Trusted s
  | .umount _ _ => True

theorem usedSafely_of_cleansUp (cfg : Config) {s : Watch} (hs : Trusted s) {op : Op}
    (h : OpCleansUp cfg s op) : UsedSafely cfg s op := by
  cases op with
  | once turn =>
    intro hok
    have hmounted := isMounted_tryMountFor cfg _ s hok
    exact ⟨(isMounted_iff _).mp hmounted, (trusted_step_iff cfg hs (.once turn)).mpr h⟩
  | poll t => exact fun hmounted => ⟨(isMounted_iff s).mp hmounted, hs⟩
  | umount first second => trivial

/-- In every run of the script, the mounts at `MOUNT_POINT` came up with the flags in every state
reached exactly if every turn that mounts something without them sees its `umount` succeed. In
such a run, `try_mount_for` reports success and the daemon goes on with a mounted volume only for
a mount that came up with the flags. -/
theorem trusted_throughout_iff (cfg : Config) (ops : List Op) :
    ((∀ ops', ops' <+: ops → Trusted (Runs.run (step cfg) start ops')) ↔
      Runs.Along (step cfg) (OpCleansUp cfg) start ops) ∧
    (Runs.Along (step cfg) (OpCleansUp cfg) start ops →
      Runs.Along (step cfg) (UsedSafely cfg) start ops) := by
  have hstart : Trusted start := by simp [Trusted, start]
  constructor
  · exact Runs.throughout_iff_along (I := Trusted) (fun s hs => hs)
      (fun s op hs h => (trusted_step_iff cfg hs op).mpr h)
      (fun s op hs h htrusted => h ((trusted_step_iff cfg hs op).mp htrusted)) ops hstart
  · exact fun h => Runs.Along.along (fun s op hs h => (trusted_step_iff cfg hs op).mpr h)
      (fun s op hs h => usedSafely_of_cleansUp cfg hs h) hstart h

/-- One FAT stick with the label, which mounts with `flags`. -/
def stick (flags : List String) (umount : Umounted) : Turn :=
  let devices : Devices :=
    { globbed := ["/dev/sdb2"]
      isBlock := fun dev => dev == "/dev/sdb2"
      blkidField := fun _ field =>
        match field with
        | .label => "PSBT_DATA"
        | .type => "vfat" }
  { found := devices, mounting := devices, mount := fun _ _ _ => some flags, umount := umount }

/-- A mount that comes up without the flags, and an `umount` that fails: the second turn of
`try_mount_for` finds the volume mounted and reports it ready, and the daemon goes on with it. -/
theorem once_ready_without_flags :
    let turn : ℕ → Turn := fun _ => stick ["rw", "relatime"] ⟨false, false⟩
    let left : Watch := { mounts := [⟨"/dev/sdb2", ["rw", "relatime"]⟩], warning := none }
    once {} turn start = (true, left) ∧ isMounted left = true ∧ poll {} (turn 0) left = left ∧
      ¬ Runs.Along (step {}) (UsedSafely {}) start [.once turn, .poll (turn 0)] := by
  refine ⟨by decide, by decide, by decide, ?_⟩
  intro h
  exact absurd (h.1 (by decide)).2 (by decide)

/-- A stick that mounts with the flags is reported ready and is there. -/
theorem trusted_throughout_iff_stick :
    let turn : ℕ → Turn := fun _ => stick ["rw", "noexec", "nodev", "nosuid", "sync"] ⟨true, true⟩
    Runs.Along (step {}) (UsedSafely {}) start [.once turn, .umount ⟨true, true⟩ ⟨true, true⟩] :=
  (trusted_throughout_iff {} _).2 ⟨show Runs.Along _ _ _ _ by decide, trivial, trivial⟩

end SignerOS.Datawatch
