import Mathlib.Data.List.Induction
import SignerOS.Common

/-!
# The supervisor of the kiosk

`signer-session`: the script, run as root, that starts the kiosk and starts it again. Status 42 is
the kiosk asking for the machine to be switched off. A kiosk that stops within five seconds is
taken to have failed: on `eglfs` the platform is changed, on `linuxfb` five failures in a row end it.

What a run of the kiosk comes to is a parameter of each turn of the loop. The environment of the
kiosk, the devices it is given and the report for `signeros.inputdebug` are left out.
-/

namespace SignerOS.SignerSession

inductive Platform
  | eglfs | linuxfb
deriving DecidableEq, Repr

def Platform.name : Platform → String
  | .eglfs => "eglfs"
  | .linuxfb => "linuxfb"

def pluginDirs : List String :=
  ["/usr/lib/qt/plugins/platforms", "/usr/lib/qt5/plugins/platforms",
    "/usr/lib/qt6/plugins/platforms", "/usr/lib/plugins/platforms"]

/-- `plugin_exists`, on a machine with these files. -/
def pluginExists (exist : String → Bool) (plugin : String) : Bool :=
  pluginDirs.any fun dir => exist (dir ++ "/" ++ plugin)

/-- `pick_qpa`. -/
def pickQpa (exist : String → Bool) (qpa : String) : Platform :=
  if qpa = "linuxfb" then .linuxfb
  else if qpa = "eglfs" then .eglfs
  else if exist "/dev/dri/card0" && pluginExists exist "libqeglfs.so" then .eglfs
  else .linuxfb

def exitPoweroff : UInt8 := 42

def maxRapidFailures : ℕ := 5

def rapidSecs : ℤ := 5

/-- A run of the kiosk: its status, and the uptime before and after it. -/
structure Exit where
  status : UInt8
  started : ℤ
  stopped : ℤ
deriving DecidableEq, Repr

def Exit.elapsed (e : Exit) : ℤ := e.stopped - e.started

/-- The variables of the loop. -/
structure Supervisor where
  platform : Platform
  failures : ℕ
deriving DecidableEq, Repr

def start (platform : Platform) : Supervisor := ⟨platform, 0⟩

inductive Action
  | startKiosk (platform : Platform)
  | log (line : String)
  | panelError (title : String) (lines : List String)
  | sleep (secs : ℕ)
deriving DecidableEq, Repr

/-- Where the loop is: it goes on, or it has handed over to `secure-poweroff`, or it has ended. -/
inductive Outcome
  | running (s : Supervisor)
  | poweroff
  | gaveUp
deriving DecidableEq, Repr

def willNotStart (s : Supervisor) (status : UInt8) : Action :=
  .panelError "the signer application will not start"
    ["btc_signer_gui exited " ++ toString s.failures ++ " times in a row",
      "with status " ++ toString status.toNat ++ " (platform: " ++ s.platform.name ++ ").",
      "",
      "This is a build or hardware problem, not something",
      "you can fix by retrying. Nothing has been signed and",
      "no key material was entered.",
      "",
      "Power the machine off and check dmesg on a test build:",
      "  scripts/test_in_qemu.sh --gui"]

/-- One turn of the supervision loop. -/
def turn (s : Supervisor) (e : Exit) : List Action × Outcome :=
  if e.status = exitPoweroff then
    ([.startKiosk s.platform, .log "kiosk requested secure shutdown"], .poweroff)
  else
    let exited := [.startKiosk s.platform,
      .log ("kiosk exited with status " ++ toString e.status.toNat ++ " after "
        ++ toString e.elapsed ++ "s")]
    if e.elapsed < rapidSecs ∧ s.platform = .eglfs then
      (exited ++ [.log "eglfs failed to start; falling back to linuxfb"],
        .running { platform := .linuxfb, failures := 0 })
    else
      let s := { s with failures := if e.elapsed < rapidSecs then s.failures + 1 else 0 }
      if s.failures ≥ maxRapidFailures then
        (exited ++ [willNotStart s e.status,
          .log ("giving up after " ++ toString s.failures ++ " rapid failures")], .gaveUp)
      else (exited ++ [.sleep 2], .running s)

/-- The loop, over the runs of the kiosk one after the other. -/
def loop (s : Supervisor) : List Exit → List Action × Outcome
  | [] => ([], .running s)
  | e :: es =>
    match turn s e with
    | (done, .running s') => (done ++ (loop s' es).1, (loop s' es).2)
    | (done, outcome) => (done, outcome)

/-- The script: what it does while the kiosk ends like this. -/
def session (exist : String → Bool) (qpa network : String) (es : List Exit) :
    List Action × Outcome :=
  let platform := pickQpa exist qpa
  let r := loop (start platform) es
  (.log ("starting kiosk (platform=" ++ platform.name ++ ", network=" ++ network ++ ")") :: r.1, r.2)

/-! ## Streaks -/

section
variable {α : Type} (B : List α → Prop) (r : α → Prop)

/-- The list ends in `n` elements with `r`, behind a part with `B`. -/
def EndsIn (n : ℕ) (es : List α) : Prop :=
  ∃ pre streak, es = pre ++ streak ∧ B pre ∧ streak.length = n ∧ ∀ e ∈ streak, r e

variable {B r}

theorem endsIn_zero {es : List α} : EndsIn B r 0 es ↔ B es := by
  constructor
  · intro ⟨pre, streak, hes, hB, hlen, _⟩
    rwa [hes, List.length_eq_zero_iff.mp hlen, List.append_nil]
  · intro h
    exact ⟨es, [], (List.append_nil es).symm, h, rfl, by simp⟩

theorem endsIn_concat {n : ℕ} {es : List α} {e : α} :
    EndsIn B r (n + 1) (es ++ [e]) ↔ EndsIn B r n es ∧ r e := by
  constructor
  · intro ⟨pre, streak, hes, hB, hlen, hr⟩
    obtain rfl | ⟨front, last, rfl⟩ := List.eq_nil_or_concat' streak
    · cases hlen
    · rw [← List.append_assoc] at hes
      obtain ⟨rfl, hlast⟩ := List.append_inj' hes rfl
      obtain rfl := List.singleton_inj.mp hlast
      refine ⟨⟨pre, front, rfl, hB, ?_, fun e' he' => hr e' (List.mem_append_left _ he')⟩, ?_⟩
      · simpa using hlen
      · exact hr e (List.mem_append_right _ (List.mem_singleton_self e))
  · intro ⟨⟨pre, streak, hes, hB, hlen, hr⟩, he⟩
    refine ⟨pre, streak ++ [e], by rw [hes, List.append_assoc], hB, by simp [hlen], ?_⟩
    simpa [or_imp, forall_and] using ⟨hr, he⟩

theorem endsIn_map {β : Type} {n : ℕ} (f : β → α) {xs : List β} :
    EndsIn B r n (xs.map f) ↔ EndsIn (fun xs => B (xs.map f)) (fun x => r (f x)) n xs := by
  constructor
  · intro ⟨pre, streak, hxs, hB, hlen, hr⟩
    obtain ⟨xs₁, xs₂, rfl, rfl, rfl⟩ := List.map_eq_append_iff.mp hxs
    exact ⟨xs₁, xs₂, rfl, hB, by rwa [List.length_map] at hlen, by simpa using hr⟩
  · intro ⟨pre, streak, hxs, hB, hlen, hr⟩
    exact ⟨pre.map f, streak.map f, by rw [hxs, List.map_append], hB, by rwa [List.length_map],
      by simpa using hr⟩

end

/-! ## How a session ends -/

def Exit.Rapid (e : Exit) : Prop := e.elapsed < rapidSecs

instance (e : Exit) : Decidable e.Rapid := inferInstanceAs (Decidable (e.elapsed < rapidSecs))

/-- After these runs the kiosk is on `linuxfb`. -/
def Settled (p : Platform) (es : List Exit) : Prop := p = .eglfs → ∃ e ∈ es, e.Rapid

/-- Five rapid failures in a row on `linuxfb`. -/
def Failed (p : Platform) (es : List Exit) : Prop :=
  EndsIn (Settled p) Exit.Rapid maxRapidFailures es

/-- Runs after which the kiosk is started once more. -/
def Survived (p : Platform) (es : List Exit) : Prop :=
  (∀ e ∈ es, e.status ≠ exitPoweroff) ∧ ∀ pre, pre <+: es → ¬ Failed p pre

/-- The variables of the loop after these runs. -/
def Tracks (p : Platform) (es : List Exit) (s : Supervisor) : Prop :=
  match s.platform with
  | .eglfs => p = .eglfs ∧ (∀ e ∈ es, ¬ e.Rapid) ∧ s.failures = 0
  | .linuxfb => ∀ n, EndsIn (Settled p) Exit.Rapid n es ↔ n ≤ s.failures

theorem tracks_start (p : Platform) : Tracks p [] (start p) := by
  cases p with
  | eglfs => exact ⟨rfl, by simp, rfl⟩
  | linuxfb =>
    intro n
    cases n with
    | zero => exact iff_of_true (endsIn_zero.mpr fun h => by cases h) (Nat.le_refl 0)
    | succ n =>
      refine iff_of_false ?_ (Nat.not_succ_le_zero n)
      intro ⟨pre, streak, hes, _, hlen, _⟩
      obtain ⟨_, rfl⟩ := List.append_eq_nil_iff.mp hes.symm
      cases hlen

theorem not_failed_of_tracks {p : Platform} {es : List Exit} {s : Supervisor} (h : Tracks p es s)
    (hlt : s.failures < maxRapidFailures) : ¬ Failed p es := by
  obtain ⟨platform, failures⟩ := s
  cases platform with
  | eglfs =>
    obtain ⟨hp, hslow, -⟩ := h
    intro ⟨pre, streak, hes, hsettled, _⟩
    obtain ⟨e, he, hrapid⟩ := hsettled hp
    exact hslow e (hes ▸ List.mem_append_left _ he) hrapid
  | linuxfb => exact fun hfailed => Nat.not_lt.mpr ((h maxRapidFailures).mp hfailed) hlt

theorem platform_of_tracks {p : Platform} {es : List Exit} {s : Supervisor} (h : Tracks p es s) :
    s.platform = .eglfs ↔ p = .eglfs ∧ ∀ e ∈ es, ¬ e.Rapid := by
  obtain ⟨platform, failures⟩ := s
  cases platform with
  | eglfs => exact iff_of_true rfl ⟨h.1, h.2.1⟩
  | linuxfb =>
    refine iff_of_false Platform.noConfusion ?_
    intro ⟨hp, hslow⟩
    obtain ⟨e, he, hrapid⟩ : ∃ e ∈ es, e.Rapid := endsIn_zero.mp ((h 0).mpr (Nat.zero_le _)) hp
    exact hslow e he hrapid

/-- On `linuxfb` the streak is counted. -/
theorem tracks_linuxfb {p : Platform} {es : List Exit} {failures : ℕ}
    (h : Tracks p es ⟨.linuxfb, failures⟩) (e : Exit) :
    Tracks p (es ++ [e]) ⟨.linuxfb, if e.Rapid then failures + 1 else 0⟩ := by
  have hsettled : Settled p (es ++ [e]) := fun hp => by
    obtain ⟨e', he', hrapid⟩ : ∃ e' ∈ es, e'.Rapid := endsIn_zero.mp ((h 0).mpr (Nat.zero_le _)) hp
    exact ⟨e', List.mem_append_left _ he', hrapid⟩
  intro n
  cases n with
  | zero => exact iff_of_true (endsIn_zero.mpr hsettled) (Nat.zero_le _)
  | succ n =>
    rw [endsIn_concat, h n]
    split
    · next hrapid => exact (and_iff_left hrapid).trans Nat.succ_le_succ_iff.symm
    · next hslow => exact iff_of_false (fun h => hslow h.2) (Nat.not_succ_le_zero n)

/-- The first rapid failure on `eglfs` changes the platform, and the streak starts after it. -/
theorem tracks_fallback {p : Platform} {es : List Exit} {failures : ℕ}
    (h : Tracks p es ⟨.eglfs, failures⟩) {e : Exit} (hrapid : e.Rapid) :
    Tracks p (es ++ [e]) ⟨.linuxfb, 0⟩ := by
  obtain ⟨hp, hslow, -⟩ := h
  intro n
  cases n with
  | zero =>
    refine iff_of_true (endsIn_zero.mpr fun _ => ⟨e, ?_, hrapid⟩) (Nat.le_refl 0)
    exact List.mem_append_right _ (List.mem_singleton_self e)
  | succ n =>
    refine iff_of_false ?_ (Nat.not_succ_le_zero n)
    rw [endsIn_concat]
    intro ⟨⟨pre, streak, hes, hsettled, _⟩, _⟩
    obtain ⟨e', he', hrapid'⟩ := hsettled hp
    exact hslow e' (hes ▸ List.mem_append_left _ he') hrapid'

theorem tracks_eglfs {p : Platform} {es : List Exit} {failures : ℕ}
    (h : Tracks p es ⟨.eglfs, failures⟩) {e : Exit} (hslow : ¬ e.Rapid) :
    Tracks p (es ++ [e]) ⟨.eglfs, 0⟩ := by
  refine ⟨h.1, ?_, rfl⟩
  simpa [or_imp, forall_and] using ⟨h.2.1, hslow⟩

/-- What one more run has come to. -/
def TurnEnds (p : Platform) (es : List Exit) (e : Exit) : Outcome → Prop
  | .running s =>
    e.status ≠ exitPoweroff ∧ Tracks p (es ++ [e]) s ∧ s.failures < maxRapidFailures
  | .poweroff => e.status = exitPoweroff
  | .gaveUp => e.status ≠ exitPoweroff ∧ Failed p (es ++ [e])

theorem turn_spec {p : Platform} {es : List Exit} {s : Supervisor} (h : Tracks p es s) (e : Exit) :
    TurnEnds p es e (turn s e).2 := by
  obtain ⟨platform, failures⟩ := s
  by_cases hoff : e.status = exitPoweroff
  · rw [turn, if_pos hoff]
    exact hoff
  · rw [turn, if_neg hoff]
    by_cases hfall : e.elapsed < rapidSecs ∧ platform = .eglfs
    · rw [if_pos hfall]
      obtain ⟨hrapid, rfl⟩ := hfall
      exact ⟨hoff, tracks_fallback h hrapid, by decide⟩
    · rw [if_neg hfall]
      have hnext : Tracks p (es ++ [e]) ⟨platform, if e.Rapid then failures + 1 else 0⟩ := by
        cases platform with
        | eglfs =>
          have hslow : ¬ e.Rapid := fun hrapid => hfall ⟨hrapid, rfl⟩
          rw [if_neg hslow]
          exact tracks_eglfs h hslow
        | linuxfb => exact tracks_linuxfb h e
      change Tracks p (es ++ [e])
        ⟨platform, if e.elapsed < rapidSecs then failures + 1 else 0⟩ at hnext
      dsimp only
      generalize (if e.elapsed < rapidSecs then failures + 1 else 0) = count at hnext ⊢
      by_cases hmany : count ≥ maxRapidFailures
      · rw [if_pos hmany]
        cases platform with
        | eglfs =>
          obtain rfl : count = 0 := hnext.2.2
          exact absurd hmany (by decide)
        | linuxfb => exact ⟨hoff, (hnext maxRapidFailures).mpr hmany⟩
      · rw [if_neg hmany]
        exact ⟨hoff, hnext, Nat.not_le.mp hmany⟩

theorem survived_concat {p : Platform} {es : List Exit} {e : Exit} (h : Survived p es)
    (hon : e.status ≠ exitPoweroff) (hfailed : ¬ Failed p (es ++ [e])) : Survived p (es ++ [e]) := by
  constructor
  · simpa [or_imp, forall_and] using ⟨h.1, hon⟩
  · intro pre hpre
    rw [List.prefix_concat_iff] at hpre
    obtain rfl | hpre := hpre
    · exact hfailed
    · exact h.2 pre hpre

/-- What these runs come to, after others that have been survived. -/
def LoopEnds (p : Platform) (before es : List Exit) : Outcome → Prop
  | .running s => Survived p (before ++ es) ∧ Tracks p (before ++ es) s
  | .poweroff => ∃ pre e post, es = pre ++ e :: post ∧ e.status = exitPoweroff ∧
      Survived p (before ++ pre)
  | .gaveUp => ∃ pre post, es = pre ++ post ∧ (∀ e ∈ pre, e.status ≠ exitPoweroff) ∧
      Failed p (before ++ pre)

theorem loop_spec {p : Platform} {before : List Exit} {s : Supervisor} (h : Tracks p before s)
    (hbefore : Survived p before) (es : List Exit) : LoopEnds p before es (loop s es).2 := by
  induction es generalizing before s with
  | nil =>
    rw [loop, LoopEnds, List.append_nil]
    exact ⟨hbefore, h⟩
  | cons e es ih =>
    have hturn := turn_spec h e
    rw [loop]
    generalize turn s e = r at hturn ⊢
    obtain ⟨done, outcome⟩ := r
    cases outcome with
    | poweroff => exact ⟨[], e, es, rfl, hturn, by rwa [List.append_nil]⟩
    | gaveUp => exact ⟨[e], es, rfl, by simpa using hturn.1, hturn.2⟩
    | running s' =>
      obtain ⟨hon, htracks, hlt⟩ := hturn
      have hsurvived := survived_concat hbefore hon (not_failed_of_tracks htracks hlt)
      have hrest := ih htracks hsurvived
      dsimp only
      generalize (loop s' es).2 = outcome at hrest ⊢
      cases outcome with
      | running s'' => rwa [LoopEnds, List.append_assoc] at hrest
      | poweroff =>
        obtain ⟨pre, e', post, rfl, hoff, hpre⟩ := hrest
        rw [List.append_assoc] at hpre
        exact ⟨e :: pre, e', post, rfl, hoff, hpre⟩
      | gaveUp =>
        obtain ⟨pre, post, rfl, hpre, hfailed⟩ := hrest
        rw [List.append_assoc] at hfailed
        exact ⟨e :: pre, post, rfl, List.forall_mem_cons.mpr ⟨hon, hpre⟩, hfailed⟩

theorem survived_nil (p : Platform) : Survived p [] :=
  ⟨by simp, fun pre hpre => by
    obtain rfl := List.prefix_nil.mp hpre
    exact not_failed_of_tracks (tracks_start p) (Nat.succ_pos 4)⟩

/-- A status 42 that is heeded is not behind five failures. -/
theorem not_failed_of_poweroff {p : Platform} {pre pre' post post' : List Exit} {e : Exit}
    (hes : pre ++ e :: post = pre' ++ post') (hoff : e.status = exitPoweroff)
    (hpre : Survived p pre) (hon : ∀ e ∈ pre', e.status ≠ exitPoweroff) : ¬ Failed p pre' := by
  obtain ⟨mid, rfl, hmid⟩ | ⟨mid, rfl, -⟩ := List.append_eq_append_iff.mp hes
  · cases mid with
    | nil =>
      rw [List.append_nil]
      exact hpre.2 pre List.prefix_rfl
    | cons e' mid =>
      obtain ⟨rfl, -⟩ := List.cons.inj hmid
      exact absurd hoff (hon e (List.mem_append_right _ List.mem_cons_self))
  · exact hpre.2 pre' (List.prefix_append pre' mid)

/-- How the loop ends, from its start. -/
theorem loop_exact (p : Platform) (es : List Exit) :
    ((loop (start p) es).2 = .poweroff ↔ ∃ pre e post, es = pre ++ e :: post ∧
      e.status = exitPoweroff ∧ Survived p pre) ∧
    ((loop (start p) es).2 = .gaveUp ↔ ∃ pre post, es = pre ++ post ∧
      (∀ e ∈ pre, e.status ≠ exitPoweroff) ∧ Failed p pre) ∧
    ∀ s, (loop (start p) es).2 = .running s →
      Survived p es ∧ (s.platform = .eglfs ↔ p = .eglfs ∧ ∀ e ∈ es, ¬ e.Rapid) := by
  have hends := loop_spec (tracks_start p) (survived_nil p) es
  generalize (loop (start p) es).2 = outcome at hends ⊢
  refine ⟨⟨?_, ?_⟩, ⟨?_, ?_⟩, ?_⟩
  · rintro rfl
    exact hends
  · rintro ⟨pre, e, post, rfl, hoff, hpre⟩
    cases outcome with
    | poweroff => rfl
    | running s =>
      have hmem : e ∈ pre ++ e :: post := List.mem_append_right _ List.mem_cons_self
      exact absurd hoff (hends.1.1 e hmem)
    | gaveUp =>
      obtain ⟨pre', post', hes, hon, hfailed⟩ := hends
      exact absurd hfailed (not_failed_of_poweroff hes hoff hpre hon)
  · rintro rfl
    exact hends
  · rintro ⟨pre, post, rfl, hon, hfailed⟩
    cases outcome with
    | gaveUp => rfl
    | running s => exact absurd hfailed (hends.1.2 pre (List.prefix_append pre post))
    | poweroff =>
      obtain ⟨pre', e, post', hes, hoff, hpre'⟩ := hends
      exact absurd hfailed (not_failed_of_poweroff hes.symm hoff hpre' hon)
  · rintro s rfl
    exact ⟨hends.1, platform_of_tracks hends.2⟩

/-- A session is switched off by the first status 42, unless five runs in a row have failed on
`linuxfb` before it, which end it; otherwise it goes on, on `eglfs` if no run has failed there. -/
theorem session_exact (exist : String → Bool) (qpa network : String) (es : List Exit) :
    ((session exist qpa network es).2 = .poweroff ↔ ∃ pre e post, es = pre ++ e :: post ∧
      e.status = exitPoweroff ∧ Survived (pickQpa exist qpa) pre) ∧
    ((session exist qpa network es).2 = .gaveUp ↔ ∃ pre post, es = pre ++ post ∧
      (∀ e ∈ pre, e.status ≠ exitPoweroff) ∧ Failed (pickQpa exist qpa) pre) ∧
    ∀ s, (session exist qpa network es).2 = .running s →
      Survived (pickQpa exist qpa) es ∧
        (s.platform = .eglfs ↔ pickQpa exist qpa = .eglfs ∧ ∀ e ∈ es, ¬ e.Rapid) :=
  loop_exact (pickQpa exist qpa) es

end SignerOS.SignerSession
