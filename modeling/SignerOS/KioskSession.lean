import SignerOS.Kiosk
import SignerOS.SignerSession

/-!
# From the kernel command line to the window

What the machine was booted with reaches the kiosk through `signeros_load_config`, the environment
of `signer-session` and `main`, each time the supervisor starts it. This file puts the three
together.

* `cmdlineGet_eq_iff`, what a key of the command line is set to;
* `main_supervised`, a kiosk the supervisor starts;
* `session_as_booted`, every window of a session, and how the session ends.

What the configuration file leaves in the variables is a parameter, as are the answers of the
machine during each run.
-/

namespace SignerOS.Kiosk

open SignerSession

/-! ## The configuration -/

/-- What `$(echo "$text")` gives: options are not printed, and newlines at the end are dropped. -/
def echoed (text : List Char) : List Char :=
  match text with
  | '-' :: o :: os =>
    if (o :: os).all "neE".toList.contains then []
    else (text.reverse.dropWhile (· = '\n')).reverse
  | _ => (text.reverse.dropWhile (· = '\n')).reverse

/-- The words of the command line, one on a line. -/
def cmdlineWords (cmdline : List Char) : List (List Char) :=
  (cmdline.map fun c => if c = ' ' then '\n' else c).splitOn '\n'

/-- `cmdline_get`. -/
def cmdlineGet (cmdline key default : List Char) : List Char :=
  let start := "signeros.".toList ++ key ++ ['=']
  let values := (cmdlineWords cmdline).filterMap fun word =>
    if start.isPrefixOf word then some (word.drop start.length) else none
  match values.head? with
  | some [] | none => echoed default
  | some val => echoed val

/-- The variables of `signeros_load_config` that reach the kiosk. -/
structure Config where
  network : List Char := "mainnet".toList
  dataLabel : List Char := "PSBT_DATA".toList
  mountPoint : List Char := "/mnt/data".toList
  qpa : List Char := "auto".toList
  writeFinalTx : List Char := "0".toList
deriving DecidableEq, Repr

/-- `signeros_load_config`, where the configuration file leaves the variables like this. -/
def loadConfig (conf : Config → Config) (cmdline : List Char) : Config :=
  let cfg := conf {}
  { network := cmdlineGet cmdline "network".toList cfg.network
    dataLabel := cmdlineGet cmdline "data_label".toList cfg.dataLabel
    mountPoint := cmdlineGet cmdline "mount_point".toList cfg.mountPoint
    qpa := cmdlineGet cmdline "qpa".toList cfg.qpa
    writeFinalTx := cmdlineGet cmdline "write_final_tx".toList cfg.writeFinalTx }

/-- The environment of the kiosk. -/
def environment (cfg : Config) (inherited : String → Option String) (name : String) :
    Option String :=
  if name = "SIGNEROS_NETWORK" then some (String.ofList cfg.network)
  else if name = "SIGNEROS_DATA_DIR" then some (String.ofList cfg.mountPoint)
  else if name = "SIGNEROS_DATA_LABEL" then some (String.ofList cfg.dataLabel)
  else if name = "SIGNEROS_WRITE_FINAL_TX" then some (String.ofList cfg.writeFinalTx)
  else inherited name

/-! ## The session -/

/-- What the machine answers during one run of the kiosk. -/
structure Run where
  outside : SelfTest.Outside
  files : Files.Disk Char
  /-- What the event loop of a window ends with. -/
  exec : KioskConfig → UInt8
  started : ℤ
  stopped : ℤ

/-- What was done in a session: the windows that were opened, the actions of the supervisor, and
how it has ended. -/
structure Session where
  windows : List KioskConfig
  actions : List Action
  outcome : Outcome

section
variable (w : Wally) (lib : Bip39) (sha512 : Bytes → Digest)
  (hmac : Digest → Bytes → Option Digest) (gui : Bool) (defaultNetwork : String)

/-- `"$SIGNER_BIN" -platform "$platform"`. -/
def runKiosk (env : String → Option String) (platform : Platform) (r : Run) : Ended :=
  main w lib sha512 hmac r.outside r.files gui defaultNetwork r.exec env
    ["-platform", platform.name]

/-- The supervision loop over the runs of the kiosk. -/
def supervise (env : String → Option String) (s : Supervisor) : List Run → Session
  | [] => ⟨[], [], .running s⟩
  | r :: rs =>
    let ended := runKiosk w lib sha512 hmac gui defaultNetwork env s.platform r
    match turn s ⟨ended.status, r.started, r.stopped⟩ with
    | (done, .running s') =>
      let rest := supervise env s' rs
      ⟨ended.window.toList ++ rest.windows, done ++ rest.actions, rest.outcome⟩
    | (done, outcome) => ⟨ended.window.toList, done, outcome⟩

/-- `signer-session`, after a boot with this command line. -/
def bootedSession (conf : Config → Config) (cmdline : List Char)
    (inherited : String → Option String) (exist : String → Bool) (rs : List Run) : Session :=
  let cfg := loadConfig conf cmdline
  supervise w lib sha512 hmac gui defaultNetwork (environment cfg inherited)
    (start (pickQpa exist (String.ofList cfg.qpa))) rs

end

/-! ## What a key is set to -/

/-- The first word of the command line that begins with the key goes on with this value. -/
def Says (cmdline key value : List Char) : Prop :=
  ∃ pre post, cmdlineWords cmdline = pre ++ ("signeros.".toList ++ key ++ '=' :: value) :: post ∧
    ∀ word ∈ pre, ¬ ("signeros.".toList ++ key ++ ['=']) <+: word

/-- A value on the command line wins, unless it is empty, over what was there before. -/
inductive IsSet (cmdline key before : List Char) : List Char → Prop
  | said (value : List Char) (h : Says cmdline key value) (hne : value ≠ []) :
    IsSet cmdline key before (echoed value)
  | left (h : ∀ value, Says cmdline key value → value = []) :
      IsSet cmdline key before (echoed before)

section
variable {cmdline key before value : List Char}

/-- What stands behind the key in a word that begins with it. -/
theorem behind_eq_some_iff {start word : List Char} :
    (if start.isPrefixOf word then some (word.drop start.length) else none) = some value ↔
      word = start ++ value := by
  split
  · next h =>
    obtain ⟨rest, rfl⟩ := List.isPrefixOf_iff_prefix.mp h
    rw [List.drop_left, Option.some.injEq, List.append_cancel_left_eq]
  · next h =>
    refine iff_of_false (by simp) ?_
    rintro rfl
    exact h (List.isPrefixOf_iff_prefix.mpr (List.prefix_append start value))

theorem behind_eq_none_iff {start word : List Char} :
    (if start.isPrefixOf word then some (word.drop start.length) else none) = none ↔
      ¬ start <+: word := by
  rw [← List.isPrefixOf_iff_prefix]
  split
  · next h => exact iff_of_false (by simp) (not_not.mpr h)
  · next h => exact iff_of_true rfl h

theorem head?_values_eq_some_iff :
    ((cmdlineWords cmdline).filterMap fun word =>
      if ("signeros.".toList ++ key ++ ['=']).isPrefixOf word then
        some (word.drop ("signeros.".toList ++ key ++ ['=']).length) else none).head? = some value ↔
      Says cmdline key value := by
  rw [List.head?_filterMap, List.findSome?_eq_some_iff, Says]
  simp only [behind_eq_some_iff, behind_eq_none_iff, List.append_assoc, List.singleton_append]
  constructor
  · rintro ⟨pre, word, post, hwords, rfl, hpre⟩
    exact ⟨pre, post, hwords, hpre⟩
  · rintro ⟨pre, post, hwords, hpre⟩
    exact ⟨pre, _, post, hwords, rfl, hpre⟩

theorem says_unique {value' : List Char} (h : Says cmdline key value)
    (h' : Says cmdline key value') : value = value' :=
  Option.some.inj ((head?_values_eq_some_iff.mpr h).symm.trans (head?_values_eq_some_iff.mpr h'))

theorem isSet_cmdlineGet (cmdline key before : List Char) :
    IsSet cmdline key before (cmdlineGet cmdline key before) := by
  unfold cmdlineGet
  dsimp only
  split
  · next h =>
    rw [head?_values_eq_some_iff] at h
    exact .left fun value hvalue => says_unique hvalue h
  · next h =>
    refine .left fun value hvalue => ?_
    rw [head?_values_eq_some_iff.mpr hvalue] at h
    cases h
  · next val hne h => exact .said val (head?_values_eq_some_iff.mp h) hne

/-- `cmdline_get` finds what the key is set to. -/
theorem cmdlineGet_eq_iff :
    cmdlineGet cmdline key before = value ↔ IsSet cmdline key before value := by
  constructor
  · rintro rfl
    exact isSet_cmdlineGet cmdline key before
  · intro h
    have hget := isSet_cmdlineGet cmdline key before
    generalize cmdlineGet cmdline key before = got at hget ⊢
    cases h with
    | said v hv hne =>
      cases hget with
      | said v' hv' _ => rw [says_unique hv hv']
      | left hempty => exact absurd (hempty v hv) hne
    | left hempty =>
      cases hget with
      | said v' hv' hne => exact absurd (hempty v' hv') hne
      | left _ => rfl

/-- The first of two words is taken, and no other key that ends alike. -/
example : cmdlineGet
    "quiet notsigneros.network=main signeros.network=test signeros.network=main\n".toList
    "network".toList "signet".toList = "test".toList := by decide +kernel

end

/-! ## A kiosk the supervisor starts -/

/-- A window as the environment asks for it. -/
structure Asked (defaultNetwork : String) (env : String → Option String) (window : KioskConfig) :
    Prop where
  network : SelfTest.networkFromString (envOr env "SIGNEROS_NETWORK" defaultNetwork) =
    some window.network
  dataDir : window.dataDir = envOr env "SIGNEROS_DATA_DIR" "/mnt/data"
  dataLabel : window.dataLabel = envOr env "SIGNEROS_DATA_LABEL" "PSBT_DATA"
  writeFinalTx : window.writeFinalTx = (envOr env "SIGNEROS_WRITE_FINAL_TX" "0" == "1")

/-- The platform is left for Qt. -/
theorem parseArgs_platform (o : Options) (platform : Platform) :
    parseArgs o ["-platform", platform.name] = .run o := by
  have hname : platform.name ∉ flags ++ valued ++ ["--help", "-h", "--version"] := by
    cases platform <;> decide
  rw [parseArgs_other (by decide), parseArgs_other hname, parseArgs]

theorem initLibrary_of_wallyInit {o : SelfTest.Outside} (h : o.wallyInit = true) :
    ∃ warning, SelfTest.initLibrary o = some warning := by
  rw [← Option.ne_none_iff_exists']
  intro hnone
  rw [SelfTest.initLibrary_eq_none, h] at hnone
  cases hnone

section
variable {w : Wally} {lib : Bip39} {sha512 : Bytes → Digest}
  {hmac : Digest → Bytes → Option Digest} {gui : Bool} {defaultNetwork : String}
  {env : String → Option String} {platform : Platform} {r : Run} {window : KioskConfig}

theorem asked_unique {window' : KioskConfig} (h : Asked defaultNetwork env window)
    (h' : Asked defaultNetwork env window') : window = window' := by
  have hnetwork := Option.some.inj (h.network.symm.trans h'.network)
  cases window
  cases window'
  rw [KioskConfig.mk.injEq]
  exact ⟨hnetwork, h.dataDir.trans h'.dataDir.symm, h.dataLabel.trans h'.dataLabel.symm,
    h.writeFinalTx.trans h'.writeFinalTx.symm⟩

/-- It opens the window the environment asks for, and ends as that does; or it opens none, and ends
with a status of its own. -/
theorem runKiosk_spec (w : Wally) (lib : Bip39) (sha512 : Bytes → Digest)
    (hmac : Digest → Bytes → Option Digest) (gui : Bool) (defaultNetwork : String)
    (env : String → Option String) (platform : Platform) (r : Run) :
    (∃ window, (runKiosk w lib sha512 hmac gui defaultNetwork env platform r).window = some window ∧
      (runKiosk w lib sha512 hmac gui defaultNetwork env platform r).status = r.exec window ∧
      gui = true ∧ r.outside.wallyInit = true ∧ Asked defaultNetwork env window) ∨
    ((runKiosk w lib sha512 hmac gui defaultNetwork env platform r).window = none ∧
      (runKiosk w lib sha512 hmac gui defaultNetwork env platform r).status ≠ exitPoweroff ∧
      ¬ (gui = true ∧ r.outside.wallyInit = true ∧ ∃ window, Asked defaultNetwork env window)) := by
  have hself : (defaults env defaultNetwork).selfTest = false := rfl
  have htwo : (2 : UInt8) ≠ exitPoweroff := by decide
  have hthree : (3 : UInt8) ≠ exitPoweroff := by decide
  rw [runKiosk, main, parseArgs_platform]
  dsimp only
  rw [hself, if_neg Bool.false_ne_true]
  cases gui with
  | false => exact Or.inr ⟨rfl, htwo, fun h => Bool.false_ne_true h.1⟩
  | true =>
    rw [Bool.not_true, if_neg Bool.false_ne_true]
    cases hnetwork : SelfTest.networkFromString (defaults env defaultNetwork).st.network with
    | none =>
      refine Or.inr ⟨rfl, htwo, ?_⟩
      rintro ⟨-, -, window, hasked⟩
      exact absurd (hnetwork.symm.trans hasked.network) (by simp)
    | some network =>
      cases hlibrary : r.outside.wallyInit with
      | false =>
        rw [SelfTest.initLibrary_eq_none.mpr hlibrary]
        exact Or.inr ⟨rfl, hthree, fun h => Bool.false_ne_true h.2.1⟩
      | true =>
        obtain ⟨warning, hwarning⟩ := initLibrary_of_wallyInit hlibrary
        rw [hwarning]
        exact Or.inl ⟨_, rfl, rfl, rfl, rfl, ⟨hnetwork, rfl, rfl, rfl⟩⟩

theorem runKiosk_status_iff :
    (runKiosk w lib sha512 hmac gui defaultNetwork env platform r).status = exitPoweroff ↔
      gui = true ∧ r.outside.wallyInit = true ∧
        ∃ window, Asked defaultNetwork env window ∧ r.exec window = exitPoweroff := by
  obtain ⟨window, -, hstatus, hgui, hlibrary, hasked⟩ | ⟨-, hstatus, hnone⟩ :=
    runKiosk_spec w lib sha512 hmac gui defaultNetwork env platform r
  · rw [hstatus]
    constructor
    · exact fun hoff => ⟨hgui, hlibrary, window, hasked, hoff⟩
    · rintro ⟨-, -, window', hasked', hoff⟩
      rwa [asked_unique hasked hasked']
  · refine iff_of_false hstatus ?_
    rintro ⟨hgui, hlibrary, window, hasked, -⟩
    exact hnone ⟨hgui, hlibrary, window, hasked⟩

end

/-! ## What the window is opened with -/

/-- An empty text stands for the program's default. -/
def orElse (text : List Char) (fallback : String) : String :=
  if text = [] then fallback else String.ofList text

/-- The names of a network. -/
def networkNames : Network → List String
  | .mainnet => ["mainnet", "bitcoin", "main"]
  | .testnet => ["testnet", "test", "testnet3", "testnet4"]
  | .signet => ["signet"]
  | .regtest => ["regtest"]

/-- A window that is opened with what the command line, or where that is silent the configuration
file, says. -/
structure AsBooted (defaultNetwork : String) (left : Config) (cmdline : List Char)
    (window : KioskConfig) : Prop where
  network : ∃ text, IsSet cmdline "network".toList left.network text ∧
    orElse text defaultNetwork ∈ networkNames window.network
  dataDir : ∃ text, IsSet cmdline "mount_point".toList left.mountPoint text ∧
    window.dataDir = orElse text "/mnt/data"
  dataLabel : ∃ text, IsSet cmdline "data_label".toList left.dataLabel text ∧
    window.dataLabel = orElse text "PSBT_DATA"
  writeFinalTx : window.writeFinalTx = true ↔
    IsSet cmdline "write_final_tx".toList left.writeFinalTx ['1']

theorem networkFromString_eq_some_iff {text : String} {network : Network} :
    SelfTest.networkFromString text = some network ↔ text ∈ networkNames network := by
  unfold SelfTest.networkFromString
  cases network
  all_goals
    simp only [networkNames, List.mem_cons, List.not_mem_nil, or_false]
    split_ifs
    all_goals grind

theorem envOr_of_some {env : String → Option String} {name : String} {text : List Char}
    (fallback : String) (h : env name = some (String.ofList text)) :
    envOr env name fallback = orElse text fallback := by
  rw [envOr, h, orElse]
  dsimp only
  simp only [String.isEmpty_iff, String.ofList_eq_empty_iff]

theorem orElse_zero_beq_one (text : List Char) :
    (orElse text "0" == "1") = true ↔ text = ['1'] := by
  rw [beq_iff_eq, orElse]
  split
  · next h => simp [h]
  · exact String.ofList_eq

theorem asked_environment (cfg : Config) (inherited : String → Option String)
    {defaultNetwork : String} {window : KioskConfig} :
    Asked defaultNetwork (environment cfg inherited) window ↔
      orElse cfg.network defaultNetwork ∈ networkNames window.network ∧
        window.dataDir = orElse cfg.mountPoint "/mnt/data" ∧
        window.dataLabel = orElse cfg.dataLabel "PSBT_DATA" ∧
        (window.writeFinalTx = true ↔ cfg.writeFinalTx = ['1']) := by
  have hnetwork : environment cfg inherited "SIGNEROS_NETWORK" = some (String.ofList cfg.network) :=
    if_pos rfl
  have hdataDir : environment cfg inherited "SIGNEROS_DATA_DIR" =
      some (String.ofList cfg.mountPoint) := by simp [environment]
  have hdataLabel : environment cfg inherited "SIGNEROS_DATA_LABEL" =
      some (String.ofList cfg.dataLabel) := by simp [environment]
  have hwriteFinalTx : environment cfg inherited "SIGNEROS_WRITE_FINAL_TX" =
      some (String.ofList cfg.writeFinalTx) := by simp [environment]
  rw [← orElse_zero_beq_one, ← Bool.eq_iff_iff]
  constructor
  · rintro ⟨h₁, h₂, h₃, h₄⟩
    rw [envOr_of_some _ hnetwork, networkFromString_eq_some_iff] at h₁
    rw [envOr_of_some _ hdataDir] at h₂
    rw [envOr_of_some _ hdataLabel] at h₃
    rw [envOr_of_some _ hwriteFinalTx] at h₄
    exact ⟨h₁, h₂, h₃, h₄⟩
  · rintro ⟨h₁, h₂, h₃, h₄⟩
    rw [← networkFromString_eq_some_iff, ← envOr_of_some _ hnetwork] at h₁
    rw [← envOr_of_some _ hdataDir] at h₂
    rw [← envOr_of_some _ hdataLabel] at h₃
    rw [← envOr_of_some _ hwriteFinalTx] at h₄
    exact ⟨h₁, h₂, h₃, h₄⟩

section
variable {conf : Config → Config} {cmdline : List Char} {inherited : String → Option String}
  {defaultNetwork : String} {window : KioskConfig}

/-- What the supervisor exports is what the machine was booted with. -/
theorem asked_iff_asBooted :
    Asked defaultNetwork (environment (loadConfig conf cmdline) inherited) window ↔
      AsBooted defaultNetwork (conf {}) cmdline window := by
  rw [asked_environment]
  constructor
  · rintro ⟨hnetwork, hdataDir, hdataLabel, hwriteFinalTx⟩
    exact ⟨⟨_, isSet_cmdlineGet _ _ _, hnetwork⟩, ⟨_, isSet_cmdlineGet _ _ _, hdataDir⟩,
      ⟨_, isSet_cmdlineGet _ _ _, hdataLabel⟩, hwriteFinalTx.trans cmdlineGet_eq_iff⟩
  · rintro ⟨⟨network, hnetwork, hnames⟩, ⟨dataDir, hdataDir, hdir⟩, ⟨dataLabel, hdataLabel, hlabel⟩,
      hwriteFinalTx⟩
    rw [← cmdlineGet_eq_iff] at hnetwork hdataDir hdataLabel hwriteFinalTx
    subst hnetwork hdataDir hdataLabel
    exact ⟨hnames, hdir, hlabel, hwriteFinalTx⟩

end

/-! ## The whole session -/

def Run.Rapid (r : Run) : Prop := r.stopped - r.started < rapidSecs

/-- A window is opened in this run, and asks for the machine to be switched off. -/
def AsksPoweroff (gui : Bool) (defaultNetwork : String) (left : Config) (cmdline : List Char)
    (r : Run) : Prop :=
  gui = true ∧ r.outside.wallyInit = true ∧
    ∃ window, AsBooted defaultNetwork left cmdline window ∧ r.exec window = exitPoweroff

/-- Five runs in a row have failed on `linuxfb`. -/
def KeptFailing (platform : Platform) (rs : List Run) : Prop :=
  EndsIn (fun rs => platform = .eglfs → ∃ r ∈ rs, r.Rapid) Run.Rapid maxRapidFailures rs

section
variable (w : Wally) (lib : Bip39) (sha512 : Bytes → Digest)
  (hmac : Digest → Bytes → Option Digest) (gui : Bool) (defaultNetwork : String)

/-- What a run comes to for the supervisor. The platform makes no difference. -/
def exitOf (env : String → Option String) (r : Run) : Exit :=
  ⟨(runKiosk w lib sha512 hmac gui defaultNetwork env .linuxfb r).status, r.started, r.stopped⟩

theorem runKiosk_platform (env : String → Option String) (platform : Platform) (r : Run) :
    runKiosk w lib sha512 hmac gui defaultNetwork env platform r =
      runKiosk w lib sha512 hmac gui defaultNetwork env .linuxfb r := by
  simp only [runKiosk, main, parseArgs_platform]

/-- The loop of the supervisor, over what the runs come to. -/
theorem outcome_supervise (env : String → Option String) (s : Supervisor) (rs : List Run) :
    (supervise w lib sha512 hmac gui defaultNetwork env s rs).outcome =
      (loop s (rs.map (exitOf w lib sha512 hmac gui defaultNetwork env))).2 := by
  induction rs generalizing s with
  | nil => rfl
  | cons r rs ih =>
    rw [supervise, List.map_cons, loop, exitOf, runKiosk_platform]
    dsimp only
    generalize turn s _ = result
    obtain ⟨done, outcome⟩ := result
    cases outcome with
    | running s' => exact ih s'
    | poweroff => rfl
    | gaveUp => rfl

/-- Whenever it is started again, it is asked for the same. -/
theorem windows_supervise {env : String → Option String} {s : Supervisor} {rs : List Run}
    {window : KioskConfig}
    (h : window ∈ (supervise w lib sha512 hmac gui defaultNetwork env s rs).windows) :
    gui = true ∧ Asked defaultNetwork env window := by
  have hone : ∀ {s : Supervisor} {r : Run}, window ∈
      (runKiosk w lib sha512 hmac gui defaultNetwork env s.platform r).window.toList →
        gui = true ∧ Asked defaultNetwork env window := by
    intro s r hmem
    obtain ⟨window', hwindow, -, hgui, -, hasked⟩ | ⟨hnone, -⟩ :=
      runKiosk_spec w lib sha512 hmac gui defaultNetwork env s.platform r
    · rw [hwindow] at hmem
      obtain rfl := List.mem_singleton.mp hmem
      exact ⟨hgui, hasked⟩
    · rw [hnone] at hmem
      exact absurd hmem List.not_mem_nil
  induction rs generalizing s with
  | nil => exact absurd h List.not_mem_nil
  | cons r rs ih =>
    rw [supervise] at h
    dsimp only at h
    generalize turn s _ = result at h
    obtain ⟨done, outcome⟩ := result
    cases outcome with
    | running s' => exact (List.mem_append.mp h).elim hone ih
    | poweroff => exact hone h
    | gaveUp => exact hone h

section
variable {conf : Config → Config} {cmdline : List Char} {inherited : String → Option String}

theorem status_exitOf_iff {r : Run} :
    (exitOf w lib sha512 hmac gui defaultNetwork (environment (loadConfig conf cmdline) inherited)
        r).status = exitPoweroff ↔
      AsksPoweroff gui defaultNetwork (conf {}) cmdline r := by
  rw [exitOf, AsksPoweroff, runKiosk_status_iff]
  simp only [asked_iff_asBooted]

theorem failed_map_iff {platform : Platform} {env : String → Option String} {rs : List Run} :
    Failed platform (rs.map (exitOf w lib sha512 hmac gui defaultNetwork env)) ↔
      KeptFailing platform rs := by
  have hsettled : (fun rs => Settled platform
      (List.map (exitOf w lib sha512 hmac gui defaultNetwork env) rs)) =
        fun rs => platform = .eglfs → ∃ r ∈ rs, r.Rapid := by
    funext rs
    simp only [Settled, List.mem_map, exists_exists_and_eq_and]
    rfl
  rw [Failed, endsIn_map, hsettled]
  exact Iff.rfl

theorem survived_map_iff {platform : Platform} {rs : List Run} :
    Survived platform (rs.map (exitOf w lib sha512 hmac gui defaultNetwork
        (environment (loadConfig conf cmdline) inherited))) ↔
      (∀ r ∈ rs, ¬ AsksPoweroff gui defaultNetwork (conf {}) cmdline r) ∧
        ∀ pre, pre <+: rs → ¬ KeptFailing platform pre := by
  rw [Survived, List.forall_mem_map]
  simp only [ne_eq, status_exitOf_iff, List.prefix_map_iff]
  refine and_congr_right fun _ => ⟨fun h pre hpre => ?_, ?_⟩
  · rw [← failed_map_iff w lib sha512 hmac gui defaultNetwork]
    exact h _ ⟨pre, hpre, rfl⟩
  · rintro h _ ⟨pre, hpre, rfl⟩
    rw [failed_map_iff]
    exact h pre hpre

end

/-- Every window of a session is opened with what the machine was booted with. The session ends in
switching off with the first window that asks for it, and in giving up where five runs in a row
have failed before. -/
theorem session_as_booted (conf : Config → Config) (cmdline : List Char)
    (inherited : String → Option String) (exist : String → Bool) (rs : List Run) :
    let session := bootedSession w lib sha512 hmac gui defaultNetwork conf cmdline inherited exist rs
    let Asks := AsksPoweroff gui defaultNetwork (conf {}) cmdline
    (∀ window ∈ session.windows, gui = true ∧ AsBooted defaultNetwork (conf {}) cmdline window) ∧
    ∃ qpa, IsSet cmdline "qpa".toList (conf {}).qpa qpa ∧
      (session.outcome = .poweroff ↔ ∃ pre r post, rs = pre ++ r :: post ∧ Asks r ∧
        (∀ r ∈ pre, ¬ Asks r) ∧
          ∀ pre', pre' <+: pre → ¬ KeptFailing (pickQpa exist (String.ofList qpa)) pre') ∧
      (session.outcome = .gaveUp ↔ ∃ pre post, rs = pre ++ post ∧ (∀ r ∈ pre, ¬ Asks r) ∧
        KeptFailing (pickQpa exist (String.ofList qpa)) pre) := by
  refine ⟨fun window hwindow => ?_, _, isSet_cmdlineGet _ _ _, ?_, ?_⟩
  · obtain ⟨hgui, hasked⟩ := windows_supervise w lib sha512 hmac gui defaultNetwork hwindow
    exact ⟨hgui, asked_iff_asBooted.mp hasked⟩
  · rw [bootedSession, outcome_supervise, (loop_exact _ _).1]
    constructor
    · rintro ⟨pre, e, post, hrs, hoff, hpre⟩
      obtain ⟨rs₁, rs', rfl, rfl, hrest⟩ := List.map_eq_append_iff.mp hrs
      obtain ⟨r, rs₂, rfl, rfl, rfl⟩ := List.map_eq_cons_iff.mp hrest
      exact ⟨rs₁, r, rs₂, rfl, (status_exitOf_iff ..).mp hoff, (survived_map_iff ..).mp hpre⟩
    · rintro ⟨pre, r, post, rfl, hoff, hpre⟩
      exact ⟨_, _, _, by rw [List.map_append, List.map_cons], (status_exitOf_iff ..).mpr hoff,
        (survived_map_iff ..).mpr hpre⟩
  · rw [bootedSession, outcome_supervise, (loop_exact _ _).2.1]
    constructor
    · rintro ⟨pre, post, hrs, hon, hfailed⟩
      obtain ⟨rs₁, rs₂, rfl, rfl, rfl⟩ := List.map_eq_append_iff.mp hrs
      refine ⟨rs₁, rs₂, rfl, fun r hr hoff => ?_, (failed_map_iff ..).mp hfailed⟩
      exact hon _ (List.mem_map_of_mem hr) ((status_exitOf_iff ..).mpr hoff)
    · rintro ⟨pre, post, rfl, hon, hfailed⟩
      refine ⟨_, _, List.map_append, ?_, (failed_map_iff ..).mpr hfailed⟩
      exact List.forall_mem_map.mpr fun r hr hoff => hon r hr ((status_exitOf_iff ..).mp hoff)

end

end SignerOS.Kiosk
