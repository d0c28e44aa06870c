import SignerOS.SelfTestOutcome
import SignerOS.SignerSession

/-!
# The program

`main` of the kiosk: what the environment and the command line ask for, the window that is opened and
the status it ends with.

The event loop of the window is a parameter. Input devices, fonts and the theme are left out, and so
are the texts of `--help` and `--version`.
-/

namespace SignerOS.Kiosk

open SelfTest (SelfTestOptions networkFromString initLibrary runSelfTest)

/-! ## The command line -/

/-- `envOr`. -/
def envOr (env : String → Option String) (name fallback : String) : String :=
  match env name with
  | some v => if v.isEmpty then fallback else v
  | none => fallback

structure Options where
  st : SelfTestOptions
  selfTest : Bool
  writeFinalTx : Bool
deriving DecidableEq, Repr

def flags : List String := ["--self-test", "--write-final-tx", "--discard-output"]

def setFlag (o : Options) (a : String) : Options :=
  if a = "--self-test" then { o with selfTest := true }
  else if a = "--write-final-tx" then { o with writeFinalTx := true }
  else if a = "--discard-output" then { o with st := { o.st with keepOutput := false } }
  else o

/-- The options that take the next argument, whatever it is. -/
def valued : List String :=
  ["--psbt", "--mnemonic-file", "--expect-blocked", "--data-dir", "--network"]

def setValue (o : Options) (a value : String) : Options :=
  if a = "--psbt" then { o with st := { o.st with psbtPath := value } }
  else if a = "--mnemonic-file" then { o with st := { o.st with mnemonicFile := value } }
  else if a = "--expect-blocked" then { o with st := { o.st with blockedPsbtPath := value } }
  else if a = "--data-dir" then { o with st := { o.st with dataDir := value } }
  else if a = "--network" then { o with st := { o.st with network := value } }
  else o

inductive Parsed
  | run (o : Options)
  | usage
  | version
  | needsValue (what : String)
deriving DecidableEq, Repr

/-- The loop over `argv`. -/
def parseArgs (o : Options) : List String → Parsed
  | [] => .run o
  | a :: rest =>
    if a ∈ flags then parseArgs (setFlag o a) rest
    else if a ∈ valued then
      match rest with
      | value :: rest => parseArgs (setValue o a value) rest
      | [] => .needsValue a
    else if a = "--help" ∨ a = "-h" then .usage
    else if a = "--version" then .version
    -- what is left is for Qt
    else parseArgs o rest

/-- What the loop starts from. -/
def defaults (env : String → Option String) (defaultNetwork : String) : Options where
  st := { dataDir := envOr env "SIGNEROS_DATA_DIR" "/mnt/data"
          network := envOr env "SIGNEROS_NETWORK" defaultNetwork }
  selfTest := false
  writeFinalTx := envOr env "SIGNEROS_WRITE_FINAL_TX" "0" == "1"

/-! ## `main` -/

/-- What the window is opened with. -/
structure KioskConfig where
  network : Network
  dataDir : String
  dataLabel : String
  writeFinalTx : Bool
deriving DecidableEq, Repr

structure Ended where
  status : UInt8
  err : List String := []
  /-- The window that was opened. -/
  window : Option KioskConfig := none

section
variable (w : Wally) (lib : Bip39) (sha512 : Bytes → Digest)
  (hmac : Digest → Bytes → Option Digest) (o : SelfTest.Outside) (files : Files.Disk Char)

/-- The self-test, as a program. -/
def selfTestStatus (st : SelfTestOptions) : UInt8 :=
  match (runSelfTest w lib sha512 hmac st o files).1 with
  | .ok () => 0
  | .error _ => 1

/-- `main`, on the arguments behind the program's name. -/
def main (gui : Bool) (defaultNetwork : String) (exec : KioskConfig → UInt8)
    (env : String → Option String) (args : List String) : Ended :=
  match parseArgs (defaults env defaultNetwork) args with
  | .usage | .version => { status := 0 }
  | .needsValue what => { status := 2, err := ["signer: " ++ what ++ " needs a value"] }
  | .run opts =>
    let st := { opts.st with writeFinalTx := opts.writeFinalTx }
    if opts.selfTest then { status := selfTestStatus w lib sha512 hmac o files st }
    else if !gui then
      { status := 2
        err := ["signer: this build has no user interface "
          ++ "(configured with -DSIGNEROS_BUILD_GUI=OFF).", "        Use --self-test."] }
    else
      match networkFromString st.network with
      | none => { status := 2, err := ["signer: unknown network '" ++ st.network ++ "'"] }
      | some network =>
        match initLibrary o with
        | none => { status := 3, err := ["signer: libwally-core failed to initialise"] }
        | some warning =>
          let cfg : KioskConfig :=
            { network
              dataDir := st.dataDir
              dataLabel := envOr env "SIGNEROS_DATA_LABEL" "PSBT_DATA"
              writeFinalTx := opts.writeFinalTx }
          { status := exec cfg
            err := if warning.isEmpty then [] else ["signer: " ++ warning]
            window := some cfg }

end

/-! ## What is read -/

/-- An argument, or an option with its value. -/
inductive Item
  | flag (a : String) (h : a ∈ flags)
  | value (a v : String) (h : a ∈ valued)
  | other (a : String) (h : a ∉ flags ++ valued ++ ["--help", "-h", "--version"])

def Item.args : Item → List String
  | .flag a _ => [a]
  | .value a v _ => [a, v]
  | .other a _ => [a]

def Item.set (o : Options) : Item → Options
  | .flag a _ => setFlag o a
  | .value a v _ => setValue o a v
  | .other _ _ => o

theorem not_flag_of_valued {a : String} (h : a ∈ valued) : a ∉ flags := by
  have hall : ∀ b ∈ valued, b ∉ flags := by decide
  exact hall a h

section
variable {o : Options} {a : String} {rest : List String}

theorem parseArgs_flag (h : a ∈ flags) :
    parseArgs o (a :: rest) = parseArgs (setFlag o a) rest := by
  rw [parseArgs.eq_def]
  exact if_pos h

theorem parseArgs_value (v : String) (h : a ∈ valued) :
    parseArgs o (a :: v :: rest) = parseArgs (setValue o a v) rest := by
  rw [parseArgs.eq_def]
  dsimp only
  rw [if_neg (not_flag_of_valued h), if_pos h]

theorem parseArgs_other (h : a ∉ flags ++ valued ++ ["--help", "-h", "--version"]) :
    parseArgs o (a :: rest) = parseArgs o rest := by
  simp only [List.mem_append, List.mem_cons, List.not_mem_nil, or_false, not_or] at h
  rw [parseArgs.eq_def]
  dsimp only
  rw [if_neg h.1.1, if_neg h.1.2, if_neg (by tauto), if_neg h.2.2.2]

theorem parseArgs_help (h : a = "--help" ∨ a = "-h") : parseArgs o (a :: rest) = .usage := by
  have hplain : a ∉ flags ∧ a ∉ valued := by
    obtain rfl | rfl := h <;> decide
  rw [parseArgs.eq_def]
  dsimp only
  rw [if_neg hplain.1, if_neg hplain.2, if_pos h]

theorem parseArgs_version : parseArgs o ("--version" :: rest) = .version := by
  rw [parseArgs.eq_def]
  dsimp only
  rw [if_neg (by decide), if_neg (by decide), if_neg (by decide), if_pos rfl]

theorem parseArgs_missing (h : a ∈ valued) : parseArgs o [a] = .needsValue a := by
  rw [parseArgs.eq_def]
  dsimp only
  rw [if_neg (not_flag_of_valued h), if_pos h]

end

/-- Items are read one after another, each in its place. -/
theorem parseArgs_items (o : Options) (items : List Item) (rest : List String) :
    parseArgs o (items.flatMap Item.args ++ rest) =
      parseArgs (items.foldl Item.set o) rest := by
  induction items generalizing o with
  | nil => rfl
  | cons item items ih =>
    rw [List.flatMap_cons, List.append_assoc, List.foldl_cons, ← ih]
    cases item with
    | flag a h => exact parseArgs_flag h
    | value a v h => exact parseArgs_value v h
    | other a h => exact parseArgs_other h

/-- What a command line comes to. -/
inductive Reads (o : Options) (args : List String) : Parsed → Prop
  | run (items : List Item) (h : args = items.flatMap Item.args) :
    Reads o args (.run (items.foldl Item.set o))
  | usage (items : List Item) (a : String) (rest : List String)
    (h : args = items.flatMap Item.args ++ a :: rest) (ha : a = "--help" ∨ a = "-h") :
    Reads o args .usage
  | version (items : List Item) (rest : List String)
    (h : args = items.flatMap Item.args ++ "--version" :: rest) : Reads o args .version
  | needsValue (items : List Item) (what : String)
    (h : args = items.flatMap Item.args ++ [what]) (hwhat : what ∈ valued) :
    Reads o args (.needsValue what)

theorem Reads.cons {o : Options} {args : List String} {p : Parsed} (item : Item)
    (h : Reads (item.set o) args p) : Reads o (item.args ++ args) p := by
  cases h with
  | run items h => exact .run (item :: items) (by rw [h, List.flatMap_cons])
  | usage items a rest h ha =>
    exact .usage (item :: items) a rest (by rw [h, List.flatMap_cons, List.append_assoc]) ha
  | version items rest h =>
    exact .version (item :: items) rest (by rw [h, List.flatMap_cons, List.append_assoc])
  | needsValue items what h hwhat =>
    exact .needsValue (item :: items) what (by rw [h, List.flatMap_cons, List.append_assoc]) hwhat

/-- Every command line is items, up to an end if it comes to one. -/
theorem reads_parseArgs (o : Options) (args : List String) : Reads o args (parseArgs o args) := by
  fun_induction parseArgs o args with
  | case1 o => exact .run [] rfl
  | case2 o a rest h ih => exact .cons (.flag a h) ih
  | case3 o a hflag h v rest ih => exact .cons (.value a v h) ih
  | case4 o a hflag h => exact .needsValue [] a rfl h
  | case5 o a rest hflag hvalue h => exact .usage [] a rest rfl h
  | case6 o rest hflag hvalue hhelp => exact .version [] rest rfl
  | case7 o a rest hflag hvalue hhelp hversion ih =>
    have h : a ∉ flags ++ valued ++ ["--help", "-h", "--version"] := by
      simp only [List.mem_append, List.mem_cons, List.not_mem_nil, or_false, not_or]
      tauto
    exact .cons (.other a h) ih

/-- The loop finds what a command line comes to, and there is only one reading of it. -/
theorem parseArgs_eq_iff (o : Options) (args : List String) (p : Parsed) :
    parseArgs o args = p ↔ Reads o args p := by
  constructor
  · rintro rfl
    exact reads_parseArgs o args
  · intro h
    cases h with
    | run items h =>
      have hread := parseArgs_items o items []
      rwa [List.append_nil, ← h] at hread
    | usage items a rest h ha => rw [h, parseArgs_items, parseArgs_help ha]
    | version items rest h =>
      rw [h, parseArgs_items, parseArgs_version]
    | needsValue items what h hwhat => rw [h, parseArgs_items, parseArgs_missing hwhat]

end SignerOS.Kiosk
