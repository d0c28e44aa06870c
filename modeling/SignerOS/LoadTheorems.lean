import SignerOS.Session

/-!
# What `load` leaves

`load` as `Engine` has it returns the engine it ends with. In the source it gets there in steps:
`unload`, the names, two parse calls that write `psbt_` whatever they return, and assignments that
take back what an exit must not leave. `loadInPlace` takes these steps one by one.

* `loadInPlace_eq`, that nothing of what is written on the way survives a failure;
* `load_replaces_all`, what the outcome of `load` depends on.
-/

namespace SignerOS

namespace PsbtEngine

variable (w : Wally)

/-! ## `load`, assignment by assignment -/

/-- What a parse call that fails leaves behind the pointer it is given. -/
abbrev Leavings := ParseFlag → Option Psbt

/-- `wally_psbt_from_bytes(data, len, flag, &psbt_)` or `wally_psbt_from_base64`: whether it
returns `WALLY_OK`, and the engine it has written to. -/
def parseCall (parser : ParseFlag → Option Psbt) (left : Leavings) (flag : ParseFlag)
    (e : PsbtEngine) : Bool × PsbtEngine :=
  match parser flag with
  | some psbt => (true, { e with psbt := some psbt })
  | none => (false, { e with psbt := left flag })

/-- The strict call and the loose retry: the last return code, `wasLoose` and the engine. -/
def parseCalls (parser : ParseFlag → Option Psbt) (left : Leavings) (e : PsbtEngine) :
    Bool × Bool × PsbtEngine :=
  let (ok, e) := parseCall parser left .strict e
  if ok then (true, false, e)
  else
    let (ok, e) := parseCall parser left .permissive e
    (ok, ok, e)

/-- The part of `parse` before its calls of libwally: which parser they go to. -/
def chooseParser (data : Bytes) : Except String (ParseFlag → Option Psbt) :=
  if kMagic <+: data then .ok (w.psbtFromBytes data)
  else
    let b64 := data.filter fun c => !isBase64Blank c
    if !b64.all isBase64Char then
      .error ("this file is neither a binary PSBT (it does not start "
        ++ "with the psbt magic) nor base64 text")
    else if b64.isEmpty then .error "the file contains no PSBT data"
    else .ok (w.psbtFromBase64 (String.ofList (b64.map fun c => Char.ofNat c.toNat)))

/-- `parse`, writing to the members. -/
def parseInPlace (left : Leavings) (data : Bytes) (e : PsbtEngine) :
    Except String Unit × PsbtEngine :=
  match chooseParser w data with
  | .error err => (.error err, e)
  | .ok parser =>
    let (ok, wasLoose, e) := parseCalls parser left e
    match ok, e.psbt with
    | true, some psbt =>
      match w.psbtIsElements psbt with
      | some (_ + 1) =>
        (.error ("this is an Elements/Liquid PSET, not a Bitcoin PSBT. "
          ++ "SignerOS does not sign confidential transactions."), { e with psbt := none })
      | _ => (.ok (), { e with looseParse := wasLoose })
    | _, _ =>
      (.error "libwally could not parse this as a BIP174/BIP370 PSBT", { e with psbt := none })

/-- `load`, writing to the members. -/
def loadInPlace (left : Leavings) (slot : KeySlot) (e : PsbtEngine) (path : String)
    (file : FileNode) : Except String Unit × PsbtEngine :=
  let e := e.unload
  match readFileCapped path kMaxPsbtBytes file with
  | .error err => (.error err, e)
  | .ok raw =>
    if raw.isEmpty then (.error "the file is empty", e)
    else
      let e := { e with sourcePath := path, sourceName := baseName path }
      match parseInPlace w left raw e with
      | (.error err, e) => (.error err, { e with sourcePath := "", sourceName := "" })
      | (.ok (), e) => (.ok (), resummarise w slot e)

section
variable {w}

theorem parseForm_eq (data : Bytes) :
    parseForm w data = (chooseParser w data).map strictThenLoose := by
  unfold parseForm chooseParser
  dsimp only
  split_ifs <;> rfl

/-- The engine after the two calls, whatever they write on the way. -/
theorem parseCalls_eq (parser : ParseFlag → Option Psbt) (left : Leavings) (e : PsbtEngine) :
    parseCalls parser left e =
      match strictThenLoose parser with
      | some (psbt, wasLoose) => (true, wasLoose, { e with psbt := some psbt })
      | none => (false, false, { e with psbt := left .permissive }) := by
  unfold parseCalls parseCall strictThenLoose
  cases parser .strict with
  | some psbt => rfl
  | none => cases parser .permissive <;> rfl

/-- On an engine without a PSBT `parse` writes the one it parses, or nothing. -/
theorem parseInPlace_eq (left : Leavings) (data : Bytes) {e : PsbtEngine} (h : e.psbt = none) :
    parseInPlace w left data e =
      match parse w data with
      | .error err => (.error err, e)
      | .ok (psbt, wasLoose) => (.ok (), { e with psbt := some psbt, looseParse := wasLoose }) := by
  have hnone : { e with psbt := none } = e := by rw [← h]
  unfold parseInPlace parse
  rw [parseForm_eq]
  cases chooseParser w data with
  | error err => rfl
  | ok parser =>
    dsimp only [Except.map]
    rw [parseCalls_eq]
    cases strictThenLoose parser with
    | none =>
      dsimp only
      rw [hnone]
    | some parsed =>
      obtain ⟨psbt, wasLoose⟩ := parsed
      dsimp only
      rcases w.psbtIsElements psbt with _ | _ | _
      · rfl
      · rfl
      · dsimp only
        rw [hnone]

/-- What is written on the way to a failure is taken back. -/
theorem loadInPlace_eq (left : Leavings) (slot : KeySlot) (e : PsbtEngine) (path : String)
    (file : FileNode) : loadInPlace w left slot e path file = load w slot e path file := by
  unfold loadInPlace load
  dsimp only
  cases readFileCapped path kMaxPsbtBytes file with
  | error err => rfl
  | ok raw =>
    dsimp only
    split
    · rfl
    · rw [parseInPlace_eq left raw rfl]
      cases parse w raw <;> rfl

/-! ## What the outcome depends on -/

/-- A summary is made of the key a slot holds, and of nothing else in it. -/
theorem summarise_congr_resident {slot slot' : KeySlot} (h : slot'.resident = slot.resident)
    (network : Network) (loose : Bool) (psbt : Psbt) :
    summarise w network loose slot' psbt = summarise w network loose slot psbt := by
  cases hkey : slot.resident with
  | some key =>
    rw [SecureObject.eq_hold_of_resident hkey, SecureObject.eq_hold_of_resident (h.trans hkey)]
  | none =>
    have hvalid := SecureObject.resident_eq_none.mp hkey
    have hvalid' := SecureObject.resident_eq_none.mp (h.trans hkey)
    simp only [summarise, deriveFindings, checks, evaluateSignability, hkey, h.trans hkey, hvalid,
      hvalid', Bool.false_eq_true, if_false]

/-- Whether `load` succeeds, and the engine it leaves. -/
def outcome (result : Except String Unit × PsbtEngine) : Bool × PsbtEngine :=
  (result.1.isOk, result.2)

/-- What remains of a file that is not the binary form. -/
def stripped (data : Bytes) : Bytes := data.filter fun c => !isBase64Blank c

theorem parse_congr {data data' : Bytes} (hform : ¬ kMagic <+: data) (hform' : ¬ kMagic <+: data')
    (h : stripped data = stripped data') : parse w data = parse w data' := by
  unfold stripped at h
  rw [parse, parse, parseForm, parseForm, if_neg hform, if_neg hform', h]

theorem parse_of_stripped_nil {data : Bytes} (hform : ¬ kMagic <+: data)
    (h : stripped data = []) : ∃ err, parse w data = .error err := by
  unfold stripped at h
  refine ⟨"the file contains no PSBT data", ?_⟩
  rw [parse, parseForm, if_neg hform, h]
  rfl

/-- The file is read whatever path it is found under. -/
theorem readFileCapped_congr_path {path : String} {file : FileNode} {cap : ℕ} {raw : Bytes}
    (path' : String) (h : readFileCapped path cap file = .ok raw) :
    readFileCapped path' cap file = .ok raw := by
  cases file with
  | missing | unstatable | notRegular => cases h
  | regular stSize reads =>
    rw [readFileCapped] at h ⊢
    by_cases hcap : cap < stSize
    · rw [if_pos hcap] at h
      cases h
    · rw [if_neg hcap] at h ⊢
      cases hloop : readLoop stSize [] reads with
      | none =>
        rw [hloop] at h
        cases h
      | some bytes =>
        rw [hloop] at h
        exact h

section
variable {slot : KeySlot} {e : PsbtEngine} {path : String} {file : FileNode}

theorem load_of_read {raw : Bytes} (hread : readFileCapped path kMaxPsbtBytes file = .ok raw) :
    load w slot e path file =
      if raw = [] then (.error "the file is empty", e.unload)
      else
        match parse w raw with
        | .error err => (.error err, e.unload)
        | .ok (psbt, loose) => (.ok (), e.loaded w slot path psbt loose) := by
  unfold load
  rw [hread]
  dsimp only
  simp only [List.isEmpty_iff]
  rfl

theorem load_of_parse {raw : Bytes} {psbt : Psbt} {loose : Bool}
    (hread : readFileCapped path kMaxPsbtBytes file = .ok raw) (hne : raw ≠ [])
    (hparse : parse w raw = .ok (psbt, loose)) :
    load w slot e path file = (.ok (), e.loaded w slot path psbt loose) := by
  rw [load_of_read hread, if_neg hne, hparse]

/-- A load that succeeds has read and parsed the file. -/
theorem parse_of_load (h : (load w slot e path file).1 = .ok ()) :
    ∃ raw psbt loose, readFileCapped path kMaxPsbtBytes file = .ok raw ∧ raw ≠ [] ∧
      parse w raw = .ok (psbt, loose) := by
  unfold load at h
  dsimp only at h
  cases hread : readFileCapped path kMaxPsbtBytes file with
  | error err =>
    rw [hread] at h
    cases h
  | ok raw =>
    rw [hread] at h
    dsimp only at h
    split at h
    · cases h
    · rename_i hne
      cases hparse : parse w raw with
      | error err =>
        rw [hparse] at h
        cases h
      | ok found => exact ⟨raw, found.1, found.2, rfl, by simpa using hne, hparse⟩

theorem unload_of_load_error {err : String} (h : (load w slot e path file).1 = .error err) :
    (load w slot e path file).2 = e.unload := by
  rcases load_cases w e path file with ⟨err', hload⟩ | ⟨psbt, loose, hload⟩
  · rw [hload slot]
  · rw [hload slot] at h
    cases h

/-- Loading the file again, under any path, from any engine for the network, and with the same
key. -/
theorem load_again {slot' : KeySlot} {e' : PsbtEngine} (path' : String)
    (hnetwork : e'.network = e.network) (hkey : slot'.resident = slot.resident)
    (h : (load w slot e path file).1 = .ok ()) :
    (load w slot' e' path' file).1 = .ok () ∧
      (load w slot' e' path' file).2.psbt = (load w slot e path file).2.psbt ∧
      (load w slot' e' path' file).2.summary = (load w slot e path file).2.summary := by
  obtain ⟨raw, psbt, loose, hread, hne, hparse⟩ := parse_of_load h
  rw [load_of_parse hread hne hparse,
    load_of_parse (readFileCapped_congr_path path' hread) hne hparse]
  refine ⟨rfl, rfl, ?_⟩
  show summarise w e'.network loose slot' psbt = summarise w e.network loose slot psbt
  rw [hnetwork, summarise_congr_resident hkey]

/-- An empty file is refused like one in which nothing remains. -/
theorem outcome_of_stripped_nil {raw : Bytes}
    (hread : readFileCapped path kMaxPsbtBytes file = .ok raw) (hform : ¬ kMagic <+: raw)
    (h : stripped raw = []) : outcome (load w slot e path file) = (false, e.unload) := by
  obtain ⟨err, hparse⟩ := parse_of_stripped_nil (w := w) hform h
  rw [load_of_read hread, hparse]
  split <;> rfl

/-- Two files that are not the binary form and agree in what remains of them. -/
theorem load_congr_stripped {file' : FileNode} {raw raw' : Bytes}
    (hread : readFileCapped path kMaxPsbtBytes file = .ok raw)
    (hread' : readFileCapped path kMaxPsbtBytes file' = .ok raw')
    (hform : ¬ kMagic <+: raw) (hform' : ¬ kMagic <+: raw') (h : stripped raw = stripped raw') :
    outcome (load w slot e path file) = outcome (load w slot e path file') ∧
      ((raw = [] ↔ raw' = []) → load w slot e path file = load w slot e path file') := by
  have hparse : parse w raw = parse w raw' := parse_congr hform hform' h
  have hsame : (raw = [] ↔ raw' = []) → load w slot e path file = load w slot e path file' := by
    intro hempty
    rw [load_of_read hread, load_of_read hread', hparse]
    simp only [hempty]
  by_cases hempty : raw = [] ↔ raw' = []
  · exact ⟨congrArg outcome (hsame hempty), hsame⟩
  · -- one of the files is empty, so nothing remains of the other
    have hnil : stripped raw = [] := by
      by_cases hraw : raw = []
      · rw [hraw]
        rfl
      · have hraw' : raw' = [] := by
          by_contra hne
          exact hempty ⟨fun h => absurd h hraw, fun h => absurd h hne⟩
        rw [h, hraw']
        rfl
    refine ⟨?_, hsame⟩
    rw [outcome_of_stripped_nil hread hform hnil,
      outcome_of_stripped_nil hread' hform' (h.symm.trans hnil)]

end

end

end PsbtEngine

open PsbtEngine (loadInPlace outcome stripped)

/-- A load that fails leaves an empty engine, and the key slot as it was. One that succeeds leaves
what it leaves from any other engine for the network, with any slot that holds the same key. And
for a file that could be read and is not the binary form, whether it succeeds and what it leaves
depend on what remains of the bytes; so does the text of the error, an empty file apart. -/
theorem load_replaces_all (w : Wally) (left : PsbtEngine.Leavings) (s : Session) (path : String)
    (file : FileNode) :
    s.step w (.load path file) = ⟨s.slot, (loadInPlace w left s.slot s.engine path file).2⟩ ∧
    (∀ err, (loadInPlace w left s.slot s.engine path file).1 = .error err →
      (loadInPlace w left s.slot s.engine path file).2 =
        { network := s.engine.network, psbt := none, sourcePath := "", sourceName := ""
          summary := {}, looseParse := false }) ∧
    ((loadInPlace w left s.slot s.engine path file).1 = .ok () →
      ∀ (left' : PsbtEngine.Leavings) (s' : Session) (path' : String),
        s'.engine.network = s.engine.network → s'.slot.resident = s.slot.resident →
        (loadInPlace w left' s'.slot s'.engine path' file).1 = .ok () ∧
          (loadInPlace w left' s'.slot s'.engine path' file).2.psbt =
            (loadInPlace w left s.slot s.engine path file).2.psbt ∧
          (loadInPlace w left' s'.slot s'.engine path' file).2.summary =
            (loadInPlace w left s.slot s.engine path file).2.summary) ∧
    (∀ (left' : PsbtEngine.Leavings) (file' : FileNode) (raw raw' : Bytes),
      readFileCapped path kMaxPsbtBytes file = .ok raw →
      readFileCapped path kMaxPsbtBytes file' = .ok raw' →
      ¬ kMagic <+: raw → ¬ kMagic <+: raw' → stripped raw = stripped raw' →
      outcome (loadInPlace w left s.slot s.engine path file) =
          outcome (loadInPlace w left' s.slot s.engine path file') ∧
        ((raw = [] ↔ raw' = []) →
          loadInPlace w left s.slot s.engine path file =
            loadInPlace w left' s.slot s.engine path file')) := by
  simp only [PsbtEngine.loadInPlace_eq]
  refine ⟨rfl, fun err h => PsbtEngine.unload_of_load_error h, fun h _ s' path' hnetwork hkey => ?_,
    fun _ file' raw raw' hread hread' hform hform' h => ?_⟩
  · exact PsbtEngine.load_again path' hnetwork hkey h
  · exact PsbtEngine.load_congr_stripped hread hread' hform hform' h

/-! ### A padded file

A file over the limit is refused unread, also when all it has too much is line ends. -/

def shortFile : Bytes := [0x41, 0x41, 0x41, 0x41]

def paddedFile : Bytes := shortFile ++ List.replicate kMaxPsbtBytes 0x0a

/-- A library that parses every text. -/
def parsingLibrary : Wally :=
  { Wally.failing with
    psbtFromBase64 := fun _ _ =>
      some { version := 0, tx := none, inputs := [], outputs := [] } }

theorem stripped_paddedFile : stripped paddedFile = stripped shortFile := by
  have hblank : stripped (List.replicate kMaxPsbtBytes 0x0a) = [] :=
    List.filter_replicate_of_neg (by decide)
  rw [stripped, paddedFile, List.filter_append]
  change stripped shortFile ++ stripped (List.replicate kMaxPsbtBytes 0x0a) = _
  rw [hblank, List.append_nil]

theorem padded_file_refused :
    ¬ ∀ (w : Wally) (left : PsbtEngine.Leavings) (s : Session) (path : String) (raw raw' : Bytes),
      ¬ kMagic <+: raw → ¬ kMagic <+: raw' → stripped raw = stripped raw' →
      outcome (loadInPlace w left s.slot s.engine path (.regular raw.length [.data raw])) =
        outcome (loadInPlace w left s.slot s.engine path (.regular raw'.length [.data raw'])) := by
  intro h
  have hform : ¬ kMagic <+: paddedFile := by
    intro hprefix
    rw [paddedFile, shortFile, kMagic, List.cons_append, List.cons_prefix_cons] at hprefix
    exact absurd hprefix.1 (by decide)
  have hlength : paddedFile.length = kMaxPsbtBytes + 4 := by
    rw [paddedFile, List.length_append, List.length_replicate]
    rfl
  have hsame := congrArg Prod.fst (h parsingLibrary (fun _ => none) (Session.start .mainnet)
    "/data/p.psbt" shortFile paddedFile (by decide) hform stripped_paddedFile.symm)
  have hshort : (outcome (loadInPlace parsingLibrary (fun _ => none)
      (Session.start .mainnet).slot (Session.start .mainnet).engine "/data/p.psbt"
      (.regular shortFile.length [.data shortFile]))).1 = true := by
    decide
  have hlong : (outcome (loadInPlace parsingLibrary (fun _ => none)
      (Session.start .mainnet).slot (Session.start .mainnet).engine "/data/p.psbt"
      (.regular paddedFile.length [.data paddedFile]))).1 = false := by
    rw [hlength, loadInPlace, readFileCapped, if_pos (by omega)]
    rfl
  rw [hshort, hlong] at hsame
  exact absurd hsame (by decide)

end SignerOS
