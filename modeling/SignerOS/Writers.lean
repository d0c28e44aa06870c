import SignerOS.WalletExport

/-!
# The two writers

`PsbtEngine::writeResult` and `writeWalletExport`: everything the program leaves on the data
partition. Both create their file exclusively and fill it with a loop of `write` calls; what
the operating system does at each step is an argument.
-/

namespace SignerOS

open Files (Disk Attempt Created)

/-- `proposedResultName`. -/
def proposedResultName (files : Disk Char) (clock : Clock) (dir : String) : String :=
  freeFileName files dir ("signed_" ++ (fileTimestamp clock).1) ".psbt"

/-- `proposedWalletExportName`. -/
def proposedWalletExportName (files : Disk Char) (clock : Clock) (we : WalletExport)
    (dir : String) : String :=
  freeFileName files dir ("signeros-" ++ we.fingerprint ++ "-" ++ (fileTimestamp clock).1)
    ".descriptors.txt"

/-- The name of the transaction next to a result: the stem, with another extension. -/
def txNameOf (name : String) : String :=
  let chars := name.toList
  let suffix := ".psbt".toList
  if suffix.length < chars.length ∧ suffix <:+ chars then
    String.ofList (chars.take (chars.length - suffix.length)) ++ ".tx"
  else name ++ ".tx"

/-! ## `writeResult` -/

namespace PsbtEngine

/-- What the outside does during one call of `writeResult`: the clock at its two readings,
and the two attempts to write a file. -/
structure WriteEnv where
  clock : Clock
  laterClock : Clock
  psbtFile : Attempt
  txFile : Attempt

/-- What a call of `writeResult` leaves behind. -/
structure WriteOutcome where
  result : Except String Unit
  psbtPath : Option String := none
  txPath : Option String := none
  files : Disk Char
  engine : PsbtEngine

/-- The name a result is written under: what the operator typed, or the proposed one. -/
def resultName (files : Disk Char) (laterClock : Clock) (dir fileName : String) : String :=
  let name := sanitiseFileName fileName ".psbt"
  if name.isEmpty then proposedResultName files laterClock dir else name

/-- The finding `writeResult` adds when the clock is not set. -/
def clockFinding : Finding :=
  ⟨.info, "The hardware clock is not set, so the name offered for this file "
    ++ "was built from uptime rather than a date."⟩

/-- The payload of the result: base64 on one line. -/
def resultPayload (w : Wally) (psbt : Psbt) : Option String :=
  (w.psbtToBase64 psbt).map (· ++ "\n")

/-- The broadcast-ready transaction, when the PSBT is complete: finalised on a clone, then
extracted and printed. -/
def finalTxPayload (w : Wally) (psbt : Psbt) : Option String :=
  (w.psbtClone psbt).bind fun clone =>
    (w.psbtFinalize clone).bind fun clone =>
      match w.psbtIsFinalized clone with
      | some (_ + 1) =>
        (w.psbtExtract clone .final).bind fun tx => (w.txToHex tx).map (· ++ "\n")
      | _ => none

/-- The part of `writeResult` under `if (alsoFinalTx)`: what `*txPath` is set to. -/
def writeTx (w : Wally) (psbt : Psbt) (dir name : String) (os : Attempt) (files : Disk Char) :
    Option String × Disk Char :=
  match finalTxPayload w psbt with
  | none => (none, files)
  | some txHex =>
    let path := pathIn dir (txNameOf name)
    if files.accessible path then (none, files)
    else
      match files.create path txHex.toList os with
      | (.complete, files) => (some path, files)
      | (_, files) => (none, files)

/-- `PsbtEngine::writeResult`. -/
def writeResult (w : Wally) (env : WriteEnv) (files : Disk Char) (e : PsbtEngine)
    (dir fileName : String) (alsoFinalTx : Bool) : WriteOutcome :=
  match e.psbt with
  | none => { result := .error "no PSBT is loaded", files := files, engine := e }
  | some psbt =>
    let name := resultName files env.laterClock dir fileName
    match resultPayload w psbt with
    | none =>
      { result := .error "could not serialise the signed PSBT", files := files, engine := e }
    | some payload =>
      let outPath := pathIn dir name
      if files.accessible outPath then
        { result := .error (name ++ " already exists on the stick. Choose another name.")
          files := files, engine := e }
      else
        match files.create outPath payload.toList env.psbtFile with
        | (.complete, files) =>
          let e :=
            if (fileTimestamp env.clock).2 then
              { e with summary :=
                { e.summary with findings := e.summary.findings ++ [clockFinding] } }
            else e
          let (txPath, files) :=
            if alsoFinalTx then writeTx w psbt dir name env.txFile files else (none, files)
          { result := .ok (), psbtPath := some outPath, txPath := txPath, files := files
            engine := e }
        | (_, files) =>
          { result := .error ("could not write " ++ outPath
              ++ ". Is the data partition present and writable?")
            files := files, engine := e }

end PsbtEngine

/-! ## `writeWalletExport` -/

/-- What a call of `writeWalletExport` leaves behind. -/
structure ExportOutcome where
  result : Except String Unit
  pathOut : Option String := none
  files : Disk Char

/-- The name an export is written under: what the operator typed, or the proposed one. -/
def exportName (files : Disk Char) (laterClock : Clock) (we : WalletExport)
    (dir fileName : String) : String :=
  let name := sanitiseFileName fileName ".txt"
  if name.isEmpty then proposedWalletExportName files laterClock we dir else name

/-- `writeWalletExport`, with the clock at its two readings. -/
def writeWalletExport (clock laterClock : Clock) (os : Attempt) (files : Disk Char)
    (we : WalletExport) (dir fileName : String) : ExportOutcome :=
  if we.accounts.isEmpty then { result := .error "there is nothing to export", files := files }
  else
    let payload := renderWalletExport we (fileTimestamp clock).1
    let name := exportName files laterClock we dir fileName
    let path := pathIn dir name
    match files.create path payload.toList os with
    | (.refused, files) =>
      { result := .error <|
          if (files path).isSome then name ++ " already exists on the stick. Choose another name."
          else "could not create " ++ path ++ ". Is the data partition present and writable?"
        files := files }
    | (.failed, files) =>
      { result := .error ("could not write " ++ path ++ " (the write failed part-way)")
        files := files.unlink path }
    | (.complete, files) => { result := .ok (), pathOut := some path, files := files }

end SignerOS
