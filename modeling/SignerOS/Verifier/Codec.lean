import SignerOS.Entropy
import SignerOS.Lib.Cursor
import SignerOS.Lib.Script
import Mathlib.Data.Int.Bitwise

/-!
# The codec of the verifier

The transactions and PSBTs of `make_test_data.py`, which judges what the signer wrote: how they are
serialised, and how they are read back. `struct.pack` raises when a number has no room; Python's
`int` and `b64decode` are parameters.
-/

namespace SignerOS

namespace Verifier

/-- What is raised. `unfinished` stands for a loop that was not let run to its end, and is never
raised. -/
inductive Raised
  | valueError (message : String)
  | structError
  | unfinished
deriving DecidableEq, Repr

/-! ## Writing -/

/-- `struct.pack` of one number of so many bytes, least significant first. -/
def pack (width : ℕ) (n : ℤ) : Except Raised Bytes :=
  if 0 ≤ n ∧ n < 256 ^ width then .ok (leBytes width n.toNat) else .error .structError

/-- `struct.unpack` of the bytes of one number. -/
def unpack (b : Bytes) : ℤ := Script.leNat b

def varint (n : ℕ) : Except Raised Bytes :=
  if n < 0xFD then .ok [UInt8.ofNat n]
  else if n ≤ 0xFFFF then return 0xfd :: (← pack 2 n)
  else if n ≤ 0xFFFFFFFF then return 0xfe :: (← pack 4 n)
  else return 0xff :: (← pack 8 n)

def varbytes (b : Bytes) : Except Raised Bytes := return (← varint b.length) ++ b

structure TxOut where
  value : ℤ
  script : Bytes
deriving DecidableEq, Repr

structure TxIn where
  /-- In internal byte order. -/
  txidLe : Bytes
  vout : ℤ
  sequence : ℤ := 0xFFFFFFFD
deriving DecidableEq, Repr

structure Tx where
  version : ℤ := 2
  locktime : ℤ := 0
  vin : List TxIn := []
  vout : List TxOut := []
deriving DecidableEq, Repr

def TxOut.serialize (o : TxOut) : Except Raised Bytes :=
  return (← pack 8 o.value) ++ (← varbytes o.script)

def TxIn.outpoint (i : TxIn) : Except Raised Bytes := return i.txidLe ++ (← pack 4 i.vout)

def TxIn.serialize (i : TxIn) : Except Raised Bytes :=
  return (← i.outpoint) ++ (← varbytes []) ++ (← pack 4 i.sequence)

def Tx.serialize (tx : Tx) : Except Raised Bytes := do
  let version ← pack 4 tx.version
  let nIn ← varint tx.vin.length
  let ins ← tx.vin.mapM TxIn.serialize
  let nOut ← varint tx.vout.length
  let outs ← tx.vout.mapM TxOut.serialize
  let locktime ← pack 4 tx.locktime
  return version ++ nIn ++ ins.flatten ++ nOut ++ outs.flatten ++ locktime

/-! ## PSBTs -/

def psbtGlobalUnsignedTx : UInt8 := 0x00
def psbtInWitnessUtxo : UInt8 := 0x01
def psbtInSighashType : UInt8 := 0x03
def psbtInBip32Derivation : UInt8 := 0x06
def psbtOutBip32Derivation : UInt8 := 0x02

def psbtMagic : Bytes := [0x70, 0x73, 0x62, 0x74, 0xff]

/-- The keys `pubkey`, `fingerprint` and `path` of the entry of an input or an output. -/
structure KeyMeta where
  pubkey : Bytes
  fingerprint : Bytes
  path : String
deriving DecidableEq, Repr

/-- An entry of `inputs_meta`. -/
structure InputMeta extends KeyMeta where
  witnessUtxo : TxOut
deriving DecidableEq, Repr

/-- An entry of `outputs_meta`, without a key where the output is no change. -/
abbrev OutputMeta := Option KeyMeta

def kv (key value : Bytes) : Except Raised Bytes := return (← varbytes key) ++ (← varbytes value)

section
variable (int : List Char → Except Raised ℤ)

/-- One part of a path. -/
def partToInt (part : List Char) : Except Raised ℤ :=
  if part.getLast? = some '\'' ∨ part.getLast? = some 'h' then
    return Int.lor (← int part.dropLast) 0x80000000
  else int part

def pathToInts (path : String) : Except Raised (List ℤ) :=
  ((path.toList.splitOn '/').filter fun part => part ≠ ['m'] ∧ part ≠ []).mapM (partToInt int)

def keypathValue (fingerprint : Bytes) (path : String) : Except Raised Bytes := do
  let es ← pathToInts int path
  return fingerprint ++ (← es.mapM (pack 4)).flatten

/-- What is written of an entry of `inputs_meta`. -/
def inputBytes (m : InputMeta) : Except Raised Bytes := do
  let utxo ← kv [psbtInWitnessUtxo] (← m.witnessUtxo.serialize)
  let sighash ← kv [psbtInSighashType] (← pack 4 0x01)
  let key ← kv (psbtInBip32Derivation :: m.pubkey) (← keypathValue int m.fingerprint m.path)
  return utxo ++ sighash ++ key ++ [0x00]

/-- What is written of an entry of `outputs_meta`; an empty key is as good as none. -/
def outputBytes : OutputMeta → Except Raised Bytes
  | none => return [0x00]
  | some m =>
    if m.pubkey = [] then return [0x00]
    else do
      let key ← kv (psbtOutBip32Derivation :: m.pubkey) (← keypathValue int m.fingerprint m.path)
      return key ++ [0x00]

def buildPsbt (tx : Tx) (inputsMeta : List InputMeta) (outputsMeta : List OutputMeta) :
    Except Raised Bytes := do
  let globals ← kv [psbtGlobalUnsignedTx] (← tx.serialize)
  let ins ← inputsMeta.mapM (inputBytes int)
  let outs ← outputsMeta.mapM (outputBytes int)
  return psbtMagic ++ globals ++ [0x00] ++ ins.flatten ++ outs.flatten

end

/-! ## Reading -/

/-- What is read from a `Reader`. -/
abbrev Reader := Cursor.Read UInt8 Raised

namespace Reader

def take (n : ℕ) : Reader Bytes := Cursor.take (.valueError "truncated PSBT") n

def varint : Reader ℕ := do
  let b ← take 1
  let b := Script.leNat b
  if b < 0xFD then return b
  else if b = 0xFD then return Script.leNat (← take 2)
  else if b = 0xFE then return Script.leNat (← take 4)
  else return Script.leNat (← take 8)

def varbytes : Reader Bytes := do take (← varint)

end Reader

/-- A `dict`, its keys in the order they were set. -/
abbrev Dict := List (Bytes × Bytes)

def Dict.set (m : Dict) (key value : Bytes) : Dict :=
  if m.any fun e => e.1 == key then
    m.map fun e => if e.1 == key then (key, value) else e
  else m ++ [(key, value)]

/-- One turn of the loop of `read_map`. -/
def readEntry (m : Dict) : Reader (Dict ⊕ Dict) := do
  let klen ← Reader.varint
  if klen = 0 then return .inr m
  else
    let key ← Reader.take klen
    let value ← Reader.varbytes
    return .inl (m.set key value)

def readMap : Reader Dict := Cursor.untilDone .unfinished readEntry []

/-- One input, as `count_tx_io` passes over it. -/
def skipTxIn : Reader Unit := do
  let _ ← Reader.take 36
  let _ ← Reader.varbytes
  let _ ← Reader.take 4
  return ()

/-- One output, as `count_tx_io` passes over it. -/
def skipTxOut : Reader Unit := do
  let _ ← Reader.take 8
  let _ ← Reader.varbytes
  return ()

/-- What `count_tx_io` reads. -/
def countTxIoFrom : Reader (ℕ × ℕ) := do
  let _ ← Reader.take 4
  let nIn ← Reader.varint
  let _ ← Cursor.times skipTxIn nIn
  let nOut ← Reader.varint
  let _ ← Cursor.times skipTxOut nOut
  return (nIn, nOut)

/-- A reader is begun at the front of the data. -/
def readFrom {α : Type} (p : Reader α) (data : Bytes) : Except Raised α :=
  (p ⟨data, 0⟩).map Prod.fst

def countTxIo (rawTx : Bytes) : Except Raised (ℕ × ℕ) := readFrom countTxIoFrom rawTx

/-- One input, as `parse_tx` reads it. -/
def parseTxIn : Reader TxIn := do
  let txidLe ← Reader.take 32
  let vout ← Reader.take 4
  let _ ← Reader.varbytes
  let sequence ← Reader.take 4
  return { txidLe, vout := unpack vout, sequence := unpack sequence }

/-- One output, as `parse_tx` reads it. -/
def parseTxOut : Reader TxOut := do
  let value ← Reader.take 8
  let script ← Reader.varbytes
  return { value := unpack value, script }

/-- What `parse_tx` reads. -/
def parseTxFrom : Reader Tx := do
  let version ← Reader.take 4
  let nIn ← Reader.varint
  let vin ← Cursor.times parseTxIn nIn
  let nOut ← Reader.varint
  let vout ← Cursor.times parseTxOut nOut
  let locktime ← Reader.take 4
  return { version := unpack version, locktime := unpack locktime, vin, vout }

def parseTx (raw : Bytes) : Except Raised Tx := readFrom parseTxFrom raw

/-- What `parse_psbt` reads, once it has the bytes. -/
def parsePsbtFrom : Reader (Dict × List Dict × List Dict × Bytes) := do
  let _ ← Reader.take 5
  let g ← readMap
  match g.lookup [psbtGlobalUnsignedTx] with
  | none =>
    throw (.valueError "no global unsigned transaction (PSBTv2 is not parsed here)")
  | some unsigned =>
    let (nIn, nOut) ← countTxIo unsigned
    let ins ← Cursor.times readMap nIn
    let outs ← Cursor.times readMap nOut
    return (g, ins, outs, unsigned)

/-- The white space of `str.split`, among the characters of ASCII. -/
def isAsciiSpace (b : UInt8) : Bool := (9 ≤ b && b ≤ 13) || (28 ≤ b && b ≤ 32)

/-- `data.decode("ascii", "ignore")`, without its white space. -/
def asciiText (data : Bytes) : String :=
  String.ofList ((data.filter fun b => b < 128 && !isAsciiSpace b).map fun b => Char.ofNat b.toNat)

def parsePsbt (b64decode : String → Except Raised Bytes) (data : Bytes) :
    Except Raised (Dict × List Dict × List Dict × Bytes) :=
  if data.take 5 = psbtMagic then readFrom parsePsbtFrom data
  else do
    let data ← b64decode (asciiText data)
    if data.take 5 = psbtMagic then readFrom parsePsbtFrom data
    else throw (.valueError "not a PSBT")

end Verifier

end SignerOS
