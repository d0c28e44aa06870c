import SignerOS.Verifier.Base58
import SignerOS.Verifier.Codec
import SignerOS.Verifier.Curve

/-!
# The key tree of the verifier

`HDKey` of `make_test_data.py`: children of extended keys, paths of them, and the strings they are
written in. `hmac` with SHA-512 is a parameter, and so is Python's `int`.
-/

namespace SignerOS

namespace Verifier

/-- `hmac.new(key, message, hashlib.sha512).digest()`. -/
abbrev HmacSha512 := Bytes → Bytes → Vector UInt8 64

/-- What the codec raises, among the errors of the functions on keys. -/
def Raised.thrown : Raised → Thrown
  | .valueError message => .valueError message
  | .structError => .structError
  | .unfinished => .unfinished

/-- `struct.pack` of one number of so many bytes, most significant first. -/
def packBig (width : ℕ) (n : ℤ) : Except Thrown Bytes :=
  if 0 ≤ n ∧ n < 256 ^ width then .ok (Der.bytesOf width n.toNat) else .error .structError

/-- `struct.pack` of a string of four bytes: what is missing is zeros. -/
def packFour (b : Bytes) : Bytes := (b ++ List.replicate 4 0x00).take 4

/-- `VERSION_PRIV`. -/
def versionPriv : String → Except Thrown ℤ
  | "mainnet" => .ok 0x0488ADE4
  | "testnet" => .ok 0x04358394
  | _ => .error .keyError

/-- `VERSION_PUB`. -/
def versionPub : String → Except Thrown ℤ
  | "mainnet" => .ok 0x0488B21E
  | "testnet" => .ok 0x043587CF
  | _ => .error .keyError

structure HDKey where
  priv : Bytes
  chain : Bytes
  depth : ℤ := 0
  parentFp : Bytes := [0x00, 0x00, 0x00, 0x00]
  childNum : ℤ := 0
  net : String := "mainnet"
deriving DecidableEq, Repr

/-- `index & 0x80000000`. -/
def isHardened (index : ℤ) : Bool := Int.land index 0x80000000 ≠ 0

namespace HDKey

section
variable (hmacSha512 : HmacSha512) (sha256 : Sha256) (int : List Char → Except Raised ℤ)

def fromSeed (seed : Bytes) (net : String := "mainnet") : HDKey :=
  let h := (hmacSha512 "Bitcoin seed".toUTF8.toList seed).toList
  { priv := h.take 32, chain := h.drop 32, net }

def pub (key : HDKey) : Except Thrown Bytes := compress (ptMul (Der.natOf key.priv))

def fingerprint (key : HDKey) : Except Thrown Bytes := return (hash160 sha256 (← key.pub)).take 4

/-- `data`, which is hashed for a child. -/
def childData (key : HDKey) (index : ℤ) : Except Thrown Bytes :=
  if isHardened index then return 0x00 :: key.priv ++ (← packBig 4 index)
  else return (← key.pub) ++ (← packBig 4 index)

def derive (key : HDKey) (index : ℤ) : Except Thrown HDKey := do
  let h := (hmacSha512 key.chain (← key.childData index)).toList
  let child : ℤ := (Der.natOf (h.take 32) + Der.natOf key.priv) % N
  if child = 0 ∨ Der.natOf (h.take 32) ≥ N then
    .error (.valueError "derivation produced an invalid key; use the next index")
  else
    return { priv := ← toBytes 32 child, chain := h.drop 32, depth := key.depth + 1,
             parentFp := ← fingerprint sha256 key, childNum := index, net := key.net }

/-- One turn of the loop of `derive_path`. -/
def derivePart (key : HDKey) (part : List Char) :
    Except Thrown HDKey := do
  if part = ['m'] ∨ part = [] then return key
  else if part.getLast? = some '\'' ∨ part.getLast? = some 'h' then do
    let index ← (int part.dropLast).mapError Raised.thrown
    derive hmacSha512 sha256 key (Int.lor index 0x80000000)
  else do
    derive hmacSha512 sha256 key (← (int part).mapError Raised.thrown)

def derivePath (key : HDKey) (path : String) :
    Except Thrown HDKey :=
  (path.toList.splitOn '/').foldlM (derivePart hmacSha512 sha256 int) key

/-- The bytes of the four fields ahead of the chain code. -/
def header (key : HDKey) (version : ℤ) : Except Thrown Bytes := do
  return (← packBig 4 version) ++ (← packBig 1 key.depth) ++ packFour key.parentFp ++
    (← packBig 4 key.childNum)

def xprv (key : HDKey) : Except Thrown String := do
  return b58checkEncode sha256
    ((← key.header (← versionPriv key.net)) ++ key.chain ++ [0x00] ++ key.priv)

def xpub (key : HDKey) : Except Thrown String := do
  return b58checkEncode sha256 ((← key.header (← versionPub key.net)) ++ key.chain ++ (← key.pub))

def wif (key : HDKey) : String :=
  let version : UInt8 := if key.net = "mainnet" then 0x80 else 0xef
  b58checkEncode sha256 (version :: key.priv ++ [0x01])

end

end HDKey

end Verifier

end SignerOS
