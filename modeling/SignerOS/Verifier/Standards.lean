import SignerOS.Lib.KeyTree
import SignerOS.Lib.Radix
import SignerOS.Lib.RipeMd
import SignerOS.Verifier.CurveTheorems
import SignerOS.Verifier.HdKey

/-!
# The standards of an export

What an exported wallet rests on, as the standards have it and not as a program computes it: the
tree of keys over the group of the curve (BIP32), the seed of a mnemonic (BIP39), the two ways to
write an address (base58 with a checksum, BIP173 and BIP350), and the key of a taproot address
(BIP341). SHA-256, HMAC with SHA-512 and PBKDF2 are parameters.
-/

namespace SignerOS

namespace Verifier

namespace Standards

/-! ## Points -/

/-- The field, the order and the generator are those that the curve is published with. -/
example : P = 2 ^ 256 - 2 ^ 32 - 977 ∧
    N = 2 ^ 256 - 432420386565659656852420866394968145599 ∧
    GX = 55066263022277343669578718895168534326250603453777594175500187360389116729240 ∧
    GY = 32670510020758816978083085130507043184471273380659243275938904335757337482424 := by
  decide

/-- The 33 bytes of a finite point: the parity of the ordinate, and the abscissa. -/
def written : Secp → Option Bytes
  | .zero => none
  | .some x y _ => some ((if y.val % 2 = 0 then 0x02 else 0x03) :: Der.bytesOf 32 x.val)

/-- The 32 bytes of an abscissa. -/
def xOnly : Secp → Option Bytes
  | .zero => none
  | .some x _ _ => some (Der.bytesOf 32 x.val)

/-- The point with the same abscissa that has an even ordinate. -/
def evenPoint : Secp → Secp
  | .zero => 0
  | .some x y h => if y.val % 2 = 0 then .some x y h else -.some x y h

section
variable (sha256 : Sha256)

/-! ## Keys -/

def hash160 (b : Bytes) : Bytes := RipeMd.hash (sha256 b).toList

/-- The tree of BIP32. -/
def tree (hmacSha512 : HmacSha512) : KeyTree.Scheme Secp where
  order := N
  point k := k • generator
  add := (· + ·)
  written := written
  hmac key data := (hmacSha512 key data).toList
  hash := hash160 sha256

/-- The seed of a mnemonic: 2048 turns, and a salt that the passphrase ends. -/
def seedOf (pbkdf2 : Bytes → Bytes → ℕ → Bytes) (mnemonic passphrase : String) : Bytes :=
  pbkdf2 mnemonic.toUTF8.toList ("mnemonic" ++ passphrase).toUTF8.toList 2048

def taggedHash (tag : String) (b : Bytes) : Bytes :=
  (sha256 ((sha256 tag.toUTF8.toList).toList ++ (sha256 tag.toUTF8.toList).toList ++ b)).toList

/-- The key that a taproot address is of: the tweak of the internal key is added to it. -/
def taprootOutput (p : Secp) : Option Bytes := do
  let x ← xOnly p
  let t := Der.natOf (taggedHash sha256 "TapTweak" x)
  if t < N then xOnly (evenPoint p + t • generator) else none

/-! ## Base58 -/

/-- The digits, the letters in upper and in lower case, without those that look alike. -/
def base58 : List Char :=
  ((List.range 128).map Char.ofNat).filter fun c =>
    c.isAlphanum && c != '0' && c != 'O' && c != 'I' && c != 'l'

def checksum (b : Bytes) : Bytes := ((sha256 (sha256 b).toList).toList).take 4

/-- The bytes and their checksum, as a number in base 58 and a `1` for each zero they begin with. -/
def base58Check (payload : Bytes) : String :=
  String.ofList ((Radix.recode 256 58 ((payload ++ checksum sha256 payload).map UInt8.toNat)).map
    (Radix.char base58))

end

/-! ## Bech32 -/

/-- The product in the field with 32 elements, in which `x^5 + x^3 + 1` is zero. -/
def times (a b : ℕ) : ℕ :=
  (List.range 5).foldl (fun r i =>
    let r := if 16 ≤ r then (2 * r) ^^^ 0b101001 else 2 * r
    if b.testBit (4 - i) then r ^^^ a else r) 0

/-- The generator of the code, behind its first coefficient, which is one. -/
def codeGenerator : List ℕ := [29, 22, 20, 21, 29, 18]

/-- The remainder with one more symbol. -/
def remainderStep (r : List ℕ) (v : ℕ) : List ℕ :=
  (r.tail ++ [v]).zipWith (· ^^^ ·) (codeGenerator.map (times (r.headD 0)))

/-- What is left of the symbols, with a one ahead of them, divided by the generator. -/
def remainder (values : List ℕ) : List ℕ := values.foldl remainderStep [0, 0, 0, 0, 0, 1]

/-- The remainder that BIP173 asks for, and that of BIP350. -/
def remainderOf (version : ℕ) : List ℕ :=
  if version = 0 then [0, 0, 0, 0, 0, 1] else Radix.fixed 32 6 0x2bc830a3

/-- The text ahead of the separator, as symbols: the high bits, a zero, the low ones. -/
def expand (text : String) : List ℕ :=
  text.toList.map (fun c => c.toNat / 32) ++ 0 :: text.toList.map (fun c => c.toNat % 32)

/-- Bytes as symbols of five bits, the last one filled up with zeros. -/
def symbols (program : Bytes) : List ℕ :=
  let width := (8 * program.length + 4) / 5
  Radix.fixed 32 width (Der.natOf program * 2 ^ (5 * width - 8 * program.length))

def bech32 : List Char := "qpzry9x8gf2tvdw0s3jn54khce6mua7l".toList

/-- The address of a witness program. -/
def SegwitAddress (text : String) (version : ℕ) (program : Bytes) (s : String) : Prop :=
  version < 32 ∧ ∃ checksum : List ℕ, checksum.length = 6 ∧ (∀ d ∈ checksum, d < 32) ∧
    remainder (expand text ++ (version :: symbols program ++ checksum)) = remainderOf version ∧
    s = text ++ "1" ++
      String.ofList ((version :: symbols program ++ checksum).map (Radix.char bech32))

end Standards

end Verifier

end SignerOS
