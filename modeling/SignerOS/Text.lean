import SignerOS.Wally

/-!
# The texts shared by the screens and the self-test

Derivation paths, amounts and fee rates as the program prints them, and the two readings
of a printed path the change findings rest on.
-/

namespace SignerOS

/-- What `snprintf` leaves of a text in a buffer of so many characters, the last one being the
terminator. -/
def snprintf (size : ℕ) (text : String) : String := String.ofList (text.toList.take (size - 1))

/-! ## Derivation paths -/

/-- The hardened bit of a child number. -/
def hardenedBit : UInt32 := 0x80000000

/-- One element of a printed path: `/84'` for a hardened child number, `/84` otherwise. -/
def formatPathElement (e : UInt32) : String :=
  if e &&& hardenedBit ≠ 0 then snprintf 24 ("/" ++ toString (e &&& 0x7fffffff).toNat ++ "'")
  else snprintf 24 ("/" ++ toString e.toNat)

/-- `formatPath`: `m/84'/0'/0'/0/3`. -/
def formatPath (path : List UInt32) : String :=
  path.foldl (fun out e => out ++ formatPathElement e) "m"

/-- The pieces of a text between its slashes. -/
def splitAtSlashes : List Char → List (List Char)
  | [] => [[]]
  | c :: cs =>
    if c = '/' then [] :: splitAtSlashes cs
    else
      match splitAtSlashes cs with
      | [] => [[c]]
      | part :: parts => (c :: part) :: parts

/-- `splitPath`. -/
def splitPath (path : String) : List String :=
  (splitAtSlashes path.toList).map String.ofList

/-- `pathAccountPrefix`: `m/84'/0'/0'/1/7` gives `m/84'/0'/0'`. -/
def pathAccountPrefix (path : String) : String :=
  match splitPath path with
  | p0 :: p1 :: p2 :: p3 :: _ :: _ => p0 ++ "/" ++ p1 ++ "/" ++ p2 ++ "/" ++ p3
  | _ => ""

/-- `pathChainElement`: the second-last element, `0` for receive and `1` for change. -/
def pathChainElement (path : String) : String :=
  let parts := splitPath path
  if parts.length < 3 then "" else parts.getD (parts.length - 2) ""

/-! ## Amounts -/

/-- A decimal number, padded with zeros on the left to `width` digits. -/
def zeroPadded (width n : ℕ) : String :=
  let digits := (toString n).toList
  String.ofList (List.replicate (width - digits.length) '0' ++ digits)

/-- `formatBtc`: `0.00123456`. -/
def formatBtc (satoshi : UInt64) : String :=
  snprintf 32
    (toString (satoshi.toNat / 100000000) ++ "." ++ zeroPadded 8 (satoshi.toNat % 100000000))

/-- The digits of a number with a space before every group of three counted from the
right; `n` is the number of digits there are in all, and `i` the position reached. -/
def groupDigits (n : ℕ) : ℕ → List Char → List Char
  | _, [] => []
  | i, c :: cs =>
    if 0 < i ∧ (n - i) % 3 = 0 then ' ' :: c :: groupDigits n (i + 1) cs
    else c :: groupDigits n (i + 1) cs

/-- `formatSat`: `123 456`. -/
def formatSat (satoshi : UInt64) : String :=
  let digits := (toString satoshi.toNat).toList
  String.ofList (groupDigits digits.length 0 digits)

/-! ## Doubles -/

/-- `printf`'s `%.1f` of a finite double: its exact value, rounded to tenths, ties to the
even digit. -/
def formatOneDecimal (x : Float) : String :=
  let bits := x.toBits.toNat
  let exponent := bits / 2 ^ 52 % 2 ^ 11
  let fraction := bits % 2 ^ 52
  -- the value is `mantissa * 2 ^ (max exponent 1 - 1075)`, subnormals included
  let mantissa := if exponent = 0 then fraction else fraction + 2 ^ 52
  let numerator := 10 * mantissa * 2 ^ max exponent 1
  let quotient := numerator / 2 ^ 1075
  let remainder := numerator % 2 ^ 1075
  let roundUp := 2 ^ 1075 < 2 * remainder ∨ 2 ^ 1075 = 2 * remainder ∧ quotient % 2 = 1
  let tenths := if roundUp then quotient + 1 else quotient
  (if bits / 2 ^ 63 = 1 then "-" else "") ++ toString (tenths / 10) ++ "."
    ++ toString (tenths % 10)

/-- `formatFeeRate`: `12.4`. -/
def formatFeeRate (satPerVbyte : Float) : String := snprintf 32 (formatOneDecimal satPerVbyte)

/-- `printf`'s `0x%02x` of a byte. -/
def hexByte (b : UInt8) : String := "0x" ++ hexOf [b]

end SignerOS
