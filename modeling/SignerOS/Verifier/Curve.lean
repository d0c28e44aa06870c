import SignerOS.Common
import SignerOS.Lib.Der
import SignerOS.Lib.Powering

/-!
# The curve of the verifier

The arithmetic of `make_test_data.py` on secp256k1, and its ECDSA: affine points with integers for
coordinates, and signatures of 64 bytes. Python's integers and its `pow` are exact; `hmac` with
SHA-256 is a parameter.
-/

namespace SignerOS

namespace Verifier

/-- What the functions on keys raise. `unfinished` stands for a loop that was not let run to its
end, and is never raised. -/
inductive Thrown
  | valueError (message : String)
  | typeError
  | keyError
  | indexError
  | overflowError
  | structError
  | assertionError (message : String)
  | unfinished
deriving DecidableEq, Repr

/-- `n.to_bytes(width, "big")`. -/
def toBytes (width : ℕ) (n : ℤ) : Except Thrown Bytes :=
  if 0 ≤ n ∧ n < 256 ^ width then .ok (Der.bytesOf width n.toNat) else .error .overflowError

/-! ## Points -/

/-- The number of residues of a coordinate. -/
def P : ℕ := 0xFFFFFFFFFFFFFFFFFFFFFFFFFFFFFFFFFFFFFFFFFFFFFFFFFFFFFFFEFFFFFC2F

/-- The number of points. -/
def N : ℕ := 0xFFFFFFFFFFFFFFFFFFFFFFFFFFFFFFFEBAAEDCE6AF48A03BBFD25E8CD0364141

def GX : ℤ := 0x79BE667EF9DCBBAC55A06295CE870B07029BFCDB2DCE28D959F2815B16F81798

def GY : ℤ := 0x483ADA7726A3C4655DA4FBFC0E1108A8FD17B448A68554199C47D08FFB10D4B8

/-- Affine coordinates, or `None` for infinity. -/
abbrev Point := Option (ℤ × ℤ)

def ptAdd : Point → Point → Point
  | none, p2 => p2
  | some p1, none => some p1
  | some (x1, y1), some (x2, y2) =>
    if x1 = x2 ∧ (y1 + y2) % P = 0 then none
    else
      let lam :=
        if (x1, y1) = (x2, y2) then 3 * x1 * x1 * Powering.powMod (2 * y1) (P - 2) P % P
        else (y2 - y1) * Powering.powMod (x2 - x1) (P - 2) P % P
      let x3 := (lam * lam - x1 - x2) % P
      let y3 := (lam * (x1 - x3) - y1) % P
      some (x3, y3)

def ptMul (k : ℤ) (p : Point := some (GX, GY)) : Point :=
  let k := (k % N).toNat
  Powering.loop ptAdd (k.log2 + 1) k none p

def compress : Point → Except Thrown Bytes
  | none => .error .typeError
  | some (x, y) => return UInt8.ofNat (2 + (y % 2).toNat) :: (← toBytes 32 x)

def decompress (b : Bytes) : Except Thrown (ℤ × ℤ) :=
  if b.length ≠ 33 ∨ ¬ (b.headD 0 = 2 ∨ b.headD 0 = 3) then
    .error (.valueError "not a compressed pubkey")
  else
    let x : ℤ := Der.natOf b.tail
    let ySq := (Powering.powMod x 3 P + 7) % P
    let y := Powering.powMod ySq ((P + 1) / 4) P
    if Powering.powMod y 2 P ≠ ySq then .error (.valueError "point not on curve")
    else if y % 2 ≠ (b.headD 0).toNat % 2 then .ok (x, P - y)
    else .ok (x, y)

/-! ## Signatures -/

def ecdsaVerify (pubkey msg32 sig64 : Bytes) : Except Thrown Bool :=
  let r : ℤ := Der.natOf (sig64.take 32)
  let s : ℤ := Der.natOf (sig64.drop 32)
  if ¬ ((1 ≤ r ∧ r < N) ∧ 1 ≤ s ∧ s < N) then .ok false
  else if s > N / 2 then .ok false
  else do
    let z : ℤ := Der.natOf msg32
    let w := Powering.powMod s (N - 2) N
    let u1 := z * w % N
    let u2 := r * w % N
    let pt := ptAdd (ptMul u1) (ptMul u2 (some (← decompress pubkey)))
    match pt with
    | none => return false
    | some (x, _) => return x % N == r

/-- One turn of the loop of `ecdsa_sign`, with its nonce: a signature, or none and another turn. -/
def signWith (priv msg32 : Bytes) (nonce : ℤ) : Except Thrown (Option Bytes) :=
  let z : ℤ := Der.natOf msg32
  if 1 ≤ nonce ∧ nonce < N then
    match ptMul nonce with
    | none => .error .typeError
    | some (x, _) =>
      let r := x % N
      if r ≠ 0 then
        let s := Powering.powMod nonce (N - 2) N * (z + r * Der.natOf priv) % N
        if s ≠ 0 then do
          let s := if s > N / 2 then N - s else s
          return some ((← toBytes 32 r) ++ (← toBytes 32 s))
        else return none
      else return none
  else return none

section
variable (hmacSha256 : Bytes → Bytes → Bytes)

/-- The loop of `ecdsa_sign`, with room for so many turns. -/
def signLoop (priv msg32 : Bytes) : ℕ → Bytes → Bytes → Except Thrown Bytes
  | 0, _, _ => .error .unfinished
  | turns + 1, k, v => do
    let v := hmacSha256 k v
    match ← signWith priv msg32 (Der.natOf v) with
    | some sig => return sig
    | none =>
      let k := hmacSha256 k (v ++ [0x00])
      let v := hmacSha256 k v
      signLoop priv msg32 turns k v

def ecdsaSign (turns : ℕ) (priv msg32 : Bytes) : Except Thrown Bytes :=
  let v := List.replicate 32 0x01
  let k := List.replicate 32 0x00
  let k := hmacSha256 k (v ++ [0x00] ++ priv ++ msg32)
  let v := hmacSha256 k v
  let k := hmacSha256 k (v ++ [0x01] ++ priv ++ msg32)
  let v := hmacSha256 k v
  signLoop hmacSha256 priv msg32 turns k v

end

end Verifier

end SignerOS
