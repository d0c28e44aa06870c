import Mathlib.Data.List.Basic

/-!
# Bitcoin scripts as opcodes and data pushes

A script is a sequence of opcodes and of elements pushed onto the stack.

* `parse`, the sequence, when no push runs past the end of the script;
* `parse_encode`, serialised opcodes and short pushes parse back.
-/

namespace Script

/-! ## Opcodes -/

def opPushdata1 : UInt8 := 0x4c
def opPushdata2 : UInt8 := 0x4d
def opPushdata4 : UInt8 := 0x4e
def op1 : UInt8 := 0x51
def op16 : UInt8 := 0x60
def opDrop : UInt8 := 0x75
def opChecksig : UInt8 := 0xac
def opChecksigverify : UInt8 := 0xad
def opCheckmultisig : UInt8 := 0xae
def opCheckmultisigverify : UInt8 := 0xaf

/-! ## Parsing -/

inductive Token
  | push (data : List UInt8)
  | op (code : UInt8)
deriving DecidableEq, Repr

/-- A little-endian number. -/
def leNat : List UInt8 → ℕ
  | [] => 0
  | b :: bs => b.toNat + 256 * leNat bs

/-- `n` bytes and what comes after them. -/
def takeBytes (n : ℕ) (s : List UInt8) : Option (List UInt8 × List UInt8) :=
  if n ≤ s.length then some (s.take n, s.drop n) else none

/-- A push whose length is the number in the next `width` bytes. -/
def readPushdata (width : ℕ) (s : List UInt8) : Option (Token × List UInt8) :=
  (takeBytes width s).bind fun (len, s) =>
    (takeBytes (leNat len) s).map fun (data, s) => (.push data, s)

/-- The first token of a script and what comes after it; `none` when the script is empty or
a push runs past its end. -/
def readToken : List UInt8 → Option (Token × List UInt8)
  | [] => none
  | b :: s =>
    if b < opPushdata1 then (takeBytes b.toNat s).map fun (data, s) => (.push data, s)
    else if b = opPushdata1 then readPushdata 1 s
    else if b = opPushdata2 then readPushdata 2 s
    else if b = opPushdata4 then readPushdata 4 s
    else some (.op b, s)

/-- Up to `fuel` tokens; `none` unless they are the whole script. -/
def parseTokens : ℕ → List UInt8 → Option (List Token)
  | _, [] => some []
  | 0, _ :: _ => none
  | fuel + 1, b :: s =>
    match readToken (b :: s) with
    | none => none
    | some (token, rest) => (parseTokens fuel rest).map (token :: ·)

/-- The script as a sequence of tokens. Every token takes a byte at least. -/
def parse (script : List UInt8) : Option (List Token) := parseTokens script.length script

/-! ## Serialising -/

/-- A token with a short direct push, or an opcode that pushes no data of its own. -/
def Token.Short : Token → Prop
  | .push data => data.length < 0x4c
  | .op code => opPushdata4 < code

def encodeToken : Token → List UInt8
  | .push data => UInt8.ofNat data.length :: data
  | .op code => [code]

def encode (tokens : List Token) : List UInt8 := tokens.flatMap encodeToken

theorem readToken_encode {token : Token} (h : token.Short) (rest : List UInt8) :
    readToken (encodeToken token ++ rest) = some (token, rest) := by
  cases token with
  | push data =>
    have hlen : data.length < 0x4c := h
    have hnat : (UInt8.ofNat data.length).toNat = data.length := by
      rw [UInt8.toNat_ofNat']
      omega
    show readToken (UInt8.ofNat data.length :: (data ++ rest)) = _
    have hlt : UInt8.ofNat data.length < opPushdata1 := by
      rw [UInt8.lt_iff_toNat_lt, hnat]
      exact hlen
    rw [readToken, if_pos hlt, hnat, takeBytes, if_pos (by simp)]
    simp
  | op code =>
    have hcode : opPushdata4.toNat < code.toNat := UInt8.lt_iff_toNat_lt.mp h
    have h4 : opPushdata4.toNat = 78 := rfl
    have hge : ¬ code < opPushdata1 := by
      rw [UInt8.lt_iff_toNat_lt]
      have h1 : opPushdata1.toNat = 76 := rfl
      omega
    have hne (b : UInt8) (hb : b.toNat ≤ 78) : code ≠ b := by
      intro hb'
      rw [hb'] at hcode
      omega
    show readToken (code :: rest) = _
    rw [readToken, if_neg hge, if_neg (hne _ (by decide)), if_neg (hne _ (by decide)),
      if_neg (hne _ (by decide))]

theorem parseTokens_encode {tokens : List Token} (h : ∀ t ∈ tokens, t.Short) {fuel : ℕ}
    (hfuel : (encode tokens).length ≤ fuel) : parseTokens fuel (encode tokens) = some tokens := by
  induction tokens generalizing fuel with
  | nil => cases fuel <;> rfl
  | cons t tokens ih =>
    have hread := readToken_encode (h t List.mem_cons_self) (encode tokens)
    have hlen : (encode (t :: tokens)).length
        = (encodeToken t).length + (encode tokens).length := by
      rw [encode, List.flatMap_cons, List.length_append, encode]
    have hpos : 0 < (encodeToken t).length := by cases t <;> simp [encodeToken]
    show parseTokens fuel (encodeToken t ++ encode tokens) = _
    obtain ⟨b, bs, hb⟩ := List.exists_cons_of_length_pos
      (l := encodeToken t ++ encode tokens) (by rw [List.length_append]; omega)
    -- each token takes a byte, so the fuel outlasts them
    cases fuel with
    | zero => omega
    | succ fuel =>
      rw [hb] at hread ⊢
      rw [parseTokens, hread]
      show (parseTokens fuel (encode tokens)).map (t :: ·) = _
      rw [ih (fun t' ht' => h t' (List.mem_cons_of_mem t ht')) (by omega), Option.map_some]

/-- Short tokens parse back. -/
theorem parse_encode {tokens : List Token} (h : ∀ t ∈ tokens, t.Short) :
    parse (encode tokens) = some tokens := parseTokens_encode h (Nat.le_refl _)

end Script
