import Mathlib.Data.Int.Notation
import Mathlib.Tactic.IntervalCases
import SignerOS.Lib.Script

/-!
# The keys a script checks signatures against

A script is run on a stack whose lower part, the inputs of the script, is not known. What the
script pushes is followed through the stack operations and through arithmetic; what a hash, a
signature check or an input leaves is not known, and neither is the way a condition turns out:
each branch is taken, and every check may pass.

* `step`, what a token makes of the stacks, in every way it can;
* `keyOperands`, the elements that signature checks take as keys in some run;
* `HasKeyOperand`, a key is a whole pushed element among these;
* `hasKeyOperand_multisig`, the keys of a multisig script are key operands of it.
-/

namespace Script

/-! ## Stack elements -/

/-- The most keys a `CHECKMULTISIG` takes. -/
def maxPubkeysPerMultisig : ℕ := 20

/-- An element of the stack, if what the script pushes says what it is. -/
inductive Element
  | data (bytes : List UInt8)
  | unknown
deriving DecidableEq, Repr

/-- The number an element stands for: little-endian, of four bytes at most, with the sign in the
highest bit. -/
def scriptNum (bytes : List UInt8) : Option ℤ :=
  let signBit := 2 ^ (8 * bytes.length - 1)
  if 4 < bytes.length then none
  else if leNat bytes < signBit then some (leNat bytes)
  else some (-(leNat bytes - signBit : ℕ))

/-- The shortest element that stands for a number below `2 ^ 39`. -/
def numBytes (n : ℤ) : List UInt8 :=
  if n = 0 then []
  else
    let last := ((List.range 4).find? fun i => n.natAbs < 2 ^ (8 * i + 7)).getD 4
    let value := n.natAbs + if n < 0 then 2 ^ (8 * last + 7) else 0
    (List.range (last + 1)).map fun i => UInt8.ofNat (value / 256 ^ i)

def ofBool (b : Bool) : ℤ := if b then 1 else 0

/-- Some byte is not zero, the sign apart. -/
def truth (bytes : List UInt8) : Bool :=
  leNat bytes ≠ 0 ∧ leNat bytes ≠ 2 ^ (8 * bytes.length - 1)

namespace Element

def num (n : ℤ) : Element := .data (numBytes n)

/-- The number of an element; `none` for one that is too long. An unknown element may be any. -/
def toNum : Element → Option (Option ℤ)
  | .data bytes => (scriptNum bytes).map some
  | .unknown => some none

/-- The result of an operation on numbers, if all of them are known. -/
def arith (f : List ℤ → ℤ) (args : List Element) : Option Element :=
  (args.mapM toNum).map fun nums =>
    match nums.mapM id with
    | some nums => num (f nums)
    | none => .unknown

def size : Element → Element
  | .data bytes => num bytes.length
  | .unknown => .unknown

def equal : Element → Element → Element
  | .data a, .data b => num (ofBool (a == b))
  | _, _ => .unknown

/-- The indices an element may stand for, all those from `most` on being alike. -/
def indices (most : ℕ) : Element → List ℕ
  | .data bytes => ((scriptNum bytes).filter (0 ≤ ·)).toList.map Int.toNat
  | .unknown => List.range (most + 1)

/-- The counts up to `most` that an element may stand for. -/
def counts (most : ℕ) (x : Element) : List ℕ := (x.indices most).filter (· ≤ most)

def known : Element → List (List UInt8)
  | .data bytes => [bytes]
  | .unknown => []

end Element

/-! ## Stacks -/

/-- The stack, the other stack, and whether each open conditional is in a branch that is taken. What
is below the end of the stack is unknown. -/
structure Stacks where
  main : List Element := []
  alt : List Element := []
  conds : List Bool := []
deriving DecidableEq, Repr

namespace Stacks

variable (s : Stacks)

def executing : Bool := s.conds.all id

/-- The element so far below the top. -/
def peek (i : ℕ) : Element := s.main.getD i .unknown

def drop (n : ℕ) : Stacks := { s with main := s.main.drop n }

def push (elements : List Element) : Stacks := { s with main := elements ++ s.main }

/-- The element so far below the top is taken out. -/
def remove (i : ℕ) : Stacks := { s with main := s.main.eraseIdx i }

end Stacks

/-! ## Operations -/

/-- What an operation with a fixed number of arguments takes and what it leaves, the top first;
`none` for one that fails. `a i` is the element `i` below the top. -/
def effect (code : UInt8) (a : ℕ → Element) : Option (ℕ × List Element) :=
  let unary (f : ℤ → ℤ) := (Element.arith (fun n => f (n.getD 0 0)) [a 0]).map fun x => (1, [x])
  let binary (f : ℤ → ℤ → ℤ) :=
    (Element.arith (fun n => f (n.getD 0 0) (n.getD 1 0)) [a 1, a 0]).map fun x => (2, [x])
  match code with
  | 0x4f => some (0, [.num (-1)]) -- 1NEGATE
  | 0x61 => some (0, []) -- NOP
  | 0x69 => some (1, []) -- VERIFY
  | 0x6d => some (2, []) -- 2DROP
  | 0x6e => some (2, [a 0, a 1, a 0, a 1]) -- 2DUP
  | 0x6f => some (3, [a 0, a 1, a 2, a 0, a 1, a 2]) -- 3DUP
  | 0x70 => some (4, [a 2, a 3, a 0, a 1, a 2, a 3]) -- 2OVER
  | 0x71 => some (6, [a 4, a 5, a 0, a 1, a 2, a 3]) -- 2ROT
  | 0x72 => some (4, [a 2, a 3, a 0, a 1]) -- 2SWAP
  | 0x74 => some (0, [.unknown]) -- DEPTH
  | 0x75 => some (1, []) -- DROP
  | 0x76 => some (1, [a 0, a 0]) -- DUP
  | 0x77 => some (2, [a 0]) -- NIP
  | 0x78 => some (2, [a 1, a 0, a 1]) -- OVER
  | 0x7b => some (3, [a 2, a 0, a 1]) -- ROT
  | 0x7c => some (2, [a 1, a 0]) -- SWAP
  | 0x7d => some (2, [a 0, a 1, a 0]) -- TUCK
  | 0x82 => some (1, [(a 0).size, a 0]) -- SIZE
  | 0x87 => some (2, [(a 0).equal (a 1)]) -- EQUAL
  | 0x88 => some (2, []) -- EQUALVERIFY
  | 0x8b => unary (· + 1) -- 1ADD
  | 0x8c => unary (· - 1) -- 1SUB
  | 0x8f => unary (- ·) -- NEGATE
  | 0x90 => unary fun n => n.natAbs -- ABS
  | 0x91 => unary fun n => ofBool (n == 0) -- NOT
  | 0x92 => unary fun n => ofBool (n != 0) -- 0NOTEQUAL
  | 0x93 => binary (· + ·) -- ADD
  | 0x94 => binary (· - ·) -- SUB
  | 0x9a => binary fun m n => ofBool (m != 0 && n != 0) -- BOOLAND
  | 0x9b => binary fun m n => ofBool (m != 0 || n != 0) -- BOOLOR
  | 0x9c => binary fun m n => ofBool (m == n) -- NUMEQUAL
  | 0x9d => (binary fun m _ => m).map fun _ => (2, []) -- NUMEQUALVERIFY
  | 0x9e => binary fun m n => ofBool (m != n) -- NUMNOTEQUAL
  | 0x9f => binary fun m n => ofBool (m < n) -- LESSTHAN
  | 0xa0 => binary fun m n => ofBool (n < m) -- GREATERTHAN
  | 0xa1 => binary fun m n => ofBool (m ≤ n) -- LESSTHANOREQUAL
  | 0xa2 => binary fun m n => ofBool (n ≤ m) -- GREATERTHANOREQUAL
  | 0xa3 => binary min -- MIN
  | 0xa4 => binary max -- MAX
  | 0xa5 => -- WITHIN
    (Element.arith (fun n => ofBool (n.getD 1 0 ≤ n.getD 0 0 && n.getD 0 0 < n.getD 2 0))
      [a 2, a 1, a 0]).map fun x => (3, [x])
  | 0xa6 | 0xa7 | 0xa8 | 0xa9 | 0xaa => some (1, [.unknown]) -- the hashes
  | 0xab => some (0, []) -- CODESEPARATOR
  | 0xac => some (2, [.unknown]) -- CHECKSIG
  | 0xad => some (2, []) -- CHECKSIGVERIFY
  -- NOP1, CHECKLOCKTIMEVERIFY, CHECKSEQUENCEVERIFY and the other NOPs
  | 0xb0 | 0xb1 | 0xb2 | 0xb3 | 0xb4 | 0xb5 | 0xb6 | 0xb7 | 0xb8 | 0xb9 => some (0, [])
  | _ => if op1 ≤ code ∧ code ≤ op16 then some (0, [.num (code - 0x50).toNat]) else none

/-- A `CHECKMULTISIG`: the keys it takes and what is left below the last element it takes, for each
number of keys and of signatures it may be. -/
def multisig (s : Stacks) : List (List Element × Stacks) :=
  ((s.peek 0).counts maxPubkeysPerMultisig).flatMap fun n =>
    let keys := (List.range n).map fun i => s.peek (i + 1)
    let s := s.drop (n + 1)
    ((s.peek 0).counts n).map fun m => (keys, s.drop (m + 2))

/-- An operation whose effect depends on what is on the stack, and the others by `effect`. -/
def operate (code : UInt8) (s : Stacks) : List Stacks :=
  match code with
  | 0x6b => [{ s.drop 1 with alt := s.peek 0 :: s.alt }] -- TOALTSTACK
  | 0x6c => -- FROMALTSTACK
    match s.alt with
    | x :: alt => [{ s.push [x] with alt := alt }]
    | [] => []
  | 0x73 => -- IFDUP
    match s.peek 0 with
    | .data bytes => if truth bytes then [s.push [.data bytes]] else [s]
    | .unknown => [s, s.push [.unknown]]
  | 0x79 => -- PICK
    ((s.peek 0).indices (s.main.length - 1)).map fun n => (s.drop 1).push [(s.drop 1).peek n]
  | 0x7a => -- ROLL
    ((s.peek 0).indices (s.main.length - 1)).map fun n =>
      ((s.drop 1).remove n).push [(s.drop 1).peek n]
  | 0xae => (multisig s).map fun found => found.2.push [.unknown] -- CHECKMULTISIG
  | 0xaf => (multisig s).map Prod.snd -- CHECKMULTISIGVERIFY
  | _ => ((effect code s.peek).map fun (n, left) => (s.drop n).push left).toList

/-- The operations that fail a script wherever they stand. -/
def forbidden : List UInt8 :=
  [0x65, 0x66, 0x7e, 0x7f, 0x80, 0x81, 0x83, 0x84, 0x85, 0x86, 0x8d, 0x8e, 0x95, 0x96, 0x97, 0x98,
    0x99]

/-- What a token makes of the stacks, in every way it can; nothing where it fails. -/
def step (s : Stacks) : Token → List Stacks
  | .push data => if s.executing then [s.push [.data data]] else [s]
  | .op code =>
    if code ∈ forbidden then []
    else
      match code with
      | 0x63 | 0x64 => -- IF, NOTIF
        if s.executing then [{ s.drop 1 with conds := true :: s.conds },
          { s.drop 1 with conds := false :: s.conds }]
        else [{ s with conds := false :: s.conds }]
      | 0x67 => -- ELSE
        match s.conds with
        | c :: conds => [{ s with conds := (!c) :: conds }]
        | [] => []
      | 0x68 => -- ENDIF
        match s.conds with
        | _ :: conds => [{ s with conds := conds }]
        | [] => []
      | code => if s.executing then operate code s else [s]

/-! ## Keys -/

/-- The keys a token takes, among the elements that are known. -/
def keysTaken (s : Stacks) : Token → List (List UInt8)
  | .push _ => []
  | .op code =>
    if s.executing = false then []
    else if code = opChecksig ∨ code = opChecksigverify then (s.peek 0).known
    else if code = opCheckmultisig ∨ code = opCheckmultisigverify then
      (multisig s).flatMap fun found => found.1.flatMap Element.known
    else []

/-- The keys all signature checks take, in every run from here. -/
def keyOperandsFrom (s : Stacks) : List Token → List (List UInt8)
  | [] => []
  | token :: rest => keysTaken s token ++ (step s token).flatMap (keyOperandsFrom · rest)

def keyOperands (tokens : List Token) : List (List UInt8) := keyOperandsFrom {} tokens

/-- The script parses, and `key` is one whole element it pushes and a signature check takes as a
key. -/
def HasKeyOperand (script key : List UInt8) : Prop :=
  ∃ tokens, parse script = some tokens ∧ .push key ∈ tokens ∧ key ∈ keyOperands tokens

instance (script key : List UInt8) : Decidable (HasKeyOperand script key) :=
  decidable_of_iff
    ((parse script).any fun tokens => decide (.push key ∈ tokens ∧ key ∈ keyOperands tokens)) (by
    unfold HasKeyOperand
    cases parse script <;> simp)

/-- The key reaches the check from a branch. -/
example : HasKeyOperand (encode [.op 0x63, .push [3], .op 0x67, .push [2], .op 0x68,
    .op opChecksig]) [2] := by decide

/-- The key is passed by another element and a hash. -/
example : HasKeyOperand (encode [.push [2], .op 0x7c, .op 0xa8, .push [9], .op 0x88,
    .op opChecksig]) [2] := by decide

/-! ## Multisig scripts -/

/-- The opcode that pushes a small number. -/
def smallNum (n : ℕ) : Token := .op (UInt8.ofNat (0x50 + n))

/-- `m <key> ... <key> n CHECKMULTISIG`. -/
def multisigTokens (m : ℕ) (keys : List (List UInt8)) : List Token :=
  smallNum m :: (keys.map .push ++ [smallNum keys.length, .op opCheckmultisig])

section
variable {s : Stacks} {rest : List Token} {n most : ℕ}

theorem counts_num (hn : n ≤ 16) (h : n ≤ most) : (Element.num n).counts most = [n] := by
  have hnum : scriptNum (numBytes n) = some (n : ℤ) := by
    interval_cases n <;> decide
  show (((scriptNum (numBytes n)).filter (0 ≤ ·)).toList.map Int.toNat).filter (· ≤ most) = [n]
  rw [hnum]
  simp [Option.filter, h]

theorem keyOperandsFrom_push (hexec : s.executing = true) (data : List UInt8) :
    keyOperandsFrom s (.push data :: rest) = keyOperandsFrom (s.push [.data data]) rest := by
  simp [keyOperandsFrom, keysTaken, step, hexec]

theorem keyOperandsFrom_smallNum (hexec : s.executing = true) (h1 : 1 ≤ n) (h16 : n ≤ 16) :
    keyOperandsFrom s (smallNum n :: rest) = keyOperandsFrom (s.push [.num n]) rest := by
  have htaken : keysTaken s (smallNum n) = [] := by
    have hplain : ∀ n ≤ 16, UInt8.ofNat (0x50 + n) ∉
        [opChecksig, opChecksigverify, opCheckmultisig, opCheckmultisigverify] := by decide
    have hcode := hplain n h16
    simp only [List.mem_cons, List.not_mem_nil, or_false, not_or] at hcode
    rw [smallNum, keysTaken, if_neg (by simp [hexec]), if_neg (by tauto), if_neg (by tauto)]
  have hstep : step s (smallNum n) = [s.push [.num n]] := by
    interval_cases n <;> exact if_pos hexec
  rw [keyOperandsFrom, htaken, hstep, List.nil_append, List.flatMap_singleton]

theorem keyOperandsFrom_pushes (hexec : s.executing = true) (keys : List (List UInt8)) :
    keyOperandsFrom s (keys.map .push ++ rest)
      = keyOperandsFrom (s.push (keys.map .data).reverse) rest := by
  induction keys generalizing s with
  | nil => rfl
  | cons key keys ih =>
    have hpushed : ((s.push [.data key]).push (keys.map .data).reverse) =
        s.push ((key :: keys).map .data).reverse := by
      simp [Stacks.push]
    rw [List.map_cons, List.cons_append, keyOperandsFrom_push hexec,
      ih (s := s.push [.data key]) hexec, hpushed]

/-- The keys between the two counts are taken. -/
theorem exists_mem_multisig {m : ℕ} {keys below : List Element} (hmn : m ≤ keys.length)
    (hn : keys.length ≤ 16) (hmain : s.main = .num keys.length :: (keys ++ .num m :: below)) :
    ∃ s', (keys, s') ∈ multisig s := by
  have hcount : s.peek 0 = .num keys.length := by rw [Stacks.peek, hmain, List.getD_cons_zero]
  have hkeys : (List.range keys.length).map (fun i => s.peek (i + 1)) = keys := by
    refine List.ext_getElem (by simp) fun i hi hi' => ?_
    simp [Stacks.peek, hmain, List.getElem?_append_left hi', List.getElem?_eq_getElem hi']
  have hcount' : (s.drop (keys.length + 1)).peek 0 = .num m := by
    rw [Stacks.peek, Stacks.drop, hmain, List.drop_succ_cons, List.drop_left, List.getD_cons_zero]
  refine ⟨(s.drop (keys.length + 1)).drop (m + 2),
    List.mem_flatMap.mpr ⟨keys.length, ?_, List.mem_map.mpr ⟨m, ?_, ?_⟩⟩⟩
  · rw [hcount, counts_num hn (hn.trans (by decide))]
    exact List.mem_singleton_self _
  · rw [hcount', counts_num (hmn.trans hn) hmn]
    exact List.mem_singleton_self m
  · rw [hkeys]

end

/-- The keys of a multisig script are key operands of it. -/
theorem mem_keyOperands_multisig {m : ℕ} {keys : List (List UInt8)} {key : List UInt8}
    (hm : 1 ≤ m) (hmn : m ≤ keys.length) (hn : keys.length ≤ 16) (hkey : key ∈ keys) :
    key ∈ keyOperands (multisigTokens m keys) := by
  have hlen : (keys.map Element.data).reverse.length = keys.length := by simp
  unfold keyOperands multisigTokens
  rw [keyOperandsFrom_smallNum rfl hm (hmn.trans hn), keyOperandsFrom_pushes rfl,
    keyOperandsFrom_smallNum rfl (hm.trans hmn) hn, keyOperandsFrom, List.mem_append]
  -- the check finds the count, the keys and the number of signatures, in this order
  have hmain : ((((({} : Stacks).push [.num m]).push (keys.map .data).reverse)).push
      [.num keys.length]).main = .num (keys.map Element.data).reverse.length ::
        ((keys.map Element.data).reverse ++ .num m :: []) := by
    rw [hlen]
    rfl
  obtain ⟨s', hfound⟩ := exists_mem_multisig (hmn.trans_eq hlen.symm) (hlen.trans_le hn) hmain
  refine Or.inl (List.mem_flatMap.mpr ⟨_, hfound, List.mem_flatMap.mpr ⟨.data key, ?_, ?_⟩⟩)
  · exact List.mem_reverse.mpr (List.mem_map_of_mem hkey)
  · exact List.mem_singleton_self key

/-- A multisig script over keys of less than 76 bytes has them as key operands. -/
theorem hasKeyOperand_multisig {m : ℕ} {keys : List (List UInt8)} {key : List UInt8}
    (hm : 1 ≤ m) (hmn : m ≤ keys.length) (hn : keys.length ≤ 16)
    (hshort : ∀ k ∈ keys, k.length < 0x4c) (hkey : key ∈ keys) :
    HasKeyOperand (encode (multisigTokens m keys)) key := by
  have hop : ∀ n ≤ 16, opPushdata4 < UInt8.ofNat (0x50 + n) := by decide
  refine ⟨multisigTokens m keys, parse_encode fun t ht => ?_, ?_,
    mem_keyOperands_multisig hm hmn hn hkey⟩
  · rcases List.mem_cons.mp ht with rfl | ht
    · exact hop m (hmn.trans hn)
    · rcases List.mem_append.mp ht with ht | ht
      · obtain ⟨k, hk, rfl⟩ := List.mem_map.mp ht
        exact hshort k hk
      · rcases List.mem_pair.mp ht with rfl | rfl
        · exact hop _ hn
        · show opPushdata4 < opCheckmultisig
          decide
  · exact List.mem_cons_of_mem _ (List.mem_append_left _ (List.mem_map_of_mem hkey))

end Script
