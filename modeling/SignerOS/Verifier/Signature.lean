import SignerOS.Common
import SignerOS.Lib.Der

/-!
# The signatures the verifier reads

`sig64_to_der` and `der_to_sig64` of `make_test_data.py`: the two numbers of a signature, 32 bytes
each, and the DER they travel in.

* `derToSig64_eq_ok_iff`, what is accepted, and what is returned for it;
* `acceptedStrictly_iff`, which of what is accepted is DER;
* `derToSig64_append`, what is written is read back;
* `signatures_strict`, both.
-/

namespace SignerOS

namespace Verifier

/-- What is raised on the way to a signature. -/
inductive Rejected
  | valueError (message : String)
  | indexError
  | overflowError
deriving DecidableEq, Repr

/-! ## The functions -/

/-- `bytes([n])`. -/
def oneByte (n : ℕ) : Except Rejected Bytes :=
  if n < 256 then .ok [UInt8.ofNat n] else .error (.valueError "bytes must be in range(0, 256)")

/-- `v.lstrip(b"\x00") or b"\x00"`. -/
def stripped (v : Bytes) : Bytes := if Der.significant v = [] then [0x00] else Der.significant v

/-- The content of an integer: no zeros ahead of it but the one that keeps it from being negative,
or that is all of it. -/
def minimal (v : Bytes) : Bytes :=
  if (stripped v).headD 0 &&& 0x80 ≠ 0 then 0x00 :: stripped v else stripped v

/-- `enc`. -/
def encodeInteger (v : Bytes) : Except Rejected Bytes := do
  let v := minimal v
  return 0x02 :: ((← oneByte v.length) ++ v)

def sig64ToDer (sig64 : Bytes) : Except Rejected Bytes := do
  let r ← encodeInteger (sig64.take 32)
  let s ← encodeInteger (sig64.drop 32)
  let body := r ++ s
  return 0x30 :: ((← oneByte body.length) ++ body)

/-- `der[i]`. -/
def byteAt (der : Bytes) (i : ℕ) : Except Rejected UInt8 :=
  match der[i]? with
  | some b => .ok b
  | none => .error .indexError

/-- `der[i:j]`, as much of it as there is. -/
def slice (der : Bytes) (i j : ℕ) : Bytes := (der.take j).drop i

/-- `n.to_bytes(32, "big")`. -/
def toBytes32 (n : ℕ) : Except Rejected Bytes :=
  if n < 256 ^ 32 then .ok (Der.bytesOf 32 n) else .error .overflowError

def derToSig64 (der : Bytes) : Except Rejected Bytes :=
  if der.length < 8 ∨ der.getD 0 0 ≠ 0x30 then .error (.valueError "not a DER sequence")
  else if (der.getD 1 0).toNat ≠ der.length - 2 then .error (.valueError "bad DER length")
  else if der.getD 2 0 ≠ 0x02 then .error (.valueError "bad DER r marker")
  else do
    let rlen := (der.getD 3 0).toNat
    let r := Der.natOf (slice der 4 (4 + rlen))
    let off := 4 + rlen
    let marker ← byteAt der off
    if marker ≠ 0x02 then .error (.valueError "bad DER s marker")
    else do
      let slen ← byteAt der (off + 1)
      let s := Der.natOf (slice der (off + 2) (off + 2 + slen.toNat))
      return (← toBytes32 r) ++ (← toBytes32 s)

/-! ## What is accepted -/

/-- A string as it is read: `r` is as long as `rlen` says, and `s` is the first `slen` bytes of what
is left, or all of it. -/
structure Parts where
  len : UInt8
  rlen : UInt8
  r : Bytes
  slen : UInt8
  rest : Bytes

namespace Parts

def bytes (p : Parts) : Bytes :=
  0x30 :: p.len :: 0x02 :: p.rlen :: (p.r ++ 0x02 :: p.slen :: p.rest)

def s (p : Parts) : Bytes := p.rest.take p.slen.toNat

/-- The tests that are made of it. -/
structure Passes (p : Parts) : Prop where
  length : 8 ≤ p.bytes.length
  len : p.len.toNat = p.bytes.length - 2
  rlen : p.rlen.toNat = p.r.length
  fits_r : (Der.significant p.r).length ≤ 32
  fits_s : (Der.significant p.s).length ≤ 32

/-- The two numbers that are returned. -/
def sig64 (p : Parts) : Bytes :=
  Der.bytesOf 32 (Der.natOf p.r) ++ Der.bytesOf 32 (Der.natOf p.s)

theorem length_bytes (p : Parts) : p.bytes.length = 6 + p.r.length + p.rest.length := by
  simp only [bytes, List.length_cons, List.length_append]
  omega

end Parts

theorem slice_append (front back : Bytes) (k : ℕ) :
    slice (front ++ back) front.length (front.length + k) = back.take k := by
  rw [slice, List.take_length_add_append, List.drop_left]

theorem byteAt_append (front : Bytes) (b : UInt8) (back : Bytes) :
    byteAt (front ++ b :: back) front.length = .ok b := by
  rw [byteAt, List.getElem?_append_right le_rfl, Nat.sub_self, List.getElem?_cons_zero]

/-- What is left to test once a string has been read into its parts. -/
theorem derToSig64_bytes (p : Parts) (hr : p.rlen.toNat = p.r.length) :
    derToSig64 p.bytes =
      if p.bytes.length < 8 then .error (.valueError "not a DER sequence")
      else if p.len.toNat ≠ p.bytes.length - 2 then .error (.valueError "bad DER length")
      else do return (← toBytes32 (Der.natOf p.r)) ++ (← toBytes32 (Der.natOf p.s)) := by
  have hoff : ([0x30, p.len, 0x02, p.rlen] ++ p.r).length = 4 + p.rlen.toNat := by
    rw [List.length_append, hr]
    rfl
  have hbehind : ([0x30, p.len, 0x02, p.rlen] ++ p.r ++ [0x02]).length = 4 + p.rlen.toNat + 1 := by
    rw [List.length_append, hoff]
    rfl
  have hend : ([0x30, p.len, 0x02, p.rlen] ++ p.r ++ [0x02, p.slen]).length
      = 4 + p.rlen.toNat + 2 := by
    rw [List.length_append, hoff]
    rfl
  have hrslice : slice p.bytes 4 (4 + p.rlen.toNat) = p.r := by
    have h := slice_append [0x30, p.len, 0x02, p.rlen] (p.r ++ 0x02 :: p.slen :: p.rest) p.r.length
    rw [List.take_left, ← hr] at h
    exact h
  have hmarker : byteAt p.bytes (4 + p.rlen.toNat) = .ok 0x02 := by
    have h := byteAt_append ([0x30, p.len, 0x02, p.rlen] ++ p.r) 0x02 (p.slen :: p.rest)
    rwa [hoff, List.append_assoc] at h
  have hslen : byteAt p.bytes (4 + p.rlen.toNat + 1) = .ok p.slen := by
    have h := byteAt_append ([0x30, p.len, 0x02, p.rlen] ++ p.r ++ [0x02]) p.slen p.rest
    rwa [hbehind, List.append_assoc, List.append_assoc] at h
  have hsslice : slice p.bytes (4 + p.rlen.toNat + 2) (4 + p.rlen.toNat + 2 + p.slen.toNat)
      = p.s := by
    have h := slice_append ([0x30, p.len, 0x02, p.rlen] ++ p.r ++ [0x02, p.slen]) p.rest
      p.slen.toNat
    rwa [hend, List.append_assoc, List.append_assoc] at h
  have hhead : ¬ p.bytes.getD 0 0 ≠ 0x30 := fun h => h rfl
  have hmark : ¬ p.bytes.getD 2 0 ≠ 0x02 := fun h => h rfl
  have hlen : p.bytes.getD 1 0 = p.len := rfl
  have hrlen : p.bytes.getD 3 0 = p.rlen := rfl
  rw [derToSig64, hlen, hrlen, if_neg hmark]
  dsimp only
  rw [hrslice, hmarker, hslen]
  by_cases hshort : p.bytes.length < 8
  · rw [if_pos (Or.inl hshort), if_pos hshort]
  · rw [if_neg (not_or.mpr ⟨hshort, hhead⟩), if_neg hshort, ← hsslice]
    rfl

theorem byteAt_eq_ok {der : Bytes} {i : ℕ} {b : UInt8} :
    byteAt der i = .ok b ↔ der[i]? = some b := by
  unfold byteAt
  cases der[i]? <;> simp

theorem drop_eq_cons {tail : Bytes} {i : ℕ} {b : UInt8} (h : tail[i]? = some b) :
    tail.drop i = b :: tail.drop (i + 1) := by
  obtain ⟨hi, rfl⟩ := List.getElem?_eq_some_iff.mp h
  exact List.drop_eq_getElem_cons hi

/-- Nothing is accepted that cannot be read into parts. -/
theorem exists_parts {der sig : Bytes} (h : derToSig64 der = .ok sig) :
    ∃ p : Parts, p.bytes = der ∧ p.rlen.toNat = p.r.length := by
  unfold derToSig64 at h
  split_ifs at h with hhead hlen hmark
  rw [not_or, not_not] at hhead
  rw [not_not] at hmark
  obtain ⟨c0, c1, c2, rlen, tail, rfl⟩ :
      ∃ c0 c1 c2 rlen tail, der = c0 :: c1 :: c2 :: rlen :: tail := by
    match der, hhead.1 with
    | c0 :: c1 :: c2 :: rlen :: tail, _ => exact ⟨c0, c1, c2, rlen, tail, rfl⟩
    | [], hlong => exact absurd (Nat.succ_pos _) hlong
    | [_], hlong => exact absurd (by simp) hlong
    | [_, _], hlong => exact absurd (by simp) hlong
    | [_, _, _], hlong => exact absurd (by simp) hlong
  have h0 : c0 = 0x30 := hhead.2
  have h2 : c2 = 0x02 := hmark
  have h3 : (c0 :: c1 :: c2 :: rlen :: tail).getD 3 0 = rlen := rfl
  rw [h3] at h
  dsimp only at h
  match hmarker : byteAt (c0 :: c1 :: c2 :: rlen :: tail) (4 + rlen.toNat) with
  | .error e =>
    rw [hmarker] at h
    cases h
  | .ok marker =>
    rw [hmarker] at h
    change (if marker ≠ 0x02 then _ else _) = _ at h
    split_ifs at h with hsecond
    rw [not_not] at hsecond
    match hslen : byteAt (c0 :: c1 :: c2 :: rlen :: tail) (4 + rlen.toNat + 1) with
    | .error e =>
      rw [hslen] at h
      cases h
    | .ok slen =>
      have hindex : 4 + rlen.toNat = rlen.toNat + 1 + 1 + 1 + 1 := by omega
      rw [byteAt_eq_ok, hindex] at hmarker hslen
      have hdropMarker := drop_eq_cons (show tail[rlen.toNat]? = some marker from hmarker)
      have hdropSlen := drop_eq_cons (show tail[rlen.toNat + 1]? = some slen from hslen)
      have hin := (List.getElem?_eq_some_iff.mp (show tail[rlen.toNat]? = some marker from hmarker)).1
      refine ⟨⟨c1, rlen, tail.take rlen.toNat, slen, tail.drop (rlen.toNat + 2)⟩, ?_, ?_⟩
      · rw [h0, h2, Parts.bytes, ← hdropSlen, ← hsecond, ← hdropMarker, List.take_append_drop]
      · rw [List.length_take, Nat.min_eq_left (by omega)]

theorem toBytes32_eq_ok {n : ℕ} {b : Bytes} :
    toBytes32 n = .ok b ↔ n < 256 ^ 32 ∧ Der.bytesOf 32 n = b := by
  rw [toBytes32]
  split
  · next h => rw [Except.ok.injEq, and_iff_right h]
  · next h => simp only [reduceCtorEq, h, false_and]

theorem bind_eq_ok {α β : Type} {x : Except Rejected α} {f : α → Except Rejected β} {b : β} :
    (x >>= f) = .ok b ↔ ∃ a, x = .ok a ∧ f a = .ok b := by
  cases x with
  | error e => simp [bind, Except.bind]
  | ok a => simp [bind, Except.bind]

theorem pure_eq_ok {α : Type} {a b : α} : (pure a : Except Rejected α) = .ok b ↔ a = b := by
  simp [pure, Except.pure]

theorem toBytes32_pair_eq_ok {m n : ℕ} {sig : Bytes} :
    (do return (← toBytes32 m) ++ (← toBytes32 n) : Except Rejected Bytes) = .ok sig ↔
      m < 256 ^ 32 ∧ n < 256 ^ 32 ∧ Der.bytesOf 32 m ++ Der.bytesOf 32 n = sig := by
  simp only [bind_eq_ok, pure_eq_ok, toBytes32_eq_ok]
  constructor
  · rintro ⟨_, ⟨hm, rfl⟩, _, ⟨hn, rfl⟩, h⟩
    exact ⟨hm, hn, h⟩
  · rintro ⟨hm, hn, h⟩
    exact ⟨_, ⟨hm, rfl⟩, _, ⟨hn, rfl⟩, h⟩

/-- What is accepted, and what is returned for it. -/
theorem derToSig64_eq_ok_iff {der sig : Bytes} :
    derToSig64 der = .ok sig ↔ ∃ p : Parts, p.bytes = der ∧ p.Passes ∧ p.sig64 = sig := by
  constructor
  · intro h
    obtain ⟨p, rfl, hr⟩ := exists_parts h
    rw [derToSig64_bytes p hr] at h
    split_ifs at h with hshort hlen
    rw [not_not] at hlen
    obtain ⟨hfitr, hfits, hsig⟩ := toBytes32_pair_eq_ok.mp h
    exact ⟨p, rfl, ⟨by omega, hlen, hr, Der.natOf_lt_iff.mp hfitr, Der.natOf_lt_iff.mp hfits⟩, hsig⟩
  · rintro ⟨p, rfl, hp, hsig⟩
    have hlong := hp.length
    rw [derToSig64_bytes p hp.rlen, if_neg (by omega), if_neg (not_not_intro hp.len)]
    exact toBytes32_pair_eq_ok.mpr
      ⟨Der.natOf_lt_iff.mpr hp.fits_r, Der.natOf_lt_iff.mpr hp.fits_s, hsig⟩

/-! ## What is DER -/

/-- The whole string is a sequence of two integers that are not negative and have no more than 32
bytes that count. -/
structure IsSignature (der r s : Bytes) : Prop where
  sequence : der = Der.element 0x30 (Der.element 0x02 r ++ Der.element 0x02 s)
  nonNeg_r : Der.NonNeg r
  nonNeg_s : Der.NonNeg s
  fits_r : (Der.significant r).length ≤ 32
  fits_s : (Der.significant s).length ≤ 32

/-- If the string is accepted, it is a signature, and its two numbers are what is returned. -/
def AcceptedStrictly (der : Bytes) : Prop :=
  ∀ sig, derToSig64 der = .ok sig → ∃ r s, IsSignature der r s ∧
    sig = Der.bytesOf 32 (Der.natOf r) ++ Der.bytesOf 32 (Der.natOf s)

/-- What the tests leave out: the length of the sequence is one that one byte can say, each integer
has a byte and its first one is below 128, and the second one ends where the string does. -/
structure Parts.Tight (p : Parts) : Prop where
  short : p.len < 128
  nonNeg_r : Der.NonNeg p.r
  slen : p.slen.toNat = p.rest.length
  nonNeg_s : Der.NonNeg p.rest

section
variable {p : Parts}

/-- Two short integers, one behind the other. -/
theorem sequence_eq {r s : Bytes} (h : r.length + s.length + 4 < 128) :
    Der.element 0x30 (Der.element 0x02 r ++ Der.element 0x02 s) =
      Parts.bytes ⟨UInt8.ofNat (r.length + s.length + 4), UInt8.ofNat r.length, r,
        UInt8.ofNat s.length, s⟩ := by
  have hr : Der.element 0x02 r = 0x02 :: UInt8.ofNat r.length :: r := Der.element_of_lt _ (by omega)
  have hs : Der.element 0x02 s = 0x02 :: UInt8.ofNat s.length :: s := Der.element_of_lt _ (by omega)
  have hlen : (Der.element 0x02 r ++ Der.element 0x02 s).length = r.length + s.length + 4 := by
    rw [hr, hs]
    simp only [List.length_append, List.length_cons]
    omega
  rw [Der.element_of_lt 0x30 (by omega), hlen, hr, hs]
  rfl

theorem Parts.Tight.s_eq (ht : p.Tight) : p.s = p.rest := by
  rw [Parts.s, ht.slen, List.take_length]

theorem Parts.Tight.isSignature (ht : p.Tight) (hp : p.Passes) : IsSignature p.bytes p.r p.rest := by
  have hshort : p.len.toNat < 128 := UInt8.lt_iff_toNat_lt.mp ht.short
  have hbytes := p.length_bytes
  have hlen := hp.len
  have hbody : p.r.length + p.rest.length + 4 < 128 := by omega
  have hsum : p.r.length + p.rest.length + 4 = p.len.toNat := by omega
  refine ⟨?_, ht.nonNeg_r, ht.nonNeg_s, hp.fits_r, ht.s_eq ▸ hp.fits_s⟩
  rw [sequence_eq hbody, hsum, ← hp.rlen, ← ht.slen, UInt8.ofNat_toNat, UInt8.ofNat_toNat,
    UInt8.ofNat_toNat]

/-- A longer length is not the one byte that is read as it. -/
theorem Parts.Passes.short_of_isSignature (hp : p.Passes) {r s : Bytes}
    (h : IsSignature p.bytes r s) : r.length + s.length + 4 < 128 := by
  have hsequence := h.sequence
  have hlen := hp.len
  have hlong := hp.length
  have hlenlt := p.len.toNat_lt
  have hrlen := Der.length_element 0x02 r
  have hslen := Der.length_element 0x02 s
  have hrpos := Der.length_octets_pos r.length
  have hspos := Der.length_octets_pos s.length
  have hlength : p.bytes.length =
      1 + (Der.octets (Der.element 0x02 r ++ Der.element 0x02 s).length).length
        + (Der.element 0x02 r ++ Der.element 0x02 s).length := by
    rw [hsequence, Der.length_element]
  rw [Der.element] at hsequence
  rw [List.length_append] at hsequence hlength
  by_contra hle
  obtain ⟨htwo, hoctets⟩ := Der.octets_of_le
    (show 128 ≤ (Der.element 0x02 r).length + (Der.element 0x02 s).length by omega)
  have hlt : (Der.element 0x02 r).length + (Der.element 0x02 s).length < 256 := by omega
  -- two bytes of length, the first of them 129 and the second at least 128
  rw [hoctets hlt] at hsequence hlength
  simp only [Parts.bytes, List.cons_append, List.cons.injEq, true_and] at hsequence
  obtain ⟨hfirst, hsecond, -⟩ := hsequence
  have hsecond' := congrArg UInt8.toNat hsecond
  rw [Der.toNat_ofNat_of_lt hlt] at hsecond'
  change 2 = _ at hsecond'
  omega

theorem Parts.Passes.tight_of_isSignature (hp : p.Passes) {r s : Bytes}
    (h : IsSignature p.bytes r s) : p.Tight := by
  have hshort := hp.short_of_isSignature h
  have hbytes := h.sequence
  rw [sequence_eq hshort] at hbytes
  simp only [Parts.bytes, List.cons.injEq, true_and] at hbytes
  obtain ⟨hlen, hrlen, htail⟩ := hbytes
  have hrlength : p.r.length = r.length := by
    rw [← hp.rlen, hrlen, Der.toNat_ofNat_of_lt (by omega)]
  obtain ⟨hr, hrest⟩ := List.append_inj htail hrlength
  simp only [List.cons.injEq, true_and] at hrest
  obtain ⟨hslen, hs⟩ := hrest
  refine ⟨?_, hr ▸ h.nonNeg_r, ?_, hs ▸ h.nonNeg_s⟩
  · rw [hlen, UInt8.lt_iff_toNat_lt, Der.toNat_ofNat_of_lt (by omega)]
    exact hshort
  · rw [hslen, hs, Der.toNat_ofNat_of_lt (by omega)]

end

/-- A string is accepted strictly exactly if the tests that are left out would have let it pass. -/
theorem acceptedStrictly_iff (der : Bytes) :
    AcceptedStrictly der ↔ ∀ p : Parts, p.bytes = der → p.Passes → p.Tight := by
  constructor
  · rintro h p rfl hp
    obtain ⟨r, s, hsig, -⟩ := h p.sig64 (derToSig64_eq_ok_iff.mpr ⟨p, rfl, hp, rfl⟩)
    exact hp.tight_of_isSignature hsig
  · intro h sig hok
    obtain ⟨p, rfl, hp, rfl⟩ := derToSig64_eq_ok_iff.mp hok
    have ht := h p rfl hp
    exact ⟨p.r, p.rest, ht.isSignature hp, by rw [Parts.sig64, ht.s_eq]⟩

/-! ## What is written -/

theorem lt_of_and_eq_zero {b : UInt8} (h : b &&& 0x80 = 0) : b < 0x80 := by
  obtain ⟨b⟩ := b
  revert b
  decide

section
variable (v : Bytes)

theorem natOf_stripped : Der.natOf (stripped v) = Der.natOf v := by
  rw [stripped, ← Der.natOf_significant v]
  split
  · next hnil => rw [hnil, Der.natOf_zero_cons]
  · rfl

theorem stripped_ne_nil : stripped v ≠ [] := by
  rw [stripped]
  split
  · exact List.cons_ne_nil _ _
  · next hne => exact hne

theorem length_stripped_le : (stripped v).length ≤ v.length + 1 := by
  have hle : (Der.significant v).length ≤ v.length := (List.dropWhile_sublist _).length_le
  rw [stripped]
  split
  · exact Nat.succ_le_succ (Nat.zero_le _)
  · omega

theorem natOf_minimal : Der.natOf (minimal v) = Der.natOf v := by
  rw [minimal]
  split
  · rw [Der.natOf_zero_cons, natOf_stripped]
  · rw [natOf_stripped]

theorem nonNeg_minimal : Der.NonNeg (minimal v) := by
  rw [minimal]
  split
  · exact ⟨List.cons_ne_nil _ _, show (0 : UInt8) < 0x80 by decide⟩
  · next hbit => exact ⟨stripped_ne_nil v, lt_of_and_eq_zero (not_not.mp hbit)⟩

theorem length_minimal_le : (minimal v).length ≤ v.length + 2 := by
  have hle := length_stripped_le v
  rw [minimal]
  split
  · exact Nat.succ_le_succ hle
  · omega

end

theorem fits_minimal {v : Bytes} (h : v.length = 32) : (Der.significant (minimal v)).length ≤ 32 := by
  rw [← Der.natOf_lt_iff, natOf_minimal, ← h]
  exact Der.natOf_lt v

theorem oneByte_of_lt {n : ℕ} (h : n < 256) : oneByte n = .ok [UInt8.ofNat n] := if_pos h

theorem encodeInteger_eq {v : Bytes} (h : v.length = 32) :
    encodeInteger v = .ok (Der.element 0x02 (minimal v)) := by
  have hle := length_minimal_le v
  rw [encodeInteger, oneByte_of_lt (by omega), Der.element_of_lt 0x02 (by omega)]
  rfl

section
variable {r s : Bytes} (hr : r.length = 32) (hs : s.length = 32)
include hr hs

/-- What is written is a sequence of two short integers. -/
theorem sig64ToDer_append : sig64ToDer (r ++ s) =
    .ok (Der.element 0x30 (Der.element 0x02 (minimal r) ++ Der.element 0x02 (minimal s))) := by
  have hrle := length_minimal_le r
  have hsle := length_minimal_le s
  have hbody : (Der.element 0x02 (minimal r) ++ Der.element 0x02 (minimal s)).length < 128 := by
    rw [List.length_append, Der.length_element_of_lt 0x02 (by omega),
      Der.length_element_of_lt 0x02 (by omega)]
    omega
  have hfront : (r ++ s).take 32 = r := by rw [← hr, List.take_left]
  have hback : (r ++ s).drop 32 = s := by rw [← hr, List.drop_left]
  rw [sig64ToDer, hfront, hback, encodeInteger_eq hr, encodeInteger_eq hs,
    Der.element_of_lt 0x30 hbody]
  simp only [bind, Except.bind]
  rw [oneByte_of_lt (by omega)]
  rfl

/-- What is written is DER. -/
theorem sig64ToDer_isSignature :
    ∃ der, sig64ToDer (r ++ s) = .ok der ∧ IsSignature der (minimal r) (minimal s) :=
  ⟨_, sig64ToDer_append hr hs,
    ⟨rfl, nonNeg_minimal r, nonNeg_minimal s, fits_minimal hr, fits_minimal hs⟩⟩

/-- What is written is read back. -/
theorem derToSig64_append : (sig64ToDer (r ++ s) >>= derToSig64) = .ok (r ++ s) := by
  have hrle := length_minimal_le r
  have hsle := length_minimal_le s
  have hrpos := List.length_pos_iff.mpr (nonNeg_minimal r).1
  have hspos := List.length_pos_iff.mpr (nonNeg_minimal s).1
  have hlen : (minimal s).take (UInt8.ofNat (minimal s).length).toNat = minimal s := by
    rw [Der.toNat_ofNat_of_lt (by omega), List.take_length]
  rw [sig64ToDer_append hr hs, sequence_eq (by omega)]
  refine derToSig64_eq_ok_iff.mpr ⟨_, rfl, ⟨?_, ?_, ?_, fits_minimal hr, ?_⟩, ?_⟩
  · rw [Parts.length_bytes]
    dsimp only
    omega
  · rw [Parts.length_bytes, Der.toNat_ofNat_of_lt (by omega)]
    dsimp only
    omega
  · exact Der.toNat_ofNat_of_lt (by omega)
  · rw [Parts.s, hlen]
    exact fits_minimal hs
  · rw [Parts.sig64, Parts.s, hlen, natOf_minimal, natOf_minimal, ← hr, Der.bytesOf_natOf, hr, ← hs,
      Der.bytesOf_natOf]

end

/-- What is written is read back, and what is accepted is strict DER exactly if the tests that are
left out would have let it pass. -/
theorem signatures_strict (der : Bytes) :
    (∀ sig64 : Bytes, sig64.length = 64 → (sig64ToDer sig64 >>= derToSig64) = .ok sig64) ∧
    (AcceptedStrictly der ↔ ∀ p : Parts, p.bytes = der → p.Passes → p.Tight) := by
  constructor
  · intro sig64 h
    have hr : (sig64.take 32).length = 32 := by rw [List.length_take, h]; rfl
    have hs : (sig64.drop 32).length = 32 := by rw [List.length_drop, h]
    have hread := derToSig64_append hr hs
    rwa [List.take_append_drop] at hread
  · exact acceptedStrictly_iff der

/-- A byte behind the second integer, inside the length of the sequence. -/
theorem trailing_byte_accepted :
    derToSig64 [0x30, 0x07, 0x02, 0x01, 0x01, 0x02, 0x01, 0x01, 0xff] =
      .ok (Der.bytesOf 32 1 ++ Der.bytesOf 32 1) ∧
    ¬ AcceptedStrictly [0x30, 0x07, 0x02, 0x01, 0x01, 0x02, 0x01, 0x01, 0xff] := by
  let p : Parts := ⟨0x07, 0x01, [0x01], 0x01, [0x01, 0xff]⟩
  have hp : p.Passes := ⟨by decide, by decide, by decide, by decide, by decide⟩
  constructor
  · exact derToSig64_eq_ok_iff.mpr ⟨p, rfl, hp, rfl⟩
  · rw [acceptedStrictly_iff]
    intro h
    exact absurd (h p rfl hp).slen (by decide)

end Verifier

end SignerOS
