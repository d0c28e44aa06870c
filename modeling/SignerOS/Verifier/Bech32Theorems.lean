import SignerOS.Verifier.Bech32
import SignerOS.Verifier.HdKeyTheorems

/-!
# What the verifier's addresses say

* `convertBits_convertBits`, bytes as symbols of five bits, and back;
* `polymod_eq_const_iff`, the only checksum that is accepted;
* `bech32Encode_injective`, an address says what it is the address of;
* `bech32Encode_distance`, up to three wrong characters do not make another address.
-/

namespace SignerOS

namespace Verifier

/-! ## Symbols of other widths -/

/-- Between two turns of the outer loop: the symbols so far are `acc` but for its last bits. -/
structure Converted (t acc : ℕ) (total : ℕ) (s : ℕ × List ℕ) : Prop where
  bits : s.1 < t
  length : t * s.2.length + s.1 = total
  lt : ∀ d ∈ s.2, d < 2 ^ t
  value : Radix.value (2 ^ t) s.2 = acc / 2 ^ s.1

section
variable {f t : ℕ}

theorem and_mask (n : ℕ) : n &&& (1 <<< t - 1) = n % 2 ^ t := by
  rw [Nat.one_shiftLeft, Nat.and_two_pow_sub_one_eq_mod]

/-- The inner loop takes whole symbols out of the bits that wait. -/
theorem converted_emitBits (ht : 0 < t) (acc : ℕ) {turns bits total : ℕ} {ret : List ℕ}
    (hturns : bits ≤ turns) (hlength : t * ret.length + bits = total) (hlt : ∀ d ∈ ret, d < 2 ^ t)
    (hvalue : Radix.value (2 ^ t) ret = acc / 2 ^ bits) :
    Converted t acc total (emitBits t acc turns bits ret) := by
  induction turns generalizing bits ret with
  | zero =>
    obtain rfl := Nat.le_zero.mp hturns
    exact ⟨ht, hlength, hlt, hvalue⟩
  | succ turns ih =>
    rw [emitBits]
    split
    · next hle =>
      rw [and_mask, Nat.shiftRight_eq_div_pow]
      refine ih (by omega) ?_ ?_ ?_
      · rw [List.length_append, List.length_singleton, Nat.mul_add, Nat.mul_one]
        omega
      · intro d hd
        obtain h | h := List.mem_append.mp hd
        · exact hlt d h
        · rw [List.mem_singleton.mp h]
          exact Nat.mod_lt _ (Nat.two_pow_pos t)
      · have hdiv : acc / 2 ^ bits = acc / 2 ^ (bits - t) / 2 ^ t := by
          rw [Nat.div_div_eq_div_mul, ← pow_add, Nat.sub_add_cancel hle]
        rw [Radix.value_concat, hvalue, hdiv, Nat.mod_add_div]
    · next hlt' => exact ⟨Nat.lt_of_not_le hlt', hlength, hlt, hvalue⟩

theorem converted_foldl (ht : 0 < t) {data : List ℕ} (hdata : ∀ d ∈ data, d < 2 ^ f) :
    (data.foldl (convertStep f t) (0, 0, [])).1 = Radix.value (2 ^ f) data ∧
      Converted t (Radix.value (2 ^ f) data) (f * data.length)
        (data.foldl (convertStep f t) (0, 0, [])).2 := by
  induction data using List.reverseRecOn with
  | nil =>
    refine ⟨rfl, ht, rfl, fun d hd => absurd hd List.not_mem_nil, ?_⟩
    exact (Nat.zero_div _).symm
  | append_singleton data v ih =>
    rw [List.forall_mem_append, List.forall_mem_singleton] at hdata
    obtain ⟨hacc, hs⟩ := ih hdata.1
    rw [List.foldl_append, List.foldl_cons, List.foldl_nil]
    have hnext : Radix.value (2 ^ f) data <<< f ||| v = Radix.value (2 ^ f) (data ++ [v]) := by
      rw [← Nat.shiftLeft_add_eq_or_of_lt hdata.2, Radix.value_concat, Nat.shiftLeft_eq]
      ring
    refine ⟨?_, ?_⟩
    · rw [convertStep, hacc]
      exact hnext
    · rw [convertStep, hacc, hnext]
      refine converted_emitBits ht _ (Nat.le_refl _) ?_ hs.lt ?_
      · rw [List.length_append, List.length_singleton, Nat.mul_add, Nat.mul_one, ← hs.length,
          Nat.add_assoc]
      · have hdiv : Radix.value (2 ^ f) (data ++ [v]) / 2 ^ f = Radix.value (2 ^ f) data := by
          rw [Radix.value_concat, Nat.add_mul_div_left _ _ (Nat.two_pow_pos f),
            Nat.div_eq_of_lt hdata.2, Nat.zero_add]
        rw [hs.value, Nat.add_comm, pow_add, ← Nat.div_div_eq_div_mul, hdiv]

/-- What is written with a last symbol that is filled up with zeros. -/
structure Padded (f t : ℕ) (data out : List ℕ) (z : ℕ) : Prop where
  zeros : z < t
  length : t * out.length = f * data.length + z
  lt : ∀ d ∈ out, d < 2 ^ t
  value : Radix.value (2 ^ t) out = Radix.value (2 ^ f) data * 2 ^ z

theorem exists_padded (ht : 0 < t) {data : List ℕ} (hdata : ∀ d ∈ data, d < 2 ^ f) :
    ∃ z, Padded f t data (convertBits data f t) z := by
  obtain ⟨hacc, hs⟩ := converted_foldl ht hdata
  rw [convertBits]
  generalize data.foldl (convertStep f t) (0, 0, []) = s at hacc hs ⊢
  obtain ⟨acc, bits, ret⟩ := s
  obtain rfl : acc = Radix.value (2 ^ f) data := hacc
  obtain ⟨hbits, hlength, hlt, hvalue⟩ := hs
  dsimp only at hbits hlength hlt hvalue ⊢
  rw [Bool.true_and]
  split
  · next hne =>
    rw [decide_eq_true_iff] at hne
    refine ⟨t - bits, by omega, ?_, ?_, ?_⟩
    · rw [List.length_append, List.length_singleton, Nat.mul_add, Nat.mul_one]
      omega
    · intro d hd
      obtain h | h := List.mem_append.mp hd
      · exact hlt d h
      · rw [List.mem_singleton.mp h, and_mask]
        exact Nat.mod_lt _ (Nat.two_pow_pos t)
    · have hpow : 2 ^ t = 2 ^ bits * 2 ^ (t - bits) := by
        rw [← pow_add, Nat.add_sub_cancel' hbits.le]
      have hdiv : Radix.value (2 ^ f) data * 2 ^ (t - bits) / 2 ^ t
          = Radix.value (2 ^ f) data / 2 ^ bits := by
        conv_lhs => rw [hpow]
        exact Nat.mul_div_mul_right _ _ (Nat.two_pow_pos _)
      rw [Radix.value_concat, and_mask, Nat.shiftLeft_eq, hvalue, ← hdiv, Nat.mod_add_div]
  · next hzero =>
    rw [decide_eq_true_iff, not_not] at hzero
    refine ⟨0, ht, by omega, hlt, ?_⟩
    rw [hvalue, hzero, pow_zero, Nat.div_one, Nat.mul_one]

/-- Nothing is lost if the symbols are not wider than what they are made of. -/
theorem convertBits_convertBits (ht : 0 < t) (hle : t ≤ f) {data : List ℕ}
    (hdata : ∀ d ∈ data, d < 2 ^ f) : convertBits (convertBits data f t) t f false = data := by
  obtain ⟨z, hp⟩ := exists_padded ht hdata
  have hf : 0 < f := by omega
  obtain ⟨hacc, hs⟩ := converted_foldl (f := t) hf hp.lt
  have hlength := hs.length
  rw [hp.length] at hlength
  -- as many symbols as there were, and the zeros are left over
  have hz : z < f := by have := hp.zeros; omega
  have hcount := congrArg (· / f) hlength
  rw [Nat.mul_add_div hf, Nat.mul_add_div hf, Nat.div_eq_of_lt hs.bits, Nat.div_eq_of_lt hz,
    Nat.add_zero, Nat.add_zero] at hcount
  have hrest := congrArg (· % f) hlength
  rw [Nat.mul_add_mod, Nat.mul_add_mod, Nat.mod_eq_of_lt hs.bits, Nat.mod_eq_of_lt hz] at hrest
  have hvalue := hs.value
  rw [hrest, hp.value, Nat.mul_div_cancel _ (Nat.two_pow_pos z)] at hvalue
  have hone : 1 < 2 ^ f := Nat.one_lt_two_pow (by omega)
  rw [convertBits]
  dsimp only
  rw [Bool.false_and, if_neg Bool.false_ne_true]
  exact Radix.value_injective hone hcount hs.lt hdata hvalue

end

/-! ## The checksum -/

theorem polymod_eq_run (values : List ℕ) : polymod values = LinearChecksum.run feedback 1 values :=
  foldl_polymodStep 1 values

theorem feedback_of_lt {chk : ℕ} (h : chk < 2 ^ 25) : feedback chk = 32 * chk := by
  have hlow : chk &&& 0x1FFFFFF = chk :=
    (Nat.and_two_pow_sub_one_eq_mod chk 25).trans (Nat.mod_eq_of_lt h)
  have hgens : gens 0 = 0 := rfl
  rw [feedback_eq, hlow, Nat.shiftRight_eq_zero _ _ h, hgens, Nat.xor_zero, Nat.shiftLeft_eq,
    Nat.mul_comm]

theorem xor_eq_add (n : ℕ) {d : ℕ} (h : d < 32) : 32 * n ^^^ d = d + 32 * n := by
  have h5 : d < 2 ^ 5 := h
  refine Nat.eq_of_testBit_eq fun i => ?_
  rw [Nat.add_comm, Nat.testBit_xor, show 32 * n = 2 ^ 5 * n from rfl,
    Nat.testBit_two_pow_mul_add n h5, Nat.testBit_two_pow_mul]
  split
  · next hlt => simp [Nat.not_le_of_lt hlt]
  · next hge =>
    have hd : d.testBit i = false :=
      Nat.testBit_lt_two_pow (h5.trans_le (Nat.pow_le_pow_right (by decide) (by omega)))
    rw [hd, Bool.xor_false, decide_eq_true (Nat.le_of_not_lt hge), Bool.true_and]

/-- Six symbols fill the register and are not fed back. -/
theorem run_eq_value {cs : List ℕ} (hlength : cs.length ≤ 6) (hcs : ∀ d ∈ cs, d < 32) :
    LinearChecksum.run feedback 0 cs = Radix.value 32 cs := by
  induction cs using List.reverseRecOn with
  | nil => rfl
  | append_singleton cs d ih =>
    rw [List.length_append, List.length_singleton] at hlength
    rw [List.forall_mem_append, List.forall_mem_singleton] at hcs
    have hlt := Radix.value_lt (by decide) hcs.1
    have hpow : 32 ^ cs.length ≤ 32 ^ 5 := Nat.pow_le_pow_right (by decide) (by omega)
    rw [LinearChecksum.run_append, ih (by omega) hcs.1, LinearChecksum.run_cons,
      LinearChecksum.run_nil, feedback_of_lt (hlt.trans_le hpow), xor_eq_add _ hcs.2,
      Radix.value_concat]

theorem polymod_append (values : List ℕ) {cs : List ℕ} (hlength : cs.length = 6)
    (hcs : ∀ d ∈ cs, d < 32) : polymod (values ++ cs) =
      polymod (values ++ [0, 0, 0, 0, 0, 0]) ^^^ Radix.value 32 cs := by
  have hzeros : Radix.value 32 [0, 0, 0, 0, 0, 0] = 0 := rfl
  rw [polymod_eq_run, polymod_eq_run, LinearChecksum.run_append, LinearChecksum.run_append,
    LinearChecksum.run_eq_xor linear_feedback _ cs, run_eq_value hlength.le hcs,
    LinearChecksum.run_eq_xor linear_feedback _ [0, 0, 0, 0, 0, 0],
    run_eq_value (by decide) (by decide), hzeros, Nat.xor_zero, hlength]
  rfl

theorem polymod_zeros_lt (values : List ℕ) :
    polymod (values ++ [0, 0, 0, 0, 0, 0]) < 2 ^ 30 := by
  rw [polymod_eq_run, LinearChecksum.run_append, LinearChecksum.run_eq_xor linear_feedback,
    run_eq_value (by decide) (by decide)]
  refine Nat.xor_lt_two_pow ?_ (by decide)
  rw [List.length_cons, Function.iterate_succ_apply']
  exact feedback_lt _

theorem bech32Const_lt (witver : ℕ) : bech32Const witver < 2 ^ 30 := by
  rw [bech32Const]
  split <;> decide

theorem bech32Checksum_eq (hrp : String) (witver : ℕ) (data : List ℕ) :
    bech32Checksum hrp witver data = Radix.fixed 32 6
      (polymod (hrpExpand hrp ++ data ++ [0, 0, 0, 0, 0, 0]) ^^^ bech32Const witver) := by
  have hand (n : ℕ) : n &&& 31 = n % 32 := Nat.and_two_pow_sub_one_eq_mod n 5
  rw [bech32Checksum]
  simp only [hand, List.range, List.range.loop, List.map_cons, List.map_nil, Radix.fixed,
    Nat.shiftRight_eq_div_pow, Nat.div_div_eq_div_mul, List.nil_append, List.cons_append]
  norm_num

/-- Exactly one checksum is accepted. -/
theorem polymod_eq_const_iff (hrp : String) (witver : ℕ) (data : List ℕ) {cs : List ℕ}
    (hlength : cs.length = 6) (hcs : ∀ d ∈ cs, d < 32) :
    polymod (hrpExpand hrp ++ data ++ cs) = bech32Const witver ↔
      cs = bech32Checksum hrp witver data := by
  have hpow : 2 ^ 30 = 32 ^ 6 := by norm_num
  have hlt := Nat.xor_lt_two_pow (polymod_zeros_lt (hrpExpand hrp ++ data)) (bech32Const_lt witver)
  rw [hpow] at hlt
  rw [polymod_append _ hlength hcs, bech32Checksum_eq]
  constructor
  · intro h
    refine Radix.value_injective (by decide) (hlength.trans (Radix.length_fixed _ _).symm) hcs
      (Radix.lt_of_mem_fixed (by decide)) ?_
    rw [Radix.value_fixed, Nat.mod_eq_of_lt hlt, ← h, ← Nat.xor_assoc, Nat.xor_self, Nat.zero_xor]
  · intro h
    rw [h, Radix.value_fixed, Nat.mod_eq_of_lt hlt, ← Nat.xor_assoc, Nat.xor_self, Nat.zero_xor]

/-! ## Addresses -/

theorem nodup_bech32Charset : bech32Charset.Nodup := by decide

theorem length_bech32Charset : bech32Charset.length = 32 := rfl

theorem bech32Char_eq_ok_iff {d : ℕ} {c : Char} :
    bech32Char d = .ok c ↔ d < 32 ∧ Radix.char bech32Charset d = c := by
  rw [bech32Char, Radix.char, List.getD_eq_getElem?_getD, ← length_bech32Charset]
  by_cases h : d < bech32Charset.length
  · rw [List.getElem?_eq_getElem h, Option.getD_some, and_iff_right h]
    exact ⟨fun h => Except.ok.inj h, fun h => congrArg Except.ok h⟩
  · rw [List.getElem?_eq_none (Nat.le_of_not_lt h)]
    exact iff_of_false (fun h => by cases h) fun h' => h h'.1

/-- The symbols that have a character. -/
theorem mapM_bech32Char_eq_ok_iff {ds : List ℕ} {cs : List Char} :
    ds.mapM bech32Char = .ok cs ↔
      (∀ d ∈ ds, d < 32) ∧ ds.map (Radix.char bech32Charset) = cs := by
  induction ds generalizing cs with
  | nil =>
    exact ⟨fun h => ⟨fun d hd => absurd hd List.not_mem_nil, Except.ok.inj h⟩,
      fun h => congrArg Except.ok h.2⟩
  | cons d ds ih =>
    rw [List.mapM_cons, List.forall_mem_cons, List.map_cons]
    constructor
    · intro h
      obtain ⟨c, hc, h⟩ := bind_eq_ok_iff.mp h
      obtain ⟨cs', hcs', h⟩ := bind_eq_ok_iff.mp h
      obtain ⟨hd, rfl⟩ := bech32Char_eq_ok_iff.mp hc
      obtain ⟨hds, rfl⟩ := ih.mp hcs'
      exact ⟨⟨hd, hds⟩, pure_eq_ok_iff.mp h⟩
    · rintro ⟨⟨hd, hds⟩, rfl⟩
      exact bind_eq_ok_iff.mpr ⟨_, bech32Char_eq_ok_iff.mpr ⟨hd, rfl⟩,
        bind_eq_ok_iff.mpr ⟨_, ih.mpr ⟨hds, rfl⟩, rfl⟩⟩

/-- The symbols of an address, ahead of its checksum. -/
def bech32Data (witver : ℕ) (witprog : Bytes) : List ℕ :=
  witver :: convertBits (witprog.map UInt8.toNat) 8 5

/-- All of them. -/
def bech32Symbols (hrp : String) (witver : ℕ) (witprog : Bytes) : List ℕ :=
  bech32Data witver witprog ++ bech32Checksum hrp witver (bech32Data witver witprog)

section
variable {hrp hrp' s s' : String} {witver witver' : ℕ} {witprog witprog' : Bytes}

theorem lt_of_mem_bytes (witprog : Bytes) : ∀ d ∈ witprog.map UInt8.toNat, d < 2 ^ 8 := by
  intro d hd
  obtain ⟨b, -, rfl⟩ := List.mem_map.mp hd
  exact b.toNat_lt

theorem length_bech32Checksum (data : List ℕ) : (bech32Checksum hrp witver data).length = 6 := rfl

theorem lt_of_mem_bech32Checksum (data : List ℕ) : ∀ d ∈ bech32Checksum hrp witver data, d < 32 := by
  rw [bech32Checksum_eq]
  exact Radix.lt_of_mem_fixed (by decide)

theorem lt_of_mem_bech32Symbols_iff :
    (∀ d ∈ bech32Symbols hrp witver witprog, d < 32) ↔ witver < 32 := by
  obtain ⟨z, hp⟩ := exists_padded (t := 5) (by decide) (lt_of_mem_bytes witprog)
  have hprog : ∀ d ∈ convertBits (witprog.map UInt8.toNat) 8 5, d < 32 := hp.lt
  rw [bech32Symbols, List.forall_mem_append, and_iff_left (lt_of_mem_bech32Checksum _), bech32Data,
    List.forall_mem_cons, and_iff_left hprog]

theorem bech32Encode_eq_ok_iff : bech32Encode hrp witver witprog = .ok s ↔
    witver < 32 ∧ s.toList = hrp.toList ++ '1' ::
      (bech32Symbols hrp witver witprog).map (Radix.char bech32Charset) := by
  rw [bech32Encode, ← bech32Data, ← bech32Symbols, bind_eq_ok_iff]
  simp only [mapM_bech32Char_eq_ok_iff, pure_eq_ok_iff, lt_of_mem_bech32Symbols_iff]
  have htext (cs : List Char) :
      (hrp ++ "1" ++ String.ofList cs).toList = hrp.toList ++ '1' :: cs := by
    have hone : "1".toList = ['1'] := rfl
    rw [String.toList_append, String.toList_append, hone, String.toList_ofList, List.append_assoc,
      List.singleton_append]
  constructor
  · rintro ⟨cs, ⟨hwitver, rfl⟩, rfl⟩
    exact ⟨hwitver, htext _⟩
  · rintro ⟨hwitver, hs⟩
    exact ⟨_, ⟨hwitver, rfl⟩, String.toList_inj.mp ((htext _).trans hs.symm)⟩

theorem polymod_bech32Symbols :
    polymod (hrpExpand hrp ++ bech32Symbols hrp witver witprog) = bech32Const witver := by
  rw [bech32Symbols, ← List.append_assoc]
  exact (polymod_eq_const_iff hrp witver _ (length_bech32Checksum _)
    (lt_of_mem_bech32Checksum _)).mpr rfl

/-- The symbols are those of one version and program. -/
theorem bech32Symbols_injective
    (h : bech32Symbols hrp witver witprog = bech32Symbols hrp' witver' witprog') :
    witver = witver' ∧ witprog = witprog' := by
  have hdata := (List.append_inj' h rfl).1
  rw [bech32Data, bech32Data, List.cons.injEq] at hdata
  refine ⟨hdata.1, ?_⟩
  have hback := congrArg (convertBits · 5 8 false) hdata.2
  rw [convertBits_convertBits (by decide) (by decide) (lt_of_mem_bytes witprog),
    convertBits_convertBits (by decide) (by decide) (lt_of_mem_bytes witprog')] at hback
  exact List.map_injective_iff.mpr (fun _ _ => UInt8.toNat_inj.mp) hback

theorem char_bech32Charset_injective :
    ∀ d < 32, ∀ e < 32, Radix.char bech32Charset d = Radix.char bech32Charset e → d = e := by
  decide

/-- The character between the network and the symbols is not one of theirs. -/
theorem one_notMem_map {ds : List ℕ} (h : ∀ d ∈ ds, d < 32) :
    '1' ∉ ds.map (Radix.char bech32Charset) := by
  intro hmem
  obtain ⟨d, hd, hone⟩ := List.mem_map.mp hmem
  have hne : ∀ d < 32, Radix.char bech32Charset d ≠ '1' := by decide
  exact hne d (h d hd) hone

theorem append_cons_inj {α : Type*} {c : α} {a a' b b' : List α} (hb : c ∉ b) (hb' : c ∉ b')
    (h : a ++ c :: b = a' ++ c :: b') : a = a' ∧ b = b' := by
  obtain ⟨w, hw, hrest⟩ | ⟨w, hw, hrest⟩ := List.append_eq_append_iff.mp h
  · cases w with
    | nil => exact ⟨by rw [hw, List.append_nil], (List.cons.inj hrest).2⟩
    | cons x w =>
      rw [(List.cons.inj hrest).2] at hb
      exact absurd (List.mem_append_right w List.mem_cons_self) hb
  · cases w with
    | nil => exact ⟨by rw [hw, List.append_nil], (List.cons.inj hrest).2.symm⟩
    | cons x w =>
      rw [(List.cons.inj hrest).2] at hb'
      exact absurd (List.mem_append_right w List.mem_cons_self) hb'

theorem bech32Encode_of_lt (hrp : String) (witver : ℕ) (witprog : Bytes) (h : witver < 32) :
    bech32Encode hrp witver witprog = .ok (String.ofList (hrp.toList ++ '1' ::
      (bech32Symbols hrp witver witprog).map (Radix.char bech32Charset))) :=
  bech32Encode_eq_ok_iff.mpr ⟨h, String.toList_ofList⟩

/-- An address is one of a single network, version and program. -/
theorem bech32Encode_injective (h : bech32Encode hrp witver witprog = .ok s)
    (h' : bech32Encode hrp' witver' witprog' = .ok s) :
    hrp = hrp' ∧ witver = witver' ∧ witprog = witprog' := by
  obtain ⟨hwitver, hs⟩ := bech32Encode_eq_ok_iff.mp h
  obtain ⟨hwitver', hs'⟩ := bech32Encode_eq_ok_iff.mp h'
  have hlt : ∀ d ∈ bech32Symbols hrp witver witprog, d < 32 :=
    lt_of_mem_bech32Symbols_iff.mpr hwitver
  have hlt' : ∀ d ∈ bech32Symbols hrp' witver' witprog', d < 32 :=
    lt_of_mem_bech32Symbols_iff.mpr hwitver'
  obtain ⟨hhrp, hmap⟩ := append_cons_inj (one_notMem_map hlt) (one_notMem_map hlt') (hs.symm.trans hs')
  exact ⟨String.toList_inj.mp hhrp,
    bech32Symbols_injective (Radix.map_char_injective nodup_bech32Charset hlt hlt' hmap)⟩

/-- Two programs of twenty bytes, those of P2WPKH addresses. -/
theorem bech32Encode_injective_twenty : ∃ s s',
    bech32Encode "bc" 0 (List.replicate 20 0x75) = .ok s ∧
    bech32Encode "bc" 0 (List.replicate 20 0x76) = .ok s' ∧ s ≠ s' := by
  have h := bech32Encode_of_lt "bc" 0 (List.replicate 20 0x75) (by decide)
  have h' := bech32Encode_of_lt "bc" 0 (List.replicate 20 0x76) (by decide)
  refine ⟨_, _, h, h', fun hsame => ?_⟩
  have hprogram := (bech32Encode_injective h (h'.trans (congrArg Except.ok hsame.symm))).2.2
  exact absurd hprogram (by decide)

/-- Two addresses of one network that are as long as each other, if they have the same kind of
checksum, differ in four characters at least: up to three wrong ones do not go unseen. -/
theorem bech32Encode_distance (h : bech32Encode hrp witver witprog = .ok s)
    (h' : bech32Encode hrp witver' witprog' = .ok s') (hkind : 0 < witver ↔ 0 < witver')
    (hlength : s.length = s'.length) (hshort : s.length ≤ 90) (hne : s ≠ s') :
    4 ≤ LinearChecksum.differences s.toList s'.toList := by
  obtain ⟨hwitver, hs⟩ := bech32Encode_eq_ok_iff.mp h
  obtain ⟨hwitver', hs'⟩ := bech32Encode_eq_ok_iff.mp h'
  have hlt : ∀ d ∈ bech32Symbols hrp witver witprog, d < 32 :=
    lt_of_mem_bech32Symbols_iff.mpr hwitver
  have hlt' : ∀ d ∈ bech32Symbols hrp witver' witprog', d < 32 :=
    lt_of_mem_bech32Symbols_iff.mpr hwitver'
  have hconst : bech32Const witver = bech32Const witver' := by
    rw [bech32Const, bech32Const, if_congr hkind rfl rfl]
  have hpolymod : polymod (hrpExpand hrp ++ bech32Symbols hrp witver witprog) =
      polymod (hrpExpand hrp ++ bech32Symbols hrp witver' witprog') := by
    rw [polymod_bech32Symbols, polymod_bech32Symbols, hconst]
  rw [polymod_eq_run, polymod_eq_run, LinearChecksum.run_append, LinearChecksum.run_append]
    at hpolymod
  have hinj : ∀ d ∈ bech32Symbols hrp witver witprog, ∀ e ∈ bech32Symbols hrp witver' witprog',
      Radix.char bech32Charset d = Radix.char bech32Charset e → d = e :=
    fun d hd e he => char_bech32Charset_injective d (hlt d hd) e (hlt' e he)
  rw [← String.length_toList, ← String.length_toList, hs, hs', List.length_append,
    List.length_append, List.length_cons, List.length_cons, List.length_map,
    List.length_map] at hlength
  rw [← String.length_toList, hs, List.length_append, List.length_cons, List.length_map] at hshort
  have hsymbols : bech32Symbols hrp witver witprog ≠ bech32Symbols hrp witver' witprog' := by
    intro heq
    rw [← heq, ← hs, String.toList_inj] at hs'
    exact hne hs'.symm
  rw [hs, hs', LinearChecksum.differences_append_left, LinearChecksum.differences_cons_self,
    LinearChecksum.differences_map hinj]
  by_contra hclose
  exact polymod_detects.run_ne (by omega) (by omega) hlt hlt' hsymbols (by omega) hpolymod

theorem bech32Encode_distance_zeros : ∃ s s', bech32Encode "bc" 0 [0, 0] = .ok s ∧
    bech32Encode "bc" 0 [0, 1] = .ok s' ∧
      4 ≤ LinearChecksum.differences s.toList s'.toList := by
  have h := bech32Encode_of_lt "bc" 0 [0, 0] (by decide)
  have h' := bech32Encode_of_lt "bc" 0 [0, 1] (by decide)
  refine ⟨_, _, h, h', bech32Encode_distance h h' Iff.rfl ?_ ?_ ?_⟩
  · rw [String.length_ofList, String.length_ofList]
    decide +kernel
  · rw [String.length_ofList]
    decide +kernel
  · rw [Ne, String.ofList_inj]
    decide +kernel

end

end Verifier

end SignerOS
