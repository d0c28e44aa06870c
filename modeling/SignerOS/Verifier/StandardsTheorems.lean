import SignerOS.Verifier.AddressTheorems
import SignerOS.Verifier.Bech32Theorems
import SignerOS.Verifier.Standards

/-!
# The verifier keeps the standards

* `hash160_eq`, RIPEMD-160 from its tables;
* `b58checkEncode_eq` and `bech32Encode_eq_ok_iff_segwitAddress`, the two ways to write an address;
* `derive_ofExtended`, the children of a key, and `fromSeed_of_master`, where the tree begins;
* `outputPoint_of_taprootOutput`, the key of a taproot address.
-/

namespace SignerOS

namespace Verifier

open Standards (written xOnly evenPoint tree)

/-! ## RIPEMD-160 -/

namespace Ripemd160

/-- The words of the verifier as those of the definition. -/
def Words.published (w : Words) : RipeMd.Words := ⟨w.a, w.b, w.c, w.d, w.e⟩

theorem f_eq (j : ℕ) (x y z : UInt32) : f j x y z = RipeMd.f (j / 16) x y z := by
  rw [f]
  split_ifs with h₁ h₂ h₃ h₄
  · rw [Nat.div_eq_of_lt h₁]
    rfl
  · rw [show j / 16 = 1 by omega]
    rfl
  · rw [show j / 16 = 2 by omega]
    rfl
  · rw [show j / 16 = 3 by omega]
    rfl
  · obtain ⟨n, hn⟩ : ∃ n, j / 16 = n + 4 := ⟨j / 16 - 4, by omega⟩
    rw [hn]
    rfl

theorem published_step (x : List UInt32) (j r : ℕ) (k : UInt32) (s : ℕ) (w : Words) :
    (w.step x j r k s).published = RipeMd.Words.step x w.published ⟨j / 16, r, k, s⟩ := by
  rw [Words.step, RipeMd.Words.step, f_eq]
  rfl

/-- What the tables of the left line say of a step. -/
def leftStep (j : ℕ) : RipeMd.Step :=
  ⟨j / 16, tableR.getD j 0, tableK.getD (j / 16) 0, tableS.getD j 0⟩

/-- What those of the right line say. -/
def rightStep (j : ℕ) : RipeMd.Step :=
  ⟨(79 - j) / 16, tableRP.getD j 0, tableKP.getD (j / 16) 0, tableSP.getD j 0⟩

theorem steps_eq : (List.range 80).map leftStep = RipeMd.steps .left ∧
    (List.range 80).map rightStep = RipeMd.steps .right := by
  constructor <;> decide +kernel

/-- The lines do not depend on each other. -/
theorem lines_eq (x : List UInt32) (h : Words) :
    (lines x h).1.published = (RipeMd.steps .left).foldl (RipeMd.Words.step x) h.published ∧
      (lines x h).2.published = (RipeMd.steps .right).foldl (RipeMd.Words.step x) h.published := by
  rw [lines, ← steps_eq.1, ← steps_eq.2, List.foldl_map, List.foldl_map]
  have hpair {f : Words × Words → ℕ → Words × Words}
      (hf : ∀ w wp j, f (w, wp) j =
        (w.step x j (tableR.getD j 0) (tableK.getD (j / 16) 0) (tableS.getD j 0),
          wp.step x (79 - j) (tableRP.getD j 0) (tableKP.getD (j / 16) 0) (tableSP.getD j 0)))
      (js : List ℕ) (p : Words × Words) :
      (js.foldl f p).map Words.published Words.published =
        (js.foldl (fun w j => RipeMd.Words.step x w (leftStep j)) p.1.published,
          js.foldl (fun w j => RipeMd.Words.step x w (rightStep j)) p.2.published) := by
    induction js generalizing p with
    | nil => rfl
    | cons j js ih =>
      rw [List.foldl_cons, List.foldl_cons, List.foldl_cons, ih, hf, published_step, published_step]
      rfl
  generalize List.range 80 = js
  exact Prod.mk.inj (hpair (fun _ _ _ => rfl) js (h, h))

theorem published_block (h : Words) (x : List UInt32) :
    (block h x).published = RipeMd.block h.published x := by
  obtain ⟨hleft, hright⟩ := lines_eq x h
  rw [RipeMd.block, ← hleft, ← hright]
  rfl

theorem zeros_eq {turns : ℕ} {msg : Bytes} (h : (120 - msg.length % 64) % 64 ≤ turns) :
    zeros turns msg = msg ++ List.replicate ((120 - msg.length % 64) % 64) 0x00 := by
  induction turns generalizing msg with
  | zero => rw [zeros, Nat.le_zero.mp h, List.replicate_zero, List.append_nil]
  | succ turns ih =>
    rw [zeros]
    split
    · next hne =>
      have hnext : (120 - (msg ++ [0x00]).length % 64) % 64 + 1 = (120 - msg.length % 64) % 64 := by
        rw [List.length_append, List.length_singleton]
        omega
      rw [ih (by omega), ← hnext, List.append_assoc, List.replicate_succ]
      rfl
    · next hdone =>
      rw [show (120 - msg.length % 64) % 64 = 0 by omega, List.replicate_zero, List.append_nil]

end Ripemd160

theorem leBytes_eq (width n : ℕ) : leBytes width n = (Der.bytesOf width n).reverse := by
  induction width generalizing n with
  | zero => rfl
  | succ width ih =>
    rw [Der.bytesOf, List.reverse_append, ← ih, leBytes, leBytes, List.range_succ_eq_map,
      List.map_cons, List.map_map]
    refine congrArg₂ _ ?_ (List.map_congr_left fun i _ => ?_)
    · rw [pow_zero, Nat.div_one]
    · rw [Function.comp_apply, Nat.succ_eq_add_one, pow_succ', Nat.div_div_eq_div_mul]

theorem leNat_eq (bs : Bytes) : Script.leNat bs = Der.natOf bs.reverse := by
  induction bs with
  | nil => rfl
  | cons b bs ih => rw [Script.leNat, List.reverse_cons, Der.natOf_concat, ih, Nat.add_comm]

theorem bytesOf_mod (width n : ℕ) : Der.bytesOf width (n % 256 ^ width) = Der.bytesOf width n := by
  rw [← Der.natOf_bytesOf]
  conv_rhs => rw [← Der.bytesOf_natOf (Der.bytesOf width n), Der.length_bytesOf]

theorem padded_eq (data : Bytes) : Ripemd160.padded data = RipeMd.padded data := by
  have hcount : (120 - (data ++ [0x80]).length % 64) % 64 = (119 - data.length % 64) % 64 := by
    rw [List.length_append, List.length_singleton]
    omega
  have hlength : 2 ^ 64 = 256 ^ 8 := by norm_num
  rw [Ripemd160.padded, RipeMd.padded, Ripemd160.zeros_eq (by omega), hcount, leBytes_eq, hlength,
    bytesOf_mod, List.append_assoc, List.append_assoc]
  rfl

/-- From its tables or from its definition, the hash is the same. -/
theorem ripemd160_eq (data : Bytes) : ripemd160 data = RipeMd.hash data := by
  have hwords (chunk : Bytes) : Ripemd160.words chunk = RipeMd.words chunk := by
    simp only [Ripemd160.words, RipeMd.words, leNat_eq]
  have hfold (is : List ℕ) (msg : Bytes) (h : Ripemd160.Words) :
      (is.foldl (fun h i => Ripemd160.block h (Ripemd160.words ((msg.drop (64 * i)).take 64)))
        h).published =
      is.foldl (fun h i => RipeMd.block h (RipeMd.words ((msg.drop (64 * i)).take 64)))
        h.published := by
    refine (List.foldl_hom Ripemd160.Words.published fun h i => ?_).symm
    rw [Ripemd160.published_block, hwords]
  have hle (w : UInt32) : le32 w = (Der.bytesOf 4 w.toNat).reverse := leBytes_eq 4 w.toNat
  have hinitial : RipeMd.initial = Ripemd160.Words.published
    ⟨0x67452301, 0xEFCDAB89, 0x98BADCFE, 0x10325476, 0xC3D2E1F0⟩ := rfl
  rw [ripemd160, RipeMd.hash, padded_eq, hinitial, ← hfold]
  simp only [hle, List.flatMap_cons, List.flatMap_nil, List.append_nil, List.append_assoc]
  rfl

section
variable (sha256 : Sha256)

theorem hash160_eq (b : Bytes) : hash160 sha256 b = Standards.hash160 sha256 b := ripemd160_eq _

/-! ## Base58 -/

theorem b58checkEncode_eq (payload : Bytes) :
    b58checkEncode sha256 payload = Standards.base58Check sha256 payload := by
  have halphabet : b58 = Standards.base58 := by decide +kernel
  rw [← String.toList_inj, b58checkEncode_toList, Standards.base58Check, String.toList_ofList,
    halphabet]
  rfl

end

/-! ## Bech32 -/

theorem value_zipWith_xor {ds ds' : List ℕ} (hlength : ds.length = ds'.length)
    (h : ∀ d ∈ ds, d < 32) (h' : ∀ d ∈ ds', d < 32) :
    Radix.value 32 (ds.zipWith (· ^^^ ·) ds') = Radix.value 32 ds ^^^ Radix.value 32 ds' := by
  induction ds using List.reverseRecOn generalizing ds' with
  | nil =>
    obtain rfl := List.eq_nil_of_length_eq_zero hlength.symm
    rfl
  | append_singleton ds d ih =>
    rw [List.length_append, List.length_singleton] at hlength
    obtain rfl | ⟨es, e, rfl⟩ := ds'.eq_nil_or_concat'
    · cases hlength
    rw [List.length_append, List.length_singleton, Nat.add_right_cancel_iff] at hlength
    rw [List.forall_mem_append, List.forall_mem_singleton] at h h'
    have hxor : d ^^^ e < 32 := Nat.xor_lt_two_pow (n := 5) h.2 h'.2
    have hmul (n : ℕ) : 32 * n = n <<< 5 := by rw [Nat.shiftLeft_eq, Nat.mul_comm]
    rw [List.zipWith_append hlength, List.zipWith_cons_cons, List.zipWith_nil_left,
      Radix.value_concat, Radix.value_concat, Radix.value_concat, ih hlength h.1 h'.1,
      ← xor_eq_add _ hxor, ← xor_eq_add _ h.2, ← xor_eq_add _ h'.2, hmul, hmul, hmul,
      Nat.shiftLeft_xor_distrib]
    ac_rfl

/-- What a symbol that is shifted out leaves behind, in the field. -/
theorem gens_eq : ∀ top < 32,
    gens top = Radix.value 32 (Standards.codeGenerator.map (Standards.times top)) ∧
      ∀ d ∈ Standards.codeGenerator.map (Standards.times top), d < 32 := by
  decide +kernel

/-- A remainder, as symbols. -/
structure IsRemainder (r : List ℕ) : Prop where
  length : r.length = 6
  lt : ∀ d ∈ r, d < 32

theorem remainderStep_spec {r : List ℕ} (hr : IsRemainder r) {v : ℕ} (hv : v < 32) :
    IsRemainder (Standards.remainderStep r v) ∧
      Radix.value 32 (Standards.remainderStep r v) = polymodStep (Radix.value 32 r) v := by
  obtain ⟨hlength, hlt⟩ := hr
  obtain ⟨c, r, rfl⟩ := List.exists_cons_of_length_eq_add_one hlength
  rw [List.length_cons, Nat.add_right_cancel_iff] at hlength
  rw [List.forall_mem_cons] at hlt
  obtain ⟨hgens, hgen⟩ := gens_eq c hlt.1
  have hnext : ∀ d ∈ r ++ [v], d < 32 :=
    List.forall_mem_append.mpr ⟨hlt.2, List.forall_mem_singleton.mpr hv⟩
  have hlengths : (r ++ [v]).length = (Standards.codeGenerator.map (Standards.times c)).length := by
    rw [List.length_append, hlength]
    rfl
  have hvalue := Radix.value_lt (by decide) hlt.2
  rw [hlength] at hvalue
  -- the first symbol is the upper bits, and the others are the lower ones
  have hcons : Radix.value 32 (c :: r) = c * 2 ^ 25 + Radix.value 32 r := by
    rw [Radix.value, List.reverse_cons, Nat.ofDigits_append, List.length_reverse, hlength,
      Nat.ofDigits_singleton, Radix.value]
    ring
  have hlow : Radix.value 32 (c :: r) &&& 0x1FFFFFF = Radix.value 32 r := by
    rw [show (0x1FFFFFF : ℕ) = 2 ^ 25 - 1 by rfl, Nat.and_two_pow_sub_one_eq_mod, hcons]
    omega
  have htop : Radix.value 32 (c :: r) >>> 25 = c := by
    rw [Nat.shiftRight_eq_div_pow, hcons]
    omega
  rw [Standards.remainderStep, List.tail_cons, List.headD_cons]
  refine ⟨⟨?_, LinearChecksum.lt_of_mem_zipWith_xor (k := 5) hnext hgen⟩, ?_⟩
  · rw [List.length_zipWith, ← hlengths, List.length_append, hlength]
    rfl
  · have hshift : Radix.value 32 r <<< 5 = 32 * Radix.value 32 r := by
      rw [Nat.shiftLeft_eq, Nat.mul_comm]
    rw [value_zipWith_xor hlengths hnext hgen, Radix.value_concat, polymodStep_eq, hlow, htop,
      hgens, hshift, xor_eq_add _ hv]

/-- The polynomial that is divided is the one the code computes with. -/
theorem remainder_spec {values : List ℕ} (h : ∀ v ∈ values, v < 32) :
    IsRemainder (Standards.remainder values) ∧
      Radix.value 32 (Standards.remainder values) = polymod values := by
  rw [Standards.remainder, polymod]
  induction values using List.reverseRecOn with
  | nil => exact ⟨⟨rfl, by decide⟩, rfl⟩
  | append_singleton values v ih =>
    rw [List.forall_mem_append, List.forall_mem_singleton] at h
    obtain ⟨hr, hvalue⟩ := ih h.1
    rw [List.foldl_append, List.foldl_append, ← hvalue]
    exact remainderStep_spec hr h.2

theorem remainder_eq_iff {values : List ℕ} (h : ∀ v ∈ values, v < 32) (version : ℕ) :
    Standards.remainder values = Standards.remainderOf version ↔
      polymod values = bech32Const version := by
  obtain ⟨hr, hvalue⟩ := remainder_spec h
  obtain ⟨hof, hconst⟩ : IsRemainder (Standards.remainderOf version) ∧
      Radix.value 32 (Standards.remainderOf version) = bech32Const version := by
    rw [Standards.remainderOf, bech32Const]
    split
    · next hzero =>
      rw [hzero]
      exact ⟨⟨rfl, by decide⟩, rfl⟩
    · next hne =>
      rw [if_pos (Nat.pos_of_ne_zero hne)]
      exact ⟨⟨Radix.length_fixed _ _, Radix.lt_of_mem_fixed (by decide)⟩, rfl⟩
  rw [← hvalue, ← hconst]
  refine ⟨congrArg _, fun heq => ?_⟩
  exact Radix.value_injective (by decide) (hr.length.trans hof.length.symm) hr.lt hof.lt heq

theorem convertBits_eq (program : Bytes) :
    convertBits (program.map UInt8.toNat) 8 5 = Standards.symbols program := by
  obtain ⟨z, hp⟩ := exists_padded (t := 5) (by decide) (lt_of_mem_bytes program)
  have hzeros := hp.zeros
  have hlength := hp.length
  rw [List.length_map] at hlength
  have hwidth :
      (convertBits (program.map UInt8.toNat) 8 5).length = (8 * program.length + 4) / 5 := by
    omega
  have hz : 5 * ((8 * program.length + 4) / 5) - 8 * program.length = z := by omega
  have hvalue : Radix.value (2 ^ 8) (program.map UInt8.toNat) = Der.natOf program :=
    value_digitsOf program
  have hlt : Der.natOf program * 2 ^ z < 32 ^ ((8 * program.length + 4) / 5) := by
    rw [← hvalue, ← hp.value, ← hwidth]
    exact Radix.value_lt (by decide) hp.lt
  rw [Standards.symbols, hz]
  refine Radix.value_injective (b := 32) (by decide) ?_ hp.lt (Radix.lt_of_mem_fixed (by decide)) ?_
  · rw [hwidth, Radix.length_fixed]
  · rw [Radix.value_fixed, Nat.mod_eq_of_lt hlt, ← hvalue]
    exact hp.value

section
variable {text : String} (htext : ∀ c ∈ text.toList, c.toNat < 1024)
include htext

theorem lt_of_mem_expand : ∀ d ∈ Standards.expand text, d < 32 := by
  rw [Standards.expand, List.forall_mem_append, List.forall_mem_cons, List.forall_mem_map,
    List.forall_mem_map]
  refine ⟨fun c hc => ?_, by decide, fun c _ => Nat.mod_lt _ (by decide)⟩
  have := htext c hc
  omega

omit htext in
theorem hrpExpand_eq (text : String) : hrpExpand text = Standards.expand text := by
  have hand (n : ℕ) : n &&& 31 = n % 32 := Nat.and_two_pow_sub_one_eq_mod n 5
  simp only [hrpExpand, Standards.expand, Nat.shiftRight_eq_div_pow, hand, List.append_assoc,
    List.singleton_append]

/-- What the verifier writes is the address of the witness program, and it writes no other. -/
theorem bech32Encode_eq_ok_iff_segwitAddress {version : ℕ} {program : Bytes} {s : String} :
    bech32Encode text version program = .ok s ↔ Standards.SegwitAddress text version program s := by
  have hdata : bech32Data version program = version :: Standards.symbols program := by
    rw [bech32Data, convertBits_eq]
  have hsymbols : ∀ d ∈ Standards.symbols program, d < 32 := Radix.lt_of_mem_fixed (by decide)
  have hbehind (cs : List Char) :
      (text ++ "1" ++ String.ofList cs).toList = text.toList ++ '1' :: cs := by
    have hone : "1".toList = ['1'] := rfl
    rw [String.toList_append, String.toList_append, hone, String.toList_ofList, List.append_assoc,
      List.singleton_append]
  rw [bech32Encode_eq_ok_iff, bech32Symbols, hdata, Standards.SegwitAddress]
  refine and_congr_right fun hversion => ?_
  have hvalid {checksum : List ℕ} (hlength : checksum.length = 6) (hlt : ∀ d ∈ checksum, d < 32) :
      Standards.remainder (Standards.expand text ++
          (version :: Standards.symbols program ++ checksum)) = Standards.remainderOf version ↔
        checksum = bech32Checksum text version (version :: Standards.symbols program) := by
    have hall : ∀ v ∈ Standards.expand text ++ (version :: Standards.symbols program ++ checksum),
        v < 32 := by
      rw [List.forall_mem_append, List.forall_mem_append, List.forall_mem_cons]
      exact ⟨lt_of_mem_expand htext, ⟨hversion, hsymbols⟩, hlt⟩
    rw [remainder_eq_iff hall, ← hrpExpand_eq, ← List.append_assoc]
    exact polymod_eq_const_iff text version _ hlength hlt
  constructor
  · intro hs
    refine ⟨_, length_bech32Checksum _, lt_of_mem_bech32Checksum _,
      (hvalid (length_bech32Checksum _) (lt_of_mem_bech32Checksum _)).mpr rfl, ?_⟩
    rw [← String.toList_inj, hs, hbehind]
    rfl
  · rintro ⟨checksum, hlength, hlt, hremainder, rfl⟩
    rw [hbehind, (hvalid hlength hlt).mp hremainder]
    rfl

end

/-! ## Points -/

theorem compress_eq_ok_iff_written {p : Secp} {b : Bytes} :
    compress (ofPoint p) = .ok b ↔ written p = some b := by
  cases p with
  | zero => exact iff_of_false (fun h => by cases h) fun h => by cases h
  | some x y h =>
    have hP : P < 256 ^ 32 := by decide
    have hx : 0 ≤ (x.val : ℤ) ∧ (x.val : ℤ) < 256 ^ 32 :=
      ⟨Int.natCast_nonneg _, by exact_mod_cast x.val_lt.trans hP⟩
    have htag : UInt8.ofNat (2 + ((y.val : ℤ) % 2).toNat) =
        if y.val % 2 = 0 then 0x02 else 0x03 := by
      obtain ⟨heven, htag⟩ | ⟨hodd, htag⟩ := tag_cases (y.val : ℤ)
      · rw [htag, if_pos (by omega)]
      · rw [htag, if_neg (by omega)]
    rw [ofPoint, compress_eq_ok_iff, and_iff_right hx, htag, Int.toNat_natCast, written,
      Option.some.injEq]

/-- The points of the tree are a group of `N` elements. -/
theorem lawful_tree (sha256 : Sha256) (hmacSha512 : HmacSha512) :
    (tree sha256 hmacSha512).Lawful where
  add_point k l := (add_smul k l generator).symm
  point_mod k := by
    change (k % N) • generator = k • generator
    rw [← Nat.cast_smul_eq_nsmul (ZMod N), ZMod.natCast_mod, Nat.cast_smul_eq_nsmul]
  isSome_written k := by
    change (written (k • generator)).isSome ↔ k % N ≠ 0
    have hzero : k % N ≠ 0 ↔ k • generator ≠ 0 := by
      rw [ne_eq, ← Nat.dvd_iff_mod_eq_zero, ← ZMod.natCast_eq_zero_iff, ← ne_eq,
        ← Nat.cast_smul_eq_nsmul (ZMod N)]
      refine ⟨fun hk => smul_ne_zero hk (WeierstrassCurve.Affine.Point.some_ne_zero _), ?_⟩
      exact fun hk hzero => hk (by rw [hzero, zero_smul])
    rw [hzero]
    match k • generator with
    | .zero => exact iff_of_false Bool.false_ne_true fun h => h rfl
    | .some x y h => exact iff_of_true rfl (WeierstrassCurve.Affine.Point.some_ne_zero h)

/-! ## Keys -/

theorem isHardened_natCast {i : ℕ} (hi : i < 2 ^ 32) : isHardened i = true ↔ 2 ^ 31 ≤ i := by
  have hland : Int.land i 0x80000000 = ((i &&& 2 ^ 31 : ℕ) : ℤ) := rfl
  rw [isHardened, decide_eq_true_iff, hland, Nat.and_two_pow, ne_eq, Int.natCast_eq_zero,
    Nat.testBit_eq_decide_div_mod_eq]
  by_cases h : 2 ^ 31 ≤ i
  · have hbit : i / 2 ^ 31 % 2 = 1 := by omega
    rw [hbit]
    exact iff_of_true (by decide) h
  · have hbit : i / 2 ^ 31 % 2 = 0 := by omega
    rw [hbit]
    exact iff_of_false (by decide) h

/-- A key of the tree, as the verifier has it. -/
def HDKey.ofExtended (net : String) (x : KeyTree.Extended ℕ) : HDKey where
  priv := Der.bytesOf 32 x.key
  chain := x.chain
  depth := x.depth
  parentFp := x.parent
  childNum := x.number
  net := net

section
variable {sha256 : Sha256} {hmacSha512 : HmacSha512} {net : String} {x : KeyTree.Extended ℕ}
  (hx : x.key < N)
include hx

theorem scalar_ofExtended : (HDKey.ofExtended net x).scalar = x.key := by
  have hN : N < 256 ^ 32 := by decide
  rw [HDKey.scalar, HDKey.ofExtended, Der.natOf_bytesOf, Nat.mod_eq_of_lt (hx.trans hN)]

theorem pub_ofExtended {pub : Bytes} :
    (HDKey.ofExtended net x).pub = .ok pub ↔ written (x.key • generator) = some pub := by
  rw [HDKey.pub_eq, scalar_ofExtended hx, Nat.cast_smul_eq_nsmul, compress_eq_ok_iff_written]

theorem fingerprint_ofExtended {fp : Bytes} :
    (HDKey.ofExtended net x).fingerprint sha256 = .ok fp ↔
      ∃ pub, written (x.key • generator) = some pub ∧
        (Standards.hash160 sha256 pub).take 4 = fp := by
  rw [HDKey.fingerprint, bind_eq_ok_iff]
  simp only [pub_ofExtended hx, pure_eq_ok_iff, hash160_eq]

theorem childData_ofExtended {i : ℕ} (hi : i < 2 ^ 32) {pub : Bytes}
    (hpub : written (x.key • generator) = some pub) :
    (HDKey.ofExtended net x).childData i = .ok
      ((if 2 ^ 31 ≤ i then 0x00 :: Der.bytesOf 32 x.key else pub) ++ Der.bytesOf 4 i) := by
  have hpack : packBig 4 i = .ok (Der.bytesOf 4 i) :=
    packBig_eq_ok_iff.mpr ⟨⟨Int.natCast_nonneg i, by exact_mod_cast hi⟩, by rw [Int.toNat_natCast]⟩
  rw [HDKey.childData, hpack]
  split
  · next hhard =>
    rw [if_pos ((isHardened_natCast hi).mp hhard)]
    rfl
  · next hsoft =>
    rw [if_neg (mt (isHardened_natCast hi).mpr hsoft), (pub_ofExtended hx).mpr hpub]
    rfl

/-- What the verifier derives is the child of the tree. -/
theorem derive_ofExtended {i : ℕ} (hi : i < 2 ^ 32) :
    (HDKey.derive hmacSha512 sha256 (.ofExtended net x) i).toOption =
      ((tree sha256 hmacSha512).privateChild x i).map (HDKey.ofExtended net) := by
  refine Option.ext fun child => ?_
  rw [toOption_eq_some_iff, HDKey.derive_eq_ok_iff, Option.map_eq_some_iff]
  simp only [KeyTree.Scheme.privateChild_eq_some_iff, KeyTree.Scheme.split_eq_some_iff,
    fingerprint_ofExtended hx, scalar_ofExtended hx]
  constructor
  · rintro ⟨data, _, hdata, ⟨pub, hpub, rfl⟩, hlow, hne, rfl⟩
    obtain rfl := Except.ok.inj (hdata.symm.trans (childData_ofExtended hx hi hpub))
    refine ⟨_, ⟨pub, _, _, hpub, ⟨hlow, rfl⟩, hne, rfl⟩, ?_⟩
    rw [HDKey.childOf, scalar_ofExtended hx]
    rfl
  · rintro ⟨_, ⟨pub, l, chain, hpub, ⟨hlow, hsplit⟩, hne, rfl⟩, rfl⟩
    obtain ⟨rfl, rfl⟩ := Prod.mk.inj hsplit
    refine ⟨_, _, childData_ofExtended hx hi hpub, ⟨pub, hpub, rfl⟩, hlow, hne, ?_⟩
    rw [HDKey.childOf, scalar_ofExtended hx]
    rfl

end

theorem lt_of_privateChild {sha256 : Sha256} {hmacSha512 : HmacSha512} {x y : KeyTree.Extended ℕ}
    {i : ℕ} (h : (tree sha256 hmacSha512).privateChild x i = some y) : y.key < N := by
  obtain ⟨pub, l, chain, -, -, -, rfl⟩ := (KeyTree.Scheme.privateChild_eq_some_iff _).mp h
  have hN : 0 < N := by decide
  exact Nat.mod_lt _ hN

theorem lt_of_privatePath {sha256 : Sha256} {hmacSha512 : HmacSha512} {x y : KeyTree.Extended ℕ}
    (hx : x.key < N) {is : List ℕ}
    (h : is.foldlM (tree sha256 hmacSha512).privateChild x = some y) : y.key < N := by
  induction is generalizing x with
  | nil =>
    obtain rfl := Option.some.inj h
    exact hx
  | cons i is ih =>
    obtain ⟨mid, hmid, h⟩ := Option.bind_eq_some_iff.mp h
    exact ih (lt_of_privateChild hmid) h

/-- So it is for a whole path of children. -/
theorem foldlM_derive_ofExtended (sha256 : Sha256) (hmacSha512 : HmacSha512) (net : String)
    {is : List ℕ} (his : ∀ i ∈ is, i < 2 ^ 32) {x : KeyTree.Extended ℕ} (hx : x.key < N) :
    ((is.map fun i : ℕ => (i : ℤ)).foldlM (HDKey.derive hmacSha512 sha256)
        (.ofExtended net x)).toOption =
      (is.foldlM (tree sha256 hmacSha512).privateChild x).map (HDKey.ofExtended net) := by
  induction is generalizing x with
  | nil => rfl
  | cons i is ih =>
    rw [List.forall_mem_cons] at his
    have hstep : (HDKey.derive hmacSha512 sha256 (.ofExtended net x) i).toOption =
        ((tree sha256 hmacSha512).privateChild x i).map (HDKey.ofExtended net) :=
      derive_ofExtended hx his.1
    rw [List.map_cons, List.foldlM_cons, List.foldlM_cons]
    match hy : (tree sha256 hmacSha512).privateChild x i with
    | none =>
      rw [hy] at hstep
      match hchild : HDKey.derive hmacSha512 sha256 (.ofExtended net x) i with
      | .error e => rfl
      | .ok child =>
        rw [hchild] at hstep
        cases hstep
    | some y =>
      rw [hy] at hstep
      rw [toOption_eq_some_iff.mp hstep]
      exact ih his.2 (lt_of_privateChild hy)

/-- The verifier begins where the tree does, and does not ask if the key is a good one. -/
theorem fromSeed_of_master {sha256 : Sha256} {hmacSha512 : HmacSha512} {seed : Bytes}
    {x : KeyTree.Extended ℕ} (h : (tree sha256 hmacSha512).master seed = some x) (net : String) :
    HDKey.fromSeed hmacSha512 seed net = .ofExtended net x ∧ x.key < N := by
  obtain ⟨⟨key, chain⟩, hsplit, hx⟩ := Option.bind_eq_some_iff.mp h
  obtain ⟨hlow, hhalves⟩ := (KeyTree.Scheme.split_eq_some_iff _).mp hsplit
  obtain ⟨rfl, rfl⟩ := Prod.mk.inj hhalves
  dsimp only at hx
  split_ifs at hx
  obtain rfl := Option.some.inj hx
  refine ⟨?_, hlow⟩
  have hkey : "Bitcoin seed".toUTF8.toList = KeyTree.seedKey := by decide +kernel
  have hbytes (b : Bytes) (hb : b.length = 32) : Der.bytesOf 32 (Der.natOf b) = b := by
    rw [← hb, Der.bytesOf_natOf]
  rw [HDKey.fromSeed, hkey, HDKey.ofExtended, hbytes _ (by simp [tree])]
  rfl

/-! ## Taproot -/

/-- What is lifted of an abscissa is the point with an even ordinate. -/
theorem decompress_xOnly {p : Secp} {x : Bytes} (h : xOnly p = some x) :
    ∃ q, decompress (0x02 :: x) = .ok q ∧ ofPoint (evenPoint p) = some q := by
  cases p with
  | zero => cases h
  | some a b hp =>
    obtain rfl := Option.some.inj h
    obtain ⟨y, hy, heven⟩ : ∃ y : ℤ, ofPoint (evenPoint (.some a b hp)) = some ((a.val : ℤ), y) ∧
        y % 2 = 0 := by
      rw [evenPoint]
      split
      · next h => exact ⟨b.val, rfl, by omega⟩
      · next h =>
        have hP : (P : ℤ) % 2 = 1 := by decide
        exact ⟨P - b.val, ofPoint_neg rfl, by omega⟩
    obtain ⟨bytes, hbytes, -, hread⟩ := decompress_of_onCurve (hy ▸ onCurve_ofPoint _)
    obtain ⟨-, rfl⟩ := compress_eq_ok_iff.mp hbytes
    rw [heven] at hread
    exact ⟨_, hread, hy⟩

theorem xOnly_of_written {p : Secp} {pub : Bytes} (h : written p = some pub) :
    xOnly p = some pub.tail := by
  cases p with
  | zero => cases h
  | some x y hp =>
    obtain rfl := Option.some.inj h
    rfl

theorem compress_of_xOnly {p : Secp} {x : Bytes} (h : xOnly p = some x) :
    ∃ pub, compress (ofPoint p) = .ok pub ∧ pub.tail = x := by
  cases p with
  | zero => cases h
  | some a b hp =>
    obtain rfl := Option.some.inj h
    exact ⟨_, compress_eq_ok_iff_written.mpr rfl, rfl⟩

theorem length_xOnly {p : Secp} {x : Bytes} (h : xOnly p = some x) : x.length = 32 := by
  cases p with
  | zero => cases h
  | some a b hp =>
    obtain rfl := Option.some.inj h
    exact Der.length_bytesOf _ _

theorem outputPoint_of_taprootOutput {sha256 : Sha256} {p : Secp} {pub output : Bytes}
    (hpub : written p = some pub) (h : Standards.taprootOutput sha256 p = some output) :
    ∃ q key, outputPoint sha256 pub = .ok q ∧ compress q = .ok key ∧ key.tail = output ∧
      output.length = 32 := by
  have hx := xOnly_of_written hpub
  obtain ⟨x, hx', h⟩ := Option.bind_eq_some_iff.mp h
  obtain rfl := Option.some.inj (hx.symm.trans hx')
  obtain ⟨q, hq, heven⟩ := decompress_xOnly hx
  have htag : taggedHash sha256 "TapTweak" pub.tail =
      Standards.taggedHash sha256 "TapTweak" pub.tail := rfl
  dsimp only at h
  split_ifs at h with hlow
  obtain ⟨key, hkey, hout⟩ := compress_of_xOnly h
  refine ⟨_, key, ?_, hkey, hout, length_xOnly h⟩
  rw [outputPoint, htag, hq]
  change (if Der.natOf (Standards.taggedHash sha256 "TapTweak" pub.tail) ≥ N then
      (Except.error (.valueError "taproot tweak out of range") : Except Thrown Point)
    else .ok (ptAdd (some q)
      (ptMul (Der.natOf (Standards.taggedHash sha256 "TapTweak" pub.tail))))) = .ok _
  rw [if_neg (Nat.not_le.mpr hlow), ← heven, ptMul_generator, ptAdd_ofPoint, Int.cast_natCast,
    Nat.cast_smul_eq_nsmul]

end Verifier

end SignerOS
