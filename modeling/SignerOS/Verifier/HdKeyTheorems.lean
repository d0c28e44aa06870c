import SignerOS.Verifier.CodecTheorems
import SignerOS.Verifier.CurveTheorems
import SignerOS.Verifier.HdKey

/-!
# The key tree, without its private keys

* `HDKey.derive_eq_ok_iff`, what a child is;
* `HDKey.Valid.derive`, every key of the tree is a key;
* `watchOf_derive`, a wallet that has only public keys finds the same children.
-/

namespace SignerOS

namespace Verifier

/-! ## Errors -/

section
variable {ε α β : Type}

theorem bind_eq_ok_iff {x : Except ε α} {f : α → Except ε β} {b : β} :
    (x >>= f) = .ok b ↔ ∃ a, x = .ok a ∧ f a = .ok b := by
  cases x with
  | error e => simp [bind, Except.bind]
  | ok a => simp [bind, Except.bind]

theorem pure_eq_ok_iff {a b : α} : (pure a : Except ε α) = .ok b ↔ a = b := by
  simp [pure, Except.pure]

theorem toOption_eq_some_iff {x : Except ε α} {a : α} : x.toOption = some a ↔ x = .ok a := by
  cases x with
  | error e => exact iff_of_false (fun h => by cases h) fun h => by cases h
  | ok b => exact ⟨fun h => congrArg Except.ok (Option.some.inj h),
      fun h => congrArg some (Except.ok.inj h)⟩

end

theorem mapError_eq_ok_iff {α : Type} {x : Except Raised α} {a : α} :
    x.mapError Raised.thrown = .ok a ↔ x = .ok a := by
  cases x with
  | error e => exact iff_of_false (fun h => by cases h) fun h => by cases h
  | ok b => exact ⟨fun h => congrArg Except.ok (Except.ok.inj h),
      fun h => congrArg Except.ok (Except.ok.inj h)⟩

theorem packBig_eq_ok_iff {width : ℕ} {n : ℤ} {b : Bytes} : packBig width n = .ok b ↔
    (0 ≤ n ∧ n < 256 ^ width) ∧ Der.bytesOf width n.toNat = b := by
  rw [packBig]
  split
  · next h =>
    rw [and_iff_right h]
    exact ⟨fun h => Except.ok.inj h, fun h => congrArg Except.ok h⟩
  · next h => exact iff_of_false (fun h => by cases h) fun h' => h h'.1

namespace HDKey

/-! ## Children -/

/-- The scalar of a key. -/
def scalar (key : HDKey) : ℕ := Der.natOf key.priv

/-- A key that has a public key, in the form it is serialised in. -/
structure Valid (key : HDKey) : Prop where
  priv : key.priv.length = 32
  scalar : 1 ≤ key.scalar ∧ key.scalar < N
  chain : key.chain.length = 32
  parentFp : key.parentFp.length = 4
  childNum : 0 ≤ key.childNum ∧ key.childNum < 2 ^ 32

section
variable (hmacSha512 : HmacSha512) (sha256 : Sha256)

/-- What is hashed for a child, in its two halves. -/
def left (key : HDKey) (data : Bytes) : ℕ :=
  Der.natOf ((hmacSha512 key.chain data).toList.take 32)

def right (key : HDKey) (data : Bytes) : Bytes := (hmacSha512 key.chain data).toList.drop 32

/-- The child that the hash of some data gives. -/
def childOf (key : HDKey) (index : ℤ) (data fp : Bytes) : HDKey where
  priv := Der.bytesOf 32 ((left hmacSha512 key data + key.scalar) % N)
  chain := right hmacSha512 key data
  depth := key.depth + 1
  parentFp := fp
  childNum := index
  net := key.net

section
variable (key : HDKey) (index : ℤ) (data fp : Bytes)

theorem childOf_depth : (childOf hmacSha512 key index data fp).depth = key.depth + 1 := by
  rw [childOf]

theorem childOf_net : (childOf hmacSha512 key index data fp).net = key.net := by rw [childOf]

theorem childOf_childNum : (childOf hmacSha512 key index data fp).childNum = index := by
  rw [childOf]

end

theorem derive_eq_ok_iff {key child : HDKey} {index : ℤ} :
    derive hmacSha512 sha256 key index = .ok child ↔
      ∃ data fp, key.childData index = .ok data ∧ key.fingerprint sha256 = .ok fp ∧
        left hmacSha512 key data < N ∧ (left hmacSha512 key data + key.scalar) % N ≠ 0 ∧
        childOf hmacSha512 key index data fp = child := by
  rw [derive, bind_eq_ok_iff]
  refine exists_congr fun data => ?_
  -- the number of the child, as it is computed and as a natural number
  have hcast : ((Der.natOf ((hmacSha512 key.chain data).toList.take 32) : ℤ)
      + Der.natOf key.priv) % N = ((left hmacSha512 key data + key.scalar) % N : ℕ) := by
    push_cast
    rfl
  have hlt : (left hmacSha512 key data + key.scalar) % N < 256 ^ 32 := by
    have hN : N < 256 ^ 32 := by decide
    exact (Nat.mod_lt _ (by decide)).trans hN
  dsimp only
  rw [hcast, toBytes_natCast hlt]
  split
  · next hbad =>
    rw [Int.natCast_eq_zero] at hbad
    refine iff_of_false (fun h => by cases h.2) ?_
    rintro ⟨fp, -, -, hlow, hne, -⟩
    exact hbad.elim hne (Nat.not_le_of_lt hlow)
  · next hgood =>
    rw [Int.natCast_eq_zero, not_or, Nat.not_le] at hgood
    constructor
    · rintro ⟨hdata, h⟩
      obtain ⟨_, hpriv, h⟩ := bind_eq_ok_iff.mp h
      obtain ⟨fp, hfp, hchild⟩ := bind_eq_ok_iff.mp h
      obtain rfl := Except.ok.inj hpriv
      exact ⟨fp, hdata, hfp, hgood.2, hgood.1, pure_eq_ok_iff.mp hchild⟩
    · rintro ⟨fp, hdata, hfp, -, -, hchild⟩
      exact ⟨hdata, bind_eq_ok_iff.mpr
        ⟨_, rfl, bind_eq_ok_iff.mpr ⟨fp, hfp, pure_eq_ok_iff.mpr hchild⟩⟩⟩

theorem scalar_childOf (key : HDKey) (index : ℤ) (data fp : Bytes) :
    (childOf hmacSha512 key index data fp).scalar = (left hmacSha512 key data + key.scalar) % N := by
  have hN : N < 256 ^ 32 := by decide
  rw [scalar, childOf, Der.natOf_bytesOf, Nat.mod_eq_of_lt ((Nat.mod_lt _ (by decide)).trans hN)]

theorem pub_eq (key : HDKey) :
    key.pub = compress (ofPoint ((key.scalar : ZMod N) • generator)) := by
  rw [pub, ptMul_generator, Int.cast_natCast, scalar]

/-- A key has a public key exactly if its scalar is not a multiple of `N`. -/
theorem exists_pub {key : HDKey} (h : key.scalar % N ≠ 0) :
    ∃ p pubkey, ofPoint ((key.scalar : ZMod N) • generator) = some p ∧ key.pub = .ok pubkey ∧
      compress (some p) = .ok pubkey ∧ pubkey.length = 33 ∧ decompress pubkey = .ok p := by
  have hne : (key.scalar : ZMod N) • generator ≠ 0 := by
    refine smul_ne_zero ?_ (WeierstrassCurve.Affine.Point.some_ne_zero _)
    rw [ne_eq, ZMod.natCast_eq_zero_iff, Nat.dvd_iff_mod_eq_zero]
    exact h
  match hp : ofPoint ((key.scalar : ZMod N) • generator) with
  | none => exact absurd (ofPoint_injective (hp.trans ofPoint_zero.symm)) hne
  | some (x, y) =>
    have hcurve : OnCurve (some (x, y)) := hp ▸ onCurve_ofPoint _
    obtain ⟨pubkey, hpubkey, hlength, hread⟩ := decompress_of_onCurve hcurve
    exact ⟨(x, y), pubkey, rfl, by rw [pub_eq, hp, hpubkey], hpubkey, hlength, hread⟩

theorem exists_fingerprint {key : HDKey} (h : key.scalar % N ≠ 0) :
    ∃ fp, key.fingerprint sha256 = .ok fp ∧ fp.length = 4 := by
  obtain ⟨p, pubkey, -, hpub, -⟩ := exists_pub h
  refine ⟨(hash160 sha256 pubkey).take 4, ?_, ?_⟩
  · rw [fingerprint, hpub]
    rfl
  · rw [List.length_take, length_hash160]
    rfl

/-- The index of a child, in its data. -/
theorem index_of_childData {key : HDKey} {index : ℤ} {data : Bytes}
    (h : key.childData index = .ok data) : 0 ≤ index ∧ index < 2 ^ 32 := by
  rw [childData] at h
  split at h
  · obtain ⟨b, hb, -⟩ := bind_eq_ok_iff.mp h
    exact (packBig_eq_ok_iff.mp hb).1
  · obtain ⟨pubkey, -, h⟩ := bind_eq_ok_iff.mp h
    obtain ⟨b, hb, -⟩ := bind_eq_ok_iff.mp h
    exact (packBig_eq_ok_iff.mp hb).1

/-- A child of any key is a valid one. -/
theorem Valid.of_derive {key child : HDKey} {index : ℤ}
    (h : derive hmacSha512 sha256 key index = .ok child) : child.Valid := by
  obtain ⟨data, fp, hdata, hfp, hlow, hne, rfl⟩ := (derive_eq_ok_iff hmacSha512 sha256).mp h
  have hscalar := scalar_childOf hmacSha512 key index data fp
  refine ⟨Der.length_bytesOf _ _, ?_, ?_, ?_, ?_⟩
  · rw [hscalar]
    exact ⟨Nat.pos_of_ne_zero hne, Nat.mod_lt _ (by decide)⟩
  · simp [childOf, right]
  · rw [fingerprint] at hfp
    obtain ⟨pubkey, -, hfp⟩ := bind_eq_ok_iff.mp hfp
    rw [childOf, ← pure_eq_ok_iff.mp hfp, List.length_take, length_hash160]
    rfl
  · exact index_of_childData hdata

end

end HDKey

/-! ## The tree without its private keys -/

/-- What an extended public key has for the keys below it. -/
structure WatchKey where
  pub : Bytes
  chain : Bytes
deriving DecidableEq, Repr

section
variable (hmacSha512 : HmacSha512) (sha256 : Sha256)

/-- A child as it is found without the private key: the point of the left half is added to that of
the key. There is none with a hardened index. -/
def WatchKey.child (k : WatchKey) (index : ℤ) : Option WatchKey :=
  if isHardened index then none
  else do
    let h := (hmacSha512 k.chain (k.pub ++ (← (packBig 4 index).toOption))).toList
    if Der.natOf (h.take 32) < N then do
      let p ← ptAdd (ptMul (Der.natOf (h.take 32))) (some (← (decompress k.pub).toOption))
      return ⟨← (compress (some p)).toOption, h.drop 32⟩
    else none

/-- What a wallet is given of a key. -/
def HDKey.watch (key : HDKey) : Option WatchKey := return ⟨← key.pub.toOption, key.chain⟩

theorem HDKey.watch_eq_some_iff {key : HDKey} {w : WatchKey} :
    key.watch = some w ↔ key.pub = .ok w.pub ∧ key.chain = w.chain := by
  rw [HDKey.watch]
  simp only [Option.bind_eq_bind, Option.bind_eq_some_iff, toOption_eq_some_iff, Option.pure_def,
    Option.some.injEq]
  constructor
  · rintro ⟨pubkey, hpub, rfl⟩
    exact ⟨hpub, rfl⟩
  · rintro ⟨hpub, hchain⟩
    exact ⟨w.pub, hpub, by rw [hchain]⟩

theorem scalar_of_pub {key : HDKey} {pubkey : Bytes} (h : key.pub = .ok pubkey) :
    key.scalar % N ≠ 0 := by
  intro hzero
  rw [← Nat.dvd_iff_mod_eq_zero, ← ZMod.natCast_eq_zero_iff] at hzero
  rw [HDKey.pub_eq, hzero, zero_smul (ZMod N) generator, ofPoint_zero] at h
  cases h

theorem childData_of_watch {key : HDKey} {w : WatchKey} (hw : key.watch = some w) {index : ℤ}
    (hsoft : isHardened index = false) {data : Bytes} :
    key.childData index = .ok data ↔ ∃ b, packBig 4 index = .ok b ∧ w.pub ++ b = data := by
  obtain ⟨hpub, -⟩ := HDKey.watch_eq_some_iff.mp hw
  rw [HDKey.childData, hsoft, if_neg Bool.false_ne_true, hpub, bind_eq_ok_iff]
  constructor
  · rintro ⟨pubkey, hpubkey, h⟩
    obtain ⟨b, hb, h⟩ := bind_eq_ok_iff.mp h
    obtain rfl := Except.ok.inj hpubkey
    exact ⟨b, hb, pure_eq_ok_iff.mp h⟩
  · rintro ⟨b, hb, h⟩
    exact ⟨_, rfl, bind_eq_ok_iff.mpr ⟨b, hb, pure_eq_ok_iff.mpr h⟩⟩

theorem WatchKey.child_eq_some_iff {w w' : WatchKey} {index : ℤ}
    (hsoft : isHardened index = false) :
    w.child hmacSha512 index = some w' ↔ ∃ b p q, packBig 4 index = .ok b ∧
      decompress w.pub = .ok p ∧
      Der.natOf ((hmacSha512 w.chain (w.pub ++ b)).toList.take 32) < N ∧
      ptAdd (ptMul (Der.natOf ((hmacSha512 w.chain (w.pub ++ b)).toList.take 32))) (some p)
        = some q ∧
      compress (some q) = .ok w'.pub ∧
      (hmacSha512 w.chain (w.pub ++ b)).toList.drop 32 = w'.chain := by
  rw [WatchKey.child, hsoft, if_neg Bool.false_ne_true]
  simp only [Option.bind_eq_bind, Option.bind_eq_some_iff, toOption_eq_some_iff]
  constructor
  · rintro ⟨b, hb, h⟩
    split_ifs at h with hlow
    simp only [Option.bind_eq_some_iff, toOption_eq_some_iff, Option.pure_def, Option.some.injEq] at h
    obtain ⟨p, hp, q, hq, pubkey, hpubkey, rfl⟩ := h
    exact ⟨b, p, q, hb, hp, hlow, hq, hpubkey, rfl⟩
  · rintro ⟨b, p, q, hb, hp, hlow, hq, hpubkey, hchain⟩
    refine ⟨b, hb, ?_⟩
    rw [if_pos hlow]
    simp only [Option.bind_eq_some_iff, toOption_eq_some_iff, Option.pure_def, Option.some.injEq]
    exact ⟨p, hp, q, hq, w'.pub, hpubkey, by rw [hchain]⟩

/-- The point of a child. -/
theorem ofPoint_child (key : HDKey) (l : ℕ) :
    ofPoint (((l + key.scalar) % N : ℕ) • generator) =
      ptAdd (ptMul l) (ofPoint ((key.scalar : ZMod N) • generator)) := by
  rw [ptMul_generator, ptAdd_ofPoint, Int.cast_natCast, ← add_smul, ← Nat.cast_add,
    ← Nat.cast_smul_eq_nsmul (ZMod N), ZMod.natCast_mod]

/-- The wallet finds the child that the key derives, if there is one. -/
theorem watch_derive {key : HDKey} {w : WatchKey} (hw : key.watch = some w) {index : ℤ}
    (hsoft : isHardened index = false) :
    (HDKey.derive hmacSha512 sha256 key index).toOption.bind HDKey.watch =
      w.child hmacSha512 index := by
  obtain ⟨hpub, hchain⟩ := HDKey.watch_eq_some_iff.mp hw
  obtain ⟨p, pubkey, hp, hpub', -, -, hread⟩ := HDKey.exists_pub (scalar_of_pub hpub)
  obtain rfl := Except.ok.inj (hpub.symm.trans hpub')
  obtain ⟨fp, hfp, -⟩ := HDKey.exists_fingerprint sha256 (scalar_of_pub hpub)
  refine Option.ext fun w' => ?_
  rw [WatchKey.child_eq_some_iff hmacSha512 hsoft]
  simp only [Option.bind_eq_some_iff, toOption_eq_some_iff,
    HDKey.derive_eq_ok_iff, childData_of_watch hw hsoft, HDKey.watch_eq_some_iff]
  have hleft (data : Bytes) : HDKey.left hmacSha512 key data =
      Der.natOf ((hmacSha512 w.chain data).toList.take 32) := by rw [HDKey.left, hchain]
  have hright (data : Bytes) : HDKey.right hmacSha512 key data =
      (hmacSha512 w.chain data).toList.drop 32 := by rw [HDKey.right, hchain]
  have hpoint (data fp' : Bytes) :
      ofPoint (((HDKey.childOf hmacSha512 key index data fp').scalar : ZMod N) • generator) =
        ptAdd (ptMul (Der.natOf ((hmacSha512 w.chain data).toList.take 32))) (some p) := by
    rw [HDKey.scalar_childOf, Nat.cast_smul_eq_nsmul, ofPoint_child, hp, hleft]
  constructor
  · rintro ⟨child, ⟨data, fp', ⟨b, hb, rfl⟩, -, hlow, -, rfl⟩, hpub', hchain'⟩
    rw [HDKey.pub_eq, hpoint] at hpub'
    rw [hleft] at hlow
    obtain ⟨q, hq⟩ : ∃ q, ptAdd (ptMul (Der.natOf
        ((hmacSha512 w.chain (w.pub ++ b)).toList.take 32))) (some p) = some q := by
      refine Option.ne_none_iff_exists'.mp fun hnone => ?_
      rw [hnone] at hpub'
      cases hpub'
    exact ⟨b, p, q, hb, hread, hlow, hq, hq ▸ hpub', (hright _).symm.trans hchain'⟩
  · rintro ⟨b, p', q, hb, hp', hlow, hq, hpubkey, hchain'⟩
    obtain rfl := Except.ok.inj (hread.symm.trans hp')
    rw [← hpoint (w.pub ++ b) fp] at hq
    refine ⟨_, ⟨w.pub ++ b, fp, ⟨b, hb, rfl⟩, hfp, (hleft _).symm ▸ hlow, ?_, rfl⟩, ?_,
      (hright _).trans hchain'⟩
    · intro hzero
      rw [HDKey.scalar_childOf, hzero, Nat.cast_zero, zero_smul (ZMod N) generator,
        ofPoint_zero] at hq
      cases hq
    · rw [HDKey.pub_eq, hq]
      exact hpubkey

/-- A key that is derived has a public key. -/
theorem HDKey.exists_watch {key child : HDKey} {index : ℤ}
    (h : derive hmacSha512 sha256 key index = .ok child) : ∃ w, child.watch = some w := by
  have hscalar := (Valid.of_derive hmacSha512 sha256 h).scalar
  obtain ⟨p, pubkey, -, hpub, -⟩ := @exists_pub child (by
    rw [Nat.mod_eq_of_lt hscalar.2]
    exact Nat.ne_of_gt hscalar.1)
  exact ⟨⟨pubkey, child.chain⟩, watch_eq_some_iff.mpr ⟨hpub, rfl⟩⟩

/-- So it is for a whole path of children. -/
theorem watch_path {key : HDKey} {w : WatchKey} (hw : key.watch = some w) {is : List ℤ}
    (hsoft : ∀ i ∈ is, isHardened i = false) :
    (is.foldlM (HDKey.derive hmacSha512 sha256) key).toOption.bind HDKey.watch =
      is.foldlM (WatchKey.child hmacSha512) w := by
  induction is generalizing key w with
  | nil => exact hw
  | cons i is ih =>
    rw [List.forall_mem_cons] at hsoft
    have hstep := watch_derive hmacSha512 sha256 hw hsoft.1
    rw [List.foldlM_cons, List.foldlM_cons, ← hstep]
    match hchild : HDKey.derive hmacSha512 sha256 key i with
    | .error e => rfl
    | .ok child =>
      obtain ⟨w', hw'⟩ := HDKey.exists_watch hmacSha512 sha256 hchild
      have hnext : (Except.ok child : Except Thrown HDKey).toOption.bind HDKey.watch = some w' := hw'
      rw [hnext]
      exact ih hw' hsoft.2

/-! ## Paths -/

variable (int : List Char → Except Raised ℤ)

/-- A part of a path that stands for an index. -/
def IsIndex (part : List Char) : Prop := part ≠ ['m'] ∧ part ≠ []

theorem derivePart_of_not {key : HDKey} {part : List Char} (h : ¬ IsIndex part) :
    HDKey.derivePart hmacSha512 sha256 int key part = .ok key := by
  rw [IsIndex, not_and_or, not_not, not_not] at h
  rw [HDKey.derivePart, if_pos h]
  rfl

theorem derivePart_eq_ok_iff {key child : HDKey} {part : List Char} (h : IsIndex part) :
    HDKey.derivePart hmacSha512 sha256 int key part = .ok child ↔
      ∃ i, partToInt int part = .ok i ∧ HDKey.derive hmacSha512 sha256 key i = .ok child := by
  rw [IsIndex, ← not_or] at h
  rw [HDKey.derivePart, if_neg h, partToInt]
  split
  · simp only [bind_eq_ok_iff, pure_eq_ok_iff, mapError_eq_ok_iff]
    constructor
    · rintro ⟨n, hn, hchild⟩
      exact ⟨_, ⟨n, hn, rfl⟩, hchild⟩
    · rintro ⟨_, ⟨n, hn, rfl⟩, hchild⟩
      exact ⟨n, hn, hchild⟩
  · simp only [bind_eq_ok_iff, mapError_eq_ok_iff]

/-- The indices of a path, each of them read before the children are derived. -/
theorem foldlM_derivePart_eq_ok_iff {key child : HDKey} {parts : List (List Char)} :
    parts.foldlM (HDKey.derivePart hmacSha512 sha256 int) key = .ok child ↔
      ∃ is, (parts.filter fun part => part ≠ ['m'] ∧ part ≠ []).mapM (partToInt int) = .ok is ∧
        is.foldlM (HDKey.derive hmacSha512 sha256) key = .ok child := by
  induction parts generalizing key with
  | nil => exact ⟨fun h => ⟨[], rfl, h⟩, fun ⟨is, his, h⟩ => by cases his; exact h⟩
  | cons part parts ih =>
    rw [List.foldlM_cons, bind_eq_ok_iff]
    by_cases hpart : IsIndex part
    · rw [List.filter_cons_of_pos (p := fun part => decide (part ≠ ['m'] ∧ part ≠ []))
        (decide_eq_true hpart), List.mapM_cons]
      simp only [derivePart_eq_ok_iff hmacSha512 sha256 int hpart, ih, bind_eq_ok_iff, pure_eq_ok_iff]
      constructor
      · rintro ⟨mid, ⟨i, hi, hmid⟩, is, his, h⟩
        exact ⟨_, ⟨i, hi, is, his, rfl⟩, bind_eq_ok_iff.mpr ⟨mid, hmid, h⟩⟩
      · rintro ⟨_, ⟨i, hi, is, his, rfl⟩, h⟩
        obtain ⟨mid, hmid, h⟩ := bind_eq_ok_iff.mp h
        exact ⟨mid, ⟨i, hi, hmid⟩, is, his, h⟩
    · rw [List.filter_cons_of_neg (p := fun part => decide (part ≠ ['m'] ∧ part ≠ []))
        (by rw [decide_eq_true_iff]; exact hpart),
        derivePart_of_not hmacSha512 sha256 int hpart, ← ih]
      exact ⟨fun ⟨mid, hmid, h⟩ => Except.ok.inj hmid ▸ h, fun h => ⟨key, rfl, h⟩⟩

/-- `derive_path` and `path_to_ints` agree on the indices. -/
theorem derivePath_eq_ok_iff {key child : HDKey} {path : String} :
    HDKey.derivePath hmacSha512 sha256 int key path = .ok child ↔
      ∃ is, pathToInts int path = .ok is ∧
        is.foldlM (HDKey.derive hmacSha512 sha256) key = .ok child :=
  foldlM_derivePart_eq_ok_iff hmacSha512 sha256 int

/-- What a chain of children records. -/
theorem foldlM_derive_spec {key child : HDKey} {is : List ℤ}
    (h : is.foldlM (HDKey.derive hmacSha512 sha256) key = .ok child) :
    child.depth = key.depth + is.length ∧ child.net = key.net ∧
      (∀ i ∈ is, 0 ≤ i ∧ i < 2 ^ 32) ∧ (is = [] → child = key) ∧
      ∀ i ∈ is.getLast?, child.Valid ∧ child.childNum = i := by
  induction is using List.reverseRecOn generalizing child with
  | nil =>
    obtain rfl := Except.ok.inj h
    exact ⟨by simp, rfl, fun i hi => absurd hi List.not_mem_nil, fun _ => rfl,
      fun i hi => by cases hi⟩
  | append_singleton is i ih =>
    rw [List.foldlM_append, bind_eq_ok_iff] at h
    obtain ⟨mid, hmid, h⟩ := h
    rw [List.foldlM_cons, bind_eq_ok_iff] at h
    obtain ⟨child', hchild, h⟩ := h
    obtain rfl := Except.ok.inj h
    obtain ⟨hdepth, hnet, hindices, -⟩ := ih hmid
    have hvalid := HDKey.Valid.of_derive hmacSha512 sha256 hchild
    obtain ⟨data, fp, hdata, -, -, -, rfl⟩ := (HDKey.derive_eq_ok_iff hmacSha512 sha256).mp hchild
    rw [HDKey.childOf_depth, HDKey.childOf_net, HDKey.childOf_childNum]
    refine ⟨?_, hnet, ?_, fun hnil => absurd hnil (by simp), ?_⟩
    · rw [hdepth, List.length_append, List.length_singleton]
      push_cast
      ring
    · intro j hj
      obtain hj | hj := List.mem_append.mp hj
      · exact hindices j hj
      · rw [List.mem_singleton.mp hj]
        exact HDKey.index_of_childData hdata
    · intro j hj
      rw [List.getLast?_concat, Option.mem_some_iff] at hj
      exact ⟨hvalid, hj⟩

/-- A wallet that has only the public key of an account finds the keys of all its addresses. -/
theorem derivePath_watchOnly {key : HDKey} {w : WatchKey} (hw : key.watch = some w) {path : String}
    {is : List ℤ} (his : pathToInts int path = .ok is) (hsoft : ∀ i ∈ is, isHardened i = false) :
    (HDKey.derivePath hmacSha512 sha256 int key path).toOption.bind HDKey.watch =
      is.foldlM (WatchKey.child hmacSha512) w := by
  rw [← watch_path hmacSha512 sha256 hw hsoft]
  refine Option.ext fun w' => ?_
  simp only [Option.bind_eq_some_iff, toOption_eq_some_iff,
    derivePath_eq_ok_iff hmacSha512 sha256 int, his, Except.ok.injEq]
  exact exists_congr fun child => and_congr_left' ⟨fun ⟨_, rfl, h⟩ => h, fun h => ⟨is, rfl, h⟩⟩

theorem derivePath_append {key child : HDKey} {path : String}
    (h : HDKey.derivePath hmacSha512 sha256 int key path = .ok child) (rest : String) :
    HDKey.derivePath hmacSha512 sha256 int key (path ++ "/" ++ rest) =
      HDKey.derivePath hmacSha512 sha256 int child rest := by
  have hlist : (path ++ "/" ++ rest).toList = path.toList ++ '/' :: rest.toList := by
    simp [String.toList_append]
  rw [HDKey.derivePath] at h
  rw [HDKey.derivePath, hlist, List.splitOn_append_cons_self, List.foldlM_append, h]
  rfl

/-- The bytes of a path in a PSBT, if each index has room. -/
theorem keypathValue_eq {path : String} {is : List ℤ} (his : pathToInts int path = .ok is)
    (hrange : ∀ i ∈ is, 0 ≤ i ∧ i < 2 ^ 32) (fp : Bytes) :
    keypathValue int fp path = .ok (fp ++ (is.map fun i => leBytes 4 i.toNat).flatten) := by
  have hpack : is.mapM (pack 4) = .ok (is.map fun i => leBytes 4 i.toNat) := by
    clear his
    induction is with
    | nil => rfl
    | cons i is ih =>
      rw [List.forall_mem_cons] at hrange
      have hi : pack 4 i = .ok (leBytes 4 i.toNat) :=
        if_pos ⟨hrange.1.1, by simpa using hrange.1.2⟩
      rw [List.mapM_cons, ih hrange.2, hi]
      rfl
  rw [keypathValue, his]
  simp only [bind, Except.bind, hpack]
  rfl

/-- What `derive_path` returns is the child of the child and so on, by the indices the path stands
for, and records them: it is as deep as there are indices, the last of them is its number, and the
PSBT names the same indices; a longer path goes on from it. -/
theorem derivePath_records {key child : HDKey} {path : String}
    (h : HDKey.derivePath hmacSha512 sha256 int key path = .ok child) :
    ∃ is, pathToInts int path = .ok is ∧
      is.foldlM (HDKey.derive hmacSha512 sha256) key = .ok child ∧
      child.depth = key.depth + is.length ∧ child.net = key.net ∧ (is = [] → child = key) ∧
      (∀ i ∈ is.getLast?, child.Valid ∧ child.childNum = i) ∧
      (∀ fp, keypathValue int fp path =
        .ok (fp ++ (is.map fun i => leBytes 4 i.toNat).flatten)) ∧
      ∀ rest, HDKey.derivePath hmacSha512 sha256 int key (path ++ "/" ++ rest) =
        HDKey.derivePath hmacSha512 sha256 int child rest := by
  obtain ⟨is, his, hfold⟩ := (derivePath_eq_ok_iff hmacSha512 sha256 int).mp h
  obtain ⟨hdepth, hnet, hrange, hnil, hlast⟩ := foldlM_derive_spec hmacSha512 sha256 hfold
  exact ⟨is, his, hfold, hdepth, hnet, hnil, hlast, keypathValue_eq int his hrange,
    derivePath_append hmacSha512 sha256 int h⟩

end

/-- The key with the scalar 1. -/
def keyOne : HDKey where
  priv := Der.bytesOf 32 1
  chain := List.replicate 32 0x00

theorem valid_keyOne : keyOne.Valid :=
  ⟨by decide, by decide, by decide, by decide, by decide⟩

/-- The hash of zeros, whatever is hashed. -/
def zeroSha256 : Sha256 := fun _ => Vector.replicate 32 0x00

def zeroHmacSha512 : HmacSha512 := fun _ _ => Vector.replicate 64 0x00

theorem derivePath_records_keyOne : ∃ child is,
    HDKey.derivePath zeroHmacSha512 zeroSha256 intOfDigits keyOne "m/7h/0" = .ok child ∧
      pathToInts intOfDigits "m/7h/0" = .ok is ∧
      is.foldlM (HDKey.derive zeroHmacSha512 zeroSha256) keyOne = .ok child ∧
      child.depth = keyOne.depth + is.length := by
  have hsome : (HDKey.derivePath zeroHmacSha512 zeroSha256 intOfDigits keyOne "m/7h/0").toOption.isSome
      = true := by decide +kernel
  obtain ⟨child, hchild⟩ := Option.isSome_iff_exists.mp hsome
  rw [toOption_eq_some_iff] at hchild
  obtain ⟨is, his, hfold, hdepth, -⟩ :=
    derivePath_records zeroHmacSha512 zeroSha256 intOfDigits hchild
  exact ⟨child, is, hchild, his, hfold, hdepth⟩

end Verifier

end SignerOS
