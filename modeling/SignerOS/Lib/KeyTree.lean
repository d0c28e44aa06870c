import SignerOS.Lib.Der

/-!
# Trees of keys

Extended keys and their children, as BIP32 defines them: private keys are numbers, public ones the
multiples of a base point in any group, and both have the same children as long as no private key is
needed for them.

* `publicPath_neuter`, the public part of a key's children, without its private part;
* `Hom.privateChild` and `Hom.publicPath`, the same tree over another group.
-/

namespace KeyTree

/-- What the keys of a tree are made of. -/
structure Scheme (G : Type) where
  /-- The number of points. -/
  order : ℕ
  /-- A multiple of the base point. -/
  point : ℕ → G
  add : G → G → G
  /-- The bytes of a point. The one at infinity has none. -/
  written : G → Option (List UInt8)
  hmac : List UInt8 → List UInt8 → List UInt8
  /-- The hash that a fingerprint begins. -/
  hash : List UInt8 → List UInt8

/-- An extended key: of a number if it is private, of a point if it is public. -/
structure Extended (K : Type) where
  key : K
  chain : List UInt8
  depth : ℕ := 0
  parent : List UInt8 := [0x00, 0x00, 0x00, 0x00]
  number : ℕ := 0
deriving DecidableEq, Repr

/-- The same with another key. -/
def Extended.map {K L : Type} (φ : K → L) (x : Extended K) : Extended L where
  key := φ x.key
  chain := x.chain
  depth := x.depth
  parent := x.parent
  number := x.number

/-- "Bitcoin seed", the key of the first hash. -/
def seedKey : List UInt8 := [0x42, 0x69, 0x74, 0x63, 0x6f, 0x69, 0x6e, 0x20, 0x73, 0x65, 0x65, 0x64]

namespace Scheme

variable {G H : Type} (T : Scheme G)

/-- A hash, as a number below the order and a chain code. -/
def split (key data : List UInt8) : Option (ℕ × List UInt8) :=
  let h := T.hmac key data
  if Der.natOf (h.take 32) < T.order then some (Der.natOf (h.take 32), h.drop 32) else none

/-- The key that a seed stands for. -/
def master (seed : List UInt8) : Option (Extended ℕ) := do
  let (key, chain) ← T.split seedKey seed
  if key = 0 then none else some { key, chain }

/-- A child of a private key. A number from 2^31 on makes a hardened one, for which the key itself
is hashed, with a zero ahead of it. -/
def privateChild (x : Extended ℕ) (i : ℕ) : Option (Extended ℕ) := do
  let pub ← T.written (T.point x.key)
  let data := if 2 ^ 31 ≤ i then 0x00 :: Der.bytesOf 32 x.key else pub
  let (l, chain) ← T.split x.chain (data ++ Der.bytesOf 4 i)
  let key := (l + x.key) % T.order
  if key = 0 then none
  else some { key, chain, depth := x.depth + 1, parent := (T.hash pub).take 4, number := i }

/-- A child of a public key. -/
def publicChild (x : Extended G) (i : ℕ) : Option (Extended G) := do
  if 2 ^ 31 ≤ i then none
  else
    let pub ← T.written x.key
    let (l, chain) ← T.split x.chain (pub ++ Der.bytesOf 4 i)
    let key := T.add (T.point l) x.key
    if (T.written key).isSome then
      some { key, chain, depth := x.depth + 1, parent := (T.hash pub).take 4, number := i }
    else none

/-- The public part of a private key. -/
def neuter (x : Extended ℕ) : Extended G := x.map T.point

/-- The bytes of a public key, behind the version of what they are for. -/
def serialized (version : ℕ) (x : Extended G) : Option (List UInt8) := do
  let pub ← T.written x.key
  some (Der.bytesOf 4 version ++ Der.bytesOf 1 x.depth ++ x.parent ++ Der.bytesOf 4 x.number ++
    x.chain ++ pub)

/-! ## Children -/

theorem split_eq_some_iff {key data : List UInt8} {s : ℕ × List UInt8} :
    T.split key data = some s ↔ Der.natOf ((T.hmac key data).take 32) < T.order ∧
      (Der.natOf ((T.hmac key data).take 32), (T.hmac key data).drop 32) = s := by
  rw [split]
  split
  · next hlt => rw [Option.some.injEq, and_iff_right hlt]
  · next hge => exact iff_of_false (fun h => by cases h) fun h => hge h.1

theorem privateChild_eq_some_iff {x y : Extended ℕ} {i : ℕ} :
    T.privateChild x i = some y ↔ ∃ pub l chain, T.written (T.point x.key) = some pub ∧
      T.split x.chain ((if 2 ^ 31 ≤ i then 0x00 :: Der.bytesOf 32 x.key else pub) ++
        Der.bytesOf 4 i) = some (l, chain) ∧
      (l + x.key) % T.order ≠ 0 ∧
      { key := (l + x.key) % T.order, chain, depth := x.depth + 1, parent := (T.hash pub).take 4,
        number := i } = y := by
  rw [privateChild]
  simp only [Option.bind_eq_bind, Option.bind_eq_some_iff]
  constructor
  · rintro ⟨pub, hpub, ⟨l, chain⟩, hsplit, h⟩
    split_ifs at h with hzero
    exact ⟨pub, l, chain, hpub, hsplit, hzero, Option.some.inj h⟩
  · rintro ⟨pub, l, chain, hpub, hsplit, hne, rfl⟩
    exact ⟨pub, hpub, (l, chain), hsplit, if_neg hne⟩

theorem publicChild_eq_some_iff {x y : Extended G} {i : ℕ} :
    T.publicChild x i = some y ↔ i < 2 ^ 31 ∧ ∃ pub l chain, T.written x.key = some pub ∧
      T.split x.chain (pub ++ Der.bytesOf 4 i) = some (l, chain) ∧
      (T.written (T.add (T.point l) x.key)).isSome ∧
      { key := T.add (T.point l) x.key, chain, depth := x.depth + 1,
        parent := (T.hash pub).take 4, number := i } = y := by
  rw [publicChild]
  split
  · next hhard => exact iff_of_false (fun h => by cases h) fun h => Nat.not_lt.mpr hhard h.1
  · next hsoft =>
    rw [and_iff_right (Nat.not_le.mp hsoft)]
    simp only [Option.bind_eq_bind, Option.bind_eq_some_iff]
    constructor
    · rintro ⟨pub, hpub, ⟨l, chain⟩, hsplit, h⟩
      split_ifs at h with hfinite
      exact ⟨pub, l, chain, hpub, hsplit, hfinite, Option.some.inj h⟩
    · rintro ⟨pub, l, chain, hpub, hsplit, hfinite, rfl⟩
      exact ⟨pub, hpub, (l, chain), hsplit, if_pos hfinite⟩

/-! ## Without the private key -/

/-- The points are a group of the order, and only the one at infinity has no bytes. -/
structure Lawful : Prop where
  add_point : ∀ k l, T.add (T.point k) (T.point l) = T.point (k + l)
  point_mod : ∀ k, T.point (k % T.order) = T.point k
  isSome_written : ∀ k, (T.written (T.point k)).isSome ↔ k % T.order ≠ 0

variable {T}

/-- The public part of a child is the child of the public part. -/
theorem publicChild_neuter (hT : T.Lawful) (x : Extended ℕ) {i : ℕ} (hi : i < 2 ^ 31) :
    T.publicChild (T.neuter x) i = (T.privateChild x i).map T.neuter := by
  refine Option.ext fun y => ?_
  have hsoft (pub : List UInt8) :
      (if 2 ^ 31 ≤ i then 0x00 :: Der.bytesOf 32 x.key else pub) = pub := if_neg (Nat.not_le.mpr hi)
  simp only [publicChild_eq_some_iff, Option.map_eq_some_iff, privateChild_eq_some_iff, hsoft,
    and_iff_right hi]
  constructor
  · rintro ⟨pub, l, chain, hpub, hsplit, hfinite, rfl⟩
    rw [neuter, Extended.map, hT.add_point, hT.isSome_written] at hfinite
    refine ⟨_, ⟨pub, l, chain, hpub, hsplit, hfinite, rfl⟩, ?_⟩
    simp only [neuter, Extended.map, hT.add_point, hT.point_mod]
  · rintro ⟨_, ⟨pub, l, chain, hpub, hsplit, hne, rfl⟩, rfl⟩
    refine ⟨pub, l, chain, hpub, hsplit, ?_, ?_⟩
    · rw [neuter, Extended.map, hT.add_point, hT.isSome_written]
      exact hne
    · simp only [neuter, Extended.map, hT.add_point, hT.point_mod]

theorem publicPath_neuter (hT : T.Lawful) {is : List ℕ} (his : ∀ i ∈ is, i < 2 ^ 31)
    (x : Extended ℕ) :
    is.foldlM T.publicChild (T.neuter x) = (is.foldlM T.privateChild x).map T.neuter := by
  induction is generalizing x with
  | nil => rfl
  | cons i is ih =>
    rw [List.forall_mem_cons] at his
    rw [List.foldlM_cons, List.foldlM_cons, publicChild_neuter hT x his.1]
    cases T.privateChild x i with
    | none => rfl
    | some y => exact ih his.2 y

/-! ## Over another group -/

/-- A map of the points of one scheme to those of another, in which they have the same bytes. -/
structure Hom (S : Scheme H) (T : Scheme G) (φ : H → G) : Prop where
  order : S.order = T.order
  hmac : S.hmac = T.hmac
  hash : S.hash = T.hash
  point : ∀ k, φ (S.point k) = T.point k
  add : ∀ a b, φ (S.add a b) = T.add (φ a) (φ b)
  written : ∀ a, S.written a = T.written (φ a)

namespace Hom

variable {S : Scheme H} {φ : H → G} (h : Hom S T φ)
include h

theorem split : S.split = T.split := by
  funext key data
  rw [Scheme.split, Scheme.split, h.hmac, h.order]

theorem master : S.master = T.master := by
  funext seed
  rw [Scheme.master, Scheme.master, h.split]

theorem privateChild : S.privateChild = T.privateChild := by
  funext x i
  rw [Scheme.privateChild, Scheme.privateChild, h.split, h.written, h.point, h.order, h.hash]

theorem publicChild (x : Extended H) (i : ℕ) :
    T.publicChild (x.map φ) i = (S.publicChild x i).map (Extended.map φ) := by
  have hsum (l : ℕ) : T.add (T.point l) (φ x.key) = φ (S.add (S.point l) x.key) := by
    rw [h.add, h.point]
  refine Option.ext fun y => ?_
  simp only [publicChild_eq_some_iff, Option.map_eq_some_iff, h.split, h.written, h.hash]
  constructor
  · rintro ⟨hi, pub, l, chain, hpub, hsplit, hfinite, rfl⟩
    rw [Extended.map, hsum] at hfinite
    refine ⟨_, ⟨hi, pub, l, chain, hpub, hsplit, hfinite, rfl⟩, ?_⟩
    simp only [Extended.map, hsum]
  · rintro ⟨_, ⟨hi, pub, l, chain, hpub, hsplit, hfinite, rfl⟩, rfl⟩
    refine ⟨hi, pub, l, chain, hpub, hsplit, ?_, ?_⟩
    · rw [Extended.map, hsum]
      exact hfinite
    · simp only [Extended.map, hsum]

theorem publicPath (is : List ℕ) (x : Extended H) :
    is.foldlM T.publicChild (x.map φ) = (is.foldlM S.publicChild x).map (Extended.map φ) := by
  induction is generalizing x with
  | nil => rfl
  | cons i is ih =>
    rw [List.foldlM_cons, List.foldlM_cons, h.publicChild]
    cases S.publicChild x i with
    | none => rfl
    | some y => exact ih y

end Hom

end Scheme

end KeyTree
