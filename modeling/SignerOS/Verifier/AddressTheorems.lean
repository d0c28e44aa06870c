import SignerOS.Verifier.Addresses
import SignerOS.Verifier.HdKeyTheorems

/-!
# Taproot addresses

* `ofPoint_neg`, the mirror image of a point in coordinates;
* `p2trAddress_spends`, the owner of the key is the owner of the address.
-/

namespace SignerOS

namespace Verifier

/-- A finite point has an ordinate other than zero, so that its mirror image has another one. -/
theorem ofPoint_neg {s : Secp} {x y : ℤ} (h : ofPoint s = some (x, y)) :
    ofPoint (-s) = some (x, P - y) := by
  have hpos : 0 < y := pos_of_onCurve (h ▸ onCurve_ofPoint s)
  cases s with
  | zero => cases h
  | some x' y' hs =>
    rw [ofPoint, Option.some.injEq, Prod.mk.injEq] at h
    obtain ⟨rfl, rfl⟩ := h
    have hne : y' ≠ 0 := by
      rintro rfl
      rw [ZMod.val_zero] at hpos
      exact absurd hpos (by decide)
    have : NeZero y' := ⟨hne⟩
    rw [WeierstrassCurve.Affine.Point.neg_some, ofPoint, MordellCurve.negY_eq, ZMod.val_neg_of_ne_zero,
      Nat.cast_sub (ZMod.val_lt y').le]

section
variable (sha256 : Sha256)

/-- The scalar of the point that has the abscissa of the key's and an even ordinate. -/
def evenScalar (key : HDKey) (pubkey : Bytes) : ℤ :=
  if pubkey.headD 0 = 0x02 then key.scalar else -key.scalar

/-- What is lifted of the abscissa of a key is the point of that scalar. -/
theorem decompress_even {key : HDKey} {pubkey : Bytes} (h : key.pub = .ok pubkey) :
    ∃ p, decompress (0x02 :: pubkey.tail) = .ok p ∧
      ptMul (evenScalar key pubkey) = some p := by
  obtain ⟨⟨x, y⟩, pubkey', hpoint, hpub, hcompress, -, hread⟩ := HDKey.exists_pub (scalar_of_pub h)
  obtain rfl := Except.ok.inj (h.symm.trans hpub)
  obtain ⟨hx, hbytes⟩ := compress_eq_ok_iff.mp hcompress
  obtain ⟨heven, htag⟩ | ⟨hodd, htag⟩ := tag_cases y
  · rw [htag] at hbytes
    refine ⟨(x, y), ?_, ?_⟩
    · rw [← hbytes] at hread ⊢
      exact hread
    · rw [evenScalar, ← hbytes, List.headD_cons, if_pos rfl, ptMul_generator, Int.cast_natCast]
      exact hpoint
  · rw [htag] at hbytes
    have hneg := ofPoint_neg hpoint
    have hcurve : OnCurve (some (x, P - y)) := hneg ▸ onCurve_ofPoint _
    obtain ⟨b, hb, -, hread'⟩ := decompress_of_onCurve hcurve
    obtain ⟨-, hb⟩ := compress_eq_ok_iff.mp hb
    have hparity : (P - y) % 2 = 0 := by
      have hP : (P : ℤ) % 2 = 1 := by decide
      omega
    refine ⟨(x, P - y), ?_, ?_⟩
    · rw [hparity] at hb
      rw [← hbytes, List.tail_cons]
      exact hb ▸ hread'
    · rw [evenScalar, ← hbytes, List.headD_cons, if_neg (by decide), ptMul_generator, Int.cast_neg,
        neg_smul, Int.cast_natCast]
      exact hneg

/-- The tweak of a key. -/
def tweak (pubkey : Bytes) : ℕ := Der.natOf (taggedHash sha256 "TapTweak" pubkey.tail)

theorem outputPoint_eq_ok_iff {key : HDKey} {pubkey : Bytes} (h : key.pub = .ok pubkey) {p : Point} :
    outputPoint sha256 pubkey = .ok p ↔
      tweak sha256 pubkey < N ∧ ptMul (evenScalar key pubkey + tweak sha256 pubkey) = p := by
  obtain ⟨q, hread, hmul⟩ := decompress_even h
  have hsum : ptAdd (some q) (ptMul (tweak sha256 pubkey)) =
      ptMul (evenScalar key pubkey + tweak sha256 pubkey) := by
    rw [← hmul, ptMul_generator, ptMul_generator, ptMul_generator, ptAdd_ofPoint, Int.cast_add,
      add_smul]
  rw [outputPoint, hread, ← tweak]
  change (if tweak sha256 pubkey ≥ N then
      (Except.error (.valueError "taproot tweak out of range") : Except Thrown Point)
    else .ok (ptAdd (some q) (ptMul (tweak sha256 pubkey)))) = .ok p ↔ _
  rw [hsum]
  split
  · next hge => exact iff_of_false (fun h => by cases h) fun h => absurd h.1 (Nat.not_lt.mpr hge)
  · next hlt =>
    rw [and_iff_right (Nat.not_le.mp hlt)]
    exact ⟨fun h => Except.ok.inj h, fun h => congrArg Except.ok h⟩

/-- A taproot address is that of the public key whose private one is the private key, mirrored if
its point has an odd ordinate, with the tweak added to it. -/
theorem p2trAddress_spends {key : HDKey} {pubkey : Bytes} (h : key.pub = .ok pubkey)
    (net s : String) :
    p2trAddress sha256 pubkey net = .ok s ↔ tweak sha256 pubkey < N ∧
      ∃ text output, hrp net = .ok text ∧
        compress (ptMul (evenScalar key pubkey + tweak sha256 pubkey)) = .ok output ∧
        bech32Encode text 1 output.tail = .ok s := by
  rw [p2trAddress]
  simp only [bind_eq_ok_iff, outputPoint_eq_ok_iff sha256 h]
  constructor
  · rintro ⟨p, ⟨htweak, rfl⟩, text, htext, output, houtput, hs⟩
    exact ⟨htweak, text, output, htext, houtput, hs⟩
  · rintro ⟨htweak, text, output, htext, houtput, hs⟩
    exact ⟨_, ⟨htweak, rfl⟩, text, htext, output, houtput, hs⟩

end

/-- The hash that is the number seven, whatever is hashed. -/
def sevenSha256 : Sha256 := fun _ => (Vector.replicate 31 0x00).push 0x07

theorem p2trAddress_spends_keyOne : ∃ pubkey s output, keyOne.pub = .ok pubkey ∧
    p2trAddress sevenSha256 pubkey "mainnet" = .ok s ∧
    compress (ptMul (evenScalar keyOne pubkey + tweak sevenSha256 pubkey)) = .ok output ∧
    bech32Encode "bc" 1 output.tail = .ok s := by
  have hsome : (keyOne.pub.toOption.bind fun pubkey =>
      (p2trAddress sevenSha256 pubkey "mainnet").toOption).isSome = true := by decide +kernel
  obtain ⟨s, hs⟩ := Option.isSome_iff_exists.mp hsome
  obtain ⟨pubkey, hpub, hs⟩ := Option.bind_eq_some_iff.mp hs
  rw [toOption_eq_some_iff] at hpub hs
  obtain ⟨-, text, output, htext, houtput, hencode⟩ :=
    (p2trAddress_spends sevenSha256 hpub "mainnet" s).mp hs
  obtain rfl := Except.ok.inj htext
  exact ⟨pubkey, s, output, hpub, hs, houtput, hencode⟩

end Verifier

end SignerOS
