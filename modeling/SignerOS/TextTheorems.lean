import Mathlib.Data.Nat.Bitwise
import SignerOS.Text
import SignerOS.Lib.Decimal
import SignerOS.Lib.Slots

/-!
# The printed texts

* `printed_paths`, a printed path carries the whole path, and the account and the branch that are
  read off it are those of the path;
* `amounts_exact`, both texts of an amount carry the whole amount.
-/

namespace SignerOS

/-- A text the buffer has room for is not cut. -/
theorem snprintf_eq {size : ℕ} {text : String} (h : text.toList.length < size) :
    snprintf size text = text := by
  rw [snprintf, List.take_of_length_le (by omega), String.ofList_toList]

/-! ## Derivation paths -/

/-- The text of a child number: its digits, and a mark behind them if it is hardened. -/
def childText (e : UInt32) : String :=
  if e &&& hardenedBit ≠ 0 then toString (e &&& 0x7fffffff).toNat ++ "'" else toString e.toNat

theorem length_toString_toNat (e : UInt32) : (toString e.toNat).toList.length ≤ 10 := by
  have he := e.toNat_lt
  exact (Decimal.length_toString_le_iff (by omega)).mpr (by omega)

/-- No element is cut by the buffer it is printed into. -/
theorem formatPathElement_eq (e : UInt32) : formatPathElement e = "/" ++ childText e := by
  unfold formatPathElement childText
  by_cases h : e &&& hardenedBit ≠ 0
  · have hlen := length_toString_toNat (e &&& 0x7fffffff)
    rw [if_pos h, if_pos h, snprintf_eq, String.append_assoc]
    simp only [String.toList_append, List.length_append]
    show 1 + _ + 1 < 24
    omega
  · have hlen := length_toString_toNat e
    rw [if_neg h, if_neg h, snprintf_eq]
    simp only [String.toList_append, List.length_append]
    show 1 + _ < 24
    omega

theorem toNat_and_low (e : UInt32) : (e &&& 0x7fffffff).toNat = e.toNat % 2 ^ 31 := by
  rw [UInt32.toNat_and]
  exact Nat.and_two_pow_sub_one_eq_mod e.toNat 31

theorem hardened_iff (e : UInt32) : e &&& hardenedBit ≠ 0 ↔ 2 ^ 31 ≤ e.toNat := by
  have he := e.toNat_lt
  have hand : (e &&& hardenedBit).toNat = (e.toNat.testBit 31).toNat * 2 ^ 31 := by
    rw [UInt32.toNat_and]
    exact Nat.and_two_pow e.toNat 31
  rw [ne_eq, ← UInt32.toNat_inj, hand, Nat.testBit_eq_decide_div_mod_eq]
  by_cases h : 2 ^ 31 ≤ e.toNat
  · have hbit : e.toNat / 2 ^ 31 % 2 = 1 := by omega
    rw [decide_eq_true hbit]
    exact iff_of_true (by decide) h
  · have hbit : ¬ e.toNat / 2 ^ 31 % 2 = 1 := by omega
    rw [decide_eq_false hbit]
    exact iff_of_false (by decide) h

/-- The digits tell two numbers apart, and the mark tells whether the hardened bit was set. -/
theorem childText_inj {a b : UInt32} (h : childText a = childText b) : a = b := by
  have hmark (n m : ℕ) : (toString n).toList ++ ['\''] ≠ (toString m).toList := by
    intro heq
    have hmem : '\'' ∈ (toString m).toList := by
      rw [← heq]
      exact List.mem_append_right _ List.mem_cons_self
    exact absurd (Decimal.isDigit_of_mem_toString hmem) (by decide)
  have hlist := congrArg String.toList h
  unfold childText at hlist
  by_cases ha : a &&& hardenedBit ≠ 0 <;> by_cases hb : b &&& hardenedBit ≠ 0
  · rw [if_pos ha, if_pos hb, String.toList_append, String.toList_append] at hlist
    have hlow := Decimal.toString_toList_inj (List.append_cancel_right hlist)
    rw [toNat_and_low, toNat_and_low] at hlow
    have ha' := (hardened_iff a).mp ha
    have hb' := (hardened_iff b).mp hb
    have halt := a.toNat_lt
    have hblt := b.toNat_lt
    exact UInt32.toNat_inj.mp (by omega)
  · rw [if_pos ha, if_neg hb, String.toList_append] at hlist
    exact absurd hlist (hmark _ _)
  · rw [if_neg ha, if_pos hb, String.toList_append] at hlist
    exact absurd hlist.symm (hmark _ _)
  · rw [if_neg ha, if_neg hb] at hlist
    exact UInt32.toNat_inj.mp (Decimal.toString_toList_inj hlist)

theorem slash_notMem_childText (e : UInt32) : '/' ∉ (childText e).toList := by
  have hdigits (n : ℕ) : '/' ∉ (toString n).toList :=
    fun h => absurd (Decimal.isDigit_of_mem_toString h) (by decide)
  unfold childText
  split
  · rw [String.toList_append, List.mem_append]
    rintro (h | h)
    · exact hdigits _ h
    · exact absurd h (by decide)
  · exact hdigits _

/-- A printed path is `m` and the texts of its elements, between slashes. -/
theorem toList_formatPath (path : List UInt32) :
    (formatPath path).toList
      = ['/'].intercalate (['m'] :: path.map fun e => (childText e).toList) := by
  have hfold (out : String) : (path.foldl (fun out e => out ++ formatPathElement e) out).toList
      = out.toList ++ path.flatMap fun e => '/' :: (childText e).toList := by
    induction path generalizing out with
    | nil => rw [List.foldl_nil, List.flatMap_nil, List.append_nil]
    | cons e path ih =>
      rw [List.foldl_cons, ih, formatPathElement_eq, String.toList_append, String.toList_append,
        List.flatMap_cons, List.append_assoc]
      rfl
  have hjoin : ['/'].intercalate (['m'] :: path.map fun e => (childText e).toList)
      = Slots.before '/' [] ++ ['m'] ++ Slots.behind '/' (path.map fun e => (childText e).toList) :=
    Slots.intercalate_eq_assemble [] ['m'] _
  rw [formatPath, hfold, hjoin, Slots.before, Slots.behind, List.flatMap_nil, List.flatMap_map]
  rfl

theorem splitAtSlashes_eq (cs : List Char) : splitAtSlashes cs = cs.splitOn '/' := by
  induction cs with
  | nil => rfl
  | cons c cs ih =>
    obtain ⟨part, parts, hparts⟩ := List.exists_cons_of_ne_nil (List.splitOn_ne_nil '/' cs)
    rw [splitAtSlashes, ih]
    by_cases hc : c = '/'
    · rw [if_pos hc, hc, Slots.splitOn_cons_self]
    · rw [if_neg hc, Slots.splitOn_cons_of_ne hc, hparts]
      rfl

/-- A printed path is split into its elements again. -/
theorem splitPath_formatPath (path : List UInt32) :
    splitPath (formatPath path) = "m" :: path.map childText := by
  have hslash : ∀ part ∈ ['m'] :: path.map fun e => (childText e).toList, '/' ∉ part := by
    intro part hpart
    rcases List.mem_cons.mp hpart with rfl | hpart
    · decide
    · obtain ⟨e, -, rfl⟩ := List.mem_map.mp hpart
      exact slash_notMem_childText e
  have hback : (path.map fun e => (childText e).toList).map String.ofList = path.map childText := by
    rw [List.map_map]
    exact List.map_congr_left fun e _ => String.ofList_toList
  rw [splitPath, splitAtSlashes_eq, toList_formatPath, List.splitOn_intercalate '/' hslash (by simp),
    List.map_cons, hback]

theorem formatPath_injective : Function.Injective formatPath := by
  intro p q h
  have hparts := splitPath_formatPath p
  rw [h, splitPath_formatPath, List.cons.injEq] at hparts
  exact List.map_injective_iff.mpr (fun _ _ => childText_inj) hparts.2.symm

/-- The account of a path is its first three elements. -/
theorem pathAccountPrefix_formatPath {path : List UInt32} (h : 4 ≤ path.length) :
    pathAccountPrefix (formatPath path) = formatPath (path.take 3) := by
  obtain ⟨a, b, c, d, path, rfl⟩ : ∃ a b c d rest, path = a :: b :: c :: d :: rest := by
    match path, h with
    | a :: b :: c :: d :: rest, _ => exact ⟨a, b, c, d, rest, rfl⟩
  rw [pathAccountPrefix, splitPath_formatPath]
  show _ = "m" ++ formatPathElement a ++ formatPathElement b ++ formatPathElement c
  rw [formatPathElement_eq, formatPathElement_eq, formatPathElement_eq]
  simp only [List.map_cons, String.append_assoc]

/-- The branch of a path is its second-last element. -/
theorem pathChainElement_formatPath {path : List UInt32} (h : 2 ≤ path.length) :
    some (pathChainElement (formatPath path)) = path[path.length - 2]?.map childText := by
  have hlen : ("m" :: path.map childText).length = path.length + 1 := by simp
  have hindex : path.length + 1 - 2 = path.length - 2 + 1 := by omega
  rw [pathChainElement, splitPath_formatPath, hlen, if_neg (by omega), hindex, List.getD_cons_succ,
    List.getD_eq_getElem?_getD, List.getElem?_map, List.getElem?_eq_getElem (by omega)]
  rfl

/-- A printed path carries the whole path, and two paths of at least four elements print the same
account exactly if their first three elements are the same. -/
theorem printed_paths :
    Function.Injective formatPath ∧
      (∀ path, splitPath (formatPath path) = "m" :: path.map childText) ∧
      (∀ p q : List UInt32, 4 ≤ p.length → 4 ≤ q.length →
        (pathAccountPrefix (formatPath p) = pathAccountPrefix (formatPath q)
          ↔ p.take 3 = q.take 3)) ∧
      ∀ p : List UInt32, 4 ≤ p.length →
        some (pathChainElement (formatPath p)) = p[p.length - 2]?.map childText := by
  refine ⟨formatPath_injective, splitPath_formatPath, ?_, ?_⟩
  · intro p q hp hq
    rw [pathAccountPrefix_formatPath hp, pathAccountPrefix_formatPath hq]
    exact formatPath_injective.eq_iff
  · intro p hp
    exact pathChainElement_formatPath (by omega)

/-! ## Amounts -/

theorem zeroPadded_eq (width n : ℕ) : zeroPadded width n = String.ofList (Decimal.padded width n) :=
  rfl

/-- No amount is cut by the buffer it is printed into. -/
theorem formatBtc_eq (satoshi : UInt64) :
    formatBtc satoshi =
      toString (satoshi.toNat / 100000000) ++ "." ++ zeroPadded 8 (satoshi.toNat % 100000000) := by
  have hsat := satoshi.toNat_lt
  have hwhole : (toString (satoshi.toNat / 100000000)).toList.length ≤ 12 :=
    (Decimal.length_toString_le_iff (by omega)).mpr (by omega)
  have hfraction : (Decimal.padded 8 (satoshi.toNat % 100000000)).length = 8 :=
    Decimal.length_padded (by omega) (by omega)
  refine snprintf_eq ?_
  rw [zeroPadded_eq]
  simp only [String.toList_append, List.length_append, String.toList_ofList, hfraction]
  show _ + 1 + 8 < 32
  omega

/-- Read as a decimal, the first text is the amount in bitcoins. -/
theorem readFixed_formatBtc (satoshi : UInt64) :
    Decimal.readFixed (formatBtc satoshi).toList = some ((satoshi.toNat : ℚ) / 10 ^ 8) := by
  have hpow : 100000000 = 10 ^ 8 := by norm_num
  have hwidth : 0 < 8 := by omega
  have htext : (formatBtc satoshi).toList = (toString (satoshi.toNat / 10 ^ 8)).toList
      ++ '.' :: Decimal.padded 8 (satoshi.toNat % 10 ^ 8) := by
    rw [formatBtc_eq, zeroPadded_eq, hpow]
    simp only [String.toList_append, String.toList_ofList, List.append_assoc]
    rfl
  rw [htext, Decimal.readFixed_padded hwidth]

/-- The digits are what is left when the spaces are taken away. -/
theorem filter_groupDigits (n i : ℕ) {cs : List Char} (h : ' ' ∉ cs) :
    (groupDigits n i cs).filter (· ≠ ' ') = cs := by
  induction cs generalizing i with
  | nil => rfl
  | cons c cs ih =>
    rw [List.mem_cons, not_or] at h
    have hc : c ≠ ' ' := fun heq => h.1 heq.symm
    have hkeep : (c :: groupDigits n (i + 1) cs).filter (· ≠ ' ') = c :: cs := by
      rw [List.filter_cons_of_pos (by simpa using hc), ih (i + 1) h.2]
    rw [groupDigits]
    split
    · rw [List.filter_cons_of_neg (by decide), hkeep]
    · exact hkeep

/-- Behind the first digit, a space stands where a multiple of three digits is still to come. -/
theorem splitOn_groupDigits {n i : ℕ} {cs : List Char} (hi : 0 < i) (hn : n = i + cs.length)
    (h : ' ' ∉ cs) :
    ∃ first rest, (groupDigits n i cs).splitOn ' ' = first :: rest ∧
      first.length = cs.length % 3 ∧ ∀ g ∈ rest, g.length = 3 := by
  induction cs generalizing i with
  | nil => exact ⟨[], [], rfl, rfl, fun g hg => absurd hg List.not_mem_nil⟩
  | cons c cs ih =>
    rw [List.mem_cons, not_or] at h
    rw [List.length_cons] at hn
    obtain ⟨first, rest, hsplit, hfirst, hrest⟩ := ih (i := i + 1) (by omega) (by omega) h.2
    have hc : (c :: groupDigits n (i + 1) cs).splitOn ' ' = (c :: first) :: rest := by
      rw [Slots.splitOn_cons_of_ne (Ne.symm h.1), hsplit, List.modifyHead_cons]
    rw [groupDigits, List.length_cons]
    by_cases hspace : 0 < i ∧ (n - i) % 3 = 0
    · -- the digit opens a group, whose other two are the first ones behind it
      rw [if_pos hspace, Slots.splitOn_cons_self, hc]
      refine ⟨[], _, rfl, by rw [List.length_nil]; omega, ?_⟩
      intro g hg
      rcases List.mem_cons.mp hg with rfl | hg
      · rw [List.length_cons]
        omega
      · exact hrest g hg
    · rw [if_neg hspace, hc]
      exact ⟨_, rest, rfl, by rw [List.length_cons]; omega, hrest⟩

/-- Groups with a space between them: three characters in each, fewer only in the first. -/
def InThrees (text : List Char) : Prop :=
  ∃ first rest, text.splitOn ' ' = first :: rest ∧
    0 < first.length ∧ first.length ≤ 3 ∧ ∀ g ∈ rest, g.length = 3

theorem inThrees_groupDigits {cs : List Char} (hne : cs ≠ []) (h : ' ' ∉ cs) :
    InThrees (groupDigits cs.length 0 cs) := by
  obtain ⟨c, cs, rfl⟩ := List.exists_cons_of_ne_nil hne
  rw [List.mem_cons, not_or] at h
  obtain ⟨first, rest, hsplit, hfirst, hrest⟩ :=
    splitOn_groupDigits (n := (c :: cs).length) (i := 1) (by omega)
      (by rw [List.length_cons]; omega) h.2
  refine ⟨c :: first, rest, ?_, ?_, ?_, hrest⟩
  · rw [groupDigits, if_neg (by omega), Slots.splitOn_cons_of_ne (Ne.symm h.1), hsplit,
      List.modifyHead_cons]
  · rw [List.length_cons]
    omega
  · rw [List.length_cons]
    omega

/-- Both texts of an amount carry the whole amount: the first one is not cut by its buffer and is
the amount in bitcoins, the second is the digits of the amount in groups of three. -/
theorem amounts_exact (satoshi : UInt64) :
    formatBtc satoshi =
        toString (satoshi.toNat / 100000000) ++ "." ++ zeroPadded 8 (satoshi.toNat % 100000000) ∧
      (∃ btc, Decimal.readFixed (formatBtc satoshi).toList = some btc ∧
        btc * 10 ^ 8 = satoshi.toNat) ∧
      (formatSat satoshi).toList.filter (· ≠ ' ') = (toString satoshi.toNat).toList ∧
      InThrees (formatSat satoshi).toList := by
  have hspace : ' ' ∉ (toString satoshi.toNat).toList :=
    fun h => absurd (Decimal.isDigit_of_mem_toString h) (by decide)
  have hsat : (formatSat satoshi).toList = groupDigits (toString satoshi.toNat).toList.length 0
      (toString satoshi.toNat).toList := String.toList_ofList
  refine ⟨formatBtc_eq satoshi, ⟨_, readFixed_formatBtc satoshi, ?_⟩, ?_, ?_⟩
  · exact div_mul_cancel₀ _ (by norm_num)
  · rw [hsat, filter_groupDigits _ 0 hspace]
  · rw [hsat]
    exact inThrees_groupDigits (Decimal.toList_toString_ne_nil _) hspace

end SignerOS
