import SignerOS.Summary

/-!
# The ownership verdict, order-free

`evaluateSignability` walks the entries of two keypath maps with an early exit and merges
four flags. What that computes does not depend on the walk:

* `entryVerdict`, what a single entry says about the output;
* `mergeVerdicts`, the precedence by which the entries' verdicts are merged, a function of
  which verdicts occur;
* `scanOutput_ownership`, the loop computes the merged verdict of its entries;
* `changePath`, the path shown for the output, and `scanOutput_shows`, that the loop keeps
  it.
-/

namespace SignerOS

/-! ## Verdicts and their precedence -/

/-- The verdict a set of entries' verdicts is merged into. -/
def mergeVerdicts (verdicts : List OutputOwnership) : OutputOwnership :=
  if .verified ∈ verdicts then .verified
  else if .mismatch ∈ verdicts then .mismatch
  else if verdicts = [] then .thirdParty
  else .unverifiable

/-- Merging looks only at which verdicts occur. -/
theorem mergeVerdicts_congr {vs vs' : List OutputOwnership} (h : ∀ v, v ∈ vs ↔ v ∈ vs') :
    mergeVerdicts vs = mergeVerdicts vs' := by
  have hnil : vs = [] ↔ vs' = [] := by
    simp only [List.eq_nil_iff_forall_not_mem, h]
  simp only [mergeVerdicts, h, hnil]

theorem mergeVerdicts_perm {vs vs' : List OutputOwnership} (h : vs.Perm vs') :
    mergeVerdicts vs = mergeVerdicts vs' :=
  mergeVerdicts_congr fun _ => h.mem_iff

theorem mergeVerdicts_eq_verified {vs : List OutputOwnership} :
    mergeVerdicts vs = .verified ↔ .verified ∈ vs := by
  unfold mergeVerdicts
  split_ifs <;> simp_all

theorem mergeVerdicts_eq_mismatch {vs : List OutputOwnership} :
    mergeVerdicts vs = .mismatch ↔ .verified ∉ vs ∧ .mismatch ∈ vs := by
  unfold mergeVerdicts
  split_ifs <;> simp_all

theorem mergeVerdicts_eq_unverifiable {vs : List OutputOwnership} :
    mergeVerdicts vs = .unverifiable ↔ .verified ∉ vs ∧ .mismatch ∉ vs ∧ vs ≠ [] := by
  unfold mergeVerdicts
  split_ifs <;> simp_all

theorem mergeVerdicts_eq_thirdParty {vs : List OutputOwnership} :
    mergeVerdicts vs = .thirdParty ↔ vs = [] := by
  unfold mergeVerdicts
  split_ifs with hv hm hnil
  · simpa using List.ne_nil_of_mem hv
  · simpa using List.ne_nil_of_mem hm
  · simpa using hnil
  · simpa using hnil

/-! ## One entry -/

section
variable (w : Wally) (key : ExtKey)

/-- The entry carries the master's fingerprint. -/
def NamesMaster (item : KeypathItem) : Prop :=
  ∃ fp, item.fingerprint = some fp ∧ w.bip32KeyGetFingerprint key = some fp

instance (item : KeypathItem) : Decidable (NamesMaster w key item) :=
  match hf : item.fingerprint with
  | none => isFalse fun ⟨_, h, _⟩ => by simp [hf] at h
  | some fp =>
    if hk : w.bip32KeyGetFingerprint key = some fp then isTrue ⟨fp, hf, hk⟩
    else isFalse fun ⟨fp', h, h'⟩ => by
      rw [hf, Option.some.injEq] at h
      exact hk (h ▸ h')

/-- The verdict on an entry that names the master: what its derived key says about the
script, and `unverifiable` when there is no key to ask. -/
def namedVerdict (target : ChangeTarget) (item : KeypathItem) : OutputOwnership :=
  match (keypathElements item).bind (deriveVerdict w key target) with
  | some .verified => .verified
  | some .mismatch => .mismatch
  | _ => .unverifiable

/-- What an entry says about the output: nothing unless it names the master. -/
def entryVerdict (target : ChangeTarget) (item : KeypathItem) : Option OutputOwnership :=
  if NamesMaster w key item then some (namedVerdict w key target item) else none

/-- The verdict on an output under a key. -/
def changeVerdict (po : PsbtOutput) (out : TxOutput) : OutputOwnership :=
  mergeVerdicts ((changeEntries po).filterMap (entryVerdict w key (changeTarget po out)))

end

/-! ## The loop computes the merged verdict -/

section
variable {w : Wally} {key : ExtKey}

/-- The fingerprint comparison of the source, on hexadecimal texts, is the comparison of the
fingerprints. -/
theorem keypathEntry_names (w : Wally) (key : ExtKey) {item : KeypathItem} {fp path : String}
    (h : keypathEntry item = some (fp, path)) :
    fp = masterFingerprint w (.hold key) ↔ NamesMaster w key item := by
  obtain ⟨raw, hraw, hpair⟩ := Option.map_eq_some_iff.mp h
  have hfp : fp = hexOf raw.toList := (congrArg Prod.fst hpair).symm
  unfold masterFingerprint NamesMaster
  rw [SecureObject.resident_hold, Option.bind_some, hraw, hfp]
  cases hk : w.bip32KeyGetFingerprint key with
  | none => simp [hexOf_fingerprint_ne_empty]
  | some ours =>
    simp only [hexOf_fingerprint_inj, Option.some.injEq]
    constructor
    · intro h
      exact ⟨raw, rfl, h.symm⟩
    · intro h
      obtain ⟨_, h1, h2⟩ := h
      exact h1.trans h2.symm

/-- An entry without a readable fingerprint names nobody. -/
theorem not_namesMaster_of_none {item : KeypathItem} (h : keypathEntry item = none) :
    ¬ NamesMaster w key item := by
  intro hnames
  obtain ⟨fp, hfp, -⟩ := hnames
  simp [keypathEntry, hfp] at h

/-- The flags of the loop after entries with the verdicts `vs`. After the first `verified`
the other flags are no longer kept up, and no longer read. -/
def ChangeScan.Sees (scan : ChangeScan) (vs : List OutputOwnership) : Prop :=
  (scan.anyVerified = true ↔ .verified ∈ vs) ∧
    (scan.anyVerified = false →
      (scan.anyMismatch = true ↔ .mismatch ∈ vs) ∧
        (scan.anyUnverifiable = true ↔ ∃ v ∈ vs, v ≠ .verified ∧ v ≠ .mismatch))

/-- One iteration sees the verdict of its entry. -/
theorem scanEntry_sees (w : Wally) (key : ExtKey) (target : ChangeTarget) {scan : ChangeScan}
    {vs : List OutputOwnership} (item : KeypathItem) (h : scan.Sees vs) :
    (scanEntry w key (masterFingerprint w (.hold key)) target scan item).Sees
      (vs ++ (entryVerdict w key target item).toList) := by
  obtain ⟨hv, hrest⟩ := h
  unfold scanEntry
  split
  · -- already verified: the entry is skipped, whatever it says
    rename_i hdone
    exact ⟨by simp [hdone, hv.mp hdone], by simp [hdone]⟩
  · rename_i hopen
    have hopen : scan.anyVerified = false := by simpa using hopen
    obtain ⟨hm, hu⟩ := hrest hopen
    have hno : OutputOwnership.verified ∉ vs := fun hin => by simp [hv.mpr hin] at hopen
    split
    · -- no readable fingerprint: the entry is passed over
      rename_i hentry
      rw [entryVerdict, if_neg (not_namesMaster_of_none hentry), Option.toList_none,
        List.append_nil]
      exact ⟨hv, hrest⟩
    · rename_i fp path hentry
      split
      · -- somebody else's entry
        rename_i hother
        rw [entryVerdict, if_neg (mt (keypathEntry_names w key hentry).mpr hother),
          Option.toList_none, List.append_nil]
        exact ⟨hv, hrest⟩
      · rename_i hours
        have hnames := (keypathEntry_names w key hentry).mp (not_not.mp hours)
        rw [entryVerdict, if_pos hnames, namedVerdict]
        -- ours: unverifiable without a path or a key, else what the key says
        cases hel : keypathElements item with
        | none => simp [ChangeScan.Sees, hopen, hno, hm]
        | some elems =>
          cases hdv : deriveVerdict w key target elems with
          | none => simp [ChangeScan.Sees, hopen, hno, hm, hdv]
          | some verdict =>
            cases verdict <;> simp [ChangeScan.Sees, hopen, hno, hm, hu, hdv]

/-- The whole loop sees the verdicts of its entries. -/
theorem foldl_scanEntry_sees {target : ChangeTarget} (items : List KeypathItem)
    {scan : ChangeScan} {vs : List OutputOwnership} (h : scan.Sees vs) :
    (items.foldl (scanEntry w key (masterFingerprint w (.hold key)) target) scan).Sees
      (vs ++ items.filterMap (entryVerdict w key target)) := by
  induction items generalizing scan vs with
  | nil => simpa using h
  | cons item items ih =>
    rw [List.foldl_cons]
    have hstep := ih (scanEntry_sees w key target item h)
    rw [List.append_assoc] at hstep
    cases hev : entryVerdict w key target item <;> simpa [List.filterMap_cons, hev] using hstep

/-- The flags are merged by the precedence of the verdicts. -/
theorem ChangeScan.Sees.ownership {scan : ChangeScan} {vs : List OutputOwnership}
    (h : scan.Sees vs) : scan.ownership = mergeVerdicts vs := by
  obtain ⟨hv, hrest⟩ := h
  unfold ChangeScan.ownership
  cases hsv : scan.anyVerified with
  | true => exact (mergeVerdicts_eq_verified.mpr (hv.mp hsv)).symm
  | false =>
    -- the other two flags are kept up only as long as nothing is verified
    have hno : OutputOwnership.verified ∉ vs := fun hin => by simp [hv.mpr hin] at hsv
    obtain ⟨hm, hu⟩ := hrest hsv
    cases hsm : scan.anyMismatch with
    | true => exact (mergeVerdicts_eq_mismatch.mpr ⟨hno, hm.mp hsm⟩).symm
    | false =>
      have hnom : OutputOwnership.mismatch ∉ vs := fun hin => by simp [hm.mpr hin] at hsm
      cases hsu : scan.anyUnverifiable with
      | true =>
        obtain ⟨v, hvin, -⟩ := hu.mp hsu
        exact (mergeVerdicts_eq_unverifiable.mpr ⟨hno, hnom, List.ne_nil_of_mem hvin⟩).symm
      | false =>
        -- no flag is set, so no entry has said anything
        refine (mergeVerdicts_eq_thirdParty.mpr ?_).symm
        rw [List.eq_nil_iff_forall_not_mem]
        intro v hvin
        have hclass : ∃ v ∈ vs, v ≠ .verified ∧ v ≠ .mismatch :=
          ⟨v, hvin, fun h => hno (h ▸ hvin), fun h => hnom (h ▸ hvin)⟩
        simp [hu.mpr hclass] at hsu

/-- The keypath loop over an output computes the output's verdict. -/
theorem scanOutput_ownership (po : PsbtOutput) (out : TxOutput) (claimed : String) :
    (scanOutput w key (masterFingerprint w (.hold key)) po out claimed).ownership
      = changeVerdict w key po out := by
  have h0 : ({ claimedFingerprint := claimed } : ChangeScan).Sees [] := by
    simp [ChangeScan.Sees]
  exact (foldl_scanEntry_sees (changeEntries po) h0).ownership

end

/-! ## What a verdict on an entry means -/

section
variable {w : Wally} {key : ExtKey} {target : ChangeTarget} {item : KeypathItem}

/-- The entry's path has between 1 and 32 elements, it derives, and the derived key's
verdict on the script is `v`. -/
def DerivesTo (w : Wally) (key : ExtKey) (target : ChangeTarget) (item : KeypathItem)
    (v : OutputOwnership) : Prop :=
  ∃ elems child, item.path = some elems ∧ 1 ≤ elems.length ∧ elems.length ≤ 32 ∧
    w.bip32KeyFromParentPath key elems .keyPublic = some child ∧
    ownershipForScript w child.pubKey target.spk target.redeem target.witnessScript
      target.hasTaprootTree = v

theorem derivesTo_iff {v : OutputOwnership} :
    DerivesTo w key target item v
      ↔ (keypathElements item).bind (deriveVerdict w key target) = some v := by
  simp only [DerivesTo, Option.bind_eq_some_iff, keypathElements_eq_some, deriveVerdict,
    Option.map_eq_some_iff, kMaxPathElements]
  constructor
  · intro h
    obtain ⟨elems, child, hp, h1, h2, hc, hv⟩ := h
    exact ⟨elems, ⟨hp, h1, h2⟩, child, hc, hv⟩
  · intro h
    obtain ⟨elems, ⟨hp, h1, h2⟩, child, hc, hv⟩ := h
    exact ⟨elems, child, hp, h1, h2, hc, hv⟩

theorem entryVerdict_eq_verified :
    entryVerdict w key target item = some .verified
      ↔ NamesMaster w key item ∧ DerivesTo w key target item .verified := by
  rw [derivesTo_iff, entryVerdict]
  by_cases hn : NamesMaster w key item
  · simp only [hn, if_true, Option.some.injEq, true_and, namedVerdict]
    split <;> simp_all
  · simp [hn]

theorem entryVerdict_eq_mismatch :
    entryVerdict w key target item = some .mismatch
      ↔ NamesMaster w key item ∧ DerivesTo w key target item .mismatch := by
  rw [derivesTo_iff, entryVerdict]
  by_cases hn : NamesMaster w key item
  · simp only [hn, if_true, Option.some.injEq, true_and, namedVerdict]
    split <;> simp_all
  · simp [hn]

/-- No entry says anything exactly when none names the master. -/
theorem filterMap_entryVerdict_eq_nil {items : List KeypathItem} :
    items.filterMap (entryVerdict w key target) = []
      ↔ ∀ item ∈ items, ¬ NamesMaster w key item := by
  rw [List.filterMap_eq_nil_iff]
  refine forall₂_congr fun item _ => ?_
  by_cases hn : NamesMaster w key item <;> simp [entryVerdict, hn]

end

/-! ## The path the loop shows -/

/-- A printed path is never empty. -/
theorem formatPath_ne_empty (path : List UInt32) : formatPath path ≠ "" := by
  have key (out : String) (h : out ≠ "") :
      path.foldl (fun out e => out ++ formatPathElement e) out ≠ "" := by
    induction path generalizing out with
    | nil => exact h
    | cons e path ih =>
      refine ih _ fun happ => h ?_
      have hlist := congrArg String.toList happ
      rw [String.toList_append, String.toList_empty, List.append_eq_nil_iff] at hlist
      exact String.toList_eq_nil_iff.mp hlist.1
  exact key "m" (by decide)

/-- Of the verdicts given and the paths they were given on: the path of the first `verified`,
and of the first one at all when there is none. -/
def shownPath (shown : List (OutputOwnership × String)) : Option String :=
  ((shown.find? fun p => p.1 == .verified).or shown.head?).map Prod.snd

section
variable (w : Wally) (key : ExtKey)

/-- The verdict of an entry that names the master and derives, and its path. -/
def entryShown (target : ChangeTarget) (item : KeypathItem) : Option (OutputOwnership × String) :=
  if NamesMaster w key item then
    (keypathElements item).bind fun elems =>
      (deriveVerdict w key target elems).map fun verdict => (verdict, formatPath elems)
  else none

/-- The path shown for an output under a key. -/
def changePath (po : PsbtOutput) (out : TxOutput) : Option String :=
  shownPath ((changeEntries po).filterMap (entryShown w key (changeTarget po out)))

end

section
variable {w : Wally} {key : ExtKey}

theorem shownPath_eq_none {shown : List (OutputOwnership × String)} :
    shownPath shown = none ↔ shown = [] := by
  unfold shownPath
  cases shown <;> simp

/-- Nothing after a `verified` changes the path. -/
theorem shownPath_append_of_verified {shown more : List (OutputOwnership × String)}
    (h : ∃ p ∈ shown, p.1 = .verified) : shownPath (shown ++ more) = shownPath shown := by
  obtain ⟨p, hp, hv⟩ := h
  have hfind : (shown.find? fun p => p.1 == .verified).isSome = true :=
    List.find?_isSome.mpr ⟨p, hp, by simp [hv]⟩
  obtain ⟨q, hq⟩ := Option.isSome_iff_exists.mp hfind
  simp only [shownPath, List.find?_append, hq, Option.some_or]

/-- Before a `verified`, the next entry is shown if it is one, or the first at all. -/
theorem shownPath_concat {shown : List (OutputOwnership × String)} {v : OutputOwnership}
    (h : ¬ ∃ p ∈ shown, p.1 = .verified) (path : String) :
    shownPath (shown ++ [(v, path)])
      = some (if shown = [] ∨ v = .verified then path else (shownPath shown).getD "") := by
  have hfind : (shown.find? fun p => p.1 == .verified) = none :=
    List.find?_eq_none.mpr fun p hp hv => h ⟨p, hp, beq_iff_eq.mp hv⟩
  by_cases hv : v = .verified
  · simp [shownPath, List.find?_append, hfind, hv]
  · cases shown with
    | nil => simp [shownPath, hv]
    | cons q shown =>
      have hq : (q.1 == OutputOwnership.verified) = false := by
        rw [beq_eq_false_iff_ne]
        exact fun hq => h ⟨q, List.mem_cons_self, hq⟩
      have hrest : (shown.find? fun p => p.1 == .verified) = none := by
        rw [List.find?_cons, hq] at hfind
        exact hfind
      simp [shownPath, List.find?_append, hq, hrest, hv]

/-- The locals of the loop that are shown, after entries with the verdicts `shown`. -/
structure ChangeScan.Shows (scan : ChangeScan) (ourFp claimed : String)
    (shown : List (OutputOwnership × String)) : Prop where
  verified : scan.anyVerified = true ↔ ∃ p ∈ shown, p.1 = .verified
  path : scan.verdictPath = (shownPath shown).getD ""
  claim : scan.claimedFingerprint = if shown = [] then claimed else ourFp
  nonempty : ∀ p ∈ shown, p.2 ≠ ""

/-- The path kept is empty exactly before the first entry. -/
theorem ChangeScan.Shows.path_eq_empty {scan : ChangeScan} {ourFp claimed : String}
    {shown : List (OutputOwnership × String)} (h : scan.Shows ourFp claimed shown) :
    scan.verdictPath = "" ↔ shown = [] := by
  rw [h.path]
  constructor
  · intro hempty
    by_contra hne
    obtain ⟨path, hpath⟩ := Option.ne_none_iff_exists'.mp (mt shownPath_eq_none.mp hne)
    rw [hpath, Option.getD_some] at hempty
    unfold shownPath at hpath
    obtain ⟨p, hp, hsnd⟩ := Option.map_eq_some_iff.mp hpath
    have hmem : p ∈ shown := by
      rcases Option.or_eq_some_iff.mp hp with hfind | ⟨-, hhead⟩
      · exact List.mem_of_find?_eq_some hfind
      · exact List.mem_of_head? hhead
    exact h.nonempty p hmem (hsnd.trans hempty)
  · intro hnil
    rw [hnil]
    rfl

/-- One iteration shows its entry. -/
theorem scanEntry_shows (w : Wally) (key : ExtKey) (target : ChangeTarget) {scan : ChangeScan}
    {claimed : String} {shown : List (OutputOwnership × String)} (item : KeypathItem)
    (h : scan.Shows (masterFingerprint w (.hold key)) claimed shown) :
    (scanEntry w key (masterFingerprint w (.hold key)) target scan item).Shows
      (masterFingerprint w (.hold key)) claimed
      (shown ++ (entryShown w key target item).toList) := by
  have hpath := h.path
  have hclaim := h.claim
  unfold scanEntry
  split
  · -- already verified: neither the path nor the claim changes any more
    rename_i hdone
    have hver := h.verified.mp hdone
    have hne : shown ≠ [] := fun hnil => by simp [hnil] at hver
    refine ⟨?_, by rw [shownPath_append_of_verified hver, hpath], by simp [hclaim, hne], ?_⟩
    · obtain ⟨p, hp, hpv⟩ := hver
      exact iff_of_true hdone ⟨p, List.mem_append_left _ hp, hpv⟩
    · intro p hp
      rcases List.mem_append.mp hp with hp | hp
      · exact h.nonempty p hp
      · unfold entryShown at hp
        split at hp
        · obtain ⟨elems, -, hd⟩ := Option.bind_eq_some_iff.mp (Option.mem_toList.mp hp)
          obtain ⟨verdict, -, rfl⟩ := Option.map_eq_some_iff.mp hd
          exact formatPath_ne_empty elems
        · simp at hp
  · rename_i hopen
    have hver : ¬ ∃ p ∈ shown, p.1 = .verified := fun hex => hopen (h.verified.mpr hex)
    split
    · rename_i hentry
      rw [entryShown, if_neg (not_namesMaster_of_none hentry), Option.toList_none,
        List.append_nil]
      exact h
    · rename_i fp path hentry
      split
      · rename_i hother
        rw [entryShown, if_neg (mt (keypathEntry_names w key hentry).mpr hother),
          Option.toList_none, List.append_nil]
        exact h
      · rename_i hours
        have hfp := not_not.mp hours
        rw [entryShown, if_pos ((keypathEntry_names w key hentry).mp hfp)]
        cases hel : keypathElements item with
        | none => simpa using ⟨h.verified, hpath, hclaim, h.nonempty⟩
        | some elems =>
          cases hdv : deriveVerdict w key target elems with
          | none => simpa [hdv] using ⟨h.verified, hpath, hclaim, h.nonempty⟩
          | some verdict =>
            -- the entry is printed from the same elements it is derived along
            have htext : path = formatPath elems := by
              obtain ⟨he, hlo, hhi⟩ := keypathElements_eq_some.mp hel
              obtain ⟨raw, -, hpair⟩ := Option.map_eq_some_iff.mp hentry
              have hsnd := congrArg Prod.snd hpair
              rw [he] at hsnd
              simp only [if_pos (And.intro (Nat.lt_of_succ_le hlo) hhi)] at hsnd
              exact hsnd.symm
            have hopen' : scan.anyVerified = false := by simpa using hopen
            have hempty := h.path_eq_empty
            have hshown (v : OutputOwnership) := shownPath_concat (v := v) hver (formatPath elems)
            simp only [Option.bind_some, hdv, Option.map_some, Option.toList_some]
            refine ⟨?_, ?_, by simp [hfp], ?_⟩
            · cases verdict <;> simp [hopen', hver]
            · -- the path is replaced by the first one, and by a verified one
              rw [hshown, htext, Option.getD_some, ← hpath]
              cases verdict <;> simp [hopen', hempty]
            · intro p hp
              rcases List.mem_append.mp hp with hp | hp
              · exact h.nonempty p hp
              · rw [List.mem_singleton.mp hp]
                exact formatPath_ne_empty elems

/-- The whole loop shows the entries it walks. -/
theorem scanOutput_shows (w : Wally) (key : ExtKey) (po : PsbtOutput) (out : TxOutput)
    (claimed : String) :
    (scanOutput w key (masterFingerprint w (.hold key)) po out claimed).Shows
      (masterFingerprint w (.hold key)) claimed
      ((changeEntries po).filterMap (entryShown w key (changeTarget po out))) := by
  have hrun (items : List KeypathItem) (scan : ChangeScan)
      (shown : List (OutputOwnership × String))
      (h : scan.Shows (masterFingerprint w (.hold key)) claimed shown) :
      (items.foldl (scanEntry w key (masterFingerprint w (.hold key)) (changeTarget po out))
        scan).Shows (masterFingerprint w (.hold key)) claimed
          (shown ++ items.filterMap (entryShown w key (changeTarget po out))) := by
    induction items generalizing scan shown with
    | nil => simpa using h
    | cons item items ih =>
      rw [List.foldl_cons]
      have hstep := ih _ _ (scanEntry_shows w key (changeTarget po out) item h)
      rw [List.append_assoc] at hstep
      cases hes : entryShown w key (changeTarget po out) item <;>
        simpa [List.filterMap_cons, hes] using hstep
  refine hrun (changeEntries po) { claimedFingerprint := claimed } [] ⟨?_, rfl, rfl, ?_⟩
  · simp
  · simp

/-- A verified output is shown with a path. -/
theorem changePath_of_verified {po : PsbtOutput} {out : TxOutput}
    (h : changeVerdict w key po out = .verified) : ∃ path, changePath w key po out = some path := by
  obtain ⟨item, hitem, hver⟩ := List.mem_filterMap.mp (mergeVerdicts_eq_verified.mp h)
  obtain ⟨hnames, elems, child, hpath, hlo, hhi, hchild, -⟩ := entryVerdict_eq_verified.mp hver
  have helems : keypathElements item = some elems := keypathElements_eq_some.mpr ⟨hpath, hlo, hhi⟩
  have hshown : ∃ p, entryShown w key (changeTarget po out) item = some p := by
    rw [entryShown, if_pos hnames, helems, Option.bind_some, deriveVerdict, hchild]
    exact ⟨_, rfl⟩
  obtain ⟨p, hp⟩ := hshown
  apply Option.ne_none_iff_exists'.mp
  rw [changePath, ne_eq, shownPath_eq_none]
  exact List.ne_nil_of_mem (List.mem_filterMap.mpr ⟨item, hitem, hp⟩)

end

end SignerOS
