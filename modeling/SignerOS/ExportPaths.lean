import SignerOS.Lib.Decimal
import SignerOS.ExportTheorems

/-!
# What the printed paths say

`buildWalletExport` writes each path twice: as the child numbers it derives with, and as text.
The text is read back here by the notation's own rules, in which a hardened step is a number
below 2^31 with a mark behind it.

* `readSteps_printed_iff`, the text is the one of the child numbers when every step is in range;
* `accountExport_says_iff` and `cosignerKey_says_iff`, one account and one cosigner key;
* `exports_say_derived_iff`, two exports.
-/

namespace SignerOS

/-! ## Reading a path -/

/-- A hardened step: a number below 2^31, and the mark. -/
def readStep (mark : Char) (cs : List Char) : Option UInt32 :=
  if cs.getLast? = some mark then
    (Decimal.readDecimal cs.dropLast).bind fun n =>
      if n < 2 ^ 31 then some (UInt32.ofNat (n + 2 ^ 31)) else none
  else none

/-- Hardened steps with slashes in between. -/
def readSteps (mark : Char) (cs : List Char) : Option (List UInt32) :=
  (cs.splitOn '/').mapM (readStep mark)

/-- A path from the master key: `m/84'/0'/0'`. -/
def readPath : List Char → Option (List UInt32)
  | 'm' :: '/' :: cs => readSteps '\x27' cs
  | _ => none

/-- What stands before the first such character, and what stands behind it. -/
def cutAt (c : Char) (cs : List Char) : Option (List Char × List Char) :=
  if c ∈ cs then some (cs.takeWhile (· ≠ c), (cs.dropWhile (· ≠ c)).tail) else none

/-- A key origin, `[d90c6a4f/84h/0h/0h]`: the fingerprint, the path, and what stands behind it. -/
def readOrigin (cs : List Char) : Option (List Char × List UInt32 × List Char) :=
  (cutAt '[' cs).bind fun (_, cs) =>
    (cutAt ']' cs).bind fun (origin, behind) =>
      (cutAt '/' origin).bind fun (fingerprint, steps) =>
        (readSteps 'h' steps).map fun path => (fingerprint, path, behind)

theorem cutAt_append {c : Char} {front : List Char} (h : c ∉ front) (behind : List Char) :
    cutAt c (front ++ c :: behind) = some (front, behind) := by
  have hfront : ∀ x ∈ front, decide (x ≠ c) = true := fun x hx =>
    decide_eq_true fun heq => h (heq ▸ hx)
  rw [cutAt, if_pos (List.mem_append_right _ List.mem_cons_self),
    List.takeWhile_append_of_pos hfront, List.dropWhile_append_of_pos hfront,
    List.takeWhile_cons_of_neg (by simp), List.dropWhile_cons_of_neg (by simp), List.append_nil,
    List.tail_cons]

/-! ## Printing a path -/

/-- The child number of a hardened step. -/
theorem ofNat_add_eq_or {n : UInt32} (h : n < hardenedBit) :
    UInt32.ofNat (n.toNat + 2 ^ 31) = n ||| hardenedBit := by
  have hn : n.toNat < 2 ^ 31 := UInt32.lt_iff_toNat_lt.mp h
  apply UInt32.toNat.inj
  rw [UInt32.toNat_or, Nat.or_comm, UInt32.toNat_ofNat']
  show _ = 2 ^ 31 * 1 ||| n.toNat
  rw [← Nat.two_pow_add_eq_or_of_lt hn, Nat.mod_eq_of_lt (by omega), Nat.mul_one, Nat.add_comm]

/-- Setting the bit is one-to-one where it was not set. -/
theorem or_hardenedBit_inj {a b : UInt32} (ha : a < hardenedBit) (hb : b < hardenedBit)
    (h : a ||| hardenedBit = b ||| hardenedBit) : a = b := by
  rw [← ofNat_add_eq_or ha, ← ofNat_add_eq_or hb] at h
  have hna : a.toNat < 2 ^ 31 := UInt32.lt_iff_toNat_lt.mp ha
  have hnb : b.toNat < 2 ^ 31 := UInt32.lt_iff_toNat_lt.mp hb
  have hnat := congrArg UInt32.toNat h
  rw [UInt32.toNat_ofNat', UInt32.toNat_ofNat', Nat.mod_eq_of_lt (by omega),
    Nat.mod_eq_of_lt (by omega)] at hnat
  exact UInt32.toNat.inj (by omega)

/-- The steps of a printed path. -/
def printSteps (mark : Char) (steps : List UInt32) : List Char :=
  ['/'].intercalate (steps.map fun n => (toString n.toNat).toList ++ [mark])

/-- A printed step is read as its child number when it is in range, and not at all otherwise. -/
theorem readStep_printed (mark : Char) (n : UInt32) :
    readStep mark ((toString n.toNat).toList ++ [mark]) =
      if n < hardenedBit then some (n ||| hardenedBit) else none := by
  have hiff : n < hardenedBit ↔ n.toNat < 2 ^ 31 := UInt32.lt_iff_toNat_lt
  rw [readStep, if_pos (by rw [List.getLast?_concat]), List.dropLast_concat,
    Decimal.readDecimal_toString, Option.bind_some]
  by_cases h : n < hardenedBit
  · rw [if_pos h, if_pos (hiff.mp h), ofNat_add_eq_or h]
  · rw [if_neg h, if_neg (mt hiff.mpr h)]

/-- Printed steps are read as the child numbers when each is in range. -/
theorem readSteps_printed_iff {mark : Char} (hmark : mark ≠ '/') {steps : List UInt32}
    (hne : steps ≠ []) :
    readSteps mark (printSteps mark steps) = some (steps.map (· ||| hardenedBit)) ↔
      ∀ n ∈ steps, n < hardenedBit := by
  have hparts : ∀ part ∈ steps.map (fun n => (toString n.toNat).toList ++ [mark]),
      '/' ∉ part := by
    intro part hpart hslash
    obtain ⟨n, -, rfl⟩ := List.mem_map.mp hpart
    rcases List.mem_append.mp hslash with hslash | hslash
    · exact absurd (Decimal.isDigit_of_mem_toString hslash) (by decide)
    · exact hmark (List.mem_singleton.mp hslash).symm
  rw [readSteps, printSteps, List.splitOn_intercalate _ hparts (by simpa using hne)]
  clear hparts hne
  induction steps with
  | nil => simp
  | cons n steps ih =>
    rw [List.map_cons, List.mapM_cons, readStep_printed, List.forall_mem_cons]
    by_cases h : n < hardenedBit
    · rw [if_pos h, and_iff_right h]
      refine Iff.trans ?_ ih
      cases (steps.map fun n => (toString n.toNat).toList ++ [mark]).mapM (readStep mark) with
      | none => simp
      | some path => simp
    · rw [if_neg h]
      simp [h]

/-- The steps as `accountExport` and `cosignerKey` put them together. -/
theorem toList_intercalate_steps (mark : Char) (steps : List UInt32) :
    ("/".intercalate ((steps.map fun n => toString n.toNat).map
      (· ++ String.singleton mark))).toList = printSteps mark steps := by
  rw [String.toList_intercalate, printSteps, List.map_map, List.map_map]
  congr 1
  refine List.map_congr_left fun n _ => ?_
  rw [Function.comp_apply, Function.comp_apply, String.toList_append, String.toList_singleton]

/-- Two texts are the path of the steps, with the one mark and the other. -/
structure PrintsSteps (path pathHardened : String) (steps : List UInt32) : Prop where
  path : path.toList = 'm' :: '/' :: printSteps '\x27' steps
  pathHardened : pathHardened.toList = printSteps 'h' steps

theorem printsSteps (steps : List UInt32) :
    PrintsSteps ("m/" ++ "/".intercalate ((steps.map fun n => toString n.toNat).map (· ++ "'")))
      ("/".intercalate ((steps.map fun n => toString n.toNat).map (· ++ "h"))) steps := by
  refine ⟨?_, toList_intercalate_steps 'h' steps⟩
  rw [String.toList_append]
  exact congrArg ("m/".toList ++ ·) (toList_intercalate_steps '\x27' steps)

/-- Both texts are read as the child numbers when the steps are in range, and neither otherwise. -/
theorem PrintsSteps.reads_iff {path pathHardened : String} {steps : List UInt32}
    (h : PrintsSteps path pathHardened steps) (hne : steps ≠ []) :
    (readPath path.toList = some (steps.map (· ||| hardenedBit)) ↔
        ∀ n ∈ steps, n < hardenedBit) ∧
      (readSteps 'h' pathHardened.toList = some (steps.map (· ||| hardenedBit)) ↔
        ∀ n ∈ steps, n < hardenedBit) := by
  rw [h.path, h.pathHardened]
  exact ⟨readSteps_printed_iff (by decide) hne, readSteps_printed_iff (by decide) hne⟩

theorem not_mem_printSteps {c mark : Char} (hdigit : c.isDigit = false) (hslash : c ≠ '/')
    (hmark : c ≠ mark) (steps : List UInt32) : c ∉ printSteps mark steps := by
  have hpart (n : UInt32) : c ∉ (toString n.toNat).toList ++ [mark] := by
    intro h
    rcases List.mem_append.mp h with h | h
    · rw [Decimal.isDigit_of_mem_toString h] at hdigit
      exact Bool.noConfusion hdigit
    · exact hmark (List.mem_singleton.mp h)
  unfold printSteps
  induction steps with
  | nil => exact List.not_mem_nil
  | cons n steps ih =>
    cases steps with
    | nil =>
      rw [List.map_singleton, List.intercalate_singleton]
      exact hpart n
    | cons m steps =>
      rw [List.map_cons] at ih ⊢
      rw [List.map_cons, List.intercalate_cons_cons, List.mem_append, List.mem_append,
        List.mem_singleton]
      rintro ((h | h) | h)
      · exact hpart n h
      · exact hslash h
      · exact ih h

/-! ## Key origins -/

/-- The first bracket of a text opens the key origin. -/
theorem readOrigin_eq {front fingerprint : List Char} (hfront : '[' ∉ front)
    (hbracket : ']' ∉ fingerprint) (hslash : '/' ∉ fingerprint) (steps : List UInt32)
    (behind : List Char) :
    readOrigin (front ++ '[' :: (fingerprint ++ '/' :: printSteps 'h' steps ++ ']' :: behind)) =
      (readSteps 'h' (printSteps 'h' steps)).map fun path => (fingerprint, path, behind) := by
  have hinner : ']' ∉ fingerprint ++ '/' :: printSteps 'h' steps := by
    rw [List.mem_append, List.mem_cons]
    rintro (h | h | h)
    · exact hbracket h
    · exact absurd h (by decide)
    · exact not_mem_printSteps (by decide) (by decide) (by decide) steps h
  rw [readOrigin, cutAt_append hfront, Option.bind_some]
  dsimp only
  rw [cutAt_append hinner, Option.bind_some]
  dsimp only
  rw [cutAt_append hslash, Option.bind_some]

theorem withChecksum_eq_append (w : Wally) (descriptor : String) (network : Network) :
    ∃ tail, withChecksum w descriptor network = descriptor ++ tail := by
  unfold withChecksum
  cases w.descriptorGetChecksum descriptor (networkAddressVersion network) with
  | none => exact ⟨"", (String.append_empty).symm⟩
  | some checksum => exact ⟨"#" ++ checksum, String.append_assoc⟩

section
variable {front fingerprint pathHardened : String} {steps : List UInt32}

/-- The origin of a key, with the key behind it, somewhere in a line. -/
theorem readOrigin_line (hfront : '[' ∉ front.toList) (hbracket : ']' ∉ fingerprint.toList)
    (hslash : '/' ∉ fingerprint.toList) (hsteps : pathHardened.toList = printSteps 'h' steps)
    (xpub rest : String) :
    readOrigin (front ++ ("[" ++ fingerprint ++ "/" ++ pathHardened ++ "]" ++ xpub) ++ rest).toList
      = (readSteps 'h' pathHardened.toList).map fun path =>
        (fingerprint.toList, path, xpub.toList ++ rest.toList) := by
  rw [hsteps, ← readOrigin_eq hfront hbracket hslash, ← hsteps]
  simp only [String.toList_append, List.append_assoc]
  rfl

/-- The same in a descriptor, whatever its chain and its checksum. -/
theorem readOrigin_descriptor (w : Wally) (network : Network) (hfront : '[' ∉ front.toList)
    (hbracket : ']' ∉ fingerprint.toList) (hslash : '/' ∉ fingerprint.toList)
    (hsteps : pathHardened.toList = printSteps 'h' steps) {used : List UInt32}
    (hread : readSteps 'h' pathHardened.toList = some used) (xpub chain close : String) :
    ∃ behind, readOrigin (withChecksum w (front ++
        ("[" ++ fingerprint ++ "/" ++ pathHardened ++ "]" ++ xpub) ++ chain ++ close) network).toList
      = some (fingerprint.toList, used, xpub.toList ++ behind) := by
  obtain ⟨tail, htail⟩ := withChecksum_eq_append w (front ++
    ("[" ++ fingerprint ++ "/" ++ pathHardened ++ "]" ++ xpub) ++ chain ++ close) network
  refine ⟨(chain ++ (close ++ tail)).toList, ?_⟩
  rw [htail, String.append_assoc, String.append_assoc,
    readOrigin_line hfront hbracket hslash hsteps, hread, Option.map_some]

end

/-! ## What was derived -/

/-- The array of child numbers that led to the extended key of an account is what its two paths
say, and what the origin of the key says in each descriptor. -/
structure AccountExport.SaysDerived (w : Wally) (master : ExtKey) (network : Network)
    (fingerprint : String) (used : List UInt32) (a : AccountExport) : Prop where
  derived : (deriveAccountPub w master used network).map Prod.snd = some a.xpub
  path : readPath a.path.toList = some used
  pathHardened : readSteps 'h' a.pathHardened.toList = some used
  origins : ∀ descriptor ∈ [a.descriptor, a.receiveDescriptor, a.changeDescriptor],
    ∃ behind, readOrigin descriptor.toList =
      some (fingerprint.toList, used, a.xpub.toList ++ behind)

/-- The array of child numbers that led to a cosigner key is what its two paths say, and what the
origin of the key says. -/
structure CosignerKey.SaysDerived (w : Wally) (master : ExtKey) (network : Network)
    (fingerprint : String) (used : List UInt32) (c : CosignerKey) : Prop where
  derived : (deriveAccountPub w master used network).map Prod.snd = some c.xpub
  path : readPath c.path.toList = some used
  pathHardened : readSteps 'h' c.pathHardened.toList = some used
  origin : readOrigin c.keyOrigin.toList = some (fingerprint.toList, used, c.xpub.toList)

theorem coinType_lt (network : Network) : coinType network < hardenedBit := by
  cases network <;> decide

section
variable {w : Wally} {master : ExtKey} {network : Network} {account : UInt32}
  {fingerprint : String}

/-- An account says what was derived when its number is in range. -/
theorem accountExport_says_iff {std : Standard} (hstd : std ∈ kStandards) {a : AccountExport}
    (hbracket : ']' ∉ fingerprint.toList) (hslash : '/' ∉ fingerprint.toList)
    (h : accountExport w master fingerprint network account std = some a) :
    a.SaysDerived w master network fingerprint (accountPath network account std) ↔
      account < hardenedBit := by
  have hstandards : ∀ std ∈ kStandards,
      std.purpose < hardenedBit ∧ '[' ∉ std.descriptorOpen.toList := by decide
  obtain ⟨hpurpose, hopen⟩ := hstandards std hstd
  have hrange : (∀ n ∈ [std.purpose, coinType network, account], n < hardenedBit) ↔
      account < hardenedBit := by
    simp [hpurpose, coinType_lt]
  obtain ⟨⟨acct, xpub⟩, hderive, heq⟩ := Option.map_eq_some_iff.mp h
  have hprinted : PrintsSteps a.path a.pathHardened [std.purpose, coinType network, account] :=
    heq ▸ printsSteps [std.purpose, coinType network, account]
  obtain ⟨hpath, hpathHardened⟩ := hprinted.reads_iff (List.cons_ne_nil _ _)
  constructor
  · intro hagrees
    exact hrange.mp (hpathHardened.mp hagrees.pathHardened)
  · intro hlt
    have hread := hpathHardened.mpr (hrange.mpr hlt)
    subst heq
    have horigin := readOrigin_descriptor w network hopen hbracket hslash hprinted.pathHardened
      hread xpub
    refine ⟨?_, hpath.mpr (hrange.mpr hlt), hread, ?_⟩
    · rw [accountPath, hderive, Option.map_some]
    · intro descriptor hmem
      simp only [List.mem_cons, List.not_mem_nil, or_false] at hmem
      rcases hmem with rfl | rfl | rfl
      · exact horigin "/<0;1>/*" std.descriptorClose
      · exact horigin "/0/*" std.descriptorClose
      · exact horigin "/1/*" std.descriptorClose

/-- A cosigner key says what was derived when the account's number is in range. -/
theorem cosignerKey_says_iff {ms : MultisigStandard} (hms : ms ∈ kCosignerStandards)
    {c : CosignerKey} (hbracket : ']' ∉ fingerprint.toList) (hslash : '/' ∉ fingerprint.toList)
    (h : cosignerKey w master fingerprint network account ms = some c) :
    c.SaysDerived w master network fingerprint (cosignerPath network account ms) ↔
      account < hardenedBit := by
  have hstandards : ∀ ms ∈ kCosignerStandards, ms.scriptType < hardenedBit := by decide
  have hpurpose : (48 : UInt32) < hardenedBit := by decide
  have hrange : (∀ n ∈ [48, coinType network, account, ms.scriptType], n < hardenedBit) ↔
      account < hardenedBit := by
    simp [hpurpose, hstandards ms hms, coinType_lt]
  obtain ⟨⟨acct, xpub⟩, hderive, heq⟩ := Option.map_eq_some_iff.mp h
  have hprinted : PrintsSteps c.path c.pathHardened
      [48, coinType network, account, ms.scriptType] :=
    heq ▸ printsSteps [48, coinType network, account, ms.scriptType]
  obtain ⟨hpath, hpathHardened⟩ := hprinted.reads_iff (List.cons_ne_nil _ _)
  constructor
  · intro hagrees
    exact hrange.mp (hpathHardened.mp hagrees.pathHardened)
  · intro hlt
    have hread := hpathHardened.mpr (hrange.mpr hlt)
    subst heq
    have hfront : '[' ∉ "".toList := List.not_mem_nil
    have horigin := readOrigin_line hfront hbracket hslash hprinted.pathHardened xpub ""
    refine ⟨?_, hpath.mpr (hrange.mpr hlt), hread, ?_⟩
    · rw [cosignerPath, hderive, Option.map_some]
    · rw [hread, Option.map_some, String.empty_append, String.append_empty] at horigin
      rw [horigin, String.toList_empty, List.append_nil]
      rfl

end

/-! ## Two exports -/

/-- The arrays of child numbers that an export derives with. -/
def usedPaths (network : Network) (account : UInt32) : List (List UInt32) :=
  kStandards.map (accountPath network account)
    ++ kCosignerStandards.map (cosignerPath network account)

/-- Every entry of an export says which array was derived along. -/
def WalletExport.SaysDerived (w : Wally) (master : ExtKey) (network : Network) (account : UInt32)
    (we : WalletExport) : Prop :=
  List.Forall₂ (fun std a =>
      a.SaysDerived w master network we.fingerprint (accountPath network account std))
    kStandards we.accounts ∧
  List.Forall₂ (fun ms c =>
      c.SaysDerived w master network we.fingerprint (cosignerPath network account ms))
    kCosignerStandards we.cosigners

section
variable {w : Wally} {master : ExtKey} {out we : WalletExport}

/-- An export says what was derived when its account is in range. -/
theorem exportOfMaster_says_iff (h : exportOfMaster w out master = .ok we) :
    we.SaysDerived w master out.network out.account ↔ out.account < hardenedBit := by
  obtain ⟨⟨bytes, hbytes⟩, haccounts, hcosigners⟩ := exportOfMaster_ok h
  have hbracket : ']' ∉ we.fingerprint.toList := hbytes ▸ not_mem_hexOf (by decide) bytes
  have hslash : '/' ∉ we.fingerprint.toList := hbytes ▸ not_mem_hexOf (by decide) bytes
  constructor
  · rintro ⟨hagrees, -⟩
    -- the first standard will do
    obtain ⟨a, rest, hfirst, -, haccounts⟩ := List.forall₂_cons_left_iff.mp haccounts
    rw [haccounts] at hagrees
    exact (accountExport_says_iff (by decide) hbracket hslash hfirst).mp
      (List.forall₂_cons.mp hagrees).1
  · intro hlt
    constructor
    · refine ((List.forall₂_and_left _ _).mpr ⟨fun std hstd => hstd, haccounts⟩).imp ?_
      rintro std a ⟨hstd, ha⟩
      exact (accountExport_says_iff hstd hbracket hslash ha).mpr hlt
    · refine ((List.forall₂_and_left _ _).mpr ⟨fun ms hms => hms, hcosigners⟩).imp ?_
      rintro ms c ⟨hms, hc⟩
      exact (cosignerKey_says_iff hms hbracket hslash hc).mpr hlt

end

/-- Two accounts in range share no array, whatever their networks. -/
theorem usedPaths_disjoint {network network' : Network} {a b : UInt32} (ha : a < hardenedBit)
    (hb : b < hardenedBit) (hne : a ≠ b) :
    (usedPaths network a).Disjoint (usedPaths network' b) := by
  intro path hpath hpath'
  rw [usedPaths, List.mem_append, List.mem_map, List.mem_map] at hpath hpath'
  -- the account is the third step of either
  have hthird {network : Network} {account : UInt32}
      (h : (∃ std ∈ kStandards, accountPath network account std = path) ∨
        ∃ ms ∈ kCosignerStandards, cosignerPath network account ms = path) :
      path[2]? = some (account ||| hardenedBit) := by
    rcases h with ⟨std, -, rfl⟩ | ⟨ms, -, rfl⟩
    · rfl
    · rfl
  exact hne (or_hardenedBit_inj ha hb
    (Option.some.inj ((hthird hpath).symm.trans (hthird hpath'))))

/-- What a call exports says what was derived from the master key of the mnemonic. -/
def SaysWhatWasDerived (w : Wally) (slot : KeySlot) (mnemonic passphrase : String)
    (network : Network) (account : UInt32) : Prop :=
  ∃ master, PsbtEngine.masterFromMnemonic w network mnemonic passphrase = .ok master ∧
    (buildWalletExport w slot mnemonic passphrase network account).2.1.SaysDerived w master network
      account

theorem saysWhatWasDerived_iff {w : Wally} {slot : KeySlot} {mnemonic passphrase : String}
    {network : Network} {account : UInt32}
    (h : (buildWalletExport w slot mnemonic passphrase network account).1 = .ok ()) :
    SaysWhatWasDerived w slot mnemonic passphrase network account ↔ account < hardenedBit := by
  obtain ⟨master, hmaster, hexport⟩ := buildWalletExport_ok h
  have hiff := exportOfMaster_says_iff hexport
  constructor
  · rintro ⟨master', hmaster', hagrees⟩
    obtain rfl := Except.ok.inj (hmaster.symm.trans hmaster')
    exact hiff.mp hagrees
  · intro hlt
    exact ⟨master, hmaster, hiff.mpr hlt⟩

/-- Two exports say what was derived, and share no array when their accounts differ, exactly where
both accounts are below 2^31: a larger one loses its top bit in the array and not in the text. -/
theorem exports_say_derived_iff (w : Wally) (slot slot' : KeySlot)
    (mnemonic mnemonic' passphrase passphrase' : String) (network network' : Network)
    (a b : UInt32)
    (ha : (buildWalletExport w slot mnemonic passphrase network a).1 = .ok ())
    (hb : (buildWalletExport w slot' mnemonic' passphrase' network' b).1 = .ok ()) :
    SaysWhatWasDerived w slot mnemonic passphrase network a ∧
        SaysWhatWasDerived w slot' mnemonic' passphrase' network' b ∧
        (a ≠ b → (usedPaths network a).Disjoint (usedPaths network' b)) ↔
      a < hardenedBit ∧ b < hardenedBit := by
  rw [saysWhatWasDerived_iff ha, saysWhatWasDerived_iff hb]
  constructor
  · rintro ⟨hlta, hltb, -⟩
    exact ⟨hlta, hltb⟩
  · rintro ⟨hlta, hltb⟩
    exact ⟨hlta, hltb, usedPaths_disjoint hlta hltb⟩

/-- The first two accounts of a seed. -/
theorem exports_say_derived_first :
    SaysWhatWasDerived privateSeeds .clear "zoo" "" .mainnet 0 ∧
      SaysWhatWasDerived privateSeeds .clear "zoo" "" .mainnet 1 ∧
      (usedPaths .mainnet 0).Disjoint (usedPaths .mainnet 1) := by
  obtain ⟨hfirst, hsecond, hdisjoint⟩ := (exports_say_derived_iff privateSeeds .clear .clear
    "zoo" "zoo" "" "" .mainnet .mainnet 0 1 rfl rfl).mpr (by decide)
  exact ⟨hfirst, hsecond, hdisjoint (by decide)⟩

/-- Account 2^31 is derived along the arrays of account 0, and printed as it came. -/
theorem account_loses_top_bit :
    (buildWalletExport privateSeeds .clear "zoo" "" .mainnet 0x80000000).1 = .ok () ∧
      ¬ SaysWhatWasDerived privateSeeds .clear "zoo" "" .mainnet 0x80000000 ∧
      (buildWalletExport privateSeeds .clear "zoo" "" .mainnet 0x80000000).2.1.accounts.map
          AccountExport.path = ["m/84'/0'/2147483648'", "m/86'/0'/2147483648'",
        "m/49'/0'/2147483648'", "m/44'/0'/2147483648'"] ∧
      usedPaths .mainnet 0x80000000 = usedPaths .mainnet 0 := by
  refine ⟨rfl, ?_, by decide, by decide⟩
  rw [saysWhatWasDerived_iff rfl]
  decide

end SignerOS
