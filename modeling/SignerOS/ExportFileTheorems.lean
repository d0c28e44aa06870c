import SignerOS.Lib.Decimal
import SignerOS.Lib.Slots
import SignerOS.WalletExport

/-!
# Reading an export back

The file that `renderWalletExport` prints is read by hand and by wallet programs that skip the
empty lines and the ones that start with `#`.

* `readLines_unlines`, the lines of a text are the ones it was put together from;
* `notes_exportHeader` and `notes_cosignerHeader`, nothing is said outside a comment;
* `dataLines_renderWalletExport`, what is left is the exported data, in order.
-/

namespace SignerOS

/-! ## Lines -/

/-- The lines of a text: what stands between two line ends. -/
def readLines (text : String) : List String := (text.toList.splitOn '\n').map String.ofList

/-- A line that a program reads: it is not empty, and not a comment. -/
def isData (line : String) : Bool := line != "" && line.toList.head? != some '#'

/-- The lines of a text that a program reads. -/
def dataLines (text : String) : List String := (readLines text).filter isData

/-- The text is one line. -/
def OneLine (s : String) : Prop := '\n' ∉ s.toList

instance (s : String) : Decidable (OneLine s) := inferInstanceAs (Decidable ('\n' ∉ s.toList))

theorem OneLine.append {s t : String} (hs : OneLine s) (ht : OneLine t) : OneLine (s ++ t) := by
  unfold OneLine at *
  rw [String.toList_append, List.mem_append]
  exact not_or_intro hs ht

theorem toList_unlines (lines : List String) :
    (unlines lines).toList = Slots.before '\n' (lines.map String.toList) := by
  unfold unlines Slots.before
  induction lines with
  | nil => rfl
  | cons line lines ih =>
    rw [List.map_cons, String.join_cons, String.toList_append, String.toList_append, ih]
    rfl

/-- The lines of a text are the ones it was put together from. -/
theorem readLines_unlines {lines : List String} (h : ∀ line ∈ lines, OneLine line) :
    readLines (unlines lines) = lines ++ [""] := by
  have hsplit : (unlines lines).toList.splitOn '\n' = lines.map String.toList ++ [[]] := by
    have honeLine : ∀ part ∈ lines.map String.toList ++ [[]], '\n' ∉ part := by
      intro part hpart
      rcases List.mem_append.mp hpart with hpart | hpart
      · obtain ⟨line, hline, rfl⟩ := List.mem_map.mp hpart
        exact h line hline
      · rw [List.mem_singleton.mp hpart]
        exact List.not_mem_nil
    have hparts := Slots.splitOn_assemble honeLine
    rw [toList_unlines, ← hparts]
    simp [Slots.behind]
  rw [readLines, hsplit]
  simp

theorem dataLines_unlines {lines : List String} (h : ∀ line ∈ lines, OneLine line) :
    dataLines (unlines lines) = lines.filter isData := by
  rw [dataLines, readLines_unlines h, List.filter_append]
  exact List.append_nil _

/-! ## Comments -/

/-- A line that starts with `#`. -/
structure Comment (line : String) : Prop where
  head : line.toList.head? = some '#'
  oneLine : OneLine line

/-- A line that is skipped. -/
def Note (line : String) : Prop := line = "" ∨ Comment line

theorem Comment.append {s t : String} (hs : Comment s) (ht : OneLine t) : Comment (s ++ t) := by
  refine ⟨?_, hs.oneLine.append ht⟩
  rw [String.toList_append, List.head?_append, hs.head]
  rfl

-- a literal is unified with the list of its characters, which costs less than computing it
theorem comment_literal {line : String} {cs : List Char} (h : line = String.ofList cs)
    (hcs : cs.head? = some '#' ∧ '\n' ∉ cs) : Comment line := by
  subst h
  refine ⟨?_, ?_⟩
  · rw [String.toList_ofList]
    exact hcs.1
  · rw [OneLine, String.toList_ofList]
    exact hcs.2

theorem oneLine_literal {line : String} {cs : List Char} (h : line = String.ofList cs)
    (hcs : '\n' ∉ cs) : OneLine line := by
  rw [OneLine, h, String.toList_ofList]
  exact hcs

theorem note_literal {line : String} {cs : List Char} (h : line = String.ofList cs)
    (hcs : cs.head? = some '#' ∧ '\n' ∉ cs) : Note line :=
  Or.inr (comment_literal h hcs)

theorem oneLine_empty : OneLine "" := List.not_mem_nil

theorem Note.oneLine {line : String} (h : Note line) : OneLine line := by
  rcases h with rfl | h
  · exact oneLine_empty
  · exact h.oneLine

theorem Note.not_isData {line : String} (h : Note line) : isData line = false := by
  rcases h with rfl | h
  · rfl
  · rw [isData, h.head]
    exact Bool.and_false _

/-- A line that is to be copied into a wallet. -/
structure Entry (line : String) : Prop where
  oneLine : OneLine line
  ne_empty : line ≠ ""
  ne_comment : line.toList.head? ≠ some '#'

theorem Entry.isData {line : String} (h : Entry line) : isData line = true :=
  Bool.and_eq_true_iff.mpr ⟨bne_iff_ne.mpr h.ne_empty, bne_iff_ne.mpr h.ne_comment⟩

theorem entry_literal {line : String} {cs : List Char} (h : line = String.ofList cs)
    (hcs : cs ≠ [] ∧ cs.head? ≠ some '#' ∧ '\n' ∉ cs) : Entry line where
  oneLine := oneLine_literal h hcs.2.2
  ne_empty := by
    rw [h, Ne, String.ofList_eq_empty_iff]
    exact hcs.1
  ne_comment := by
    rw [h, String.toList_ofList]
    exact hcs.2.1

/-- Lines that are notes, but for some entries. -/
inductive Reads : List String → List String → Prop
  | nil : Reads [] []
  | note {line : String} {lines entries : List String} :
    Note line → Reads lines entries → Reads (line :: lines) entries
  | entry {line : String} {lines entries : List String} :
    Entry line → Reads lines entries → Reads (line :: lines) (line :: entries)

namespace Reads

variable {lines lines' entries entries' : List String}

theorem of_notes (h : ∀ line ∈ lines, Note line) : Reads lines [] := by
  induction lines with
  | nil => exact nil
  | cons line lines ih =>
    obtain ⟨hline, hlines⟩ := List.forall_mem_cons.mp h
    exact note hline (ih hlines)

theorem append (h : Reads lines entries) (h' : Reads lines' entries') :
    Reads (lines ++ lines') (entries ++ entries') := by
  induction h with
  | nil => exact h'
  | note hline _ ih => exact note hline ih
  | entry hline _ ih => exact entry hline ih

theorem flatMap {α : Type} {items : List α} {f g : α → List String}
    (h : ∀ item ∈ items, Reads (f item) (g item)) : Reads (items.flatMap f) (items.flatMap g) := by
  induction items with
  | nil => exact nil
  | cons item items ih =>
    obtain ⟨hitem, hitems⟩ := List.forall_mem_cons.mp h
    rw [List.flatMap_cons, List.flatMap_cons]
    exact hitem.append (ih hitems)

theorem oneLine (h : Reads lines entries) : ∀ line ∈ lines, OneLine line := by
  induction h with
  | nil => exact fun line hline => absurd hline List.not_mem_nil
  | note hline _ ih => exact List.forall_mem_cons.mpr ⟨hline.oneLine, ih⟩
  | entry hline _ ih => exact List.forall_mem_cons.mpr ⟨hline.oneLine, ih⟩

theorem filter_isData (h : Reads lines entries) : lines.filter isData = entries := by
  induction h with
  | nil => rfl
  | note hline _ ih => rw [List.filter_cons, hline.not_isData, ih]; rfl
  | entry hline _ ih => rw [List.filter_cons, hline.isData, ih]; rfl

/-- Of the text that is printed, a program reads the entries. -/
theorem dataLines_unlines (h : Reads lines entries) : dataLines (unlines lines) = entries := by
  rw [SignerOS.dataLines_unlines h.oneLine, h.filter_isData]

end Reads

theorem oneLine_toString (n : ℕ) : OneLine (toString n) := by
  intro hmem
  exact absurd (Decimal.isDigit_of_mem_toString hmem) (by decide)

theorem oneLine_networkName (n : Network) : OneLine (networkName n) := by
  cases n with
  | mainnet => exact oneLine_literal rfl (by decide)
  | testnet => exact oneLine_literal rfl (by decide)
  | signet => exact oneLine_literal rfl (by decide)
  | regtest => exact oneLine_literal rfl (by decide)

/-! ## The parts of the file -/

/-- What is printed of an account is one line each, and its descriptors are to be copied. -/
structure AccountExport.Printable (a : AccountExport) : Prop where
  standard : OneLine a.standard
  label : OneLine a.label
  addressHint : OneLine a.addressHint
  path : OneLine a.path
  xpub : OneLine a.xpub
  firstAddress : OneLine a.firstAddress
  descriptor : Entry a.descriptor
  receiveDescriptor : Entry a.receiveDescriptor
  changeDescriptor : Entry a.changeDescriptor

/-- What is printed of a cosigner key is one line each, and the key with its origin is to be
copied. -/
structure CosignerKey.Printable (c : CosignerKey) : Prop where
  standard : OneLine c.standard
  label : OneLine c.label
  path : OneLine c.path
  xpub : OneLine c.xpub
  keyOrigin : Entry c.keyOrigin

/-- No string of the export holds a line end, and what is to be copied is no comment. -/
structure WalletExport.Printable (we : WalletExport) : Prop where
  fingerprint : OneLine we.fingerprint
  accounts : ∀ a ∈ we.accounts, a.Printable
  cosigners : ∀ c ∈ we.cosigners, c.Printable

theorem note_exportRule : Note exportRule := note_literal rfl (by decide)

theorem notes_exportHeader {we : WalletExport} {createdAt : String}
    (hfingerprint : OneLine we.fingerprint) (hcreated : OneLine createdAt) :
    ∀ line ∈ exportHeader we createdAt, Note line := by
  have hpassphrase (used : Bool) : OneLine (if used then
      "yes - this export belongs to the passphrase you entered. A different passphrase is a "
        ++ "different wallet."
      else "no") := by
    cases used with
    | true => exact (oneLine_literal rfl (by decide)).append (oneLine_literal rfl (by decide))
    | false => exact oneLine_literal rfl (by decide)
  simp only [exportHeader, List.forall_mem_cons]
  and_intros
  all_goals try exact note_literal rfl (by decide)
  -- the lines that say when and what for, and the empty one
  · exact Or.inr ((comment_literal rfl (by decide)).append hcreated)
  · exact Or.inr ((comment_literal rfl (by decide)).append hfingerprint)
  · exact Or.inr ((comment_literal rfl (by decide)).append (oneLine_networkName _))
  · exact Or.inr ((comment_literal rfl (by decide)).append (oneLine_toString _))
  · exact Or.inr ((comment_literal rfl (by decide)).append (hpassphrase _))
  · exact Or.inl rfl
  · exact fun line hline => absurd hline List.not_mem_nil

theorem notes_cosignerHeader : ∀ line ∈ cosignerHeader, Note line := by
  simp only [cosignerHeader, List.forall_mem_cons]
  and_intros
  · exact note_exportRule
  all_goals try exact note_literal rfl (by decide)
  · exact Or.inl rfl
  · exact fun line hline => absurd hline List.not_mem_nil

/-- The line that names the path of a key. -/
theorem note_derivation {path : String} (h : OneLine path) : Note ("#   derivation     " ++ path) :=
  Or.inr ((comment_literal rfl (by decide)).append h)

/-- The line that names a key. -/
theorem note_xpub {xpub : String} (h : OneLine xpub) : Note ("#   account xpub   " ++ xpub) :=
  Or.inr ((comment_literal rfl (by decide)).append h)

/-- The beginning of a block's title. -/
theorem comment_title {standard label : String} (hstandard : OneLine standard)
    (hlabel : OneLine label) : Comment ("# " ++ standard ++ "  -  " ++ label) :=
  (((comment_literal rfl (by decide)).append hstandard).append
    (oneLine_literal rfl (by decide))).append hlabel

theorem reads_accountLines {a : AccountExport} (h : a.Printable) :
    Reads (accountLines a) [a.descriptor, a.receiveDescriptor, a.changeDescriptor] := by
  have htitle : Note ("# " ++ a.standard ++ "  -  " ++ a.label ++ "  (" ++ a.addressHint ++ ")") :=
    Or.inr ((((comment_title h.standard h.label).append (oneLine_literal rfl (by decide))).append
      h.addressHint).append (oneLine_literal rfl (by decide)))
  have haddress : OneLine (if a.firstAddress.isEmpty then "(could not be derived)"
      else a.firstAddress) := by
    split
    · exact oneLine_literal rfl (by decide)
    · exact h.firstAddress
  have hempty : Reads [""] [] := .note (Or.inl rfl) .nil
  -- the single line first, then the pair
  have hpair : Reads (a.receiveDescriptor :: a.changeDescriptor :: [""])
      [a.receiveDescriptor, a.changeDescriptor] :=
    .entry h.receiveDescriptor (.entry h.changeDescriptor hempty)
  refine .note note_exportRule (.note htitle (.note (note_derivation h.path) ?_))
  refine .note (note_xpub h.xpub) (.note ?_ (.note note_exportRule ?_))
  · exact Or.inr ((comment_literal rfl (by decide)).append haddress)
  · refine .note (note_literal rfl (by decide)) (.entry h.descriptor ?_)
    refine .note (Or.inl rfl) (.note (note_literal rfl (by decide)) ?_)
    exact .note (note_literal rfl (by decide)) hpair

theorem reads_cosignerLines {c : CosignerKey} (h : c.Printable) :
    Reads (cosignerLines c) [c.keyOrigin] := by
  have htitle : Note ("# " ++ c.standard ++ "  -  " ++ c.label) :=
    Or.inr (comment_title h.standard h.label)
  have hempty : Reads [""] [] := .note (Or.inl rfl) .nil
  refine .note note_exportRule (.note htitle (.note (note_derivation h.path) ?_))
  refine .note (note_xpub h.xpub) (.note note_exportRule ?_)
  refine .note (note_literal rfl (by decide)) (.note (note_literal rfl (by decide)) ?_)
  exact .entry h.keyOrigin hempty

/-! ## The file -/

/-- What there is to be copied from an export. -/
def WalletExport.entries (we : WalletExport) : List String :=
  we.accounts.flatMap (fun a => [a.descriptor, a.receiveDescriptor, a.changeDescriptor])
    ++ we.cosigners.map CosignerKey.keyOrigin

/-- The lines of the file that a program reads are the descriptors of each account, the single one
before the pair, and the cosigner keys with their origins. -/
theorem dataLines_renderWalletExport (we : WalletExport) (createdAt : String) (h : we.Printable)
    (hcreated : OneLine createdAt) : dataLines (renderWalletExport we createdAt) = we.entries := by
  have hheader := Reads.of_notes (notes_exportHeader h.fingerprint hcreated)
  have haccounts := Reads.flatMap fun a ha => reads_accountLines (h.accounts a ha)
  have hcosigners : Reads (if we.cosigners.isEmpty then []
      else cosignerHeader ++ we.cosigners.flatMap cosignerLines)
      (we.cosigners.flatMap fun c => [c.keyOrigin]) := by
    by_cases hnone : we.cosigners = []
    · rw [hnone]
      exact .nil
    · rw [if_neg (mt List.isEmpty_iff.mp hnone)]
      exact (Reads.of_notes notes_cosignerHeader).append
        (Reads.flatMap fun c hc => reads_cosignerLines (h.cosigners c hc))
  have hend : Reads ["# end of export"] [] := .note (note_literal rfl (by decide)) .nil
  have hfile := ((hheader.append haccounts).append hcosigners).append hend
  rw [renderWalletExport, hfile.dataLines_unlines, WalletExport.entries, List.nil_append,
    List.append_nil, List.map_eq_flatMap]

/-- An export of one account, whose descriptors have no checksum, and one cosigner key. -/
def oneOfEach : WalletExport where
  fingerprint := "d90c6a4f"
  accounts := [{
    standard := "BIP84"
    label := "Native SegWit (P2WPKH)"
    addressHint := "addresses start bc1q"
    path := "m/84'/0'/0'"
    pathHardened := "84h/0h/0h"
    xpub := "xpub6C"
    descriptor := "wpkh([d90c6a4f/84h/0h/0h]xpub6C/<0;1>/*)"
    receiveDescriptor := "wpkh([d90c6a4f/84h/0h/0h]xpub6C/0/*)"
    changeDescriptor := "wpkh([d90c6a4f/84h/0h/0h]xpub6C/1/*)"
    firstAddress := "" }]
  cosigners := [{
    standard := "BIP48/2h"
    label := "Native SegWit multisig (P2WSH)"
    path := "m/48'/0'/0'/2'"
    pathHardened := "48h/0h/0h/2h"
    xpub := "xpub6D"
    keyOrigin := "[d90c6a4f/48h/0h/0h/2h]xpub6D" }]

/-- Four lines of its file are read. -/
theorem dataLines_oneOfEach :
    dataLines (renderWalletExport oneOfEach "2024-05-01 12:00") =
      ["wpkh([d90c6a4f/84h/0h/0h]xpub6C/<0;1>/*)", "wpkh([d90c6a4f/84h/0h/0h]xpub6C/0/*)",
        "wpkh([d90c6a4f/84h/0h/0h]xpub6C/1/*)", "[d90c6a4f/48h/0h/0h/2h]xpub6D"] := by
  have hprintable : oneOfEach.Printable := by
    refine ⟨oneLine_literal rfl (by decide), ?_, ?_⟩
    · refine List.forall_mem_singleton.mpr ?_
      constructor
      all_goals try exact oneLine_literal rfl (by decide)
      all_goals exact entry_literal rfl (by decide)
    · refine List.forall_mem_singleton.mpr ?_
      constructor
      all_goals try exact oneLine_literal rfl (by decide)
      all_goals exact entry_literal rfl (by decide)
  exact dataLines_renderWalletExport oneOfEach "2024-05-01 12:00" hprintable
    (oneLine_literal rfl (by decide))

end SignerOS
