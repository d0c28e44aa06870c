import Mathlib.Data.List.Nodup
import Mathlib.Data.Prod.Lex
import Mathlib.Data.String.Basic
import SignerOS.FileNames

/-!
# The files to choose from

`listPsbtFiles`: the `*.psbt` files of a directory, those to be signed before those that have been,
the newest first. `readdir` gives the names in no order, and `std::sort` promises only what is said
of it here; `listPsbtFiles_unique` is that this leaves one list.
-/

namespace SignerOS

/-- What `stat` says of a file. -/
structure FileStat where
  isRegular : Bool
  size : ℕ
  mtime : ℤ
deriving DecidableEq, Repr

/-- A name `readdir` gives, and what is found under it. -/
structure DirEntry where
  name : String
  stat : Option FileStat
deriving DecidableEq, Repr

structure PsbtFileEntry where
  name : String
  path : String
  sizeBytes : ℕ
  mtime : ℤ
  isSignerOutput : Bool
deriving DecidableEq, Repr

/-- A lower-case letter for an upper-case one of ASCII. -/
def lowered (c : Char) : Char :=
  if 'A' ≤ c ∧ c ≤ 'Z' then Char.ofNat (c.toNat + 32) else c

/-- The conditions on a name. Characters stand for bytes. -/
def isPsbtName (name : String) : Bool :=
  let chars := name.toList
  !chars.isEmpty && chars.head? != some '.' && 6 ≤ chars.length
    && (chars.drop (chars.length - 5)).map lowered == ".psbt".toList

def entryOf (dir name : String) (st : FileStat) : PsbtFileEntry where
  name := name
  path := pathIn dir name
  sizeBytes := st.size
  mtime := st.mtime
  isSignerOutput := "signed_".toList.isPrefixOf name.toList

/-- What is listed of a name of the directory. -/
def fileEntry (dir : String) (de : DirEntry) : Option PsbtFileEntry :=
  if isPsbtName de.name then
    match de.stat with
    | some st => if st.isRegular then some (entryOf dir de.name st) else none
    | none => none
  else none

/-- The order of the list: what is to be signed first, then the newest first, then by name. -/
def comesBefore (a b : PsbtFileEntry) : Bool :=
  if a.isSignerOutput != b.isSignerOutput then !a.isSignerOutput
  else if a.mtime != b.mtime then decide (b.mtime < a.mtime)
  else decide (a.name < b.name)

/-- `listPsbtFiles`, of a directory that can be opened or not. -/
def listPsbtFiles (dir : String) : Option (List DirEntry) → List PsbtFileEntry
  | none => []
  | some entries => (entries.filterMap (fileEntry dir)).mergeSort fun a b => !comesBefore b a

/-! ## The order -/

/-- What the order compares, in turn. -/
def PsbtFileEntry.key (e : PsbtFileEntry) : Bool ×ₗ ℤᵒᵈ ×ₗ String :=
  toLex (e.isSignerOutput, toLex (OrderDual.toDual e.mtime, e.name))

theorem comesBefore_iff {a b : PsbtFileEntry} : comesBefore a b = true ↔ a.key < b.key := by
  rw [comesBefore, PsbtFileEntry.key, PsbtFileEntry.key, Prod.Lex.toLex_lt_toLex,
    Prod.Lex.toLex_lt_toLex]
  by_cases hout : a.isSignerOutput = b.isSignerOutput
  · by_cases hmtime : a.mtime = b.mtime
    · simp [hout, hmtime]
    · simp [hout, hmtime]
  · rw [if_pos (bne_iff_ne.mpr hout)]
    cases ha : a.isSignerOutput <;> cases hb : b.isSignerOutput <;> simp_all

/-- What `std::sort` asks of the order: to compare by it is to compare by a key. -/
theorem not_comesBefore_iff {a b : PsbtFileEntry} : comesBefore b a = false ↔ a.key ≤ b.key := by
  rw [← Bool.not_eq_true, comesBefore_iff, not_lt]

/-- Two lists of the same elements, sorted by a key that tells them apart, are the same. -/
theorem eq_of_perm_of_sorted {α κ : Type} [PartialOrder κ] {key : α → κ} {xs ys : List α}
    (hperm : xs.Perm ys) (hxs : xs.Pairwise fun a b => key a ≤ key b)
    (hys : ys.Pairwise fun a b => key a ≤ key b)
    (hkey : ∀ a ∈ xs, ∀ b ∈ xs, key a = key b → a = b) : xs = ys := by
  refine List.Perm.eq_of_pairwise ?_ hxs hys hperm
  intro a b ha hb hab hba
  exact hkey a ha b (hperm.mem_iff.mpr hb) (le_antisymm hab hba)

theorem fileEntry_eq_some_iff {dir : String} {de : DirEntry} {e : PsbtFileEntry} :
    fileEntry dir de = some e ↔ isPsbtName de.name = true ∧
      ∃ st, de.stat = some st ∧ st.isRegular = true ∧ entryOf dir de.name st = e := by
  rw [fileEntry]
  split
  · next hname =>
    rw [and_iff_right hname]
    cases hstat : de.stat with
    | none => exact iff_of_false (fun h => by cases h) fun ⟨_, h, _⟩ => by cases h
    | some st => simp
  · next hname => exact iff_of_false (fun h => by cases h) fun h => hname h.1

/-- The files of a directory are told apart by their names. -/
theorem key_injective {dir : String} {entries : List DirEntry}
    (hnames : (entries.map DirEntry.name).Nodup) :
    ∀ a ∈ entries.filterMap (fileEntry dir), ∀ b ∈ entries.filterMap (fileEntry dir),
      a.key = b.key → a = b := by
  intro a ha b hb hkey
  obtain ⟨de, hde, hentry⟩ := List.mem_filterMap.mp ha
  obtain ⟨de', hde', hentry'⟩ := List.mem_filterMap.mp hb
  obtain ⟨-, st, hst, -, rfl⟩ := fileEntry_eq_some_iff.mp hentry
  obtain ⟨-, st', hst', -, rfl⟩ := fileEntry_eq_some_iff.mp hentry'
  have hname : de.name = de'.name := (Prod.mk.inj (Prod.mk.inj hkey).2).2
  obtain rfl := List.inj_on_of_nodup_map hnames hde hde' hname
  rw [Option.some.inj (hst.symm.trans hst')]

theorem pairwise_listPsbtFiles {dir : String} (entries : List DirEntry) :
    (listPsbtFiles dir (some entries)).Pairwise fun a b => a.key ≤ b.key := by
  have htrans : ∀ a b c, (!comesBefore b a) = true → (!comesBefore c b) = true →
      (!comesBefore c a) = true := by
    intro a b c
    simp only [Bool.not_eq_true', not_comesBefore_iff]
    exact le_trans
  have htotal : ∀ a b, (!comesBefore b a || !comesBefore a b) = true := by
    intro a b
    simpa only [Bool.or_eq_true, Bool.not_eq_true', not_comesBefore_iff] using le_total a.key b.key
  refine (List.pairwise_mergeSort htrans htotal (entries.filterMap (fileEntry dir))).imp ?_
  intro a b h
  rwa [Bool.not_eq_true', not_comesBefore_iff] at h

/-- A directory gives one list: whatever the order in which `readdir` gives the names, and however
`std::sort` treats what it compares, the files come in this order. -/
theorem listPsbtFiles_unique {dir : String} {entries entries' : List DirEntry}
    (hnames : (entries.map DirEntry.name).Nodup) (hperm : entries.Perm entries')
    {out : List PsbtFileEntry} (hout : out.Perm (entries'.filterMap (fileEntry dir)))
    (hsorted : out.Pairwise fun a b => comesBefore b a = false) :
    out = listPsbtFiles dir (some entries) := by
  have hfiles : (listPsbtFiles dir (some entries)).Perm out :=
    (List.mergeSort_perm _ _).trans ((hperm.filterMap _).trans hout.symm)
  refine (eq_of_perm_of_sorted hfiles (pairwise_listPsbtFiles entries) ?_ ?_).symm
  · exact hsorted.imp not_comesBefore_iff.mp
  · intro a ha b hb
    rw [listPsbtFiles, List.mem_mergeSort] at ha hb
    exact key_injective hnames a ha b hb

theorem listPsbtFiles_unique_three :
    [entryOf "/mnt/data" "b.PSBT" ⟨true, 200, 9⟩, entryOf "/mnt/data" "a.psbt" ⟨true, 100, 5⟩,
      entryOf "/mnt/data" "signed_a.psbt" ⟨true, 300, 7⟩] =
    listPsbtFiles "/mnt/data" (some [⟨"signed_a.psbt", some ⟨true, 300, 7⟩⟩, ⟨".b.psbt", none⟩,
      ⟨"b.PSBT", some ⟨true, 200, 9⟩⟩, ⟨"a.psbt", some ⟨true, 100, 5⟩⟩]) := by
  -- the same four, in the order of another `readdir`
  have hperm : List.Perm
      [⟨"signed_a.psbt", some ⟨true, 300, 7⟩⟩, ⟨".b.psbt", none⟩,
        ⟨"b.PSBT", some ⟨true, 200, 9⟩⟩, ⟨"a.psbt", some ⟨true, 100, 5⟩⟩]
      [⟨"a.psbt", some ⟨true, 100, 5⟩⟩, ⟨"signed_a.psbt", some ⟨true, 300, 7⟩⟩,
        ⟨"b.PSBT", some ⟨true, 200, 9⟩⟩, (⟨".b.psbt", none⟩ : DirEntry)] := by
    decide +kernel
  exact listPsbtFiles_unique (by decide) hperm (by decide +kernel) (by decide +kernel)

end SignerOS
