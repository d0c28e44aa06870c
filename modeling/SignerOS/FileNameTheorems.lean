import Mathlib.Data.List.DropRight
import SignerOS.FileNames

/-!
# What a file name is reduced to

`sanitiseFileName` filters, then drops leading dots, then trims the end, then trims leading
spaces; the last step can bring a dot back to the front. `freeFileName` tries 999 names and
answers with the last of them unseen.

* `trimName_eq_self` and `keptChars_eq_self`, what the two steps leave as it is;
* `sanitiseFileName_cases`, a usable name as what the steps leave and the suffix;
* `keepsRules_iff`, the rules hold exactly where no dot comes behind leading spaces;
* `freeNameLoop_eq`, the name proposed as the first candidate that is not seen, or the last;
* `proposesFirstFree_iff`, it is the first free one exactly where that is among the 999.
-/

namespace SignerOS

open Files (Disk)

/-! ## The steps -/

/-- A character the end of a name is trimmed of. -/
def isTrailing (c : Char) : Bool := c == ' ' || c == '.'

theorem isTrailing_eq_false {c : Char} : isTrailing c = false ↔ c ≠ ' ' ∧ c ≠ '.' := by
  rw [isTrailing, Bool.or_eq_false_iff, beq_eq_false_iff_ne, beq_eq_false_iff_ne]

theorem trimName_eq (out : List Char) :
    trimName out = (out.rdropWhile isTrailing).dropWhile (· == ' ') := rfl

/-- What is left of a name is a part of it. -/
theorem mem_of_mem_trimName {out : List Char} {c : Char} (h : c ∈ trimName out) : c ∈ out := by
  rw [trimName_eq] at h
  exact (List.rdropWhile_prefix isTrailing out).subset ((List.dropWhile_suffix _).subset h)

/-- No space comes first. -/
theorem head_trimName_ne_space (out : List Char) : (trimName out).head? ≠ some ' ' := by
  intro h
  rw [trimName_eq] at h
  have hnot := List.head?_dropWhile_not (· == ' ') (out.rdropWhile isTrailing)
  rw [h] at hnot
  exact absurd hnot (by decide)

/-- No space or dot comes last. -/
theorem last_trimName {out : List Char} {c : Char} (h : (trimName out).getLast? = some c) :
    isTrailing c = false := by
  rw [trimName_eq] at h
  -- the last character is the last one before the leading spaces were dropped
  obtain ⟨pre, hpre⟩ := List.dropWhile_suffix (l := out.rdropWhile isTrailing) (· == ' ')
  have hne : (out.rdropWhile isTrailing).dropWhile (· == ' ') ≠ [] := by
    intro hnil
    rw [hnil] at h
    exact absurd h (by simp)
  have hlast : (out.rdropWhile isTrailing).getLast? = some c := by
    rw [← hpre, List.getLast?_append_of_ne_nil _ hne, h]
  have hne' : out.rdropWhile isTrailing ≠ [] := by
    intro hnil
    rw [hnil] at hlast
    exact absurd hlast (by simp)
  have hnot := List.rdropWhile_last_not isTrailing out hne'
  rw [List.getLast?_eq_some_getLast hne', Option.some.injEq] at hlast
  rw [← hlast]
  exact Bool.eq_false_iff.mpr hnot

theorem dropWhile_eq_self {a : Char} {cs : List Char} (h : cs.head? ≠ some a) :
    cs.dropWhile (· == a) = cs := by
  cases cs with
  | nil => rfl
  | cons c cs =>
    rw [List.dropWhile_cons_of_neg]
    intro hc
    rw [beq_iff_eq.mp hc] at h
    exact h rfl

/-- A name without spaces or dots to trim stays as it is. -/
theorem trimName_eq_self {out : List Char} (hhead : out.head? ≠ some ' ')
    (hlast : ∀ c, out.getLast? = some c → isTrailing c = false) : trimName out = out := by
  have hend : out.rdropWhile isTrailing = out := by
    refine List.rdropWhile_eq_self_iff.mpr fun hne => ?_
    rw [hlast _ (List.getLast?_eq_some_getLast hne)]
    exact Bool.false_ne_true
  rw [trimName_eq, hend]
  exact dropWhile_eq_self hhead

/-- Kept characters behind no leading dot stay as they are. -/
theorem keptChars_eq_self {base : List Char} (hkept : ∀ c ∈ base, keepsChar c = true)
    (hhead : base.head? ≠ some '.') : keptChars base = base := by
  rw [keptChars, List.filter_eq_self.mpr hkept]
  exact dropWhile_eq_self hhead

theorem keepsChar_of_mem_keptChars {base : List Char} {c : Char} (h : c ∈ keptChars base) :
    c ∈ base ∧ keepsChar c = true :=
  List.mem_filter.mp ((List.dropWhile_suffix _).subset h)

/-- A name without a slash is its own last component. -/
theorem lastComponent_eq_self {path : List Char} (h : '/' ∉ path) : lastComponent path = path := by
  have hall : path.reverse.takeWhile (· ≠ '/') = path.reverse := by
    refine List.takeWhile_eq_self_iff.mpr fun c hc => decide_eq_true ?_
    rintro rfl
    exact h (List.mem_reverse.mp hc)
  rw [lastComponent, hall, List.reverse_reverse]

theorem slash_notMem_lastComponent (path : List Char) : '/' ∉ lastComponent path := by
  intro h
  have hkept := List.mem_takeWhile_imp (List.mem_reverse.mp h)
  exact absurd hkept (by decide)

/-! ## The suffix -/

/-- The suffixes the callers ask for. -/
def callerSuffixes : List String := ["", ".psbt", ".txt"]

/-- A suffix that could be a part of a name. -/
structure PlainSuffix (suffix : List Char) : Prop where
  kept : ∀ c ∈ suffix, keepsChar c = true
  noSlash : '/' ∉ suffix
  last : ∀ c, suffix.getLast? = some c → isTrailing c = false

/-- A suffix is looked at character by character. -/
theorem plainSuffix_of_all {suffix : List Char} (hkept : suffix.all keepsChar = true)
    (hslash : '/' ∉ suffix) (hlast : (suffix.getLast?.all fun c => !isTrailing c) = true) :
    PlainSuffix suffix where
  kept := List.all_eq_true.mp hkept
  noSlash := hslash
  last := by
    intro c hc
    rw [hc] at hlast
    simpa using hlast

theorem plainSuffix_of_caller {suffix : String} (h : suffix ∈ callerSuffixes) :
    PlainSuffix suffix.toList := by
  simp only [callerSuffixes, List.mem_cons, List.not_mem_nil, or_false] at h
  rcases h with rfl | rfl | rfl
  · exact plainSuffix_of_all (by decide) (by decide) (by decide)
  · exact plainSuffix_of_all (by decide) (by decide) (by decide)
  · exact plainSuffix_of_all (by decide) (by decide) (by decide)

/-- A name and its suffix have the name's first character. -/
theorem head_withSuffix {out : List Char} (suffix : List Char) (hne : out ≠ []) :
    (withSuffix out suffix).head? = out.head? := by
  unfold withSuffix
  split_ifs
  · rfl
  · rfl
  · exact List.head?_append_of_ne_nil _ hne

/-- A name and its suffix are a stem and the suffix. -/
theorem withSuffix_eq_append {out : List Char} (suffix : List Char) (hne : out ≠ []) :
    ∃ stem, stem ≠ [] ∧ withSuffix out suffix = stem ++ suffix := by
  unfold withSuffix
  split_ifs with hnil hends
  · exact ⟨out, hne, by rw [hnil, List.append_nil]⟩
  · obtain ⟨hlen, stem, hstem⟩ := hends
    refine ⟨stem, fun hempty => ?_, hstem.symm⟩
    rw [← hstem, hempty, List.nil_append] at hlen
    exact absurd hlen (Nat.lt_irrefl _)
  · exact ⟨out, hne, rfl⟩

/-- The suffix is appended once. -/
theorem withSuffix_append {stem : List Char} (suffix : List Char) (hne : stem ≠ []) :
    withSuffix (stem ++ suffix) suffix = stem ++ suffix := by
  unfold withSuffix
  split_ifs with hnil hends
  · rfl
  · rfl
  · refine absurd ⟨?_, List.suffix_append stem suffix⟩ hends
    have hlen := List.length_pos_iff.mpr hne
    rw [List.length_append]
    omega

theorem last_withSuffix {out suffix : List Char} {c : Char}
    (hsuffix : PlainSuffix suffix) (hout : ∀ c, out.getLast? = some c → isTrailing c = false)
    (hne : out ≠ []) (h : (withSuffix out suffix).getLast? = some c) : isTrailing c = false := by
  by_cases hnil : suffix = []
  · rw [withSuffix, if_pos hnil] at h
    exact hout c h
  · obtain ⟨stem, -, hstem⟩ := withSuffix_eq_append suffix hne
    rw [hstem, List.getLast?_append_of_ne_nil _ hnil] at h
    exact hsuffix.last c h

/-! ## Names -/

/-- The characters of a name before the suffix is seen to. -/
def nameStem (name : String) : List Char := trimName (keptChars (lastComponent name.toList))

theorem sanitiseFileName_of_nil {name : String} (suffix : String) (h : nameStem name = []) :
    sanitiseFileName name suffix = "" := by
  unfold nameStem at h
  unfold sanitiseFileName
  dsimp only
  rw [h]
  rfl

theorem sanitiseFileName_of_ne_nil {name : String} (suffix : String) (h : nameStem name ≠ []) :
    (sanitiseFileName name suffix).toList = withSuffix (nameStem name) suffix.toList := by
  unfold nameStem at h ⊢
  unfold sanitiseFileName
  dsimp only
  rw [if_neg (mt List.isEmpty_iff.mp h), String.toList_ofList]

/-- A name is empty, or what the steps leave with the suffix. -/
theorem sanitiseFileName_cases (name suffix : String) :
    sanitiseFileName name suffix = "" ∨ nameStem name ≠ [] ∧
      (sanitiseFileName name suffix).toList = withSuffix (nameStem name) suffix.toList := by
  by_cases h : nameStem name = []
  · exact Or.inl (sanitiseFileName_of_nil suffix h)
  · exact Or.inr ⟨h, sanitiseFileName_of_ne_nil suffix h⟩

theorem mem_nameStem {name : String} {c : Char} (h : c ∈ nameStem name) :
    keepsChar c = true ∧ c ≠ '/' := by
  obtain ⟨hbase, hkept⟩ := keepsChar_of_mem_keptChars (mem_of_mem_trimName h)
  refine ⟨hkept, ?_⟩
  rintro rfl
  exact slash_notMem_lastComponent _ hbase

/-- Every character of a usable name is one that is kept, and no slash. -/
theorem mem_withSuffix {name : String} {suffix : List Char} (hsuffix : PlainSuffix suffix)
    {c : Char} (h : c ∈ withSuffix (nameStem name) suffix) : keepsChar c = true ∧ c ≠ '/' := by
  have hmem : c ∈ nameStem name ∨ c ∈ suffix := by
    unfold withSuffix at h
    split_ifs at h
    · exact Or.inl h
    · exact Or.inl h
    · exact List.mem_append.mp h
  rcases hmem with hmem | hmem
  · exact mem_nameStem hmem
  · refine ⟨hsuffix.kept c hmem, ?_⟩
    rintro rfl
    exact hsuffix.noSlash hmem

/-! ## The rules -/

/-- What a usable name looks like: one path component of characters nobody argues about, neither
hidden nor padded, with something before the suffix. -/
structure Usable (suffix name : String) : Prop where
  noSlash : '/' ∉ name.toList
  chars : ∀ c ∈ name.toList,
    0x20 ≤ c.toNat ∧ c.toNat ≤ 0x7e ∧ c ∉ ['\\', ':', '*', '?', '"', '<', '>', '|']
  noDot : name.toList.head? ≠ some '.'
  noSpace : name.toList.head? ≠ some ' '
  ends : ∃ stem, stem ≠ [] ∧ name.toList = stem ++ suffix.toList

theorem keepsChar_iff {c : Char} : keepsChar c = true ↔
    0x20 ≤ c.toNat ∧ c.toNat ≤ 0x7e ∧ c ∉ ['\\', ':', '*', '?', '"', '<', '>', '|'] := by
  unfold keepsChar
  rw [Bool.and_eq_true, Bool.and_eq_true, decide_eq_true_iff, decide_eq_true_iff, and_assoc,
    Bool.not_eq_true', Bool.eq_false_iff, ne_eq, List.contains_iff_mem]
  rfl

/-- What is promised of the name a typed one is reduced to. -/
def KeepsRules (name suffix : String) : Prop :=
  sanitiseFileName name suffix = "" ∨
    Usable suffix (sanitiseFileName name suffix) ∧
      sanitiseFileName (sanitiseFileName name suffix) suffix = sanitiseFileName name suffix

/-- Behind leading spaces, and dots before these, the kept characters go on with a dot, and not
only spaces and dots follow. -/
def HidesDot (name : String) : Prop :=
  ∃ dots spaces rest,
    (lastComponent name.toList).filter keepsChar =
      List.replicate dots '.' ++ (List.replicate (spaces + 1) ' ' ++ '.' :: rest) ∧
    ∃ c ∈ rest, c ≠ ' ' ∧ c ≠ '.'

/-- What is dropped from the front is one character over and over. -/
theorem replicate_append_dropWhile (a : Char) (l : List Char) :
    ∃ n, List.replicate n a ++ l.dropWhile (· == a) = l := by
  have hall : ∀ c ∈ l.takeWhile (· == a), c = a := fun c hc =>
    beq_iff_eq.mp (List.mem_takeWhile_imp (p := (· == a)) hc)
  refine ⟨(l.takeWhile (· == a)).length, ?_⟩
  rw [← List.eq_replicate_of_mem hall, List.takeWhile_append_dropWhile]

theorem dropWhile_replicate_append (a : Char) (n : ℕ) (l : List Char) :
    (List.replicate n a ++ l).dropWhile (· == a) = l.dropWhile (· == a) := by
  refine List.dropWhile_append_of_pos fun c hc => ?_
  rw [List.eq_of_mem_replicate hc]
  exact beq_self_eq_true a

/-- Behind the spaces that are dropped comes a dot. -/
theorem head_trimName_eq_dot_iff (out : List Char) :
    (trimName out).head? = some '.' ↔ ∃ spaces rest,
      out = List.replicate spaces ' ' ++ '.' :: rest ∧ ∃ c ∈ rest, isTrailing c = false := by
  constructor
  · intro h
    obtain ⟨rest, hrest⟩ := List.head?_eq_some_iff.mp h
    rw [trimName_eq] at hrest
    obtain ⟨spaces, hsplit⟩ := replicate_append_dropWhile ' ' (out.rdropWhile isTrailing)
    obtain ⟨tail, htail⟩ := List.rdropWhile_prefix isTrailing out
    rw [hrest] at hsplit
    refine ⟨spaces, rest ++ tail, ?_, ?_⟩
    · rw [← List.cons_append, ← List.append_assoc, hsplit, htail]
    · -- the dot is not the last one, or it would have been trimmed
      have hlast : ∀ c, ('.' :: rest).getLast? = some c → isTrailing c = false := by
        intro c hc
        have htrimmed : (trimName out).getLast? = some c := by
          rwa [trimName_eq, hrest]
        exact last_trimName htrimmed
      rcases List.eq_nil_or_concat rest with hnil | ⟨front, c, hc⟩
      · rw [hnil] at hlast
        exact absurd (hlast '.' rfl) (by decide)
      · have hmem : c ∈ rest := by simp [hc]
        refine ⟨c, List.mem_append_left tail hmem, hlast c ?_⟩
        rw [hc, List.concat_eq_append, ← List.cons_append]
        exact List.getLast?_concat
  · rintro ⟨spaces, rest, rfl, c, hmem, hc⟩
    have hne : rest.rdropWhile isTrailing ≠ [] := by
      intro hnil
      rw [List.rdropWhile_eq_nil_iff.mp hnil c hmem] at hc
      exact Bool.noConfusion hc
    -- what is trimmed ends before the dot
    have hend : (List.replicate spaces ' ' ++ '.' :: rest).rdropWhile isTrailing =
        List.replicate spaces ' ' ++ '.' :: rest.rdropWhile isTrailing := by
      have hrev : rest.reverse.dropWhile isTrailing ≠ [] := fun hnil => hne (by
        rw [List.rdropWhile, hnil, List.reverse_nil])
      rw [List.rdropWhile, List.reverse_append, List.reverse_cons, List.append_assoc,
        List.dropWhile_append, if_neg (mt List.isEmpty_iff.mp hrev)]
      simp [List.rdropWhile]
    rw [trimName_eq, hend, dropWhile_replicate_append]
    rfl

/-- The name comes out with a dot in front. -/
theorem head_nameStem_eq_dot_iff (name : String) :
    (nameStem name).head? = some '.' ↔ HidesDot name := by
  unfold nameStem HidesDot
  rw [head_trimName_eq_dot_iff]
  unfold keptChars
  generalize (lastComponent name.toList).filter keepsChar = kept
  constructor
  · rintro ⟨spaces, rest, hkept, c, hmem, hc⟩
    obtain ⟨dots, hsplit⟩ := replicate_append_dropWhile '.' kept
    -- the dots are gone, so a space comes first
    have hspaces : spaces ≠ 0 := by
      rintro rfl
      have hnot := List.head?_dropWhile_not (· == '.') kept
      rw [hkept] at hnot
      exact Bool.noConfusion hnot
    rw [hkept] at hsplit
    refine ⟨dots, spaces - 1, rest, ?_, c, hmem, ?_⟩
    · rw [Nat.sub_add_cancel (Nat.pos_of_ne_zero hspaces), hsplit]
    · rwa [← isTrailing_eq_false]
  · rintro ⟨dots, spaces, rest, rfl, c, hmem, hc⟩
    refine ⟨spaces + 1, rest, ?_, c, hmem, isTrailing_eq_false.mpr hc⟩
    rw [dropWhile_replicate_append]
    rfl

/-- Where no dot comes to the front, the rules hold. -/
theorem keepsRules_of_head {name suffix : String} (hsuffix : suffix ∈ callerSuffixes)
    (hhead : (nameStem name).head? ≠ some '.') : KeepsRules name suffix := by
  have hplain := plainSuffix_of_caller hsuffix
  rcases sanitiseFileName_cases name suffix with hempty | ⟨hne, hname⟩
  · exact Or.inl hempty
  · obtain ⟨stem, hstem, happend⟩ := withSuffix_eq_append suffix.toList hne
    have hspace : (withSuffix (nameStem name) suffix.toList).head? ≠ some ' ' := by
      rw [head_withSuffix _ hne]
      exact head_trimName_ne_space _
    have hdot : (withSuffix (nameStem name) suffix.toList).head? ≠ some '.' := by
      rw [head_withSuffix _ hne]
      exact hhead
    have hchars (c : Char) (hmem : c ∈ withSuffix (nameStem name) suffix.toList) :=
      mem_withSuffix hplain hmem
    refine Or.inr ⟨⟨?_, ?_, ?_, ?_, ?_⟩, ?_⟩
    · rw [hname]
      exact fun hmem => (hchars _ hmem).2 rfl
    · rw [hname]
      exact fun c hmem => keepsChar_iff.mp (hchars c hmem).1
    · rw [hname]
      exact hdot
    · rw [hname]
      exact hspace
    · exact ⟨stem, hstem, hname.trans happend⟩
    · -- a name that has been through the steps stays as it is
      have hself : nameStem (sanitiseFileName name suffix) =
          withSuffix (nameStem name) suffix.toList := by
        unfold nameStem
        rw [hname]
        rw [lastComponent_eq_self fun hmem => (hchars _ hmem).2 rfl,
          keptChars_eq_self (fun c hmem => (hchars c hmem).1) hdot,
          trimName_eq_self hspace fun c => last_withSuffix hplain (fun _ => last_trimName) hne]
        rfl
      have hne' : nameStem (sanitiseFileName name suffix) ≠ [] := by
        rw [hself, happend]
        exact fun hnil => hstem (List.append_eq_nil_iff.mp hnil).1
      refine String.toList_inj.mp ?_
      rw [sanitiseFileName_of_ne_nil suffix hne', hself, hname, happend, withSuffix_append _ hstem]

/-- The rules hold for a typed name exactly where no dot is hidden behind leading spaces. -/
theorem keepsRules_iff (name suffix : String) (h : suffix ∈ callerSuffixes) :
    KeepsRules name suffix ↔ ¬ HidesDot name := by
  rw [← head_nameStem_eq_dot_iff]
  constructor
  · intro hrules hdot
    have hne : nameStem name ≠ [] := by
      intro hnil
      rw [hnil] at hdot
      exact absurd hdot (by simp)
    have hname := sanitiseFileName_of_ne_nil suffix hne
    rcases hrules with hempty | ⟨husable, -⟩
    · obtain ⟨stem, hstem, happend⟩ := withSuffix_eq_append suffix.toList hne
      rw [hempty, happend] at hname
      exact hstem (List.append_eq_nil_iff.mp hname.symm).1
    · refine husable.noDot ?_
      rw [hname, head_withSuffix _ hne]
      exact hdot
  · exact keepsRules_of_head h

/-- A space and a dot come out as a dot: the file is hidden, and another pass would drop it. -/
theorem hidden_name_accepted :
    sanitiseFileName " .hidden" ".psbt" = ".hidden.psbt" ∧
      sanitiseFileName ".hidden.psbt" ".psbt" = "hidden.psbt" ∧
      ¬ KeepsRules " .hidden" ".psbt" := by
  have hname : sanitiseFileName " .hidden" ".psbt" = ".hidden.psbt" := by decide
  refine ⟨hname, by decide, fun hrules => ?_⟩
  rcases hrules with hempty | ⟨husable, -⟩
  · rw [hname] at hempty
    exact absurd hempty (by decide)
  · exact husable.noDot (by rw [hname]; decide)

/-- Dots that come first are no harm, and neither are spaces. -/
theorem keepsRules_iff_padded : KeepsRules "..  cold storage. " ".psbt" := by
  refine (keepsRules_iff "..  cold storage. " ".psbt" (by decide)).mpr ?_
  rw [← head_nameStem_eq_dot_iff]
  decide

/-! ## The first free name -/

/-- The names `freeFileName` tries, in the order it tries them: the second is numbered 2. -/
def candidateName (stem suffix : String) : ℕ → String
  | 0 => stem ++ suffix
  | n + 1 => stem ++ "-" ++ toString (n + 2) ++ suffix

/-- The name is free, and the candidates before it are there. -/
def FirstFree (files : Disk Char) (dir stem suffix name : String) : Prop :=
  ∃ n, name = candidateName stem suffix n ∧ files (pathIn dir name) = none ∧
    ∀ m < n, files (pathIn dir (candidateName stem suffix m)) ≠ none

/-- The loop ends at the first candidate that is not taken, or at the last one, which it does not
look at. -/
theorem freeNameLoop_eq (taken : String → Bool) (stem suffix : String) (left k : ℕ) :
    ∃ j, k ≤ j ∧ j ≤ k + left ∧
      freeNameLoop taken stem suffix left (k + 2) (candidateName stem suffix k) =
        candidateName stem suffix j ∧
      (∀ i, k ≤ i → i < j → taken (candidateName stem suffix i) = true) ∧
      (j < k + left → taken (candidateName stem suffix j) = false) := by
  induction left generalizing k with
  | zero => exact ⟨k, le_rfl, le_rfl, rfl, fun i hle hlt => by omega, fun h => by omega⟩
  | succ left ih =>
    by_cases htaken : taken (candidateName stem suffix k) = true
    · obtain ⟨j, hle, hj, heq, hbefore, hfree⟩ := ih (k + 1)
      refine ⟨j, by omega, by omega, ?_, fun i hi hlt => ?_, fun h => hfree (by omega)⟩
      · rw [freeNameLoop, if_pos htaken]
        exact heq
      · rcases Nat.eq_or_lt_of_le hi with rfl | hi
        · exact htaken
        · exact hbefore i hi hlt
    · refine ⟨k, le_rfl, by omega, ?_, fun i hle hlt => by omega, fun _ => ?_⟩
      · rw [freeNameLoop, if_neg htaken]
      · exact Bool.eq_false_iff.mpr htaken

/-- What is proposed: one of 999 candidates, those before it seen. -/
theorem freeFileName_eq (files : Disk Char) (dir stem suffix : String) :
    ∃ j ≤ 998, freeFileName files dir stem suffix = candidateName stem suffix j ∧
      (∀ i < j, files.accessible (pathIn dir (candidateName stem suffix i)) = true) ∧
      (j < 998 → files.accessible (pathIn dir (candidateName stem suffix j)) = false) := by
  obtain ⟨j, -, hj, heq, hbefore, hfree⟩ :=
    freeNameLoop_eq (fun candidate => files.accessible (pathIn dir candidate)) stem suffix 998 0
  exact ⟨j, by omega, heq, fun i => hbefore i (Nat.zero_le i), fun h => hfree (by omega)⟩

/-- The name proposed is the first free one exactly where one of the 999 candidates is free and
those before it are seen: `access` does not see a link that leads nowhere. -/
theorem proposesFirstFree_iff (files : Disk Char) (dir stem suffix : String) :
    FirstFree files dir stem suffix (freeFileName files dir stem suffix) ↔
      ∃ n ≤ 998, files (pathIn dir (candidateName stem suffix n)) = none ∧
        ∀ m < n, files.accessible (pathIn dir (candidateName stem suffix m)) = true := by
  obtain ⟨j, hj, heq, hbefore, hfree⟩ := freeFileName_eq files dir stem suffix
  rw [heq]
  constructor
  · rintro ⟨n, -, hnone, -⟩
    exact ⟨j, hj, hnone, hbefore⟩
  · rintro ⟨n, hn, hnone, hseen⟩
    have hunseen := Files.accessible_of_none hnone
    -- the loop goes on to the free one, and no further
    have hnj : n = j := by
      rcases Nat.lt_trichotomy n j with hlt | heq | hlt
      · rw [hbefore n hlt] at hunseen
        exact Bool.noConfusion hunseen
      · exact heq
      · have hnot := hfree (by omega)
        rw [hseen j hlt] at hnot
        exact Bool.noConfusion hnot
    subst hnj
    refine ⟨n, rfl, hnone, fun m hm hgone => ?_⟩
    have hnot := Files.accessible_of_none hgone
    rw [hseen m hm] at hnot
    exact Bool.noConfusion hnot

/-- A stick with a file of every name that is tried. -/
def crowdedStick : Disk Char := fun path =>
  if path ∈ (List.range 999).map fun n => pathIn "/data" (candidateName "signed" ".psbt" n) then
    some (.file [])
  else none

/-- A name is proposed that is there already. -/
theorem taken_name_proposed :
    crowdedStick (pathIn "/data" (freeFileName crowdedStick "/data" "signed" ".psbt")) ≠ none ∧
      ¬ FirstFree crowdedStick "/data" "signed" ".psbt"
        (freeFileName crowdedStick "/data" "signed" ".psbt") := by
  obtain ⟨j, hj, heq, -, -⟩ := freeFileName_eq crowdedStick "/data" "signed" ".psbt"
  have hthere : crowdedStick (pathIn "/data" (candidateName "signed" ".psbt" j)) ≠ none := by
    have hmem : j ∈ List.range 999 := List.mem_range.mpr (by omega)
    rw [crowdedStick, if_pos (List.mem_map.mpr ⟨j, hmem, rfl⟩)]
    exact Option.some_ne_none _
  rw [heq]
  refine ⟨hthere, ?_⟩
  rintro ⟨-, -, hnone, -⟩
  exact hthere hnone

end SignerOS
