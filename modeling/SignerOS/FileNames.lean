import SignerOS.Text
import SignerOS.Lib.Files

/-!
# Output file names

The rules both writers name their files by: the time stamp of a proposed name, the
reduction of what the operator typed to one path component, and the first free name.
-/

namespace SignerOS

/-! ## The time stamp -/

/-- The fields of `std::tm` that are printed, as the calendar counts them. -/
structure CalendarTime where
  year : ℕ
  month : ℕ
  day : ℕ
  hour : ℕ
  minute : ℕ
  second : ℕ
deriving DecidableEq, Repr

/-- The two clocks: `time` and `localtime_r` when both give a time after the epoch, and
`sysinfo().uptime` when it can be read. -/
structure Clock where
  localTime : Option CalendarTime
  uptime : Option ℕ
deriving DecidableEq, Repr

/-- `fileTimestamp`: the stamp, and whether the clock looks unset. -/
def fileTimestamp (clock : Clock) : String × Bool :=
  let noClock := ("noclock-" ++ zeroPadded 6 (clock.uptime.getD 0), true)
  match clock.localTime with
  | some tm =>
    if 2020 ≤ tm.year then
      (zeroPadded 4 tm.year ++ zeroPadded 2 tm.month ++ zeroPadded 2 tm.day ++ "-"
        ++ zeroPadded 2 tm.hour ++ zeroPadded 2 tm.minute ++ zeroPadded 2 tm.second, false)
    else noClock
  | none => noClock

/-! ## One path component -/

/-- The characters after the last slash. -/
def lastComponent (path : List Char) : List Char :=
  (path.reverse.takeWhile (· ≠ '/')).reverse

/-- Is the character kept in a name? Characters stand for bytes, and those from `0x80` on are
negative `char`s, below `0x20`. -/
def keepsChar (c : Char) : Bool :=
  0x20 ≤ c.toNat && c.toNat ≤ 0x7e && !("\\:*?\"<>|".toList.contains c)

/-- The loop over the characters: kept ones, less the leading dots. -/
def keptChars (base : List Char) : List Char :=
  (base.filter keepsChar).dropWhile (· == '.')

/-- Trailing spaces and dots are dropped, then leading spaces. -/
def trimName (out : List Char) : List Char :=
  ((out.reverse.dropWhile fun c => c == ' ' || c == '.').reverse).dropWhile (· == ' ')

/-- The suffix is appended unless the name already ends in it and is longer. -/
def withSuffix (out suffix : List Char) : List Char :=
  if suffix = [] then out
  else if suffix.length < out.length ∧ suffix <:+ out then out
  else out ++ suffix

/-- `sanitiseFileName`. -/
def sanitiseFileName (name suffix : String) : String :=
  let out := trimName (keptChars (lastComponent name.toList))
  if out.isEmpty then "" else String.ofList (withSuffix out suffix.toList)

/-! ## The first free name -/

/-- The path of a name in a directory. -/
def pathIn (dir name : String) : String := dir ++ "/" ++ name

/-- The loop of `freeFileName`, from the attempt whose number comes next. -/
def freeNameLoop (taken : String → Bool) (stem suffix : String) : ℕ → ℕ → String → String
  | 0, _, candidate => candidate
  | left + 1, attempt, candidate =>
    if taken candidate then
      freeNameLoop taken stem suffix left (attempt + 1)
        (stem ++ "-" ++ toString attempt ++ suffix)
    else candidate

/-- `freeFileName`: attempts number 2 to 999. -/
def freeFileName (files : Files.Disk Char) (dir stem suffix : String) : String :=
  freeNameLoop (fun candidate => files.accessible (pathIn dir candidate)) stem suffix
    998 2 (stem ++ suffix)

/-! ## What a name ends in -/

/-- Every proposed name ends in its suffix. -/
theorem freeNameLoop_suffix {taken : String → Bool} {stem suffix : String} (left attempt : ℕ)
    {candidate : String} (h : ∃ pre, candidate = pre ++ suffix) :
    ∃ pre, freeNameLoop taken stem suffix left attempt candidate = pre ++ suffix := by
  induction left generalizing attempt candidate with
  | zero => exact h
  | succ left ih =>
    unfold freeNameLoop
    split
    · exact ih _ ⟨_, rfl⟩
    · exact h

theorem freeFileName_suffix (files : Files.Disk Char) (dir stem suffix : String) :
    ∃ pre, freeFileName files dir stem suffix = pre ++ suffix :=
  freeNameLoop_suffix 998 2 ⟨stem, rfl⟩

/-- Every usable name ends in its suffix. -/
theorem sanitiseFileName_suffix {name suffix : String}
    (h : (sanitiseFileName name suffix).isEmpty = false) :
    ∃ pre, sanitiseFileName name suffix = pre ++ suffix := by
  unfold sanitiseFileName at h ⊢
  dsimp only at h ⊢
  split at h
  · exact absurd h (by decide)
  · rename_i hne
    rw [if_neg hne]
    unfold withSuffix
    split_ifs with h1 h2
    · refine ⟨String.ofList (trimName (keptChars (lastComponent name.toList))), ?_⟩
      rw [show suffix = "" from String.toList_inj.mp h1]
      simp
    · obtain ⟨pre, hpre⟩ := h2.2
      refine ⟨String.ofList pre, ?_⟩
      rw [← hpre]
      simp
    · exact ⟨String.ofList (trimName (keptChars (lastComponent name.toList))), by simp⟩

end SignerOS
