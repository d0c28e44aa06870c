import Mathlib.Data.List.Range
import Mathlib.Data.Nat.Digits.Defs
import SignerOS.Common

/-!
# The memory scrub

`signeros-ramwipe`: the program the secure shutdown runs when the kiosk has ended. It takes free
memory in chunks of 64 MiB, writes every chunk twice, and stops while a reserve is left. What the
machine says of its memory before each chunk, and whether it gives one, are parameters of the turns
of the loop; `unsigned long` has 64 bits.
-/

namespace SignerOS.RamWipe

def chunkMib : UInt64 := 64
def defaultReserveMib : UInt64 := 96
def maxChunks : ℕ := 4096

/-! ## Numbers and fields -/

/-- `isspace`. -/
def isSpace (c : Char) : Bool := c == ' ' || (9 ≤ c.toNat && c.toNat ≤ 13)

/-- `strtoul`, to the base 10: what is too large becomes `ULONG_MAX`, a minus sign negates. -/
def strtoul (text : List Char) : UInt64 :=
  let rest := text.dropWhile isSpace
  let digits := if rest.head? = some '-' ∨ rest.head? = some '+' then rest.tail else rest
  let n := (digits.takeWhile Char.isDigit).foldl (fun n c => 10 * n + (c.toNat - 48)) 0
  if 2 ^ 64 ≤ n then UInt64.ofNat (2 ^ 64 - 1)
  else if rest.head? = some '-' then -UInt64.ofNat n
  else UInt64.ofNat n

example : strtoul "     204800 kB".toList = 204800 := by decide +kernel

/-- `meminfo_kib`, of the lines of `/proc/meminfo` if it can be opened. -/
def meminfoKib (key : String) : Option (List String) → UInt64
  | none => 0
  | some lines =>
    match lines.find? fun line => (key.toList ++ [':']).isPrefixOf line.toList with
    | some line => strtoul (line.toList.drop (key.length + 1))
    | none => 0

/-! ## The command line -/

inductive Parsed
  | run (reserveMib : UInt64) (verbose : Bool)
  | help
  | unknown (arg : String)
deriving DecidableEq, Repr

/-- One argument that takes no value: the arguments behind it are read unless it ends the loop. -/
def flag (arg : String) (next : Parsed) : Parsed :=
  if arg = "--verbose" ∨ arg = "-v" then next
  else if arg = "--help" then .help
  else .unknown arg

/-- The loop over `argv`. -/
def parseArgs (reserveMib : UInt64) (verbose : Bool) : List String → Parsed
  | [] => .run reserveMib verbose
  | [arg] => flag arg (.run reserveMib true)
  | arg :: value :: rest =>
    if arg = "--reserve-mib" then parseArgs (strtoul value.toList) verbose rest
    else flag arg (parseArgs reserveMib true (value :: rest))

/-! ## The loop -/

/-- What the machine answers in one turn. -/
structure Turn where
  /-- `/proc/meminfo`, as it is read for `MemAvailable`. -/
  meminfo : Option (List String)
  /-- `/proc/meminfo`, as it is read for `MemFree`, when the first gives nothing. -/
  meminfoAgain : Option (List String)
  /-- `mmap` gives a chunk. -/
  maps : Bool

/-- The chunks, by what was written last to each MiB of each, and the counters. -/
structure Wiper where
  memory : ℕ → ℕ → Option UInt8
  nchunks : ℕ
  wipedMib : UInt64
  lines : List String

def Wiper.start : Wiper := ⟨fun _ _ => none, 0, 0, []⟩

def availMib (t : Turn) : UInt64 :=
  let avail := meminfoKib "MemAvailable" t.meminfo / 1024
  if avail = 0 then meminfoKib "MemFree" t.meminfoAgain / 1024 else avail

/-- `memset` of one MiB of a chunk. -/
def memset (memory : ℕ → ℕ → Option UInt8) (chunk off : ℕ) (byte : UInt8) :
    ℕ → ℕ → Option UInt8 :=
  fun c m => if c = chunk ∧ m = off then some byte else memory c m

/-- One pass over a chunk. -/
def pass (byte : UInt8) (chunk : ℕ) (memory : ℕ → ℕ → Option UInt8) : ℕ → ℕ → Option UInt8 :=
  (List.range 64).foldl (fun memory off => memset memory chunk off byte) memory

/-- The condition the loop goes on under. -/
def goesOn (reserveMib : UInt64) (t : Turn) : Bool :=
  !(availMib t ≤ reserveMib + chunkMib) && t.maps

/-- One turn of the loop, once there is a chunk. -/
def scrub (verbose : Bool) (t : Turn) (s : Wiper) : Wiper :=
  let wipedMib := s.wipedMib + chunkMib
  { memory := pass 0x00 s.nchunks (pass 0xff s.nchunks s.memory)
    nchunks := s.nchunks + 1
    wipedMib := wipedMib
    lines := if verbose then
        s.lines ++ ["signeros-ramwipe: " ++ toString wipedMib.toNat ++ " MiB scrubbed, "
          ++ toString (availMib t).toNat ++ " MiB available"]
      else s.lines }

/-- The loop, with so many chunks left in the array. -/
def loop (reserveMib : UInt64) (verbose : Bool) (turns : ℕ → Turn) : ℕ → Wiper → Wiper
  | 0, s => s
  | left + 1, s =>
    if goesOn reserveMib (turns s.nchunks) then
      loop reserveMib verbose turns left (scrub verbose (turns s.nchunks) s)
    else s

/-! ## The program -/

/-- What the program leaves: its status, what it printed, and the chunks it has given back. -/
structure Ended where
  status : UInt8
  err : List String
  out : List String
  wiper : Wiper

/-- The reserve is never less than 32 MiB. -/
def atLeast (reserveMib : UInt64) : UInt64 := if reserveMib < 32 then 32 else reserveMib

/-- `main`, on the arguments behind the program's name. -/
def main (args : List String) (turns : ℕ → Turn) : Ended :=
  match parseArgs defaultReserveMib false args with
  | .help =>
    { status := 0, out := [], wiper := .start
      err := ["usage: signeros-ramwipe [--reserve-mib N] [--verbose]",
        "  Overwrites free memory with 0xff then 0x00, keeping N MiB free."] }
  | .unknown arg =>
    { status := 2, out := [], wiper := .start
      err := ["signeros-ramwipe: unknown argument '" ++ arg ++ "'"] }
  | .run reserveMib verbose =>
    let reserveMib := atLeast reserveMib
    let s := loop reserveMib verbose turns maxChunks .start
    { status := 0, err := s.lines, wiper := s
      out := ["signeros-ramwipe: scrubbed " ++ toString s.wipedMib.toNat
        ++ " MiB of free memory (reserve " ++ toString reserveMib.toNat ++ " MiB)"] }

/-! ## What is written -/

theorem pass_apply (byte : UInt8) (chunk : ℕ) (memory : ℕ → ℕ → Option UInt8) (c m : ℕ) :
    pass byte chunk memory c m = if c = chunk ∧ m < 64 then some byte else memory c m := by
  have hfold (n : ℕ) : (List.range n).foldl (fun memory off => memset memory chunk off byte) memory
      c m = if c = chunk ∧ m < n then some byte else memory c m := by
    induction n with
    | zero => simp
    | succ n ih =>
      rw [List.range_succ, List.foldl_append, List.foldl_cons, List.foldl_nil, memset, ih]
      by_cases hc : c = chunk
      · by_cases hm : m = n
        · simp [hc, hm]
        · have hlt : m < n + 1 ↔ m < n := by omega
          simp [hc, hm, hlt]
      · simp [hc]
  exact hfold 64

/-- Zeros in every MiB of the chunks there are, and nothing elsewhere. -/
structure Wiped (s : Wiper) : Prop where
  zeros : ∀ c < s.nchunks, ∀ m < 64, s.memory c m = some 0x00
  untouched : ∀ c, s.nchunks ≤ c → ∀ m, s.memory c m = none
  counted : s.wipedMib.toNat = 64 * s.nchunks % 2 ^ 64

theorem wiped_start : Wiped .start := by
  refine ⟨fun c hc => ?_, fun _ _ _ => rfl, rfl⟩
  exact absurd hc (Nat.not_lt_zero c)

theorem wiped_scrub (verbose : Bool) (t : Turn) {s : Wiper} (h : Wiped s) :
    Wiped (scrub verbose t s) := by
  refine ⟨fun c hc m hm => ?_, fun c hc m => ?_, ?_⟩
  · change pass 0x00 s.nchunks (pass 0xff s.nchunks s.memory) c m = _
    rw [pass_apply, pass_apply]
    obtain hc | rfl := Nat.lt_succ_iff_lt_or_eq.mp hc
    · rw [if_neg (by omega), if_neg (by omega)]
      exact h.zeros c hc m hm
    · rw [if_pos ⟨rfl, hm⟩]
  · change s.nchunks + 1 ≤ c at hc
    change pass 0x00 s.nchunks (pass 0xff s.nchunks s.memory) c m = _
    rw [pass_apply, pass_apply, if_neg (by omega), if_neg (by omega)]
    exact h.untouched c (by omega) m
  · change (s.wipedMib + chunkMib).toNat = 64 * (s.nchunks + 1) % 2 ^ 64
    have hchunk : chunkMib.toNat = 64 := rfl
    rw [UInt64.toNat_add, h.counted, hchunk]
    omega

/-- How the loop ends: it has gone on in every turn before, and not in this one unless the array
is full. -/
theorem loop_spec (reserveMib : UInt64) (verbose : Bool) (turns : ℕ → Turn) (left : ℕ) (s : Wiper)
    (h : Wiped s) (hbefore : ∀ k < s.nchunks, goesOn reserveMib (turns k) = true) :
    Wiped (loop reserveMib verbose turns left s) ∧
      (∀ k < (loop reserveMib verbose turns left s).nchunks, goesOn reserveMib (turns k) = true) ∧
      (loop reserveMib verbose turns left s).nchunks ≤ s.nchunks + left ∧
      ((loop reserveMib verbose turns left s).nchunks < s.nchunks + left →
        goesOn reserveMib (turns (loop reserveMib verbose turns left s).nchunks) = false) := by
  induction left generalizing s with
  | zero => exact ⟨h, hbefore, le_rfl, fun hlt => absurd hlt (lt_irrefl _)⟩
  | succ left ih =>
    rw [loop]
    split
    · rename_i hgo
      have hnext : ∀ k < (scrub verbose (turns s.nchunks) s).nchunks,
          goesOn reserveMib (turns k) = true := by
        intro k hk
        obtain hk | rfl := Nat.lt_succ_iff_lt_or_eq.mp hk
        · exact hbefore k hk
        · exact hgo
      obtain ⟨hwiped, hall, hle, hend⟩ := ih _ (wiped_scrub verbose _ h) hnext
      have hcount :
          (scrub verbose (turns s.nchunks) s).nchunks + left = s.nchunks + (left + 1) := by
        change s.nchunks + 1 + left = _
        omega
      rw [hcount] at hle hend
      exact ⟨hwiped, hall, hle, hend⟩
    · rename_i hgo
      exact ⟨h, hbefore, by omega, fun _ => Bool.eq_false_iff.mpr hgo⟩

theorem goesOn_iff {reserveMib : UInt64} {t : Turn} : goesOn reserveMib t = true ↔
    (reserveMib.toNat + 64) % 2 ^ 64 < (availMib t).toNat ∧ t.maps = true := by
  have hchunk : chunkMib.toNat = 64 := rfl
  rw [goesOn, Bool.and_eq_true, Bool.not_eq_true', decide_eq_false_iff_not,
    UInt64.le_iff_toNat_le, UInt64.toNat_add, hchunk, not_le]

theorem toNat_atLeast (reserveMib : UInt64) :
    (atLeast reserveMib).toNat = max 32 reserveMib.toNat := by
  have hlt : reserveMib < 32 ↔ reserveMib.toNat < 32 := UInt64.lt_iff_toNat_lt
  unfold atLeast
  split
  · rename_i h
    have := hlt.mp h
    change 32 = _
    omega
  · rename_i h
    have := mt hlt.mpr h
    omega

/-! ## What the command line comes to -/

/-- An option, with its value if it has one. -/
inductive Item
  | reserve (value : String)
  | verbose (arg : String) (h : arg = "--verbose" ∨ arg = "-v")

def Item.args : Item → List String
  | .reserve value => ["--reserve-mib", value]
  | .verbose arg _ => [arg]

/-- The reserve and whether to print, behind an option. -/
def Item.set (settings : UInt64 × Bool) : Item → UInt64 × Bool
  | .reserve value => (strtoul value.toList, settings.2)
  | .verbose _ _ => (settings.1, true)

/-- What the arguments come to, with these settings ahead of them: the options in order, unless
there is something else among them. -/
inductive Reads (settings : UInt64 × Bool) (args : List String) : Parsed → Prop
  | run (items : List Item) (h : args = items.flatMap Item.args) :
    Reads settings args
      (.run (items.foldl Item.set settings).1 (items.foldl Item.set settings).2)
  | help (items : List Item) (rest : List String)
    (h : args = items.flatMap Item.args ++ "--help" :: rest) : Reads settings args .help
  | unknown (items : List Item) (arg : String) (rest : List String)
    (h : args = items.flatMap Item.args ++ arg :: rest)
    (hunknown : arg ∉ ["--reserve-mib", "--verbose", "-v", "--help"] ∨
      arg = "--reserve-mib" ∧ rest = []) : Reads settings args (.unknown arg)

section
variable {settings : UInt64 × Bool} {args rest : List String} {arg : String} {p next : Parsed}

theorem Reads.cons (item : Item) (h : Reads (Item.set settings item) args p) :
    Reads settings (item.args ++ args) p := by
  cases h with
  | run items h => exact .run (item :: items) (by rw [h, List.flatMap_cons])
  | help items rest h =>
    exact .help (item :: items) rest (by rw [h, List.flatMap_cons, List.append_assoc])
  | unknown items arg rest h hunknown =>
    exact .unknown (item :: items) arg rest (by rw [h, List.flatMap_cons, List.append_assoc])
      hunknown

theorem reads_flag (harg : arg = "--reserve-mib" → rest = [])
    (h : Reads (settings.1, true) rest next) : Reads settings (arg :: rest) (flag arg next) := by
  unfold flag
  split
  · rename_i hverbose
    exact .cons (.verbose arg hverbose) h
  · rename_i hverbose
    split
    · rename_i hhelp
      exact .help [] rest (by rw [hhelp]; rfl)
    · rename_i hhelp
      refine .unknown [] arg rest rfl ?_
      by_cases hreserve : arg = "--reserve-mib"
      · exact Or.inr ⟨hreserve, harg hreserve⟩
      · simp only [List.mem_cons, List.not_mem_nil, or_false, not_or]
        tauto

theorem reads_parseArgs (reserveMib : UInt64) (verbose : Bool) (args : List String) :
    Reads (reserveMib, verbose) args (parseArgs reserveMib verbose args) := by
  fun_induction parseArgs reserveMib verbose args with
  | case1 reserveMib verbose => exact .run [] rfl
  | case2 reserveMib verbose arg => exact reads_flag (fun _ => rfl) (.run [] rfl)
  | case3 reserveMib verbose value rest ih => exact .cons (.reserve value) ih
  | case4 reserveMib verbose arg value rest hreserve ih =>
    exact reads_flag (fun h => absurd h hreserve) ih

/-- An argument that is not read with a value. -/
theorem parseArgs_flag (harg : arg = "--reserve-mib" → rest = []) :
    parseArgs settings.1 settings.2 (arg :: rest) = flag arg (parseArgs settings.1 true rest) := by
  cases rest with
  | nil => rfl
  | cons value rest =>
    rw [parseArgs, if_neg fun h => List.cons_ne_nil value rest (harg h)]

/-- Options are read one after another, each in its place. -/
theorem parseArgs_items (settings : UInt64 × Bool) (items : List Item) (rest : List String) :
    parseArgs settings.1 settings.2 (items.flatMap Item.args ++ rest) =
      parseArgs (items.foldl Item.set settings).1 (items.foldl Item.set settings).2 rest := by
  induction items generalizing settings with
  | nil => rfl
  | cons item items ih =>
    rw [List.flatMap_cons, List.append_assoc, List.foldl_cons, ← ih]
    cases item with
    | reserve value =>
      show parseArgs settings.1 settings.2 ("--reserve-mib" :: value :: _) = _
      rw [parseArgs, if_pos rfl]
      rfl
    | verbose arg h =>
      have hplain : arg ≠ "--reserve-mib" := by
        obtain rfl | rfl := h <;> decide
      exact (parseArgs_flag fun hreserve => absurd hreserve hplain).trans (if_pos h)

/-- The loop finds what the arguments come to, and there is only one reading of them. -/
theorem parseArgs_of_reads (h : Reads settings args p) :
    parseArgs settings.1 settings.2 args = p := by
  cases h with
  | run items h =>
    have hread := parseArgs_items settings items []
    rwa [List.append_nil, ← h] at hread
  | help items rest h =>
    rw [h, parseArgs_items, parseArgs_flag fun hreserve => absurd hreserve (by decide)]
    rfl
  | unknown items arg rest h hunknown =>
    have hplain : ¬ (arg = "--verbose" ∨ arg = "-v") ∧ arg ≠ "--help" ∧
        (arg = "--reserve-mib" → rest = []) := by
      obtain hunknown | ⟨rfl, hrest⟩ := hunknown
      · simp only [List.mem_cons, List.not_mem_nil, or_false, not_or] at hunknown
        tauto
      · exact ⟨by decide, by decide, fun _ => hrest⟩
    rw [h, parseArgs_items, parseArgs_flag hplain.2.2, flag, if_neg hplain.1, if_neg hplain.2.1]

end

/-- More than the reserve and one chunk is available, by the sum of the code, and a chunk is
given. The reserve is never less than 32 MiB. -/
def Enough (reserveMib : UInt64) (t : Turn) : Prop :=
  (max 32 reserveMib.toNat + 64) % 2 ^ 64 < (availMib t).toNat ∧ t.maps = true

theorem goesOn_atLeast {reserveMib : UInt64} {t : Turn} :
    goesOn (atLeast reserveMib) t = true ↔ Enough reserveMib t := by
  rw [goesOn_iff, toNat_atLeast, Enough]

/-- The program, for every command line and every machine: each chunk it gives back is full of
zeros, and it has taken one wherever there was more than it reserves and one chunk, up to its
limit. An argument it does not know keeps it from taking any. -/
theorem main_ends (args : List String) (turns : ℕ → Turn) :
    Wiped (main args turns).wiper ∧ (main args turns).wiper.nchunks ≤ maxChunks ∧
      (∃ p, Reads (defaultReserveMib, false) args p) ∧
      ∀ p, Reads (defaultReserveMib, false) args p →
        match p with
        | .run reserveMib _ => (main args turns).status = 0 ∧
          (∀ k < (main args turns).wiper.nchunks, Enough reserveMib (turns k)) ∧
          ((main args turns).wiper.nchunks < maxChunks →
            ¬ Enough reserveMib (turns (main args turns).wiper.nchunks))
        | .help => (main args turns).status = 0 ∧ (main args turns).wiper.nchunks = 0
        | .unknown _ => (main args turns).status = 2 ∧ (main args turns).wiper.nchunks = 0 := by
  have hreads := reads_parseArgs defaultReserveMib false args
  have hparse : ∀ p, Reads (defaultReserveMib, false) args p →
      parseArgs defaultReserveMib false args = p := fun p => parseArgs_of_reads
  unfold main
  cases hargs : parseArgs defaultReserveMib false args with
  | help =>
    rw [hargs] at hreads hparse
    refine ⟨wiped_start, Nat.zero_le _, ⟨_, hreads⟩, fun p hp => ?_⟩
    rw [← hparse p hp]
    exact ⟨rfl, rfl⟩
  | unknown arg =>
    rw [hargs] at hreads hparse
    refine ⟨wiped_start, Nat.zero_le _, ⟨_, hreads⟩, fun p hp => ?_⟩
    rw [← hparse p hp]
    exact ⟨rfl, rfl⟩
  | run reserveMib verbose =>
    rw [hargs] at hreads hparse
    have hloop := loop_spec (atLeast reserveMib) verbose turns maxChunks .start wiped_start
      fun k hk => absurd hk (Nat.not_lt_zero k)
    have hzero : Wiper.start.nchunks + maxChunks = maxChunks := Nat.zero_add _
    rw [hzero] at hloop
    obtain ⟨hwiped, hall, hle, hend⟩ := hloop
    refine ⟨hwiped, hle, ⟨_, hreads⟩, fun p hp => ?_⟩
    rw [← hparse p hp]
    refine ⟨rfl, fun k hk => goesOn_atLeast.mp (hall k hk), fun hlt => ?_⟩
    rw [← goesOn_atLeast, hend hlt]
    exact Bool.false_ne_true

/-! ## A machine on its own -/

/-- A machine with so many MiB available, on which nothing but the program takes memory. -/
structure Alone (free : ℕ) (turns : ℕ → Turn) : Prop where
  avail : ∀ k, (availMib (turns k)).toNat = free - 64 * k
  maps : ∀ k, (turns k).maps = true

/-- On a machine of its own the program takes chunks while more than the reserve and one chunk is
available, and so keeps the reserve. The sum of the two wraps: of a reserve from `2 ^ 64 - 64` MiB
on no more than 63 MiB are kept. -/
theorem main_alone {free : ℕ} {turns : ℕ → Turn} (h : Alone free turns) {args : List String}
    {reserveMib : UInt64} {verbose : Bool}
    (hrun : parseArgs defaultReserveMib false args = .run reserveMib verbose) :
    (main args turns).wiper.nchunks =
        min maxChunks ((free - (max 32 reserveMib.toNat + 64) % 2 ^ 64 + 63) / 64) ∧
      (max 32 reserveMib.toNat + 64 < 2 ^ 64 →
        min free (max 32 reserveMib.toNat + 1) ≤ free - 64 * (main args turns).wiper.nchunks) ∧
      (2 ^ 64 ≤ max 32 reserveMib.toNat + 64 → (main args turns).wiper.nchunks < maxChunks →
        free - 64 * (main args turns).wiper.nchunks ≤ 63) := by
  have hloop := loop_spec (atLeast reserveMib) verbose turns maxChunks .start wiped_start
    fun k hk => absurd hk (Nat.not_lt_zero k)
  have hmain : (main args turns).wiper =
      loop (atLeast reserveMib) verbose turns maxChunks .start := by
    unfold main
    rw [hrun]
  have hzero : Wiper.start.nchunks + maxChunks = maxChunks := Nat.zero_add _
  have hgo (k : ℕ) : goesOn (atLeast reserveMib) (turns k) = true ↔
      (max 32 reserveMib.toNat + 64) % 2 ^ 64 < free - 64 * k := by
    rw [goesOn_iff, h.avail, toNat_atLeast, and_iff_left (h.maps k)]
  rw [← hmain, hzero] at hloop
  obtain ⟨-, hall, hle, hend⟩ := hloop
  generalize (main args turns).wiper.nchunks = n at hall hle hend ⊢
  rw [← Bool.not_eq_true, hgo] at hend
  have hlast : 0 < n → (max 32 reserveMib.toNat + 64) % 2 ^ 64 < free - 64 * (n - 1) :=
    fun hn => (hgo _).mp (hall (n - 1) (by omega))
  unfold maxChunks at hle hend ⊢
  refine ⟨by omega, fun hno => ?_, fun hwraps hlt => ?_⟩
  · rw [Nat.mod_eq_of_lt hno] at hlast
    omega
  · have hlarge := reserveMib.toNat_lt
    have := hend hlt
    omega

/-- A machine with 200 MiB available. -/
def smallMachine (k : ℕ) : Turn where
  meminfo := some ["MemTotal:         524288 kB", ["MemAvailable:     204800 kB",
    "MemAvailable:     139264 kB", "MemAvailable:      73728 kB",
    "MemAvailable:       8192 kB"].getD k "MemAvailable:          0 kB"]
  meminfoAgain := some ["MemFree:              0 kB"]
  maps := true

theorem availMib_smallMachine (k : ℕ) : (availMib (smallMachine k)).toNat = 200 - 64 * k := by
  have hfirst : ∀ k < 4, (availMib (smallMachine k)).toNat = 200 - 64 * k := by decide +kernel
  by_cases hk : k < 4
  · exact hfirst k hk
  · have hlast : smallMachine k = smallMachine 4 := by
      unfold smallMachine
      rw [List.getD_eq_getElem?_getD, List.getElem?_eq_none (by simpa using hk)]
      rfl
    have hzero : (availMib (smallMachine 4)).toNat = 0 := by decide +kernel
    rw [hlast, hzero]
    omega

theorem main_alone_small :
    (main ["--reserve-mib", "96"] smallMachine).wiper.nchunks = 1 ∧
      97 ≤ 200 - 64 * (main ["--reserve-mib", "96"] smallMachine).wiper.nchunks := by
  have halone : Alone 200 smallMachine := ⟨availMib_smallMachine, fun _ => rfl⟩
  have hrun : parseArgs defaultReserveMib false ["--reserve-mib", "96"] = .run 96 false := by
    decide +kernel
  obtain ⟨hcount, hkept, -⟩ := main_alone halone hrun
  exact ⟨hcount, hkept (by decide)⟩

end SignerOS.RamWipe
