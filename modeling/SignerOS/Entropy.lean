import SignerOS.Common

/-!
# The entropy pool

`EntropyPool`: the chain a new wallet's seed comes from, `finalise`, which draws from the kernel
and the CPU and decides whether what it got may become a key, and the report of what
contributed. The build is the one for x86.

What the machine answers is a parameter: every chunk of the two read loops, every attempt of
the two instructions, every reading of the clocks. A read that is interrupted for ever never
returns, so the answers of a loop are a list, after whose end the call fails. libwally's
`wally_hmac_sha512` is the parameter `hmac`, which fails with `none`.
-/

namespace SignerOS

def kHashLen : ℕ := 64
def kKernelBytes : ℕ := 64
def kCpuWords : ℕ := 32
def kJitterSamples : ℕ := 512

/-- A SHA-512 value, and the chaining value of the pool. -/
abbrev Digest := Vector UInt8 64

/-! ## Integers in memory -/

/-- The low `n` bytes of `v`, least significant first. -/
def leBytes (n v : ℕ) : Bytes := (List.range n).map fun i => UInt8.ofNat (v / 256 ^ i)

def le32 (v : UInt32) : Bytes := leBytes 4 v.toNat
def le64 (v : UInt64) : Bytes := leBytes 8 v.toNat

@[simp] theorem length_le32 (v : UInt32) : (le32 v).length = 4 := by simp [le32, leBytes]

@[simp] theorem length_le64 (v : UInt64) : (le64 v).length = 8 := by simp [le64, leBytes]

/-! ## What the machine answers -/

/-- One answer of `getrandom` or of `read`. -/
inductive ReadAnswer
  | got (bytes : Bytes)
  | interrupted
  | failed
deriving DecidableEq, Repr

/-- What the machine answers during one call of `finalise`. -/
structure EntropySources where
  /-- `getrandom` with `GRND_NONBLOCK`. -/
  getrandom : List ReadAnswer
  /-- `/dev/urandom`, unless it cannot be opened. -/
  urandom : Option (List ReadAnswer)
  cpuHasRdseed : Bool
  /-- `rdseed64` at each attempt: the word, or the carry flag clear. -/
  rdseed64 : ℕ → Option UInt64
  cpuHasRdrand : Bool
  rdrand64 : ℕ → Option UInt64
  /-- Successive readings of the cycle counter. -/
  cycleCounter : ℕ → UInt64
  nowNanos : UInt64
  getpid : Int32
  /-- The address of `rep`. -/
  stackAddress : UInt64

/-- The read loop: until `want` bytes are there, nothing comes, or an error other than an
interruption. No answer is longer than what was asked for. -/
def kernelLoop (want : ℕ) (got : Bytes) : List ReadAnswer → Bytes
  | [] => got
  | answer :: rest =>
    if got.length < want then
      match answer with
      | .got [] => got
      | .got bytes => kernelLoop want (got ++ bytes.take (want - got.length)) rest
      | .interrupted => kernelLoop want got rest
      | .failed => got
    else got

/-- The bytes of the non-blocking `getrandom`. -/
def getrandomBytes (m : EntropySources) : Bytes := kernelLoop kKernelBytes [] m.getrandom

/-- The bytes in the `kernel` buffer: those of `getrandom`, then those of the device. -/
def kernelBytes (m : EntropySources) : Bytes :=
  let got := getrandomBytes m
  if got.length < kKernelBytes then
    match m.urandom with
    | some answers => kernelLoop kKernelBytes got answers
    | none => got
  else got

/-! ## The hardware generators -/

/-- At most `attempts` tries at one word from try number `i` on: the word if one came, and the
number of the next try. -/
def drawWord (read : ℕ → Option UInt64) : (attempts i : ℕ) → Option UInt64 × ℕ
  | 0, i => (none, i)
  | attempts + 1, i =>
    match read i with
    | some value => (some value, i + 1)
    | none => drawWord read attempts (i + 1)

/-- `drawCpuWords`: up to `want` words from one instruction, ten tries each. -/
def drawCpuWords (read : ℕ → Option UInt64) : (want i : ℕ) → List UInt64
  | 0, _ => []
  | want + 1, i =>
    match drawWord read 10 i with
    | (some value, next) => value :: drawCpuWords read want next
    | (none, next) => drawCpuWords read want next

/-- `cpuWordsLookSane`: at least two words, no constant, no repeat. -/
def cpuWordsLookSane (words : List UInt64) : Bool :=
  2 ≤ words.length ∧ ∀ i : Fin words.length,
    words[i] ≠ 0 ∧ words[i] ≠ ~~~0 ∧ ∀ j : Fin words.length, j < i → words[i] ≠ words[j]

/-- The RDSEED pass. -/
def seedWords (m : EntropySources) : List UInt64 :=
  if m.cpuHasRdseed then drawCpuWords m.rdseed64 kCpuWords 0 else []

/-- The RDRAND pass, for the words the first one left. -/
def randWords (m : EntropySources) : List UInt64 :=
  if m.cpuHasRdrand ∧ (seedWords m).length < kCpuWords then
    drawCpuWords m.rdrand64 (kCpuWords - (seedWords m).length) 0
  else []

/-! ## The report -/

/-- What contributed. -/
structure EntropyReport where
  kernelOk : Bool := false
  kernelWasReady : Bool := false
  rdseedWords : ℕ := 0
  rdrandWords : ℕ := 0
  cpuRejected : ℕ := 0
  cpuRdseed : Bool := false
  cpuRdrand : Bool := false
  jitterSamples : ℕ := 0
  userSamples : ℕ := 0
deriving DecidableEq, Repr

/-- `entropyPolicySatisfied`: an initialised kernel generator, or RDSEED. -/
def entropyPolicySatisfied (rep : EntropyReport) : Bool :=
  (rep.kernelOk && rep.kernelWasReady) || decide (0 < rep.rdseedWords)

/-- Every word of a sane run is counted, none of any other. -/
def credited (words : List UInt64) : ℕ := if cpuWordsLookSane words then words.length else 0

def rejected (words : List UInt64) : ℕ := if cpuWordsLookSane words then 0 else words.length

/-- The report `finalise` fills in. -/
def reportOf (m : EntropySources) (userSamples : ℕ) : EntropyReport :=
  { kernelOk := (kernelBytes m).length = kKernelBytes
    kernelWasReady := (getrandomBytes m).length = kKernelBytes
    rdseedWords := credited (seedWords m)
    rdrandWords := credited (randWords m)
    cpuRejected := rejected (seedWords m) + rejected (randWords m)
    cpuRdseed := 0 < credited (seedWords m)
    cpuRdrand := 0 < credited (randWords m)
    jitterSamples := kJitterSamples
    userSamples := userSamples }

/-- `EntropyReport::describe`. -/
def EntropyReport.describe (rep : EntropyReport) : String :=
  "kernel="
    ++ (if rep.kernelOk then if rep.kernelWasReady then "seeded" else "READ-BUT-NOT-SEEDED"
      else "UNAVAILABLE")
    ++ " cpu-rdseed=" ++ toString rep.rdseedWords ++ "w"
    ++ " cpu-rdrand=" ++ toString rep.rdrandWords ++ "w"
    ++ (if 0 < rep.cpuRejected then " cpu-REJECTED=" ++ toString rep.cpuRejected ++ "w" else "")
    ++ " jitter=" ++ toString rep.jitterSamples
    ++ " user=" ++ toString rep.userSamples

/-- `refusalMessage`. -/
def refusalMessage (m : EntropySources) (rep : EntropyReport) : String :=
  (if rep.kernelOk then "the kernel's random pool reports that it is not seeded yet"
    else "the kernel's random pool could not be read at all")
  ++ ", and "
  ++ (if 0 < rep.cpuRejected then
      "this CPU's hardware generator answered with a constant instead of "
      ++ "with random words - a known way for it to fail while still "
      ++ "reporting success - so nothing it produced has been counted"
    else if 0 < rep.rdrandWords then
      "the only hardware generator this CPU offers is RDRAND, which is a "
      ++ "deterministic generator standing in front of an entropy source "
      ++ "nobody outside the CPU can inspect. It has been mixed in, but it "
      ++ "is not on its own something to mint a key from"
    else if m.cpuHasRdseed ∨ m.cpuHasRdrand then
      "this CPU's hardware generator produced nothing"
    else "this CPU offers neither RDSEED nor RDRAND")
  ++ ". No wallet will be created, because the seed could be guessable."
  ++ (if rep.kernelOk then
      " Keep using the machine for a few seconds - moving the mouse and "
      ++ "typing is what seeds the kernel pool - and try again."
    else "")

/-! ## The samples -/

/-- The bytes of the words both passes drew. -/
def cpuSample (m : EntropySources) : Bytes := (seedWords m ++ randWords m).flatMap le64

/-- The low halves of the differences of successive cycle counter readings. -/
def jitterSample (m : EntropySources) : Bytes :=
  (List.range kJitterSamples).flatMap fun i =>
    le32 (m.cycleCounter (i + 1) - m.cycleCounter i).toUInt32

/-- The `misc` record: the clocks, the process and an address. -/
def miscSample (m : EntropySources) : Bytes :=
  le64 m.nowNanos ++ le64 (m.cycleCounter (kJitterSamples + 1)) ++ le32 m.getpid.toUInt32 ++ le32 0
    ++ le64 m.stackAddress

/-- The record `mixUserEvent` folds in. -/
def userSample (x y : Int32) (extra : UInt32) (nanos cycles counter : UInt64) : Bytes :=
  le32 x.toUInt32 ++ le32 y.toUInt32 ++ le32 extra ++ le32 0 ++ le64 nanos ++ le64 cycles
    ++ le64 counter

/-! ## The pool -/

/-- The chaining value and the two counters. -/
structure EntropyPool where
  state : Digest
  userSamples : ℕ
  counter : UInt64
deriving DecidableEq, Repr

namespace EntropyPool

/-- `kDomain`. -/
def kDomain : Bytes := "SignerOS/entropy-pool/v1".toUTF8.toList

/-- `kLabel`. -/
def kLabel : Bytes := "SignerOS/wallet-entropy/v1".toUTF8.toList

/-- `reset()`: a fixed, public starting key. -/
def reset (sha512 : Bytes → Digest) : EntropyPool :=
  { state := sha512 kDomain, userSamples := 0, counter := 0 }

variable (hmac : Digest → Bytes → Option Digest)

/-- `mix`: the state becomes the keyed hash of the sample under the previous state. -/
def mix (pool : EntropyPool) (data : Bytes) : EntropyPool :=
  if data.isEmpty then pool
  else
    match hmac pool.state data with
    | none => pool
    | some next => { pool with state := next }

/-- `mixUserEvent`, at the two clocks' readings. -/
def mixUserEvent (pool : EntropyPool) (x y : Int32) (extra : UInt32) (nanos cycles : UInt64) :
    EntropyPool :=
  let counter := pool.counter + 1
  let pool := mix hmac { pool with counter := counter } (userSample x y extra nanos cycles counter)
  { pool with userSamples := pool.userSamples + 1 }

/-- What `finalise` leaves behind: the pool, the output buffer, what it wrote to `*report` and
`*err`, and its result. -/
structure Finalised where
  pool : EntropyPool
  out : Option Bytes
  report : Option EntropyReport
  err : Option String
  ok : Bool
deriving DecidableEq, Repr

/-- The part of `finalise` that gathers: the kernel's bytes if all of them came, the words both
instructions gave, the jitter, and the clocks. -/
def gather (m : EntropySources) (pool : EntropyPool) : EntropyPool :=
  let pool := if (kernelBytes m).length = kKernelBytes then mix hmac pool (kernelBytes m) else pool
  let pool :=
    if 0 < (seedWords m).length + (randWords m).length then mix hmac pool (cpuSample m) else pool
  let pool := mix hmac pool (jitterSample m)
  mix hmac pool (miscSample m)

/-- `finalise`. The output buffer is `none` where the source is given a null pointer. -/
def finalise (m : EntropySources) (pool : EntropyPool) (out : Option Bytes) (bytes : ℕ) : Finalised :=
  match out with
  | none =>
    { pool := pool, out := none, report := none,
      err := some "internal error: bad entropy request size", ok := false }
  | some buffer =>
    if bytes = 0 ∨ kHashLen < bytes then
      { pool := pool, out := out, report := none,
        err := some "internal error: bad entropy request size", ok := false }
    else
      let rep := reportOf m pool.userSamples
      let pool := gather hmac m pool
      if entropyPolicySatisfied rep then
        match hmac pool.state kLabel with
        | none =>
          { pool := pool, out := out, report := some rep,
            err := some "the entropy pool could not be finalised (HMAC failed)", ok := false }
        | some okm =>
          { pool := mix hmac pool okm.toList,
            out := some (okm.toList.take bytes ++ buffer.drop bytes),
            report := some rep, err := none, ok := true }
      else
        { pool := pool, out := out, report := some rep, err := some (refusalMessage m rep),
          ok := false }

end EntropyPool

end SignerOS
