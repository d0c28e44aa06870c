import SignerOS.Lib.Chain
import SignerOS.Lib.Runs
import SignerOS.Entropy

/-!
# What the entropy pool credits, and what it keeps

`finalise` agrees to make a key exactly when the kernel's generator was initialised or RDSEED
gave words that look like output, whatever the other sources did (`finalise_decides`). The pool
itself is a chain over every sample that was ever folded in, and two runs that differ in one
sample end alike only through a collision of the step function (`chain_keeps_every_sample`).
-/

namespace SignerOS

/-! ## The read loop -/

namespace ReadAnswer

/-- The loop asks again after this answer. -/
def goesOn : ReadAnswer → Bool
  | got bytes => !bytes.isEmpty
  | interrupted => true
  | failed => false

def bytes : ReadAnswer → Bytes
  | got bytes => bytes
  | interrupted | failed => []

end ReadAnswer

/-- What a source delivers before it stops, however it is cut up. -/
def delivered (answers : List ReadAnswer) : Bytes :=
  (answers.takeWhile ReadAnswer.goesOn).flatMap ReadAnswer.bytes

/-- A chunk cut down to the room that is left is cut where the whole is. -/
theorem take_append_take (want : ℕ) (got chunk rest : Bytes) :
    (got ++ chunk.take (want - got.length) ++ rest).take want =
      (got ++ (chunk ++ rest)).take want := by
  by_cases hfits : chunk.length ≤ want - got.length
  · rw [List.take_of_length_le hfits, List.append_assoc]
  · have hcut : want - got.length - (chunk.take (want - got.length)).length = 0 := by
      rw [List.length_take]
      omega
    rw [List.append_assoc, List.take_append, List.take_append, hcut, List.take_take, Nat.min_self,
      List.take_zero, List.append_nil, List.take_append,
      List.take_append_of_le_length (Nat.le_of_not_le hfits)]

/-- The loop ends with the first `want` bytes of what the source delivers. -/
theorem kernelLoop_eq {want : ℕ} {got : Bytes} (h : got.length ≤ want) (answers : List ReadAnswer) :
    kernelLoop want got answers = (got ++ delivered answers).take want := by
  induction answers generalizing got with
  | nil => simp [kernelLoop, delivered, List.take_of_length_le h]
  | cons answer rest ih =>
    by_cases hroom : got.length < want
    · match answer with
      | .failed => simp [kernelLoop, delivered, ReadAnswer.goesOn, List.take_of_length_le h]
      | .got [] => simp [kernelLoop, delivered, ReadAnswer.goesOn, List.take_of_length_le h]
      | .interrupted =>
        rw [kernelLoop, if_pos hroom, ih h]
        rfl
      | .got (b :: chunk) =>
        have hlen : (got ++ (b :: chunk).take (want - got.length)).length ≤ want := by
          rw [List.length_append, List.length_take]
          omega
        have hdelivered :
            delivered (.got (b :: chunk) :: rest) = b :: chunk ++ delivered rest := rfl
        rw [kernelLoop, if_pos hroom, ih hlen, hdelivered, take_append_take]
        exact List.cons_ne_nil b chunk
    · -- the buffer is full: whatever else is delivered does not fit
      have hstop : kernelLoop want got (answer :: rest) = got := by
        rw [kernelLoop.eq_def]
        exact if_neg hroom
      rw [hstop, List.take_append_of_le_length (by omega), List.take_of_length_le h]

theorem getrandomBytes_eq (m : EntropySources) :
    getrandomBytes m = (delivered m.getrandom).take kKernelBytes := by
  rw [getrandomBytes, kernelLoop_eq (Nat.zero_le _), List.nil_append]

/-- The kernel was ready when `getrandom` delivered a whole block. -/
theorem length_getrandomBytes (m : EntropySources) :
    (getrandomBytes m).length = kKernelBytes ↔ kKernelBytes ≤ (delivered m.getrandom).length := by
  rw [getrandomBytes_eq, List.length_take]
  omega

/-- A block from `getrandom` is not asked of the device again. -/
theorem kernelBytes_of_ready {m : EntropySources} (h : (getrandomBytes m).length = kKernelBytes) :
    kernelBytes m = getrandomBytes m := by
  simp [kernelBytes, h]

/-! ## The hardware generators -/

/-- What a run of words must be for RDSEED to be credited. -/
def LooksLikeOutput (words : List UInt64) : Prop :=
  2 ≤ words.length ∧ words.Nodup ∧ ∀ w ∈ words, w ≠ 0 ∧ w ≠ ~~~0

theorem cpuWordsLookSane_iff (words : List UInt64) :
    cpuWordsLookSane words = true ↔ LooksLikeOutput words := by
  have hnodup : words.Nodup ↔
      ∀ i j : Fin words.length, j < i → words[i] ≠ words[j] := by
    rw [List.nodup_iff_pairwise_ne, List.pairwise_iff_getElem]
    constructor
    · intro h i j hlt heq
      exact h j i j.isLt i.isLt hlt heq.symm
    · intro h i j hi hj hlt heq
      exact h ⟨j, hj⟩ ⟨i, hi⟩ hlt heq.symm
  have hconstants : (∀ w ∈ words, w ≠ 0 ∧ w ≠ ~~~0) ↔
      ∀ i : Fin words.length, words[i] ≠ 0 ∧ words[i] ≠ ~~~0 := by
    rw [List.forall_mem_iff_getElem]
    exact ⟨fun h i => h i i.isLt, fun h i hi => h ⟨i, hi⟩⟩
  rw [cpuWordsLookSane, decide_eq_true_iff, LooksLikeOutput, hnodup, hconstants]
  constructor
  · rintro ⟨hlen, h⟩
    exact ⟨hlen, fun i => (h i).2.2, fun i => ⟨(h i).1, (h i).2.1⟩⟩
  · rintro ⟨hlen, hdistinct, h⟩
    exact ⟨hlen, fun i => ⟨(h i).1, (h i).2, hdistinct i⟩⟩

/-- The tries at one word: so many failures, then the word if there is one. -/
theorem drawWord_eq (read : ℕ → Option UInt64) (attempts i : ℕ) :
    ∃ tries ≤ attempts, drawWord read attempts i =
      ((List.range' i tries).findSome? read, i + tries) ∧
      ((List.range' i tries).filterMap read = ((List.range' i tries).findSome? read).toList) := by
  induction attempts generalizing i with
  | zero => exact ⟨0, le_rfl, rfl, rfl⟩
  | succ attempts ih =>
    cases hread : read i with
    | some value => exact ⟨1, by omega, by simp [drawWord, hread], by simp [hread]⟩
    | none =>
      obtain ⟨tries, hle, hdraw, hall⟩ := ih (i + 1)
      refine ⟨tries + 1, by omega, ?_, ?_⟩
      · simp [drawWord, hread, hdraw, List.range'_succ, Nat.add_assoc, Nat.add_comm 1]
      · simpa [List.range'_succ, hread] using hall

/-- The words drawn are the successes among the tries made, in order: a failed try is never
answered from elsewhere. -/
theorem drawCpuWords_eq (read : ℕ → Option UInt64) (want i : ℕ) :
    ∃ tries ≤ 10 * want, drawCpuWords read want i = (List.range' i tries).filterMap read := by
  induction want generalizing i with
  | zero => exact ⟨0, le_rfl, rfl⟩
  | succ want ih =>
    obtain ⟨tries, hle, hdraw, hall⟩ := drawWord_eq read 10 i
    obtain ⟨rest, hrest, hwords⟩ := ih (i + tries)
    refine ⟨tries + rest, by omega, ?_⟩
    have hsplit : (List.range' i (tries + rest)).filterMap read =
        ((List.range' i tries).findSome? read).toList ++ drawCpuWords read want (i + tries) := by
      rw [← List.range'_append_1, List.filterMap_append, hall, hwords]
    rw [hsplit, drawCpuWords, hdraw]
    cases (List.range' i tries).findSome? read with
    | none => rfl
    | some value => rfl

theorem length_drawCpuWords_le (read : ℕ → Option UInt64) (want i : ℕ) :
    (drawCpuWords read want i).length ≤ want := by
  induction want generalizing i with
  | zero => exact le_rfl
  | succ want ih =>
    rw [drawCpuWords]
    split
    case h_1 value next hdraw => exact Nat.succ_le_succ (ih next)
    case h_2 next hdraw => exact Nat.le_succ_of_le (ih next)

/-- The words drawn in both passes, in the order they fill the array. -/
def wordsDrawn (m : EntropySources) : List UInt64 := seedWords m ++ randWords m

theorem length_seedWords_le (m : EntropySources) : (seedWords m).length ≤ kCpuWords := by
  unfold seedWords
  split
  · exact length_drawCpuWords_le _ _ _
  · exact Nat.zero_le _

/-- The two passes together do not overrun the array. -/
theorem length_wordsDrawn_le (m : EntropySources) : (wordsDrawn m).length ≤ kCpuWords := by
  rw [wordsDrawn, List.length_append, randWords]
  have hseed := length_seedWords_le m
  split
  · have hrand := length_drawCpuWords_le m.rdrand64 (kCpuWords - (seedWords m).length) 0
    omega
  · simpa using hseed

/-- A run is credited or rejected as a whole. -/
theorem credited_add_rejected (words : List UInt64) :
    credited words + rejected words = words.length := by
  unfold credited rejected
  split
  · exact Nat.add_zero _
  · exact Nat.zero_add _

theorem credited_pos (words : List UInt64) : 0 < credited words ↔ LooksLikeOutput words := by
  rw [credited, ← cpuWordsLookSane_iff]
  constructor
  · intro h
    by_contra hbad
    rw [if_neg hbad] at h
    exact absurd h (Nat.lt_irrefl 0)
  · intro hsane
    have hlen := ((cpuWordsLookSane_iff words).mp hsane).1
    rw [if_pos hsane]
    omega

/-! ## The decision -/

/-- The policy looks at the bytes of `getrandom` and the words of RDSEED only. -/
theorem entropyPolicySatisfied_iff (m : EntropySources) (userSamples : ℕ) :
    entropyPolicySatisfied (reportOf m userSamples) = true ↔
      kKernelBytes ≤ (delivered m.getrandom).length ∨ LooksLikeOutput (seedWords m) := by
  rw [entropyPolicySatisfied, Bool.or_eq_true, decide_eq_true_iff, ← length_getrandomBytes,
    ← credited_pos, Bool.and_eq_true]
  refine or_congr_left ?_
  -- a whole block from `getrandom` is a whole block from the kernel
  constructor
  · intro h
    simpa [reportOf] using h.2
  · intro hready
    simp [reportOf, kernelBytes_of_ready hready, hready]

namespace EntropyPool

/-- A keyed hash that never fails. -/
def total (H : Digest → Bytes → Digest) : Digest → Bytes → Option Digest :=
  fun state sample => some (H state sample)

variable (H : Digest → Bytes → Digest)

/-- `finalise` for a request it accepts: the report is written either way, and the policy decides
between the output and the refusal. -/
theorem finalise_eq (m : EntropySources) (pool : EntropyPool) (buffer : Bytes) {bytes : ℕ}
    (hbytes : 0 < bytes ∧ bytes ≤ kHashLen) :
    finalise (total H) m pool (some buffer) bytes =
      if entropyPolicySatisfied (reportOf m pool.userSamples) then
        let okm := H (gather (total H) m pool).state kLabel
        { pool := mix (total H) (gather (total H) m pool) okm.toList
          out := some (okm.toList.take bytes ++ buffer.drop bytes)
          report := some (reportOf m pool.userSamples), err := none, ok := true }
      else
        { pool := gather (total H) m pool, out := some buffer
          report := some (reportOf m pool.userSamples)
          err := some (refusalMessage m (reportOf m pool.userSamples)), ok := false } := by
  have hsize : ¬ (bytes = 0 ∨ kHashLen < bytes) := by omega
  rw [finalise]
  exact if_neg hsize

/-- The report of an accepted request does not depend on the decision. -/
theorem finalise_report (m : EntropySources) (pool : EntropyPool) (buffer : Bytes) {bytes : ℕ}
    (hbytes : 0 < bytes ∧ bytes ≤ kHashLen) :
    (finalise (total H) m pool (some buffer) bytes).report =
      some (reportOf m pool.userSamples) := by
  rw [finalise_eq H m pool buffer hbytes]
  split
  · rfl
  · rfl

theorem finalise_ok (m : EntropySources) (pool : EntropyPool) (buffer : Bytes) {bytes : ℕ}
    (hbytes : 0 < bytes ∧ bytes ≤ kHashLen) :
    (finalise (total H) m pool (some buffer) bytes).ok = true ↔
      kKernelBytes ≤ (delivered m.getrandom).length ∨ LooksLikeOutput (seedWords m) := by
  rw [← entropyPolicySatisfied_iff m pool.userSamples, finalise_eq H m pool buffer hbytes]
  split
  · simp [*]
  · simp [*]

/-- A refusal leaves the output buffer as it was, for every request. -/
theorem finalise_refused (hmac : Digest → Bytes → Option Digest) (m : EntropySources)
    (pool : EntropyPool) (out : Option Bytes) (bytes : ℕ)
    (h : (finalise hmac m pool out bytes).ok = false) :
    (finalise hmac m pool out bytes).out = out := by
  cases out with
  | none => rfl
  | some buffer =>
    dsimp only [finalise] at h ⊢
    split_ifs at h ⊢
    · rfl
    · cases hokm : hmac (gather hmac m pool).state kLabel with
      | none => rfl
      | some okm =>
        rw [hokm] at h
        exact (Bool.noConfusion h : False).elim
    · rfl

/-- What `finalise` makes of a request of valid size, for whatever the kernel's reads and the two
instructions answer. It agrees exactly when `getrandom` delivered a whole block or the words of
RDSEED look like output. The decision and the RDSEED counts stay the same when everything else is
replaced: what RDRAND answers, the clocks and the jitter, the device, and the samples in the
pool. A refusal does not touch the buffer. The three counts of the report are the words drawn, at
most 32. -/
theorem finalise_decides (m : EntropySources) (pool : EntropyPool) (buffer : Bytes) (bytes : ℕ)
    (hbytes : 0 < bytes ∧ bytes ≤ kHashLen) :
    ((finalise (total H) m pool (some buffer) bytes).ok = true ↔
      kKernelBytes ≤ (delivered m.getrandom).length ∨ LooksLikeOutput (seedWords m)) ∧
    (∀ (pool' : EntropyPool) (urandom : Option (List ReadAnswer)) (cpuHasRdrand : Bool)
        (rdrand64 : ℕ → Option UInt64) (cycleCounter : ℕ → UInt64) (nowNanos : UInt64)
        (getpid : Int32) (stackAddress : UInt64),
      let m' := { m with
        urandom := urandom, cpuHasRdrand := cpuHasRdrand, rdrand64 := rdrand64
        cycleCounter := cycleCounter, nowNanos := nowNanos, getpid := getpid
        stackAddress := stackAddress }
      (finalise (total H) m' pool' (some buffer) bytes).ok =
        (finalise (total H) m pool (some buffer) bytes).ok ∧
      (finalise (total H) m' pool' (some buffer) bytes).report.map
          (fun rep => (rep.rdseedWords, rep.cpuRdseed)) =
        (finalise (total H) m pool (some buffer) bytes).report.map
          (fun rep => (rep.rdseedWords, rep.cpuRdseed))) ∧
    ((finalise (total H) m pool (some buffer) bytes).ok = false →
      (finalise (total H) m pool (some buffer) bytes).out = some buffer) ∧
    ∃ rep, (finalise (total H) m pool (some buffer) bytes).report = some rep ∧
      rep.rdseedWords + rep.rdrandWords + rep.cpuRejected = (wordsDrawn m).length ∧
      (wordsDrawn m).length ≤ 32 := by
  refine ⟨finalise_ok H m pool buffer hbytes, ?_, finalise_refused _ m pool _ bytes, ?_⟩
  · intro pool' urandom cpuHasRdrand rdrand64 cycleCounter nowNanos getpid stackAddress m'
    constructor
    · rw [Bool.eq_iff_iff, finalise_ok H m' pool' buffer hbytes, finalise_ok H m pool buffer hbytes]
      rfl
    · rw [finalise_report H m' pool' buffer hbytes, finalise_report H m pool buffer hbytes]
      rfl
  · refine ⟨_, finalise_report H m pool buffer hbytes, ?_, length_wordsDrawn_le m⟩
    have hseed := credited_add_rejected (seedWords m)
    have hrand := credited_add_rejected (randWords m)
    have hdrawn : (wordsDrawn m).length = (seedWords m).length + (randWords m).length :=
      List.length_append
    show credited (seedWords m) + credited (randWords m)
      + (rejected (seedWords m) + rejected (randWords m)) = _
    omega

/-- A machine with nothing to offer. -/
def quietSources : EntropySources where
  getrandom := []
  urandom := none
  cpuHasRdseed := false
  rdseed64 := fun _ => none
  cpuHasRdrand := false
  rdrand64 := fun _ => none
  cycleCounter := fun _ => 0
  nowNanos := 0
  getpid := 1
  stackAddress := 0

/-- A block that comes in two pieces with an interruption between them is a block. -/
theorem finalise_decides_pieces :
    (finalise (total fun state _ => state)
      { quietSources with
        getrandom := [.got (List.replicate 40 7), .interrupted, .got (List.replicate 24 9)] }
      { state := Vector.replicate 64 0, userSamples := 0, counter := 0 }
      (some (List.replicate 32 0)) 32).ok = true :=
  (finalise_decides _ _ _ _ 32 (by decide)).1.mpr (Or.inl (by decide))

/-! ## The chain -/

/-- One call of the pool, with what the machine answers during it. -/
inductive Call
  | mix (data : Bytes)
  | mixUserEvent (x y : Int32) (extra : UInt32) (nanos cycles : UInt64)
  | finalise (m : EntropySources) (out : Option Bytes) (bytes : ℕ)

/-- The pool after a call. -/
def call (hmac : Digest → Bytes → Option Digest) (pool : EntropyPool) : Call → EntropyPool
  | .mix data => mix hmac pool data
  | .mixUserEvent x y extra nanos cycles => mixUserEvent hmac pool x y extra nanos cycles
  | .finalise m out bytes => (finalise hmac m pool out bytes).pool

/-- A sample and where it comes from: from outside, or the pool's own output. -/
inductive Sample
  | input (data : Bytes)
  | foldBack (okm : Digest)

namespace Sample

def data : Sample → Bytes
  | input data => data
  | foldBack okm => okm.toList

def fromOutside : Sample → Option Bytes
  | input data => some data
  | foldBack _ => none

end Sample

/-- The samples of the gathering part of `finalise`, in order. -/
def gathered (m : EntropySources) : List Bytes :=
  (if (kernelBytes m).length = kKernelBytes then [kernelBytes m] else [])
    ++ (if wordsDrawn m = [] then [] else [cpuSample m]) ++ [jitterSample m, miscSample m]

/-- The samples of one call, in order. A `finalise` that refuses for its arguments has none, one
that succeeds folds its output back in. -/
def samples (pool : EntropyPool) : Call → List Sample
  | .mix data => if data = [] then [] else [.input data]
  | .mixUserEvent x y extra nanos cycles =>
    [.input (userSample x y extra nanos cycles (pool.counter + 1))]
  | .finalise m out bytes =>
    if out = none ∨ bytes = 0 ∨ kHashLen < bytes then []
    else
      (gathered m).map .input ++
        if entropyPolicySatisfied (reportOf m pool.userSamples) then
          [.foldBack (H ((gathered m).foldl H pool.state) kLabel)]
        else []

/-- The samples of a sequence of calls. -/
def trace (pool : EntropyPool) : List Call → List Sample
  | [] => []
  | c :: calls => samples H pool c ++ trace (call (total H) pool c) calls

/-- Folding a sample that is not empty. -/
theorem state_mix (pool : EntropyPool) {data : Bytes} (h : data ≠ []) :
    mix (total H) pool data = { pool with state := H pool.state data } := by
  rw [mix, if_neg (by simpa using h)]
  rfl

theorem length_jitterSample (m : EntropySources) : (jitterSample m).length = 2048 := by
  rw [jitterSample, List.length_flatMap]
  simp only [length_le32, List.map_const', List.length_range, List.sum_replicate_nat,
    kJitterSamples]

theorem length_miscSample (m : EntropySources) : (miscSample m).length = 32 := by
  simp [miscSample]

theorem jitterSample_ne_nil (m : EntropySources) : jitterSample m ≠ [] := by
  apply List.ne_nil_of_length_pos
  rw [length_jitterSample]
  omega

theorem miscSample_ne_nil (m : EntropySources) : miscSample m ≠ [] := by
  apply List.ne_nil_of_length_pos
  rw [length_miscSample]
  omega

theorem userSample_ne_nil (x y : Int32) (extra : UInt32) (nanos cycles counter : UInt64) :
    userSample x y extra nanos cycles counter ≠ [] := by
  apply List.ne_nil_of_length_pos
  simp [userSample]

theorem cpuSample_ne_nil {m : EntropySources} (h : wordsDrawn m ≠ []) : cpuSample m ≠ [] := by
  obtain ⟨w, words, hwords⟩ := List.exists_cons_of_ne_nil h
  have hsample : cpuSample m = (w :: words).flatMap le64 := congrArg (List.flatMap le64) hwords
  rw [hsample, List.flatMap_cons]
  intro hnil
  have hlen := congrArg List.length (List.append_eq_nil_iff.mp hnil).1
  rw [length_le64] at hlen
  exact absurd hlen (by decide)

/-- The gathering part folds in its samples and leaves the counters alone. -/
theorem gather_eq (m : EntropySources) (pool : EntropyPool) :
    gather (total H) m pool = { pool with state := (gathered m).foldl H pool.state } := by
  have hdrawn : 0 < (seedWords m).length + (randWords m).length ↔ wordsDrawn m ≠ [] := by
    rw [wordsDrawn, ← List.length_append, List.length_pos_iff]
  unfold gather gathered
  simp only [hdrawn, state_mix H _ (jitterSample_ne_nil m),
    state_mix H _ (miscSample_ne_nil m)]
  by_cases hkernel : (kernelBytes m).length = kKernelBytes
  · have hne : kernelBytes m ≠ [] := List.ne_nil_of_length_pos (by
      rw [hkernel]
      decide)
    by_cases hwords : wordsDrawn m = []
    · simp [hkernel, hwords, state_mix H _ hne]
    · simp [hkernel, hwords, state_mix H _ hne, state_mix H _ (cpuSample_ne_nil hwords)]
  · by_cases hwords : wordsDrawn m = []
    · simp [hkernel, hwords]
    · simp [hkernel, hwords, state_mix H _ (cpuSample_ne_nil hwords)]

/-- One call folds in exactly its samples. -/
theorem state_call (pool : EntropyPool) (c : Call) :
    (call (total H) pool c).state = ((samples H pool c).map Sample.data).foldl H pool.state := by
  cases c with
  | mix data =>
    by_cases hnil : data = []
    · simp [call, samples, mix, hnil]
    · simp [call, samples, state_mix H pool hnil, hnil, Sample.data]
  | mixUserEvent x y extra nanos cycles =>
    have hne := userSample_ne_nil x y extra nanos cycles (pool.counter + 1)
    simp [call, samples, mixUserEvent, state_mix H _ hne, Sample.data]
  | finalise m out bytes =>
    have hdata : ((gathered m).map Sample.input).map Sample.data = gathered m := by
      rw [List.map_map]
      exact List.map_id _
    cases out with
    | none => simp [call, samples, finalise]
    | some buffer =>
      by_cases hsize : bytes = 0 ∨ kHashLen < bytes
      · simp [call, samples, finalise, hsize]
      · have hbytes : 0 < bytes ∧ bytes ≤ kHashLen := by omega
        simp only [call, samples, finalise_eq H m pool buffer hbytes, gather_eq, reduceCtorEq,
          false_or, hsize, if_false]
        by_cases hpolicy : entropyPolicySatisfied (reportOf m pool.userSamples) = true
        · have hne : (H ((gathered m).foldl H pool.state) kLabel).toList ≠ [] :=
            List.ne_nil_of_length_pos (by simp)
          simp only [hpolicy, if_true, state_mix H _ hne, List.map_append, hdata, List.foldl_append]
          rfl
        · simp [hpolicy, hdata]

/-- The state is the fold over the trace, after every sequence of calls. -/
theorem state_run (pool : EntropyPool) (calls : List Call) :
    (Runs.run (call (total H)) pool calls).state =
      ((trace H pool calls).map Sample.data).foldl H pool.state := by
  induction calls generalizing pool with
  | nil => rfl
  | cons c calls ih =>
    rw [Runs.run_cons, ih, trace, List.map_append, List.foldl_append, state_call]

theorem ne_nil_of_mem_gathered {m : EntropySources} {data : Bytes} (h : data ∈ gathered m) :
    data ≠ [] := by
  rw [gathered, List.mem_append, List.mem_append, List.mem_pair] at h
  rcases h with (hkernel | hcpu) | hjitter | hmisc
  · split_ifs at hkernel with hfull
    · rw [List.mem_singleton.mp hkernel]
      exact List.ne_nil_of_length_pos (hfull ▸ by decide)
    · exact absurd hkernel List.not_mem_nil
  · split_ifs at hcpu with hwords
    · exact absurd hcpu List.not_mem_nil
    · rw [List.mem_singleton.mp hcpu]
      exact cpuSample_ne_nil hwords
  · rw [hjitter]
    exact jitterSample_ne_nil m
  · rw [hmisc]
    exact miscSample_ne_nil m

theorem data_ne_nil_samples (pool : EntropyPool) (c : Call) :
    ∀ sample ∈ samples H pool c, sample.data ≠ [] := by
  intro sample hsample
  cases c with
  | mix data =>
    by_cases hnil : data = []
    · simp [samples, hnil] at hsample
    · simp [samples, hnil] at hsample
      simpa [hsample, Sample.data] using hnil
  | mixUserEvent x y extra nanos cycles =>
    rw [List.mem_singleton.mp hsample]
    exact userSample_ne_nil x y extra nanos cycles _
  | finalise m out bytes =>
    rw [samples] at hsample
    split_ifs at hsample
    · exact absurd hsample List.not_mem_nil
    · rcases List.mem_append.mp hsample with hmem | hmem
      · obtain ⟨data, hdata, rfl⟩ := List.mem_map.mp hmem
        exact ne_nil_of_mem_gathered hdata
      · rw [List.mem_singleton.mp hmem]
        exact List.ne_nil_of_length_pos (by simp [Sample.data])
    · rw [List.append_nil] at hsample
      obtain ⟨data, hdata, rfl⟩ := List.mem_map.mp hsample
      exact ne_nil_of_mem_gathered hdata

/-- No sample of the trace is empty. -/
theorem data_ne_nil (pool : EntropyPool) (calls : List Call) :
    ∀ sample ∈ trace H pool calls, sample.data ≠ [] := by
  induction calls generalizing pool with
  | nil => simp [trace]
  | cons c calls ih =>
    intro sample hsample
    rcases List.mem_append.mp hsample with hfirst | hrest
    · exact data_ne_nil_samples H pool c sample hfirst
    · exact ih _ sample hrest

/-! ## Two runs that end alike -/

/-- In a trace read backwards, an output folded back comes right after the clocks and the jitter
of the same `finalise`. -/
def Grounded : List Sample → Prop
  | [] => True
  | .input _ :: rest => Grounded rest
  | .foldBack _ :: rest =>
    (∃ misc jitter before, rest = .input misc :: .input jitter :: before ∧
      misc.length = 32 ∧ jitter.length = 2048) ∧ Grounded rest

theorem grounded_append {xs ys : List Sample} (hxs : Grounded xs) (hys : Grounded ys) :
    Grounded (xs ++ ys) := by
  induction xs with
  | nil => exact hys
  | cons sample xs ih =>
    cases sample with
    | input data => exact ih hxs
    | foldBack okm =>
      obtain ⟨⟨misc, jitter, before, rfl, hmisc, hjitter⟩, hrest⟩ := hxs
      exact ⟨⟨misc, jitter, before ++ ys, rfl, hmisc, hjitter⟩, ih hrest⟩

theorem grounded_input (samples : List Bytes) : Grounded (samples.map .input) := by
  induction samples with
  | nil => trivial
  | cons data samples ih => exact ih

theorem grounded_samples (pool : EntropyPool) (c : Call) : Grounded (samples H pool c).reverse := by
  cases c with
  | mix data =>
    rw [samples]
    split
    · trivial
    · exact grounded_input [data]
  | mixUserEvent x y extra nanos cycles => exact grounded_input [_]
  | finalise m out bytes =>
    have hgathered : Grounded ((gathered m).map Sample.input).reverse := by
      rw [← List.map_reverse]
      exact grounded_input _
    rw [samples]
    split_ifs
    · trivial
    · rw [List.reverse_append]
      refine ⟨⟨miscSample m, jitterSample m, ?_⟩, hgathered⟩
      simp [gathered, length_jitterSample, length_miscSample]
    · rw [List.append_nil]
      exact hgathered

theorem grounded_trace (pool : EntropyPool) (calls : List Call) :
    Grounded (trace H pool calls).reverse := by
  induction calls generalizing pool with
  | nil => trivial
  | cons c calls ih =>
    rw [trace, List.reverse_append]
    exact grounded_append (ih _) (grounded_samples H pool c)

/-- Where an output folded back stands against an input, the clocks stand against that input and
the jitter against the clocks: two differences. -/
theorem not_slid_by_one {okm : Digest} {d misc jitter : Bytes} {rest before : List Sample}
    (hmisc : misc.length = 32) (hjitter : jitter.length = 2048) (hd : okm.toList = d)
    (hnext : ∀ sample ∈ rest.head?, sample.data = misc) :
    ¬ Chain.DifferAtOne ((Sample.input d :: rest).filterMap Sample.fromOutside)
      ((Sample.foldBack okm :: .input misc :: .input jitter :: before).filterMap
        Sample.fromOutside) := by
  intro hdiffer
  have hd64 : d.length = 64 := by simp [← hd]
  rcases Chain.differAtOne_cons hdiffer with ⟨-, hrest⟩ | ⟨hsame, -⟩
  · cases rest with
    | nil => exact List.cons_ne_nil _ _ hrest.symm
    | cons sample rest =>
      have hsample : sample.data = misc := hnext sample rfl
      cases sample with
      | input e =>
        have hclock : e = jitter := (List.cons.inj hrest).1
        have hlen := congrArg List.length (hclock.symm.trans hsample)
        omega
      | foldBack okm' =>
        have hlen : okm'.toList.length = misc.length := congrArg List.length hsample
        rw [Vector.length_toList] at hlen
        omega
  · have hlen := congrArg List.length hsame
    omega

/-- Two traces read backwards, one the beginning of the other as far as the bytes go, cannot have
inputs that differ in one place: where an output of the one meets an input of the other, the
clocks meet the jitter next, and that is a second difference. -/
theorem grounded_not_differAtOne {xs ys : List Sample} (hxs : Grounded xs) (hys : Grounded ys)
    (h : ys.map Sample.data <+: xs.map Sample.data) :
    ¬ Chain.DifferAtOne (xs.filterMap Sample.fromOutside) (ys.filterMap Sample.fromOutside) := by
  induction xs generalizing ys with
  | nil =>
    have hnil : ys = [] := by simpa using h
    rw [hnil]
    exact Chain.not_differAtOne_nil
  | cons x xs ih =>
    cases ys with
    | nil => exact Chain.not_differAtOne_nil
    | cons y ys =>
      obtain ⟨hdata, hrest⟩ := List.cons_prefix_cons.mp h
      intro hdiffer
      cases x with
      | input d =>
        cases y with
        | input e =>
          -- the same input on both sides: the difference lies further back
          have hsame : e = d := hdata
          have hrestys : Grounded ys := hys
          rcases Chain.differAtOne_cons hdiffer with ⟨hne, -⟩ | ⟨-, hback⟩
          · exact hne hsame.symm
          · exact ih hxs hrestys hrest hback
        | foldBack okm =>
          obtain ⟨⟨misc, jitter, before, rfl, hmisc, hjitter⟩, -⟩ := hys
          refine not_slid_by_one hmisc hjitter hdata ?_ hdiffer
          intro sample hsample
          cases xs with
          | nil => exact absurd hsample (by simp)
          | cons first xs =>
            have hfirst : misc = first.data := (List.cons_prefix_cons.mp hrest).1
            rw [hfirst, ← Option.mem_some.mp hsample]
      | foldBack okm =>
        obtain ⟨⟨misc, jitter, before, rfl, hmisc, hjitter⟩, hgrounded⟩ := hxs
        cases y with
        | input e =>
          refine not_slid_by_one hmisc hjitter hdata.symm ?_ hdiffer.symm
          intro sample hsample
          cases ys with
          | nil => exact absurd hsample (by simp)
          | cons first ys =>
            have hfirst : first.data = misc := (List.cons_prefix_cons.mp hrest).1
            rwa [← Option.mem_some.mp hsample]
        | foldBack okm' => exact ih hgrounded hys.2 hrest hdiffer

/-- The pool loses no sample. After every sequence of calls its state is the fold of `H` over the
samples of these calls, none of them empty. A second sequence whose samples from outside are the
same except for one, and which leads to the same state, shows a collision of `H`: two different
pairs of a state and a sample among the steps of the two runs, with the same image. -/
theorem chain_keeps_every_sample (pool : EntropyPool) (calls : List Call) :
    (Runs.run (call (total H)) pool calls).state =
      ((trace H pool calls).map Sample.data).foldl H pool.state ∧
    (∀ sample ∈ trace H pool calls, sample.data ≠ []) ∧
    ∀ calls' : List Call,
      Chain.DifferAtOne ((trace H pool calls).filterMap Sample.fromOutside)
        ((trace H pool calls').filterMap Sample.fromOutside) →
      (Runs.run (call (total H)) pool calls).state =
        (Runs.run (call (total H)) pool calls').state →
      Chain.Collide H pool.state pool.state ((trace H pool calls).map Sample.data)
        ((trace H pool calls').map Sample.data) := by
  refine ⟨state_run H pool calls, data_ne_nil H pool calls, ?_⟩
  intro calls' hdiffer hstate
  rw [state_run, state_run] at hstate
  have hback : Chain.DifferAtOne ((trace H pool calls).reverse.filterMap Sample.fromOutside)
      ((trace H pool calls').reverse.filterMap Sample.fromOutside) := by
    rw [List.filterMap_reverse, List.filterMap_reverse]
    exact hdiffer.reverse
  have hgrounded := grounded_trace H pool calls
  have hgrounded' := grounded_trace H pool calls'
  -- without a collision one run's samples are the last samples of the other
  rcases Chain.collide_or_suffix hstate with hcollide | hsuffix | hsuffix
  · exact hcollide
  · refine absurd hback.symm (grounded_not_differAtOne hgrounded' hgrounded ?_)
    simpa [List.map_reverse] using hsuffix
  · refine absurd hback (grounded_not_differAtOne hgrounded hgrounded' ?_)
    simpa [List.map_reverse] using hsuffix

/-- A step function that looks at nothing. -/
def constantStep : Digest → Bytes → Digest := fun _ _ => Vector.replicate 64 0

def somePool : EntropyPool := { state := Vector.replicate 64 1, userSamples := 0, counter := 0 }

/-- A touch, and a `finalise` that succeeds and folds its output back in. -/
def laterCalls : List Call :=
  [.mixUserEvent 100 200 3 4 5,
    .finalise { quietSources with getrandom := [.got (List.replicate 64 7)] }
      (some (List.replicate 32 0)) 32]

/-- It collides on any two samples, whatever comes after them. -/
theorem chain_keeps_every_sample_constant :
    Chain.Collide constantStep somePool.state somePool.state
      ((trace constantStep somePool (.mix [1] :: laterCalls)).map Sample.data)
      ((trace constantStep somePool (.mix [2] :: laterCalls)).map Sample.data) :=
  (chain_keeps_every_sample constantStep somePool (.mix [1] :: laterCalls)).2.2
    (.mix [2] :: laterCalls)
    ⟨[], [1], [2], _, by decide, rfl, rfl⟩ rfl

end EntropyPool

end SignerOS
