import SignerOS.Common
import SignerOS.Lib.Buffer
import SignerOS.Lib.Slots

/-!
# `SecureString`

Secret text in a fixed, page-locked array. The text is edited in place, one keystroke at a
time, and read either as one line or as a grid of words between single spaces.

A sum of two `size_t` is taken modulo `2 ^ 64`, as the capacity tests take it; a write outside
the array, which only a sum that wraps lets through, is lost. A pointer to `n` characters is
the list of them, `none` where the pointer is null.
-/

namespace SignerOS

/-- `SecureString::kCapacity`. -/
def kCapacity : ℕ := 320

structure SecureString where
  buf : Vector UInt8 kCapacity
  len : ℕ
deriving DecidableEq

namespace SecureString

/-! ## Characters -/

/-- The space, which separates the words of the grid. -/
def space : UInt8 := 0x20

/-- A space or a tab. -/
def isBlank (c : UInt8) : Bool := c == space || c == 0x09

/-- A space, a tab or a line end. -/
def isSpace (c : UInt8) : Bool := c == space || c == 0x09 || c == 0x0a || c == 0x0d

/-- The sum of two `size_t`. -/
def addSize (a b : ℕ) : ℕ := (a + b) % 2 ^ 64

/-- `len_ + n + 1 <= kCapacity`. -/
def fits (len n : ℕ) : Bool := addSize (addSize len n) 1 ≤ kCapacity

/-- `buf_[i]`. -/
def readByte (buf : Vector UInt8 kCapacity) (i : ℕ) : UInt8 := buf[i]?.getD 0

/-! ## The line -/

/-- The constructor: everything is wiped. -/
def new : SecureString := ⟨Vector.replicate kCapacity 0, 0⟩

/-- `buf_[0] .. buf_[len_ - 1]`. -/
def text (s : SecureString) : Bytes := s.buf.toList.take s.len

def empty (s : SecureString) : Bool := s.len == 0

def full (s : SecureString) : Bool := kCapacity ≤ s.len + 1

/-- `equals`: the differences of all bytes are collected before they are looked at. -/
def equals (s other : SecureString) : Bool :=
  s.len == other.len &&
    (s.text.zip other.text).foldl (fun diff p => diff ||| (p.1 ^^^ p.2)) 0 == 0

def clear (s : SecureString) : SecureString := ⟨Buffer.fill s.buf 0 kCapacity 0, 0⟩

/-- `append(char)`. -/
def append (s : SecureString) (c : UInt8) : Bool × SecureString :=
  if kCapacity ≤ s.len + 1 then (false, s)
  else (true, ⟨(s.buf.setIfInBounds s.len c).setIfInBounds (s.len + 1) 0, s.len + 1⟩)

/-- `append(const char *, std::size_t)`. -/
def appendChars (s : SecureString) (chars : Option Bytes) : Bool × SecureString :=
  match chars with
  | none => (false, s)
  | some cs =>
    if !fits s.len cs.length then (false, s)
    else
      let len := addSize s.len cs.length
      (true, ⟨(Buffer.writeFrom s.buf s.len cs).setIfInBounds len 0, len⟩)

def assign (s : SecureString) (chars : Option Bytes) : Bool × SecureString :=
  s.clear.appendChars chars

def backspace (s : SecureString) : SecureString :=
  if s.len = 0 then s else ⟨s.buf.setIfInBounds (s.len - 1) 0, s.len - 1⟩

/-- `while (len_ > 0 && p(buf_[len_ - 1])) buf_[--len_] = 0`. -/
def dropTail (p : UInt8 → Bool) (buf : Vector UInt8 kCapacity) : ℕ → SecureString
  | 0 => ⟨buf, 0⟩
  | n + 1 => if p (readByte buf n) then dropTail p (buf.setIfInBounds n 0) n else ⟨buf, n + 1⟩

def backspaceWord (s : SecureString) : SecureString :=
  let s := dropTail isBlank s.buf s.len
  dropTail (fun c => !isBlank c) s.buf s.len

/-- The loop of `wordCount`. -/
def wordCountFrom (inWord : Bool) : Bytes → ℕ
  | [] => 0
  | c :: cs =>
    if isSpace c then wordCountFrom false cs
    else if inWord then wordCountFrom true cs
    else wordCountFrom true cs + 1

def wordCount (s : SecureString) : ℕ := wordCountFrom false s.text

def trailingWordLength (s : SecureString) : ℕ :=
  (s.text.reverse.takeWhile fun c => !isSpace c).length

/-- `copyTrailingWord`: the length of the copy, and what `out` holds after it. -/
def copyTrailingWord (s : SecureString) (out : Option Bytes) : ℕ × Option Bytes :=
  match out with
  | none => (0, none)
  | some out =>
    if out.length = 0 then (0, some out)
    else
      let wordLen := s.trailingWordLength
      let n := min wordLen (out.length - 1)
      (n, some ((s.text.drop (s.len - wordLen)).take n ++ 0 :: out.drop (n + 1)))

/-- The loop of `normaliseWhitespace`: `k` bytes from `r` on are still to be read, and what has
been kept of the others stands in the first `w`. -/
def normaliseFrom (buf : Vector UInt8 kCapacity) (w : ℕ) (pendingSpace : Bool) (r : ℕ) :
    ℕ → Vector UInt8 kCapacity × ℕ
  | 0 => (buf, w)
  | k + 1 =>
    let c := readByte buf r
    if isSpace c then normaliseFrom buf w (pendingSpace || decide (0 < w)) (r + 1) k
    else if pendingSpace then
      normaliseFrom ((buf.setIfInBounds w space).setIfInBounds (w + 1) c) (w + 2) false (r + 1) k
    else normaliseFrom (buf.setIfInBounds w c) (w + 1) false (r + 1) k

def normaliseWhitespace (s : SecureString) : SecureString :=
  let (buf, w) := normaliseFrom s.buf 0 false 0 s.len
  ⟨(Buffer.fill buf w (s.len - w) 0).setIfInBounds w 0, w⟩

/-! ## The grid -/

def insertAt (s : SecureString) (pos : ℕ) (chars : Option Bytes) : Bool × SecureString :=
  match chars with
  | none => (false, s)
  | some cs =>
    if s.len < pos then (false, s)
    else if cs.length = 0 then (true, s)
    else if !fits s.len cs.length then (false, s)
    else
      let len := addSize s.len cs.length
      let shifted := Buffer.moveUp s.buf pos cs.length (s.len - pos)
      (true, ⟨(Buffer.writeFrom shifted pos cs).setIfInBounds len 0, len⟩)

def eraseAt (s : SecureString) (pos n : ℕ) : SecureString :=
  if s.len ≤ pos ∨ n = 0 then s
  else
    let n := min n (s.len - pos)
    let shifted := Buffer.moveDown s.buf pos n (s.len - n - pos)
    ⟨(Buffer.fill shifted (s.len - n) n 0).setIfInBounds (s.len - n) 0, s.len - n⟩

def slotCount (s : SecureString) : ℕ := 1 + s.text.count space

/-- The loop of `slotSpan` at byte `i`, in the word `slot` that starts at `start`. -/
def slotSpanFrom (index slot start i : ℕ) : Bytes → Option (ℕ × ℕ)
  | [] => if slot = index then some (start, i - start) else none
  | c :: cs =>
    if c ≠ space then slotSpanFrom index slot start (i + 1) cs
    else if slot = index then some (start, i - start)
    else slotSpanFrom index (slot + 1) (i + 1) (i + 1) cs

/-- `slotSpan`: where a word starts and how long it is. -/
def slotSpan (s : SecureString) (index : ℕ) : Option (ℕ × ℕ) := slotSpanFrom index 0 0 0 s.text

def slotLength (s : SecureString) (index : ℕ) : ℕ :=
  match s.slotSpan index with
  | some (_, len) => len
  | none => 0

/-- `copySlot`: the length of the copy, and what `out` holds after it. -/
def copySlot (s : SecureString) (index : ℕ) (out : Option Bytes) : ℕ × Option Bytes :=
  match out with
  | none => (0, none)
  | some out =>
    if out.length = 0 then (0, some out)
    else
      match s.slotSpan index with
      | none => (0, some (0 :: out.drop 1))
      | some (start, len) =>
        let n := min len (out.length - 1)
        (n, some ((s.text.drop start).take n ++ 0 :: out.drop (n + 1)))

def setSlotCount (s : SecureString) (count : ℕ) : Bool × SecureString :=
  if count = 0 then (false, s)
  else
    let cur := s.slotCount
    if cur = count then (true, s)
    else if cur < count then
      let add := count - cur
      if !fits s.len add then (false, s)
      else
        let len := addSize s.len add
        (true, ⟨(Buffer.fill s.buf s.len add space).setIfInBounds len 0, len⟩)
    else
      match s.slotSpan (count - 1) with
      | none => (false, s)
      | some (start, len) =>
        let keep := start + len
        (true, ⟨(Buffer.fill s.buf keep (s.len - keep) 0).setIfInBounds keep 0, keep⟩)

def appendToSlot (s : SecureString) (index : ℕ) (c : UInt8) : Bool × SecureString :=
  if c = space then (false, s)
  else
    match s.slotSpan index with
    | none => (false, s)
    | some (start, len) => s.insertAt (start + len) (some [c])

def backspaceInSlot (s : SecureString) (index : ℕ) : SecureString :=
  match s.slotSpan index with
  | none => s
  | some (start, len) => if len = 0 then s else s.eraseAt (start + len - 1) 1

def clearSlot (s : SecureString) (index : ℕ) : SecureString :=
  match s.slotSpan index with
  | none => s
  | some (start, len) => if len = 0 then s else s.eraseAt start len

def setSlot (s : SecureString) (index : ℕ) (chars : Option Bytes) : Bool × SecureString :=
  match chars with
  | none => (false, s)
  | some cs =>
    if cs.any (· == space) then (false, s)
    else
      match s.slotSpan index with
      | none => (false, s)
      | some (start, len) => (s.eraseAt start len).insertAt start (some cs)

def firstEmptySlot (s : SecureString) : ℕ :=
  ((List.range s.slotCount).find? fun i => s.slotLength i == 0).getD s.slotCount

end SecureString

end SignerOS
