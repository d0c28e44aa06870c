import SignerOS.SecureStringRefinement
import SignerOS.Engine

/-!
# The secret buffers

Every secret the process can hold: the four buffers the screens share, the characters that may
be typed into them, and the words of the BIP39 list that may be put there whole.

A `Secret` is a `SecureString` together with the proof that its array is zero behind the text,
so no screen can hold one that is not.
-/

namespace SignerOS

/-! ## Characters -/

/-- A lower-case letter. -/
def isLower (c : UInt8) : Bool := 0x61 ≤ c && c ≤ 0x7a

/-- `isBip39Char`. -/
def isBip39Char (c : UInt8) : Bool := isLower c || c == SecureString.space

/-- `isBase58Char`: letters and digits, less `0`, `O`, `I` and `l`. -/
def isBase58Char (c : UInt8) : Bool :=
  if c == 0x30 || c == 0x4f || c == 0x49 || c == 0x6c then false
  else (0x30 ≤ c && c ≤ 0x39) || (0x41 ≤ c && c ≤ 0x5a) || isLower c

/-- `isPrintableAscii`. -/
def isPrintableAscii (c : UInt8) : Bool := 0x20 ≤ c && c ≤ 0x7e

/-- The text a buffer hands to libwally. -/
def cStr (bytes : Bytes) : String := String.ofList (bytes.map fun c => Char.ofNat c.toNat)

theorem isLower_ne_space {c : UInt8} (h : isLower c = true) : c ≠ SecureString.space := by
  intro hc
  subst hc
  exact absurd h (by decide)

/-! ## The word list -/

/-- `kMaxWordLength`: the longest word in the BIP39 English list. -/
def kMaxWordLength : ℕ := 8

/-- A word of the BIP39 English list: one to eight lower-case letters. -/
structure Word where
  letters : Bytes
  lower : ∀ c ∈ letters, isLower c = true
  ne_nil : letters ≠ []
  length_le : letters.length ≤ kMaxWordLength

/-- What `bip39_mnemonic_from_bytes` writes: words of the list, thirty of them at most, with one
space between each. -/
structure Phrase where
  words : List Word
  length_le : words.length ≤ 30

def Phrase.text (p : Phrase) : Bytes :=
  [SecureString.space].intercalate (p.words.map Word.letters)

theorem Phrase.length_text_le (p : Phrase) : p.text.length ≤ kCapacity := by
  have hlen : ∀ words : List Word,
      ([SecureString.space].intercalate (words.map Word.letters)).length ≤ 9 * words.length := by
    intro words
    induction words with
    | nil => exact Nat.le_refl 0
    | cons word words ih =>
      have hword : word.letters.length ≤ 8 := word.length_le
      cases words with
      | nil => simpa [List.intercalate] using Nat.le_succ_of_le hword
      | cons next words =>
        simp only [List.map_cons, List.intercalate, List.intersperse_cons_cons,
          List.flatten_cons, List.length_append, List.length_cons, List.length_nil] at ih ⊢
        omega
  have hp := hlen p.words
  have hle := p.length_le
  have hcap : kCapacity = 320 := rfl
  show ([SecureString.space].intercalate (p.words.map Word.letters)).length ≤ kCapacity
  omega

/-- The functions of libwally that hand out words. -/
structure Bip39 where
  /-- `bip39_get_wordlist`, and `bip39_get_word` for each index less those it fails for. -/
  wordlist : Option (List Word)
  mnemonicFromBytes : Bytes → Option Phrase

/-- `bip39Suggestions`: the first words of the list that begin with the prefix. -/
def bip39Suggestions (lib : Bip39) (pre : Bytes) (maxResults : ℕ) : List Word :=
  if pre.isEmpty then []
  else
    match lib.wordlist with
    | none => []
    | some words => (words.filter fun word => pre.isPrefixOf word.letters).take maxResults

/-- The lengths of a mnemonic, `kWordChoices`. -/
inductive WordCount
  | twelve | fifteen | eighteen | twentyOne | twentyFour
deriving DecidableEq, Repr

namespace WordCount

def toNat : WordCount → ℕ
  | twelve => 12
  | fifteen => 15
  | eighteen => 18
  | twentyOne => 21
  | twentyFour => 24

/-- `entropyBytesForWords`. -/
def entropyBytes : WordCount → ℕ
  | twelve => 16
  | fifteen => 20
  | eighteen => 24
  | twentyOne => 28
  | twentyFour => 32

/-- The next of `kWordChoices`, around the end. -/
def next : WordCount → WordCount
  | twelve => fifteen
  | fifteen => eighteen
  | eighteen => twentyOne
  | twentyOne => twentyFour
  | twentyFour => twelve

theorem toNat_pos (n : WordCount) : 0 < n.toNat := by cases n <;> decide

theorem toNat_le (n : WordCount) : n.toNat ≤ 24 := by cases n <;> decide

end WordCount

/-- `columnsFor`: the columns a grid of so many cells is drawn in. -/
def columnsFor (words : ℕ) : ℕ := if words ≤ 12 then 3 else 4

/-! ## One buffer -/

/-- A `SecureString` as its operations leave it. -/
structure Secret where
  str : SecureString
  clean : str.Clean

namespace Secret

open SecureString (Small)

variable (s : Secret)

theorem ext_str {s s' : Secret} (h : s.str = s'.str) : s = s' := by
  cases s
  cases s'
  subst h
  rfl

def text : Bytes := s.str.text

def words : List Bytes := s.str.words

def empty : Bool := s.str.empty

theorem len_lt : s.str.len < kCapacity := by
  rw [s.clean.len_eq]
  exact s.clean.room

/-- An operation adds less than would wrap a `size_t`. -/
theorem small {op : SecureString.Op} (h : op.added ≤ kCapacity) : Small s.str op := by
  have hlen := s.len_lt
  have hcap : kCapacity = 320 := rfl
  show s.str.len + op.added + 1 < 2 ^ 64
  omega

/-- An operation of `SecureString`. -/
def perform (op : SecureString.Op) (h : op.added ≤ kCapacity) : Secret :=
  ⟨s.str.step op, s.clean.step (s.small h)⟩

theorem str_perform (op : SecureString.Op) (h : op.added ≤ kCapacity) :
    (s.perform op h).str = s.str.step op := rfl

attribute [irreducible] perform

/-- The wiped buffer. -/
def wiped : Secret := ⟨.new, SecureString.clean_new⟩

def clear : Secret := s.perform .clear (Nat.zero_le _)

/-- `append(char)`, and whether there was room. -/
def append (c : UInt8) : Bool × Secret :=
  ((s.str.append c).1, s.perform (.append c) (Nat.zero_le _))

def backspace : Secret := s.perform .backspace (Nat.zero_le _)

def backspaceWord : Secret := s.perform .backspaceWord (Nat.zero_le _)

def normaliseWhitespace : Secret := s.perform .normaliseWhitespace (Nat.zero_le _)

theorem word_added (word : Word) : word.letters.length ≤ kCapacity :=
  Nat.le_trans word.length_le (by decide)

/-- `append(const char *, std::size_t)` of a word. -/
def appendWord (word : Word) : Secret :=
  s.perform (.appendChars (some word.letters)) (word_added word)

/-- `assign` of a generated mnemonic, and whether it fitted. -/
def assign (p : Phrase) : Bool × Secret :=
  ((s.str.assign (some p.text)).1, s.perform (.assign (some p.text)) p.length_text_le)

def setSlotCount (count : ℕ) (h : count ≤ kCapacity) : Secret := s.perform (.setSlotCount count) h

/-- `appendToSlot`, and whether it was done. -/
def appendToSlot (index : ℕ) (c : UInt8) : Bool × Secret :=
  ((s.str.appendToSlot index c).1, s.perform (.appendToSlot index c) (Nat.zero_le _))

def backspaceInSlot (index : ℕ) : Secret := s.perform (.backspaceInSlot index) (Nat.zero_le _)

def clearSlot (index : ℕ) : Secret := s.perform (.clearSlot index) (Nat.zero_le _)

def setSlot (index : ℕ) (word : Word) : Secret :=
  s.perform (.setSlot index (some word.letters)) (word_added word)

/-- `equals`. -/
def equals (other : Secret) : Bool := s.str.equals other.str

def wordCount : ℕ := s.str.wordCount

theorem wordCount_le : s.wordCount ≤ kCapacity := by
  have hloop (inWord : Bool) (cs : Bytes) :
      SecureString.wordCountFrom inWord cs ≤ cs.length := by
    induction cs generalizing inWord with
    | nil => exact Nat.le_refl 0
    | cons c cs ih =>
      rw [SecureString.wordCountFrom, List.length_cons]
      have hfalse := ih false
      have htrue := ih true
      split_ifs <;> omega
  exact Nat.le_trans (hloop false s.text) (Nat.le_of_lt s.clean.room)

def slotCount : ℕ := s.str.slotCount

def slotLength (index : ℕ) : ℕ := s.str.slotLength index

def firstEmptySlot : ℕ := s.str.firstEmptySlot

/-- What `copySlot` leaves in a `char[capacity]`, up to the terminator. -/
def copySlot (index capacity : ℕ) : Bytes :=
  let (n, out) := s.str.copySlot index (some (List.replicate capacity 0))
  (out.getD []).take n

/-- What `copyTrailingWord` leaves in a `char[capacity]`, up to the terminator. -/
def copyTrailingWord (capacity : ℕ) : Bytes :=
  let (n, out) := s.str.copyTrailingWord (some (List.replicate capacity 0))
  (out.getD []).take n

/-- `slotSpan`: where a word starts and how long it is. -/
def slotSpan (index : ℕ) : Option (ℕ × ℕ) := s.str.slotSpan index

@[simp] theorem clear_eq_wiped : s.clear = wiped :=
  ext_str ((s.str_perform .clear _).trans (SecureString.clear_eq_new s.str))

@[simp] theorem text_wiped : wiped.text = [] := SecureString.text_new

end Secret

/-- `mnemonicFromEntropy`: success or the error, and what `*out` holds. -/
def mnemonicFromEntropy (w : Wally) (lib : Bip39) (entropy : Bytes) (out : Secret) :
    Except String Unit × Secret :=
  let out := out.clear
  match lib.wordlist, lib.mnemonicFromBytes entropy with
  | none, _ => (.error "the BIP39 wordlist is unavailable", out)
  | some _, none => (.error "could not turn that entropy into a BIP39 mnemonic", out)
  | some _, some text =>
    let (copied, out) := out.assign text
    if copied then
      match PsbtEngine.bip39Validate w (cStr out.text) with
      | .error err => (.error err, out.clear)
      | .ok () => (.ok (), out)
    else (.error "the generated mnemonic did not fit the secure buffer", out.clear)

/-! ## The four buffers -/

/-- The shared buffers. -/
structure SecretBuffers where
  mnemonic : Secret
  passphrase : Secret
  verification : Secret
  passphraseConfirm : Secret

namespace SecretBuffers

/-- All four empty, every byte zero. -/
def wiped : SecretBuffers := ⟨.wiped, .wiped, .wiped, .wiped⟩

/-- `wipeAllSecrets`. -/
def wipeAllSecrets (b : SecretBuffers) : SecretBuffers :=
  ⟨b.mnemonic.clear, b.passphrase.clear, b.verification.clear, b.passphraseConfirm.clear⟩

@[simp] theorem wipeAllSecrets_eq (b : SecretBuffers) : b.wipeAllSecrets = wiped := by
  simp [wipeAllSecrets, wiped]

/-- `passphraseConfirmed`. -/
def passphraseConfirmed (b : SecretBuffers) : Bool := b.passphrase.equals b.passphraseConfirm

end SecretBuffers

end SignerOS
