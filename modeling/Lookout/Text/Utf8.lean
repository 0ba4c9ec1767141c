/-!
# UTF-8

* `Utf8.encode`: the bytes of a text, as numbers below 256.
* `Utf8.decode?`: the text of some bytes, if they are one.
* `Utf8.decodeLossy`: the text of any bytes; each run of bytes that starts a character but does not
  finish it, and each byte that cannot start one, becomes U+FFFD.
-/

namespace Lookout.Text.Utf8

/-! ## Encoding -/

/-- The bytes of a character. -/
def encodeChar (c : Char) : List Nat :=
  let n := c.toNat
  if n < 0x80 then [n]
  else if n < 0x800 then [0xC0 + n / 64, 0x80 + n % 64]
  else if n < 0x10000 then [0xE0 + n / 4096, 0x80 + n / 64 % 64, 0x80 + n % 64]
  else [0xF0 + n / 262144, 0x80 + n / 4096 % 64, 0x80 + n / 64 % 64, 0x80 + n % 64]

/-- The bytes of a text. -/
def encode (s : List Char) : List Nat :=
  s.flatMap encodeChar

/-! ## Decoding -/

/-- What the first byte of a character tells: the number of bytes to come, the range of the next
one, and its own part of the character. -/
structure Lead where
  count : Nat
  low : Nat
  high : Nat
  bits : Nat
  deriving DecidableEq, Repr

/-- The first byte of a character. The ranges leave out overlong forms and surrogates, and end at
U+10FFFF. -/
def lead? (b : Nat) : Option Lead :=
  if b < 0x80 then some ⟨0, 0x80, 0xBF, b⟩
  else if 0xC2 ≤ b ∧ b ≤ 0xDF then some ⟨1, 0x80, 0xBF, b - 0xC0⟩
  else if b = 0xE0 then some ⟨2, 0xA0, 0xBF, 0⟩
  else if b = 0xED then some ⟨2, 0x80, 0x9F, 13⟩
  else if 0xE1 ≤ b ∧ b ≤ 0xEF then some ⟨2, 0x80, 0xBF, b - 0xE0⟩
  else if b = 0xF0 then some ⟨3, 0x90, 0xBF, 0⟩
  else if 0xF1 ≤ b ∧ b ≤ 0xF3 then some ⟨3, 0x80, 0xBF, b - 0xF0⟩
  else if b = 0xF4 then some ⟨3, 0x80, 0x8F, 4⟩
  else none

/-- Reads bytes that go on with a character, the first of them in the given range: the value, none
if one is missing, and the bytes after them. -/
def readTail : (count low high value : Nat) → List Nat → Option Nat × List Nat
  | 0, _, _, value, rest => (some value, rest)
  | _ + 1, _, _, _, [] => (none, [])
  | count + 1, low, high, value, b :: rest =>
    if low ≤ b ∧ b ≤ high then readTail count 0x80 0xBF (64 * value + b % 64) rest
    else (none, b :: rest)

theorem length_readTail_le : ∀ (count low high value : Nat) (s : List Nat),
    (readTail count low high value s).2.length ≤ s.length
  | 0, _, _, _, _ => Nat.le_refl _
  | _ + 1, _, _, _, [] => Nat.le_refl _
  | count + 1, low, high, value, b :: rest => by
    unfold readTail
    split
    · exact Nat.le_succ_of_le (length_readTail_le _ _ _ _ _)
    · exact Nat.le_refl _

/-- Reads the character that begins with a byte: the character, none if it is not one, and the bytes
after it. -/
def readChar (b : Nat) (s : List Nat) : Option Char × List Nat :=
  match lead? b with
  | none => (none, s)
  | some l =>
    match readTail l.count l.low l.high l.bits s with
    | (some n, rest) => (some (Char.ofNat n), rest)
    | (none, rest) => (none, rest)

theorem length_readChar_le (b : Nat) (s : List Nat) : (readChar b s).2.length ≤ s.length := by
  unfold readChar
  split
  · exact Nat.le_refl _
  · rename_i l _
    have h := length_readTail_le l.count l.low l.high l.bits s
    split <;> simp_all

/-- The characters of some bytes, none for each fault. -/
def readChars : List Nat → List (Option Char)
  | [] => []
  | b :: rest => (readChar b rest).1 :: readChars (readChar b rest).2
termination_by s => s.length
decreasing_by
  have := length_readChar_le b rest
  simp only [List.length_cons]
  omega

/-- The text of some bytes, if they are one. -/
def decode? (bytes : List Nat) : Option (List Char) :=
  (readChars bytes).mapM id

/-- What stands for a fault. -/
def replacement : Char := '\uFFFD'

/-- The text of any bytes. -/
def decodeLossy (bytes : List Nat) : List Char :=
  (readChars bytes).map fun c => c.getD replacement

end Lookout.Text.Utf8
