import Lookout.Calendar.Instant
import Lookout.Text.Blank
import Lookout.Text.Integer

/-!
# Time stamps

The text of an instant: `2024-06-13T17:00:00.5Z`.

* `Instant.timestamp` writes one in UTC. The year has four digits, and a sign when it is negative
  or has more; the fraction has 3, 6 or 9 digits, the fewest that are exact, and is left out when
  it is zero. A leap second is second 60.
* `Instant.ofTimestamp?` reads one. It is more lenient: fields need not be padded, blanks may stand
  between them, a space or a small `t` may stand between date and time, the fraction may have any
  length (digits after the ninth are skipped), and the offset is `Z`, `UTC` or a sign with two
  digits for the hours, colons or blanks if any, and two digits for the minutes.
-/

namespace Lookout.Instant

open Text

/-! ## Writing -/

/-- A year: four digits, with a sign if it is negative or needs more. -/
def yearText (year : Int) : List Char :=
  if 0 ≤ year ∧ year ≤ 9999 then padded 4 year.toNat
  else (if year < 0 then '-' else '+') :: padded 4 year.natAbs

/-- A fraction of a second in the fewest of 3, 6 and 9 digits. -/
def fractionText (nano : Nat) : List Char :=
  if nano = 0 then []
  else if nano % 1000000 = 0 then '.' :: padded 3 (nano / 1000000)
  else if nano % 1000 = 0 then '.' :: padded 6 (nano / 1000)
  else '.' :: padded 9 nano

/-- The characters of a time stamp. -/
def timestampChars (t : Instant) : List Char :=
  let date := t.date
  let leap := if t.inLeapSecond then 1 else 0
  yearText date.year ++ '-' :: padded 2 date.month ++ '-' :: padded 2 date.day ++
    'T' :: padded 2 (t.second / 3600) ++ ':' :: padded 2 (t.second / 60 % 60) ++
    ':' :: padded 2 (t.second % 60 + leap) ++ fractionText (t.nano % 1000000000) ++ ['Z']

/-- The text of an instant. -/
def timestamp (t : Instant) : String :=
  String.ofList t.timestampChars

/-! ## Reading -/

/-- Digits at the start of a text, at least one and at most `most`, and the rest. -/
def readDigitRun? (most : Nat) (s : List Char) : Option (Nat × List Char) :=
  let run := (s.takeWhile isDigit).take most
  if run.isEmpty then none
  else some (run.foldl (fun n c => 10 * n + digitValue c) 0, s.drop run.length)

/-- A field of at most two digits, after blanks. -/
def readField? (s : List Char) : Option (Nat × List Char) :=
  readDigitRun? 2 (trimStart s)

/-- A year, after blanks: up to four digits, or a sign and any number of digits. -/
def readYear? (s : List Char) : Option (Int × List Char) :=
  match trimStart s with
  | '-' :: r => (readDigitRun? r.length r).map fun (n, r) => (-(n : Int), r)
  | '+' :: r => (readDigitRun? r.length r).map fun (n, r) => ((n : Int), r)
  | r => (readDigitRun? 4 r).map fun (n, r) => ((n : Int), r)

/-- A mark between two fields, after blanks. -/
def readMark? (mark : Char) (s : List Char) : Option (List Char) :=
  match trimStart s with
  | c :: r => if c = mark then some r else none
  | [] => none

/-- The fraction of a second in nanoseconds, 0 if there is none. -/
def readFraction? : List Char → Option (Nat × List Char)
  | '.' :: s =>
    (readDigitRun? 9 s).map fun (n, r) =>
      (n * Nat.pow 10 (9 - (s.length - r.length)), r.dropWhile isDigit)
  | s => some (0, s)

/-- Two digits of an offset. -/
def readPair? : List Char → Option (Nat × List Char)
  | a :: b :: r =>
    if isDigit a && isDigit b then some (10 * digitValue a + digitValue b, r) else none
  | _ => none

/-- The hours and minutes of an offset, in seconds. -/
def readOffsetLength? (s : List Char) : Option (Nat × List Char) := do
  let (hours, s) ← readPair? s
  let (minutes, s) ← readPair? (s.dropWhile fun c => c == ':' || isBlank c)
  if minutes < 60 then some (hours * 3600 + minutes * 60, s) else none

/-- The offset from UTC in seconds, positive to the east. -/
def readOffset? : List Char → Option (Int × List Char)
  | 'Z' :: r => some (0, r)
  | 'z' :: r => some (0, r)
  | '+' :: r => (readOffsetLength? r).map fun (n, r) => ((n : Int), r)
  | '-' :: r => (readOffsetLength? r).map fun (n, r) => (-(n : Int), r)
  | '−' :: r => (readOffsetLength? r).map fun (n, r) => (-(n : Int), r)
  | u :: t :: c :: r =>
    if u.toLower = 'u' ∧ t.toLower = 't' ∧ c.toLower = 'c' then some (0, r) else none
  | _ => none

/-- The instant of a date and a time of day at an offset. Offsets are whole minutes, so a leap
second stays at the end of a minute. -/
def ofFields? (year : Int) (month day hour minute second nano : Nat) (offset : Int) :
    Option Instant := do
  let date ← Date.of? year month day
  if date.inRange ∧ hour < 24 ∧ minute < 60 ∧ second ≤ 60 ∧ offset.natAbs < 86400 then
    let time := hour * 3600 + minute * 60 + min second 59
    let nano := (nano % 1000000000) + if second = 60 then 1000000000 else 0
    let seconds := date.toDays * 86400 + time - offset
    if h : nano < 2000000000 ∧ (1000000000 ≤ nano → seconds % 60 = 59) then
      ofSeconds? seconds nano h.1 h.2
    else none
  else none

/-- Reads the characters of a time stamp. -/
def ofTimestampChars? (s : List Char) : Option Instant := do
  let (year, s) ← readYear? s
  let s ← readMark? '-' s
  let (month, s) ← readField? s
  let s ← readMark? '-' s
  let (day, s) ← readField? s
  let s ← match s with
    | c :: r => if c = 'T' ∨ c = 't' ∨ c = ' ' then some r else none
    | [] => none
  let (hour, s) ← readField? s
  let s ← readMark? ':' s
  let (minute, s) ← readField? s
  let s ← readMark? ':' s
  let (second, s) ← readField? s
  let (nano, s) ← readFraction? s
  let (offset, s) ← readOffset? (trimStart s)
  if (trimStart s).isEmpty then ofFields? year month day hour minute second nano offset else none

/-- Reads the text of an instant. -/
def ofTimestamp? (s : String) : Option Instant :=
  ofTimestampChars? s.toList

end Lookout.Instant
