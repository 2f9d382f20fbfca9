import DocComments.Number.Numeral
import DocComments.Text.Blank
import DocComments.Text.Find
import DocComments.Text.Word
import DocComments.Time.Date

/-! Instants in universal time, and their text: RFC 3339, read with some freedom and written in its
shortest exact form. -/
namespace DocComments

/-- An instant. A leap second is the second before it with a billion nanoseconds or more. -/
structure Instant where
  date : Date
  second : Nat
  nano : Nat
  deriving DecidableEq, Repr

namespace Instant
open Text

def lt (a b : Instant) : Bool :=
  a.date.lt b.date || (a.date == b.date &&
    (a.second < b.second || (a.second == b.second && a.nano < b.nano)))

/-- Microseconds since the start of 1970, rounded down. -/
def micros (t : Instant) : Int :=
  (t.date.number * 86400 + t.second) * 1000000 + t.nano / 1000

def addMinutes (minutes : Nat) (t : Instant) : Instant :=
  let total := t.second + 60 * minutes
  { t with date := Nat.repeat Date.next (total / 86400) t.date, second := total % 86400 }

def ofNanoseconds (nanos : Nat) : Instant :=
  let seconds := nanos / 1000000000
  { date := Nat.repeat Date.next (seconds / 86400) { year := 1970, month := 1, day := 1 }
    second := seconds % 86400
    nano := nanos % 1000000000 }

def padded (count n : Nat) : List Char :=
  let digits := Numeral.digits n
  List.replicate (count - digits.length) '0' ++ digits

/-- The year, with a sign if it has not four digits. -/
def yearText (year : Int) : List Char :=
  if 0 ≤ year && year ≤ 9999 then padded 4 year.toNat
  else (if year < 0 then '-' else '+') :: padded 4 year.natAbs

/-- The fraction of a second: none, or as many groups of three digits as it needs. -/
def fractionText (nano : Nat) : List Char :=
  if nano = 0 then []
  else if nano % 1000000 = 0 then '.' :: padded 3 (nano / 1000000)
  else if nano % 1000 = 0 then '.' :: padded 6 (nano / 1000)
  else '.' :: padded 9 nano

def text (t : Instant) : List Char :=
  let leap := t.nano / 1000000000
  yearText t.date.year ++ '-' :: padded 2 t.date.month ++ '-' :: padded 2 t.date.day ++
    'T' :: padded 2 (t.second / 3600) ++ ':' :: padded 2 (t.second / 60 % 60) ++
    ':' :: padded 2 (t.second % 60 + leap) ++ fractionText (t.nano % 1000000000) ++ ['Z']

/-- A number of one to `most` digits, with blanks in front of it allowed. -/
def number? (most : Nat) (s : List Char) : Option (Nat × List Char) :=
  let s := trimStart s
  match (s.takeWhile isAsciiDigit).take most with
  | [] => none
  | c :: digits => some (Numeral.ofDigits (c :: digits), s.drop (digits.length + 1))

/-- A year of up to four digits, or of any number of digits behind a sign. -/
def year? (s : List Char) : Option (Int × List Char) :=
  match trimStart s with
  | '-' :: rest => if blankFirst rest then none else
      (number? rest.length rest).map fun (n, rest) => (-(n : Int), rest)
  | '+' :: rest => if blankFirst rest then none else
      (number? rest.length rest).map fun (n, rest) => ((n : Int), rest)
  | s => (number? 4 s).map fun (n, rest) => ((n : Int), rest)
where
  blankFirst (s : List Char) : Bool := (s.head?.map isBlank).getD false

/-- What follows a mark, with blanks in front of it allowed. -/
def mark? (c : Char) (s : List Char) : Option (List Char) :=
  dropPrefix? [c] (trimStart s)

/-- The nanoseconds of a fraction. Digits beyond the ninth are passed over. -/
def nano? (s : List Char) : Option (Nat × List Char) :=
  match s with
  | '.' :: rest =>
    let digits := rest.takeWhile isAsciiDigit
    let kept := digits.take 9
    if digits.isEmpty then none
    else some (Numeral.ofDigits kept * tenPow (9 - kept.length), rest.dropWhile isAsciiDigit)
  | _ => some (0, s)

def twoDigits? (s : List Char) : Option (Nat × List Char) :=
  match s with
  | a :: b :: rest =>
    if isAsciiDigit a && isAsciiDigit b then some (Numeral.ofDigits [a, b], rest) else none
  | _ => none

/-- Hours and minutes of an offset, in seconds. Colons and blanks between them are passed over. -/
def offsetSize? (s : List Char) : Option (Nat × List Char) := do
  let (hours, s) ← twoDigits? s
  let (minutes, s) ← twoDigits? (s.dropWhile fun c => c == ':' || isBlank c)
  if minutes < 60 && hours < 24 then some (3600 * hours + 60 * minutes, s) else none

/-- An offset from universal time, in seconds. -/
def offset? (s : List Char) : Option (Int × List Char) :=
  match s with
  | 'Z' :: rest | 'z' :: rest => some (0, rest)
  | '+' :: rest => (offsetSize? rest).map fun (n, rest) => ((n : Int), rest)
  | '-' :: rest | '\u2212' :: rest => (offsetSize? rest).map fun (n, rest) => (-(n : Int), rest)
  | u :: t :: c :: rest =>
    if (u == 'U' || u == 'u') && (t == 'T' || t == 't') && (c == 'C' || c == 'c') then some (0, rest)
    else none
  | _ => none

/-- What follows the mark between date and time. -/
def timeMark? (s : List Char) : Option (List Char) :=
  match s with
  | 'T' :: rest | 't' :: rest | ' ' :: rest => some rest
  | _ => none

/-- The instant of a local time that is `offset` seconds ahead of universal time. -/
def ofLocal (date : Date) (second : Nat) (nano : Nat) (offset : Int) : Instant :=
  let shifted := (second : Int) - offset
  if shifted < 0 then { date := date.previous, second := (shifted + 86400).toNat, nano }
  else if 86400 ≤ shifted then { date := date.next, second := (shifted - 86400).toNat, nano }
  else { date, second := shifted.toNat, nano }

/-- Reads an instant. Numbers may be short, blanks may stand in front of them, and a second of 60 is a
leap second. -/
def parse? (s : List Char) : Option Instant := do
  let (year, s) ← year? s
  let s ← mark? '-' s
  let (month, s) ← number? 2 s
  let s ← mark? '-' s
  let (day, s) ← number? 2 s
  let s ← timeMark? s
  let (hour, s) ← number? 2 s
  let s ← mark? ':' s
  let (minute, s) ← number? 2 s
  let s ← mark? ':' s
  let (second, s) ← number? 2 s
  let (nano, s) ← nano? s
  let (offset, s) ← offset? (trimStart s)
  guard (allBlank s)
  let date : Date := { year, month, day }
  guard (date.isValid && hour < 24 && minute < 60 && second ≤ 60)
  let leap := second / 60
  let instant :=
    ofLocal date (3600 * hour + 60 * minute + (second - leap)) (nano + 1000000000 * leap) offset
  guard instant.date.isValid
  some instant

end Instant
end DocComments
