import Strongbox.Text.Blank
import Strongbox.Time.Calendar
import Strongbox.Time.Instant
/-!
# RFC 3339 timestamps

Instants are written in UTC as `YYYY-MM-DDTHH:MM:SS`, a fraction of three, six or nine digits
where the value needs one, and the zone. Years outside 0 to 9999 carry a sign and at least four
digits. A leap second is written as second 60.

Reading accepts more than is written:

* numbers may have fewer digits and blanks before them, and blanks may stand before each `-`
  and `:`; a year with a sign may have any number of digits, one without has at most four;
* date and time are separated by `T`, `t` or a space;
* a fraction has any number of digits, of which the first nine count;
* the zone is `Z`, `z`, `UTC` in any case, or a sign and an offset of hours and minutes below 24
  hours, with or without colons or blanks between the two; the sign may be U+2212.
-/

namespace Strongbox.Time.Rfc3339

/-! ## Writing -/

/-- A number with at least `width` digits. -/
def digits (width n : Nat) : List Char :=
  let ds := Nat.toDigits 10 n
  List.replicate (width - ds.length) '0' ++ ds

/-- A year: four digits from 0 to 9999, otherwise a sign and at least four digits. -/
def yearText (year : Int) : List Char :=
  if 0 ≤ year ∧ year ≤ 9999 then digits 4 year.toNat
  else (if year < 0 then '-' else '+') :: digits 4 year.natAbs

/-- The fraction of a second: as few of three, six or nine digits as hold it, none for zero. -/
def fractionText (nanos : Nat) : List Char :=
  if nanos = 0 then []
  else if nanos % 1000000 = 0 then '.' :: digits 3 (nanos / 1000000)
  else if nanos % 1000 = 0 then '.' :: digits 6 (nanos / 1000)
  else '.' :: digits 9 nanos

/-- Date and time of day of an instant, without the zone. -/
def localText (t : Instant) : List Char :=
  let date := Date.ofDays (t.seconds / 86400)
  let second := t.secondOfDay.toNat
  let extra := if t.isLeap then 1 else 0
  yearText date.year ++ ['-'] ++ digits 2 date.month ++ ['-'] ++ digits 2 date.day ++ ['T']
    ++ digits 2 (second / 3600) ++ [':'] ++ digits 2 (second / 60 % 60) ++ [':']
    ++ digits 2 (second % 60 + extra) ++ fractionText (t.nanos % 1000000000)

/-- The timestamp of an instant, with the zone `Z`. -/
def write (t : Instant) : String := String.ofList (localText t ++ ['Z'])

/-- The timestamp of an instant, with the zone `+00:00`. -/
def writeOffset (t : Instant) : String :=
  String.ofList (localText t ++ ['+', '0', '0', ':', '0', '0'])

/-! ## Reading -/

/-- A number of one to `width` digits, and what follows it. -/
def number? (width : Nat) (chars : List Char) : Option (Nat × List Char) :=
  let ds := (chars.take width).takeWhile Char.isDigit
  if ds.isEmpty then none
  else some (ds.foldl (fun n c => 10 * n + (c.toNat - 48)) 0, chars.drop ds.length)

/-- A number after blanks. -/
def field? (width : Nat) (chars : List Char) : Option (Nat × List Char) :=
  number? width (Text.dropBlanks chars)

/-- A year after blanks. -/
def year? (chars : List Char) : Option (Int × List Char) :=
  match Text.dropBlanks chars with
  | '-' :: rest => (number? rest.length rest).map fun (n, rest) => (-(n : Int), rest)
  | '+' :: rest => (number? rest.length rest).map fun (n, rest) => ((n : Int), rest)
  | chars => (number? 4 chars).map fun (n, rest) => ((n : Int), rest)

/-- What follows the mark `mark`, which may have blanks before it. -/
def mark? (mark : Char) (chars : List Char) : Option (List Char) :=
  match Text.dropBlanks chars with
  | c :: rest => if c = mark then some rest else none
  | [] => none

/-- A fraction of a second in nanoseconds, if there is one. -/
def fraction? : List Char → Option (Nat × List Char)
  | '.' :: rest => do
    let (n, after) ← number? 9 rest
    let count := rest.length - after.length
    some (n * Nat.pow 10 (9 - count), after.dropWhile Char.isDigit)
  | chars => some (0, chars)

/-- Two digits. -/
def twoDigits? : List Char → Option (Nat × List Char)
  | a :: b :: rest =>
    if a.isDigit && b.isDigit then some (10 * (a.toNat - 48) + (b.toNat - 48), rest) else none
  | _ => none

/-- Hours and minutes of an offset, in minutes. -/
def offset? (chars : List Char) : Option (Int × List Char) := do
  let (hours, rest) ← twoDigits? chars
  let (minutes, rest) ← twoDigits? (rest.dropWhile fun c => c == ':' || Text.isBlank c)
  if minutes < 60 ∧ hours < 24 then some (60 * hours + minutes, rest) else none

/-- The zone, as the minutes by which its clocks are ahead of UTC. -/
def zone? (chars : List Char) : Option (Int × List Char) :=
  match chars with
  | 'Z' :: rest | 'z' :: rest => some (0, rest)
  | '+' :: rest => offset? rest
  | '-' :: rest | '\u2212' :: rest => (offset? rest).map fun (n, rest) => (-n, rest)
  | a :: b :: c :: rest =>
    if [a, b, c].map Char.toUpper = ['U', 'T', 'C'] then some (0, rest) else none
  | _ => none

/-- The instant of a timestamp, if it is one. -/
def readChars? (chars : List Char) : Option Instant := do
  let (year, rest) ← year? chars
  let rest ← mark? '-' rest
  let (month, rest) ← field? 2 rest
  let rest ← mark? '-' rest
  let (day, rest) ← field? 2 rest
  let rest ← match rest with
    | c :: rest => if c = 'T' ∨ c = 't' ∨ c = ' ' then some rest else none
    | [] => none
  let (hour, rest) ← field? 2 rest
  let rest ← mark? ':' rest
  let (minute, rest) ← field? 2 rest
  let rest ← mark? ':' rest
  let (second, rest) ← field? 2 rest
  let (nanos, rest) ← fraction? rest
  let (offset, rest) ← zone? (Text.dropBlanks rest)
  let date : Date := ⟨year, month, day⟩
  if date.Exists ∧ hour < 24 ∧ minute < 60 ∧ second ≤ 60 ∧ Text.dropBlanks rest = []
      ∧ firstSecond ≤ 86400 * date.toDays ∧ 86400 * date.toDays ≤ lastSecond then
    let whole : Int := 86400 * date.toDays + 3600 * hour + 60 * minute
    if second = 60 then Instant.ofParts? (whole + 59 - 60 * offset) (nanos + 1000000000)
    else Instant.ofParts? (whole + second - 60 * offset) nanos
  else none

/-- The instant of a timestamp, if it is one. -/
def read? (text : String) : Option Instant := readChars? text.toList

end Strongbox.Time.Rfc3339
