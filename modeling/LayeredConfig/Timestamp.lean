import LayeredConfig.Calendar
import LayeredConfig.Numeral.Radix
import LayeredConfig.Text.Blank

/-!
# Points in time

A point in time is a number of whole seconds since the start of 1970 in universal time and the
nanoseconds after it. A leap second has no number of its own: it is the second before it with a
thousand million nanoseconds or more. The order is that of the seconds, then of the nanoseconds.

The written form is a date and a time of day with as many digits of the fraction as are needed, in
groups of three, and a `Z` for universal time. Reading is lenient about blanks, about the number
of digits and about what separates the date from the time, and takes any offset up to a day.

Both stand for a general-purpose library of dates and times, as the calendar does: they follow what
it documents of its relaxed reading and of its written form. Transactions compare points in time and
take the earlier one, and that is all that they do with them.
-/

set_option autoImplicit false

namespace LayeredConfig

structure Timestamp where
  seconds : Int
  nanos : Nat
  deriving DecidableEq, Repr

namespace Timestamp

def nanosPerSecond : Nat := 1000000000

/-- The point in time a number of milliseconds after the start of 1970. -/
def ofMillis (ms : Int) : Timestamp := ⟨ms / 1000, (ms % 1000).toNat * 1000000⟩

/-- Whole milliseconds since the start of 1970, rounded down. -/
def toMillis (t : Timestamp) : Int := t.seconds * 1000 + t.nanos / 1000000

def before (a b : Timestamp) : Bool :=
  a.seconds < b.seconds || (a.seconds == b.seconds && a.nanos < b.nanos)

def earlier (a b : Timestamp) : Timestamp := if b.before a then b else a

/-! ## Writing -/

/-- A number with at least `width` digits, zeros in front. -/
def padded (width n : Nat) : List Char :=
  let digits := Nat.toDigits 10 n
  List.replicate (width - digits.length) '0' ++ digits

/-- A year in four digits; one outside of them has a sign and at least four. -/
def yearChars (year : Int) : List Char :=
  if 0 ≤ year ∧ year ≤ 9999 then padded 4 year.toNat
  else if 0 ≤ year then '+' :: padded 4 year.toNat
  else '-' :: padded 4 (-year).toNat

/-- The fraction of a second in the fewest groups of three digits. -/
def fractionChars (nanos : Nat) : List Char :=
  if nanos = 0 then []
  else if nanos % 1000000 = 0 then '.' :: padded 3 (nanos / 1000000)
  else if nanos % 1000 = 0 then '.' :: padded 6 (nanos / 1000)
  else '.' :: padded 9 nanos

def toText (t : Timestamp) : String :=
  let date := Date.ofDay (t.seconds / 86400)
  let second := (t.seconds % 86400).toNat
  let leap := t.nanos / nanosPerSecond
  String.ofList (
    yearChars date.year ++ '-' :: padded 2 date.month ++ '-' :: padded 2 date.day ++
    'T' :: padded 2 (second / 3600) ++ ':' :: padded 2 (second / 60 % 60) ++
    ':' :: padded 2 (second % 60 + leap) ++ fractionChars (t.nanos % nanosPerSecond) ++ ['Z'])

/-! ## Reading

Each step takes its part off the front and answers the part and what is left, or nothing if the
part is not there.
-/

/-- One to `most` digits as a number. -/
def digits? (most : Nat) (cs : List Char) : Option (Nat × List Char) :=
  let run := (cs.take most).takeWhile Char.isDigit
  (Numeral.nat? 10 run).map fun n => (n, cs.drop run.length)

def mark? (c : Char) : List Char → Option (List Char)
  | d :: cs => if c = d then some cs else none
  | [] => none

/-- A year: four digits, or any number of them after a sign. Blanks before it do not matter. -/
def year? (cs : List Char) : Option (Int × List Char) :=
  match Text.trimStart cs with
  | '-' :: cs => (digits? cs.length cs).map fun (n, cs) => (-(n : Int), cs)
  | '+' :: cs => (digits? cs.length cs).map fun (n, cs) => ((n : Int), cs)
  | cs => (digits? 4 cs).map fun (n, cs) => ((n : Int), cs)

/-- A field of one or two digits. Blanks before it do not matter. -/
def field? (cs : List Char) : Option (Nat × List Char) := digits? 2 (Text.trimStart cs)

/-- The mark `c`, then a field; blanks before either do not matter. -/
def fieldAfter? (c : Char) (cs : List Char) : Option (Nat × List Char) :=
  (mark? c (Text.trimStart cs)).bind field?

/-- A date the calendar has. -/
def date? (cs : List Char) : Option (Date × List Char) := do
  let (year, cs) ← year? cs
  let (month, cs) ← fieldAfter? '-' cs
  let (day, cs) ← fieldAfter? '-' cs
  let date : Date := ⟨year, month, day⟩
  if date.exists? then some (date, cs) else none

/-- The nanoseconds that a fraction denotes; none are lost below the ninth digit but those. -/
def fraction? : List Char → Option (Nat × List Char)
  | '.' :: cs =>
    let run := cs.takeWhile Char.isDigit
    (Numeral.nat? 10 (run.take 9)).map fun n =>
      (n * Nat.pow 10 (9 - (run.take 9).length), cs.drop run.length)
  | cs => some (0, cs)

/-- A time of day in seconds, and nanoseconds that reach into a leap second if it has one. -/
def time? (cs : List Char) : Option (Nat × Nat × List Char) := do
  let (hour, cs) ← field? cs
  let (minute, cs) ← fieldAfter? ':' cs
  let (second, cs) ← fieldAfter? ':' cs
  let (nanos, cs) ← fraction? cs
  if hour < 24 ∧ minute < 60 ∧ second ≤ 60 then
    let leap := second / 60
    some (hour * 3600 + minute * 60 + second - leap, nanos + leap * nanosPerSecond, cs)
  else none

/-- Exactly two digits as a number. -/
def pair? : List Char → Option (Nat × List Char)
  | a :: b :: cs => (Numeral.nat? 10 [a, b]).map fun n => (n, cs)
  | _ => none

/-- Hours and minutes after the sign of an offset, in seconds. -/
def offsetSize? (cs : List Char) : Option (Int × List Char) := do
  let (hours, cs) ← pair? cs
  let (minutes, cs) ← pair? (cs.dropWhile fun c => c == ':' || Text.isBlank c)
  if hours < 24 ∧ minutes < 60 then some (hours * 3600 + minutes * 60, cs) else none

/-- How many seconds the local time is ahead of universal time. The minus sign of typography
    counts as a minus. -/
def offset? (cs : List Char) : Option (Int × List Char) :=
  if (cs.take 3).map Char.toUpper = ['U', 'T', 'C'] then some (0, cs.drop 3)
  else match cs with
    | 'Z' :: cs => some (0, cs)
    | 'z' :: cs => some (0, cs)
    | '+' :: cs => offsetSize? cs
    | '-' :: cs => (offsetSize? cs).map fun (n, cs) => (-n, cs)
    | '−' :: cs => (offsetSize? cs).map fun (n, cs) => (-n, cs)
    | _ => none

/-- The years that a point in time can lie in. -/
def hasYear (year : Int) : Bool := -262143 ≤ year && year ≤ 262142

def ofChars? (cs : List Char) : Option Timestamp := do
  let (date, cs) ← date? cs
  let cs ← (mark? 'T' cs).or ((mark? 't' cs).or (mark? ' ' cs))
  let (second, nanos, cs) ← time? cs
  let (offset, cs) ← offset? (Text.trimStart cs)
  let seconds := date.toDay * 86400 + second - offset
  if (Text.trimStart cs).isEmpty && hasYear date.year && hasYear (Date.ofDay (seconds / 86400)).year
  then some ⟨seconds, nanos⟩
  else none

def ofString? (s : String) : Option Timestamp := ofChars? s.toList

end Timestamp

end LayeredConfig
