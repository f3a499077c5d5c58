import Muster.Decimal.Power
import Muster.Text.Blank

/-!
# Points in time

* `Timestamp.text`: date and time of day in UTC, with three, six or nine fraction digits where needed.
* `Timestamp.ofText?`: reads a date, a separator, a time of day and an offset from UTC; blanks may
  stand around the numbers, and numbers need no padding.

A leap second is the last second of its minute with a full second of nanoseconds on top.
-/

namespace Muster

/-- A point in time. -/
structure Timestamp where
  /-- Whole seconds since the start of 1970 in UTC. -/
  seconds : Int
  /-- Nanoseconds beyond the whole seconds; from a full second on, a leap second. -/
  nanos : Nat
deriving DecidableEq, Repr, Inhabited

namespace Timestamp

/-! ### The calendar -/

/-- A calendar date. -/
structure Date where
  year : Int
  month : Nat
  day : Nat
deriving DecidableEq, Repr

/-- Whether the year has a 29 February. -/
def isLeapYear (y : Int) : Bool := y % 4 = 0 && (y % 100 ≠ 0 || y % 400 = 0)

/-- The number of days of a month. -/
def daysInMonth (y : Int) (m : Nat) : Nat :=
  if m = 2 then (if isLeapYear y then 29 else 28)
  else if m ∈ [4, 6, 9, 11] then 30 else 31

/-- The days from the start of 1970 to a date; years count from March here, so that the leap day is
the last of its year. -/
def daysOf (d : Date) : Int :=
  let y := if d.month ≤ 2 then d.year - 1 else d.year
  let era := y.fdiv 400
  let yearOfEra := y - era * 400
  let monthFromMarch : Int := ((d.month + 9) % 12 : Nat)
  let dayOfYear := (153 * monthFromMarch + 2) / 5 + d.day - 1
  era * 146097 + (yearOfEra * 365 + yearOfEra / 4 - yearOfEra / 100 + dayOfYear) - 719468

/-- The date that many days after the start of 1970. -/
def dateOf (days : Int) : Date :=
  let z := days + 719468
  let era := z.fdiv 146097
  let dayOfEra := z - era * 146097
  let yearOfEra := (dayOfEra - dayOfEra / 1460 + dayOfEra / 36524 - dayOfEra / 146096) / 365
  let dayOfYear := dayOfEra - (365 * yearOfEra + yearOfEra / 4 - yearOfEra / 100)
  let monthFromMarch := (5 * dayOfYear + 2) / 153
  let day := dayOfYear - (153 * monthFromMarch + 2) / 5 + 1
  let month := if monthFromMarch < 10 then monthFromMarch + 3 else monthFromMarch - 9
  ⟨yearOfEra + era * 400 + (if month ≤ 2 then 1 else 0), month.toNat, day.toNat⟩

/-- The years that a timestamp may fall in. -/
def yearInRange (y : Int) : Bool := -262143 ≤ y && y ≤ 262142

/-! ### Writing -/

/-- A number with zeros in front up to the given width. -/
def padded (width n : Nat) : String :=
  let ds := Nat.toDigits 10 n
  String.ofList (List.replicate (width - ds.length) '0' ++ ds)

/-- A year; outside four digits it carries its sign. -/
def yearText (y : Int) : String :=
  if 0 ≤ y ∧ y ≤ 9999 then padded 4 y.toNat
  else (if y < 0 then "-" else "+") ++ padded 4 y.natAbs

/-- The fraction of a second, in as many groups of three digits as it needs. -/
def fractionText (nanos : Nat) : String :=
  if nanos = 0 then ""
  else if nanos % 1000000 = 0 then "." ++ padded 3 (nanos / 1000000)
  else if nanos % 1000 = 0 then "." ++ padded 6 (nanos / 1000)
  else "." ++ padded 9 nanos

/-- Date and time of day in UTC. -/
def text (t : Timestamp) : String :=
  let d := dateOf (t.seconds.fdiv 86400)
  let s := (t.seconds.fmod 86400).toNat
  let leap := if t.nanos ≥ 1000000000 then 1 else 0
  yearText d.year ++ "-" ++ padded 2 d.month ++ "-" ++ padded 2 d.day ++ "T" ++
    padded 2 (s / 3600) ++ ":" ++ padded 2 (s % 3600 / 60) ++ ":" ++ padded 2 (s % 60 + leap) ++
    fractionText (t.nanos % 1000000000) ++ "Z"

/-! ### Reading -/

/-- The value of a decimal digit. -/
def digit? (c : Char) : Option Nat :=
  if '0' ≤ c ∧ c ≤ '9' then some (c.toNat - 48) else none

/-- Drops leading blanks. -/
def skipBlanks (cs : List Char) : List Char := cs.dropWhile Text.isBlank

/-- Reads a number of one to `width` digits. -/
def readNumber (width : Nat) (cs : List Char) : Option (Nat × List Char) :=
  let ds := (cs.take width).takeWhile (fun c => (digit? c).isSome)
  if ds.isEmpty then none
  else some (ds.foldl (fun n c => 10 * n + (digit? c).getD 0) 0, cs.drop ds.length)

/-- Reads a number behind blanks that lies between two bounds. -/
def readField (low high : Nat) (cs : List Char) : Option (Nat × List Char) := do
  let (n, rest) ← readNumber 2 (skipBlanks cs)
  if low ≤ n ∧ n ≤ high then some (n, rest) else none

/-- Reads a year: four digits at most, or any number of them behind a sign. -/
def readYear (cs : List Char) : Option (Int × List Char) :=
  match skipBlanks cs with
  | '-' :: cs => (readNumber cs.length cs).map fun (n, rest) => (-(n : Int), rest)
  | '+' :: cs => (readNumber cs.length cs).map fun (n, rest) => ((n : Int), rest)
  | cs => (readNumber 4 cs).map fun (n, rest) => ((n : Int), rest)

/-- Reads one character behind blanks. -/
def readMark (c : Char) (cs : List Char) : Option (List Char) :=
  match skipBlanks cs with
  | d :: rest => if c = d then some rest else none
  | [] => none

/-- Reads a date. -/
def readDate (cs : List Char) : Option (Date × List Char) := do
  let (y, cs) ← readYear cs
  let cs ← readMark '-' cs
  let (m, cs) ← readField 1 12 cs
  let cs ← readMark '-' cs
  let (d, cs) ← readField 1 31 cs
  if yearInRange y ∧ d ≤ daysInMonth y m then some (⟨y, m, d⟩, cs) else none

/-- Reads the fraction of a second in nanoseconds; digits beyond the ninth are dropped. -/
def readFraction (cs : List Char) : Option (Nat × List Char) :=
  match cs with
  | '.' :: cs => do
    let (n, rest) ← readNumber 9 cs
    let used := cs.length - rest.length
    some (n * tenTo (9 - used), rest.dropWhile fun c => (digit? c).isSome)
  | cs => some (0, cs)

/-- Reads a time of day as whole seconds and nanoseconds. -/
def readTime (cs : List Char) : Option ((Nat × Nat) × List Char) := do
  let (h, cs) ← readField 0 23 cs
  let cs ← readMark ':' cs
  let (m, cs) ← readField 0 59 cs
  let cs ← readMark ':' cs
  let (s, cs) ← readField 0 60 cs
  let (nanos, cs) ← readFraction cs
  let leap := if s = 60 then 1 else 0
  some ((h * 3600 + m * 60 + (s - leap), nanos + leap * 1000000000), cs)

/-- Reads exactly two digits. -/
def readPair : List Char → Option (Nat × List Char)
  | a :: b :: rest => do
    let a ← digit? a
    let b ← digit? b
    some (10 * a + b, rest)
  | _ => none

/-- Reads hours and minutes of an offset, in seconds. -/
def readOffsetDigits (cs : List Char) : Option (Nat × List Char) := do
  let (h, cs) ← readPair cs
  let (m, cs) ← readPair (cs.dropWhile fun c => c = ':' || Text.isBlank c)
  if m < 60 then some (h * 3600 + m * 60, cs) else none

/-- Reads an offset from UTC in seconds. -/
def readOffset : List Char → Option (Int × List Char)
  | 'Z' :: rest | 'z' :: rest => some (0, rest)
  | '+' :: rest => (readOffsetDigits rest).map fun (n, rest) => ((n : Int), rest)
  | '-' :: rest | '−' :: rest => (readOffsetDigits rest).map fun (n, rest) => (-(n : Int), rest)
  | a :: b :: c :: rest =>
    if [a, b, c].map Char.toUpper = ['U', 'T', 'C'] then some (0, rest) else none
  | _ => none

/-- Reads a point in time; an offset of a whole day or more is refused. -/
def ofText? (s : String) : Option Timestamp := do
  let (d, cs) ← readDate s.toList
  let cs ← match cs with
    | c :: cs => if c = 't' ∨ c = 'T' ∨ c = ' ' then some cs else none
    | [] => none
  let ((secs, nanos), cs) ← readTime cs
  let (offset, cs) ← readOffset (skipBlanks cs)
  if skipBlanks cs ≠ [] ∨ offset.natAbs ≥ 86400 then none
  else
    let seconds := daysOf d * 86400 + secs - offset
    if yearInRange (dateOf (seconds.fdiv 86400)).year then some ⟨seconds, nanos⟩ else none

end Timestamp

end Muster
