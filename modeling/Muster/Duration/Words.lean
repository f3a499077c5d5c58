import Muster.Decimal.Power
import Muster.Duration.Basic
import Muster.Text.Blank

/-!
# Spans of time in words

* `Duration.words`: a span as a sum of years, months, days and clock units, `1m 30s`.
* `Duration.ofWords?`: reads a sum of numbers with units; blanks may stand anywhere between digits,
  and a number may have a fraction.

A year has 365.25 days and a month 30.44 days. The fraction of an hour or of a longer unit counts
in whole seconds.
-/

namespace Muster.Duration

/-- The units that words may name. -/
inductive Unit where
  | nanosecond
  | microsecond
  | millisecond
  | second
  | minute
  | hour
  | day
  | week
  | month
  | year
deriving DecidableEq, Repr

namespace Unit

/-- The nanoseconds of a unit. -/
def nanos : Unit → Nat
  | nanosecond => 1
  | microsecond => 1000
  | millisecond => 1000000
  | second => perSecond
  | minute => 60 * perSecond
  | hour => 3600 * perSecond
  | day => 86400 * perSecond
  | week => 7 * 86400 * perSecond
  | month => 2630016 * perSecond
  | year => 31557600 * perSecond

/-- The unit that a word names. -/
def ofWord? (w : String) : Option Unit :=
  if w ∈ ["nanos", "nsec", "ns"] then some nanosecond
  else if w ∈ ["usec", "us", "µs"] then some microsecond
  else if w ∈ ["millis", "msec", "ms"] then some millisecond
  else if w ∈ ["seconds", "second", "secs", "sec", "s"] then some second
  else if w ∈ ["minutes", "minute", "mins", "min", "m"] then some minute
  else if w ∈ ["hours", "hour", "hrs", "hr", "h"] then some hour
  else if w ∈ ["days", "day", "d"] then some day
  else if w ∈ ["weeks", "week", "wks", "wk", "w"] then some week
  else if w ∈ ["months", "month", "M"] then some month
  else if w ∈ ["years", "year", "yrs", "yr", "y"] then some year
  else none

/-- The resolution at which the whole part of a number counts: seconds from the second on. -/
def wholeStep : Unit → Nat
  | nanosecond | microsecond | millisecond => 1
  | _ => perSecond

/-- The resolution at which the fraction of a number counts: seconds from the hour on. -/
def fractionStep : Unit → Nat
  | nanosecond | microsecond | millisecond | second | minute => 1
  | _ => perSecond

end Unit

/-- Numbers in words are below `2 ^ 64`. -/
def wordLimit : Nat := twoTo 64

/-- A number that stays below the limit. -/
def bounded? (n : Nat) : Option Nat := if n < wordLimit then some n else none

/-- The value of a decimal digit. -/
def digit? (c : Char) : Option Nat :=
  if '0' ≤ c ∧ c ≤ '9' then some (c.toNat - 48) else none

/-- Whether a unit's word may hold the character. -/
def isUnitChar (c : Char) : Bool := ('a' ≤ c ∧ c ≤ 'z') || ('A' ≤ c ∧ c ≤ 'Z') || c = 'µ'

/-- A number in words: its whole part and, after a point, numerator and denominator of its fraction. -/
structure Amount where
  /-- The whole part. -/
  whole : Nat
  /-- The fraction behind the point. -/
  fraction : Option (Nat × Nat)

/-- Reads the digits behind a point up to the unit's word. -/
def readFraction : Nat → Nat → List Char → Option ((Nat × Nat) × List Char)
  | num, den, [] => if den = 1 then none else some ((num, den), [])
  | num, den, c :: cs =>
    match digit? c with
    | some d => do
      let den ← bounded? (den * 10)
      let num ← bounded? (num * 10 + d)
      readFraction num den cs
    | none =>
      if Text.isBlank c then readFraction num den cs
      else if isUnitChar c ∧ den ≠ 1 then some ((num, den), c :: cs)
      else none

/-- Reads the rest of a number whose digits so far make `n`, up to the unit's word. -/
def readAmount : Nat → List Char → Option (Amount × List Char)
  | n, [] => some (⟨n, none⟩, [])
  | n, c :: cs =>
    match digit? c with
    | some d => do
      let n ← bounded? (n * 10 + d)
      readAmount n cs
    | none =>
      if Text.isBlank c then readAmount n cs
      else if isUnitChar c then some (⟨n, none⟩, c :: cs)
      else if c = '.' then (readFraction 0 1 cs).map fun (f, rest) => (⟨n, some f⟩, rest)
      else none

/-- The span of `count` units at the given resolution, added to `d`. -/
def plus? (d : Duration) (nanos step : Nat) : Option Duration := do
  -- the two parts of a sum are kept apart: seconds, and nanoseconds of the units below a second
  let (seconds, rest) := if step = 1 then (0, nanos) else (nanos / perSecond, 0)
  let rest ← bounded? (d.subsecond + rest)
  let sum := d.seconds + seconds + rest / perSecond
  let _ ← bounded? sum
  some (ofParts sum (rest % perSecond))

/-- Adds a number of units to a span. -/
def addAmount? (d : Duration) (a : Amount) (u : Unit) : Option Duration := do
  let count ← bounded? (a.whole * (u.nanos / u.wholeStep))
  let d ← d.plus? (count * u.wholeStep) u.wholeStep
  match a.fraction with
  | none => some d
  | some (num, den) =>
    let count ← bounded? (num * (u.nanos / u.fractionStep))
    d.plus? (count / den * u.fractionStep) u.fractionStep

theorem length_readFraction {num den : Nat} {cs rest : List Char} {f : Nat × Nat}
    (h : readFraction num den cs = some (f, rest)) : rest.length ≤ cs.length := by
  induction cs generalizing num den with
  | nil =>
    simp only [readFraction] at h
    split at h <;> simp_all
  | cons c cs ih =>
    simp only [readFraction] at h
    split at h
    · cases hb : bounded? (den * 10) with
      | none => simp [hb] at h
      | some den' =>
        simp only [hb, Option.bind_eq_bind, Option.bind_some] at h
        rename_i d _
        cases hn : bounded? (num * 10 + d) with
        | none => simp [hn] at h
        | some num' =>
          simp only [hn, Option.bind_some] at h
          have := ih h
          simp only [List.length_cons]; omega
    · split at h
      · have := ih h
        simp only [List.length_cons]; omega
      · split at h
        · simp only [Option.some.injEq, Prod.mk.injEq] at h
          exact Nat.le_of_eq (congrArg List.length h.2.symm)
        · exact absurd h (by simp)

theorem length_readAmount {n : Nat} {cs rest : List Char} {a : Amount}
    (h : readAmount n cs = some (a, rest)) : rest.length ≤ cs.length := by
  induction cs generalizing n with
  | nil => simp_all [readAmount]
  | cons c cs ih =>
    simp only [readAmount] at h
    split at h
    · rename_i d _
      cases hn : bounded? (n * 10 + d) with
      | none => simp [hn] at h
      | some n' =>
        simp only [hn, Option.bind_eq_bind, Option.bind_some] at h
        have := ih h
        simp only [List.length_cons]; omega
    · split at h
      · have := ih h
        simp only [List.length_cons]; omega
      · split at h
        · simp only [Option.some.injEq, Prod.mk.injEq] at h
          exact Nat.le_of_eq (congrArg List.length h.2.symm)
        · split at h
          · cases hf : readFraction 0 1 cs with
            | none => simp [hf] at h
            | some p =>
              simp only [hf, Option.map_some, Option.some.injEq, Prod.mk.injEq] at h
              have := length_readFraction hf
              rw [← h.2]
              simp only [List.length_cons]; omega
          · exact absurd h (by simp)

/-- Reads a sum of numbers with units, whose first digit is `n`, and adds it to `d`. -/
def readSum (d : Duration) (n : Nat) (cs : List Char) : Option Duration :=
  match _h : readAmount n cs with
  | none => none
  | some (a, rest) =>
    let word := rest.takeWhile isUnitChar
    let after := rest.dropWhile isUnitChar
    match Unit.ofWord? (String.ofList word) with
    | none => none
    | some u =>
      match d.addAmount? a u with
      | none => none
      | some d =>
        match _ha : after with
        | [] => some d
        | c :: tail =>
          -- a digit may follow its unit at once, and blanks may stand before it
          match digit? c with
          | some n => readSum d n tail
          | none =>
            if Text.isBlank c then
              match _hb : tail.dropWhile Text.isBlank with
              | [] => some d
              | c' :: tail' =>
                match digit? c' with
                | some n => readSum d n tail'
                | none => none
            else none
termination_by cs.length
decreasing_by
  · have h₁ := length_readAmount _h
    have h₂ := (List.dropWhile_suffix (l := rest) isUnitChar).length_le
    have h₃ := congrArg List.length _ha
    simp only [after, List.length_cons] at h₃
    omega
  · have h₁ := length_readAmount _h
    have h₂ := (List.dropWhile_suffix (l := rest) isUnitChar).length_le
    have h₃ := congrArg List.length _ha
    have h₄ := congrArg List.length _hb
    have h₅ := (List.dropWhile_suffix (l := tail) Text.isBlank).length_le
    simp only [after, List.length_cons] at h₃ h₄
    omega

/-- Reads a span in words; `0` alone is the empty span. -/
def ofWords? (s : String) : Option Duration :=
  if s = "0" then some ⟨0⟩
  else
    match s.toList.dropWhile Text.isBlank with
    | [] => none
    | c :: cs => (digit? c).bind fun n => readSum ⟨0⟩ n cs

/-- The parts of a span, largest unit first, with the names of their units. -/
def wordParts (d : Duration) : List (Nat × String) :=
  let s := d.seconds
  let inYear := s % 31557600
  let inMonth := inYear % 2630016
  let inDay := inMonth % 86400
  let many (n : Nat) (name : String) : Nat × String := (n, if n > 1 then name ++ "s" else name)
  [many (s / 31557600) "year", many (inYear / 2630016) "month", many (inMonth / 86400) "day",
   (inDay / 3600, "h"), (inDay % 3600 / 60, "m"), (inDay % 60, "s"),
   (d.subsecond / 1000000, "ms"), (d.subsecond / 1000 % 1000, "us"), (d.subsecond % 1000, "ns")]

/-- A span in words. -/
def words (d : Duration) : String :=
  match d.wordParts.filter (·.1 ≠ 0) with
  | [] => "0s"
  | parts => " ".intercalate (parts.map fun p => toString p.1 ++ p.2)

end Muster.Duration
