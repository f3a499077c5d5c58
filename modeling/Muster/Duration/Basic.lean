/-!
# Spans of time

* `Duration`: a span counted in nanoseconds.
* `Duration.shown`: the span in its largest unit with a whole part, and a fraction without trailing
  zeros.
-/

namespace Muster

/-- A span of time, counted in nanoseconds. -/
structure Duration where
  /-- The whole span in nanoseconds. -/
  nanos : Nat
deriving DecidableEq, Repr, Inhabited

namespace Duration

/-- The nanoseconds of a second. -/
def perSecond : Nat := 1000000000

/-- The span of whole seconds and further nanoseconds. -/
def ofParts (seconds nanos : Nat) : Duration := ⟨seconds * perSecond + nanos⟩

/-- The span of whole milliseconds. -/
def ofMillis (ms : Nat) : Duration := ⟨ms * 1000000⟩

/-- The whole seconds of a span. -/
def seconds (d : Duration) : Nat := d.nanos / perSecond

/-- What is left of a span beyond its whole seconds, in nanoseconds. -/
def subsecond (d : Duration) : Nat := d.nanos % perSecond

/-- The milliseconds after which a timer that is set to a span goes off: it counts whole milliseconds, and goes off
at the end of the one in which the span ends. -/
def millis (d : Duration) : Nat :=
  if d.nanos % 1000000 = 0 then d.nanos / 1000000 else d.nanos / 1000000 + 1

@[simp] theorem millis_ofMillis (ms : Nat) : (ofMillis ms).millis = ms := by
  unfold millis ofMillis
  rw [if_pos (Nat.mul_mod_left ms 1000000), Nat.mul_div_cancel ms (by decide)]

instance : LE Duration := ⟨fun a b => a.nanos ≤ b.nanos⟩

instance : LT Duration := ⟨fun a b => a.nanos < b.nanos⟩

instance (a b : Duration) : Decidable (a ≤ b) := inferInstanceAs (Decidable (a.nanos ≤ b.nanos))

instance (a b : Duration) : Decidable (a < b) := inferInstanceAs (Decidable (a.nanos < b.nanos))

/-- A number of nanoseconds in a unit of `unit` nanoseconds, a power of ten. -/
def shownIn (nanos unit : Nat) (name : String) : String :=
  let places := (Nat.toDigits 10 unit).length - 1
  let fraction := Nat.toDigits 10 (nanos % unit)
  let padded := List.replicate (places - fraction.length) '0' ++ fraction
  let kept := (padded.reverse.dropWhile (· = '0')).reverse
  let point := if nanos % unit = 0 then "" else "." ++ String.ofList kept
  toString (nanos / unit) ++ point ++ name

/-- The span in its largest unit with a whole part. -/
def shown (d : Duration) : String :=
  if d.nanos ≥ perSecond then shownIn d.nanos perSecond "s"
  else if d.nanos ≥ 1000000 then shownIn d.nanos 1000000 "ms"
  else if d.nanos ≥ 1000 then shownIn d.nanos 1000 "µs"
  else shownIn d.nanos 1 "ns"

end Duration

end Muster
