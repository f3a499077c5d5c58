import Muster.Uuid

/-!
# Hiding accidental parts of a text

* `hideTaskNumbers`: which number a task had that died is an accident; `N` stands in its place.
* `hideIds`: so is every identifier; `ID` stands in its place.
-/

namespace Muster.Text

/-- Replaces from left to right whatever `find` takes off the front of the rest, at most `n` characters
being looked at. -/
def replaceFound (find : List Char → Option (List Char × List Char)) : Nat → List Char → List Char
  | 0, cs => cs
  | _, [] => []
  | n + 1, c :: cs =>
    match find (c :: cs) with
    | some (new, rest) => new ++ replaceFound find n rest
    | none => c :: replaceFound find n cs

/-- What stands before the number of a task. -/
def taskWord : List Char := "task ".toList

/-- What stands behind the number of a task that died. -/
def diedWord : List Char := " panicked".toList

/-- The number of a task that died, in front of a text. -/
def deadTask? (cs : List Char) : Option (List Char × List Char) :=
  let rest := cs.drop taskWord.length
  let digits := rest.takeWhile Char.isDigit
  let behind := rest.drop digits.length
  if taskWord.isPrefixOf cs && !digits.isEmpty && diedWord.isPrefixOf behind then
    some ("task N".toList, behind)
  else none

/-- A hyphenated identifier in front of a text. -/
def leadingId? (cs : List Char) : Option (List Char × List Char) :=
  (Uuid.readHyphenated (cs.take 36)).map fun _ => ("ID".toList, cs.drop 36)

/-- Hides the numbers of tasks that died. -/
def hideTaskNumbers (s : String) : String :=
  String.ofList (replaceFound deadTask? s.toList.length s.toList)

/-- Hides all identifiers. -/
def hideIds (s : String) : String :=
  String.ofList (replaceFound leadingId? s.toList.length s.toList)

end Muster.Text
