import Muster.Assembly.Error
import Muster.Source.Generator

/-!
# Observers and predicates

* `Observer`: whoever hears of the occasions in a member's life, one after another.
* `Predicate`: decides from what is seen of the members whether an assembly is stable.

Both stand for code of the caller, so each answer is a function of what the code can know. What else such code does with
members that it is shown is no part of the answer: it may close them, which `World.OpenStep` allows for.
-/

namespace Muster

/-- Messages of an error and of the errors behind it, outermost first. -/
abbrev Causes := List String

/-- The messages of a chain of errors in one line. -/
def Causes.line (c : Causes) : String := ": ".intercalate c

/-- What comes of telling an observer. -/
inductive Response where
  /-- The observer is content. -/
  | fine
  /-- The observer reports an error. -/
  | fails (causes : Causes)
  /-- The observer takes down whoever told it. -/
  | dies (message : String)
deriving DecidableEq, Repr

/-- What an observer does when it is told of an occasion: it takes its time, then responds. -/
structure Reaction where
  /-- The milliseconds until the response. -/
  delay : Nat := 0
  /-- The response. -/
  response : Response := .fine
deriving DecidableEq, Repr, Inhabited

/-- What an observer leaves behind of what it is told. -/
inductive Observer.Trail where
  /-- Nothing. -/
  | silent
  /-- A record of occasion and member. -/
  | records
  /-- A line in the common journal. -/
  | journals
  /-- An event on a channel, in the name of an assembly. -/
  | announces (channel : Nat) (assembly : Uuid)
deriving DecidableEq, Repr

/-- Which member of its assembly a member is. -/
structure Seat where
  /-- The place of the member in its assembly. -/
  ordinal : Nat
  /-- The name of the member. -/
  name : String
deriving DecidableEq, Repr

/-- Whoever hears of the occasions in a member's life. An observer is lent the member while it is told, and keeps
nothing of it. -/
structure Observer where
  /-- Tells observers of one name apart. -/
  id : Nat
  /-- The name under which failures are reported. -/
  name : String
  /-- What the observer leaves behind. -/
  trail : Observer.Trail := .silent
  /-- What the observer does on an occasion in the life of a member. -/
  reaction : Occasion → Seat → Reaction := fun _ _ => {}
deriving Inhabited

namespace Observer

/-- An observer that records what it is told, and reports an error on one occasion if it is given. -/
def recording (id : Nat) (name : String) (failOn? : Option Occasion) : Observer where
  id
  name
  trail := .records
  reaction occasion seat :=
    if failOn? = some occasion then
      { response := .fails [name ++ " rejected " ++ occasion.word ++ " of '" ++ seat.name ++ "'"] }
    else {}

/-- What comes of reporting a chain of errors. There is no error without a message: whoever builds one dies. -/
def reporting : Causes → Response
  | [] => .dies "called `Option::unwrap()` on a `None` value"
  | cause :: causes => .fails (cause :: causes)

/-- An observer that leaves a line in the journal, takes its time, and reports the errors given for
some occasions. -/
def journalling (id : Nat) (name : String) (delay : Nat) (failures : List (Occasion × Causes)) :
    Observer where
  id
  name
  trail := .journals
  reaction occasion _ :=
    { delay
      response := match failures.find? fun f => f.1 = occasion with
        | some f => reporting f.2
        | none => .fine }

end Observer

/-- What is seen of a member. -/
structure MemberView where
  /-- The identity of the member. -/
  sighting : Sighting
  /-- The values that the member was started with. -/
  environment : Environment
deriving DecidableEq, Repr

/-- What comes of asking a predicate. -/
inductive Verdict where
  /-- An answer. -/
  | answer (stable : Bool)
  /-- The predicate reports an error. -/
  | fails (causes : Causes)
  /-- The predicate dies, with a message if it leaves one. -/
  | dies (message : Option String)
deriving DecidableEq, Repr

namespace Verdict

/-- Only a positive answer counts as stable. -/
def holds : Verdict → Bool
  | answer b => b
  | _ => false

/-- What is logged about a verdict. -/
def warning? : Verdict → Option String
  | answer _ => none
  | fails c => some ("Stability predicate failed, treating as unstable: " ++ c.line)
  | dies m =>
    some ("Stability predicate panicked, treating as unstable: " ++ m.getD "non-string panic payload")

end Verdict

/-- Decides whether an assembly is stable. -/
structure Predicate where
  /-- Tells predicates apart; equality of predicates is equality of identity. -/
  id : Nat
  /-- The name of the predicate. -/
  name : String
  /-- The verdict, from the number of earlier questions, the time in milliseconds and the members. -/
  check : Nat → Nat → List MemberView → Verdict

namespace Predicate

/-- Stable as soon as every member runs. -/
def always (id : Nat) : Predicate := ⟨id, "always", fun _ _ _ => .answer true⟩

/-- Never stable. -/
def never (id : Nat) : Predicate := ⟨id, "never", fun _ _ _ => .answer false⟩

/-- Gives the listed verdicts one after another, and then always the last one. -/
def scripted (id : Nat) (name : String) (steps : List Verdict) (last : Verdict) : Predicate :=
  ⟨id, name, fun calls _ _ => steps.getD calls last⟩

/-- Whether the member at a place is in a state; dies when there is no such member. -/
def inState (id : Nat) (name : String) (index : Nat) (state : MemberState) : Predicate :=
  ⟨id, name, fun _ _ views => match views[index]? with
    | some v => .answer (v.sighting.state = state)
    | none => .dies (some ("index out of bounds: the len is " ++ toString views.length ++
        " but the index is " ++ toString index))⟩

/-- Whether the environment of some member gives a name the value. -/
def someValue (id : Nat) (name : String) (key value : String) : Predicate :=
  ⟨id, name, fun _ _ views => .answer (views.any fun v => v.environment.get? key = some value)⟩

/-- Whether there are at least so many members. -/
def atLeast (id : Nat) (name : String) (count : Nat) : Predicate :=
  ⟨id, name, fun _ _ views => .answer (count ≤ views.length)⟩

/-- Whether the time has come. -/
def fromTime (id : Nat) (name : String) (time : Nat) : Predicate :=
  ⟨id, name, fun _ now _ => .answer (time ≤ now)⟩

instance : Inhabited Predicate := ⟨always 0⟩

/-- Shows the name of a predicate. -/
def shown (p : Predicate) : String := Text.shownTuple "StabilityPredicate" [Text.quoted p.name]

end Predicate

end Muster
