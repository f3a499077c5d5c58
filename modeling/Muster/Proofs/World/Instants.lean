import Muster.Proofs.World.Aloof

/-!
# What takes time, and what does not

* **`World.now_advance`**: whatever goes on takes no time.
* **`World.Step.now_le`**: time never goes back.
-/

namespace Muster

namespace World

/-- Nothing but the passing of time changes what time it is. -/
theorem steady_now (t : Nat) : Steady fun w => w.now = t where
  note _ _ _ here := here
  announce _ _ here := here
  questions _ here := here
  runs _ here := here
  closings _ here := here
  assemblies _ here := here
  dissolutions _ here := here
  requested _ here := here
  stopped _ here := here
  launches _ here := here
  members _ here := here
  platforms _ here := here
  identities _ here := here

theorem now_ask (w : World) (p : Predicate) (ms : List Nat) : (w.ask p ms).2.now = w.now :=
  (steady_now w.now).ask p ms rfl

/-- A run that goes on takes no time. -/
theorem now_stepRun (w : World) (r : Nat) : (w.stepRun r).now = w.now := (steady_now w.now).stepRun r rfl

/-- **Instants.** Whatever goes on takes no time. -/
theorem now_advance (w : World) (s : Strand) : (w.advance s).now = w.now := (steady_now w.now).advance s rfl

theorem now_begin (w : World) (plan : Plan) (platform : Nat) (channel? : Option Nat) (cancelled : Bool) :
    (w.begin plan platform channel? cancelled).2.now = w.now :=
  (steady_now w.now).begin plan platform channel? cancelled rfl

/-- **Time.** Time never goes back. -/
theorem Step.now_le {w w' : World} (step : Step w w') : w.now ≤ w'.now := by
  cases step with
  | advance s => exact Nat.le_of_eq (now_advance w s).symm
  | pass ms => exact Nat.le_add_right w.now ms
  | begin plan platform channel? cancelled => exact Nat.le_of_eq (now_begin w plan platform channel? cancelled).symm
  | ask a => exact Nat.le_of_eq ((steady_now w.now).isStable a rfl).symm
  | cancel | launch | close | dissolve | announce | platform | channel => exact Nat.le_refl _

end World

end Muster
