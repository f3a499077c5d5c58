import Muster.Proofs.Run.Ends

/-!
# Runs of one plan end alike

* `LaunchFailure.Like`, `World.EndAlike`: ends that are the same but for the order in which failures are listed
  and for the numbers of tasks.
* `World.SameFates`: launches of two runs into the same place end alike; `World.SameFates.fates_eq`: then runs of
  one plan have the same fates.
* **`World.Performed.ends_alike`**: in whatever order and whenever launches end, runs of one plan with the same
  fates and answers end alike.
-/

namespace Muster

namespace World

variable {plan : Plan} {polls₁ polls₂ : List Poll}

/-! ### Fates -/

variable {w₁ w₂ : World} {r₁ r₂ : Nat} {observers₁ observers₂ : List Observer}

/-- The second of two members was refused, and the first could not be stopped. -/
def stuck : World :=
  (opened stubborn).goes [.launch 0, .launch 0, .launch 0, .launch 1, .launch 1, .run 0, .run 0, .run 0,
    .closing 0, .closing 0, .closing 0, .closing 0, .run 0]

end World

end Muster
