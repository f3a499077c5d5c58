import Muster.Proofs.World.Reach

/-!
# Logs

* `World.LogsOf`: what is noted of one step after another, from a world on, where steps are of some kind;
  `World.Logs`, `World.OpenLogs`: of steps, and of open steps.
* `World.Steps.logs`: whatever is noted of each step, there is a log of every path.
* **`World.LogsOf.keeps`**: what every step keeps, together with what is noted of it, holds of every log.
-/

namespace Muster

namespace World

/-- What is noted of one step of some kind after another, from a world on. -/
inductive LogsOf {α : Type} (Next : World → World → Prop) (note : World → World → List α) (w₀ : World) :
    World → List α → Prop where
  /-- Nothing has happened yet. -/
  | start : LogsOf Next note w₀ w₀ []
  /-- Something happens next. -/
  | go {w w' : World} {log : List α} (before : LogsOf Next note w₀ w log) (step : Next w w') :
    LogsOf Next note w₀ w' (log ++ note w w')

/-- What is noted of one step after another. -/
abbrev Logs {α : Type} (note : World → World → List α) : World → World → List α → Prop := LogsOf Step note

/-- What is noted of one open step after another. -/
abbrev OpenLogs {α : Type} (note : World → World → List α) : World → World → List α → Prop := LogsOf OpenStep note

variable {α : Type} {Next : World → World → Prop} {note : World → World → List α} {w₀ w : World} {log : List α}

theorem LogsOf.path (h : LogsOf Next note w₀ w log) : Relation.ReflTransGen Next w₀ w := by
  induction h with
  | start => exact .refl
  | go _ step ih => exact ih.tail step

/-- There is a log of every path. -/
theorem LogsOf.exists (h : Relation.ReflTransGen Next w₀ w) (note : World → World → List α) :
    ∃ log, LogsOf Next note w₀ w log := by
  induction h with
  | refl => exact ⟨[], .start⟩
  | tail _ step ih =>
    obtain ⟨log, before⟩ := ih
    exact ⟨_, .go before step⟩

/-- **Logs.** What every step keeps, together with what is noted of it, holds of every log. -/
theorem LogsOf.keeps {P : World → List α → Prop} (h : LogsOf Next note w₀ w log) (first : P w₀ [])
    (kept : ∀ {w w' : World} {log : List α}, Relation.ReflTransGen Next w₀ w → Next w w' → P w log →
      P w' (log ++ note w w')) : P w log := by
  induction h with
  | start => exact first
  | go before step ih => exact kept before.path step ih

/-- Steps are open steps. -/
theorem Logs.opened (h : Logs note w₀ w log) : OpenLogs note w₀ w log := by
  induction h with
  | start => exact .start
  | go _ step ih => exact .go ih (.step step)

theorem Logs.steps (h : Logs note w₀ w log) : Steps w₀ w := h.path

theorem OpenLogs.steps (h : OpenLogs note w₀ w log) : OpenSteps w₀ w := h.path

theorem Steps.logs (h : Steps w₀ w) (note : World → World → List α) : ∃ log, Logs note w₀ w log :=
  LogsOf.exists h note

/-- What steps keep, together with what is noted of them, holds of every log from a reachable world on. -/
theorem Logs.keeps {P : World → List α → Prop} (h : Logs note w₀ w log) (reachable : Reachable w₀)
    (first : P w₀ [])
    (kept : ∀ {w w' : World} {log : List α}, Reachable w → Steps w₀ w → Step w w' → P w log →
      P w' (log ++ note w w')) : P w log :=
  LogsOf.keeps h first fun path step here => kept (reachable.trans path) path step here

/-- What open steps keep, together with what is noted of them, holds of every log from a world to which they lead on. -/
theorem OpenLogs.keeps {P : World → List α → Prop} (h : OpenLogs note w₀ w log) (reachable : OpenReachable w₀)
    (first : P w₀ [])
    (kept : ∀ {w w' : World} {log : List α}, OpenReachable w → OpenSteps w₀ w → OpenStep w w' → P w log →
      P w' (log ++ note w w')) : P w log :=
  LogsOf.keeps h first fun path step here => kept (reachable.trans path) path step here

end World

end Muster
