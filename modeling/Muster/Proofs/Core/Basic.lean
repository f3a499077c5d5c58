import Muster.World.Step
import Muster.World.Trace

/-!
# The core of a world

* `Core`: the parts of a world in which lives begin and end: members, launches, calls that close, runs and
  assemblies, and the requests to stop a process. Time, channels, accounts and messages are left out.
* `World.core`: the core of a world. The small operations on worlds either leave it alone or change one
  part of it (`core_log`, `core_tell`, `core_modifyRun`, …).
* `Launches.outcome?`, `Launches.ofRun`, `Launches.memberOf?`, `Launches.failureOf?`: what an array of
  launches tells of the launch at a place.
-/

namespace Muster

/-! ### Replacing an entry -/

section Replace

variable {α : Type} {xs : Array α} {i j : Nat} {a : α}

theorem lt_of_getElem?_eq_some (h : xs[i]? = some a) : i < xs.size :=
  (Array.getElem?_eq_some_iff.mp h).1

theorem exists_getElem? (h : i < xs.size) : ∃ a, xs[i]? = some a := ⟨_, Array.getElem?_eq_getElem h⟩

/-- Changing an entry that is there replaces it. -/
theorem modify_eq_setIfInBounds (h : xs[i]? = some a) (f : α → α) :
    xs.modify i f = xs.setIfInBounds i (f a) := by
  apply Array.ext_getElem?
  intro j
  rw [Array.getElem?_modify, Array.getElem?_setIfInBounds]
  by_cases hij : i = j
  · subst hij
    rw [if_pos rfl, if_pos rfl, if_pos (lt_of_getElem?_eq_some h), h, Option.map_some]
  · rw [if_neg hij, if_neg hij]

/-- Changing an entry twice replaces it once. -/
theorem modify_modify_eq_setIfInBounds (h : xs[i]? = some a) (f g : α → α) :
    (xs.modify i f).modify i g = xs.setIfInBounds i (g (f a)) := by
  have hf : (xs.modify i f)[i]? = some (f a) := by
    rw [Array.getElem?_modify, if_pos rfl, h, Option.map_some]
  rw [modify_eq_setIfInBounds hf, modify_eq_setIfInBounds h, Array.setIfInBounds_setIfInBounds]

theorem getElem?_replace (h : xs[i]? = some a) (b : α) (j : Nat) :
    (xs.setIfInBounds i b)[j]? = if j = i then some b else xs[j]? := by
  rw [Array.getElem?_setIfInBounds, if_pos (lt_of_getElem?_eq_some h)]
  simp only [eq_comm]

theorem getElem?_replace_self (h : xs[i]? = some a) (b : α) :
    (xs.setIfInBounds i b)[i]? = some b := by
  rw [getElem?_replace h, if_pos rfl]

theorem eq_of_replaced {a' b b' : α} (h : xs[i]? = some a) (h' : xs[i]? = some a')
    (hb : (xs.setIfInBounds i b')[i]? = some b) : a = a' ∧ b = b' :=
  ⟨Option.some.inj (h.symm.trans h'), Option.some.inj (hb.symm.trans (getElem?_replace_self h b'))⟩

theorem getElem?_replace_of_ne (h : xs[i]? = some a) (hj : j ≠ i) (b : α) :
    (xs.setIfInBounds i b)[j]? = xs[j]? := by
  rw [getElem?_replace h, if_neg hj]

theorem setIfInBounds_eq_self (h : xs[i]? = some a) : xs.setIfInBounds i a = xs := by
  apply Array.ext_getElem?
  intro j
  rw [getElem?_replace h]
  split
  · rename_i hj
    rw [hj, h]
  · rfl

theorem setIfInBounds_push_size (xs : Array α) (a b : α) :
    (xs.push a).setIfInBounds xs.size b = xs.push b := by
  apply Array.ext_getElem?
  intro j
  rw [getElem?_replace Array.getElem?_push_size, Array.getElem?_push, Array.getElem?_push]
  split <;> rfl

/-- Changing an entry that is not there does nothing. -/
theorem modify_eq_self (h : xs[i]? = none) (f : α → α) : xs.modify i f = xs := by
  apply Array.ext_getElem?
  intro j
  rw [Array.getElem?_modify]
  split
  · rename_i hij
    rw [← hij, h, Option.map_none]
  · rfl

end Replace

/-! ### Launches and members by their places -/

namespace Launches

variable (ls : Array Launch)

/-- The outcome of the launch at a place, if it has ended. -/
def outcome? (i : Nat) : Option Launch.Outcome := ls[i]?.bind Launch.outcome?

/-- The launches that belong to a run, in the order of their places. -/
def ofRun (r : Nat) : List Nat :=
  (List.range ls.size).filter fun i => decide (ls[i]?.bind (·.run?) = some r)

/-- What the launch at a place launches. -/
def spec? (i : Nat) : Option MemberSpec := ls[i]?.map (·.spec)

/-- The place in its assembly of the member that a launch launches. -/
def ordinal (i : Nat) : Nat := ((spec? ls i).map (·.ordinal)).getD 0

/-- The name of the member that a launch launches. -/
def name (i : Nat) : String := ((spec? ls i).map (·.name)).getD ""

/-- The member that came of a launch. -/
def memberOf? (i : Nat) : Option Nat :=
  match outcome? ls i with
  | some (.realized m _) => some m
  | _ => none

/-- What observers reported about the member that came of a launch. -/
def reportsOf (i : Nat) : List ObserverFailure :=
  match outcome? ls i with
  | some (.realized _ failures) => failures
  | _ => []

/-- What is noted about a launch of which no member came. -/
def failureOf? (i : Nat) : Option LaunchFailure :=
  match outcome? ls i with
  | some (.failed f) => some f
  | some (.died message) =>
    some ⟨name ls i, ordinal ls i, "realization task failed: " ++ World.deathOf i message⟩
  | _ => none

end Launches

/-- The place in its assembly of the member at a place. -/
def Members.ordinal (ms : Array Member) (m : Nat) : Nat := (ms[m]?.map (·.spec.ordinal)).getD 0

/-- The parts of a world in which lives begin and end. -/
structure Core where
  /-- The members. -/
  members : Array Member
  /-- The launches. -/
  launches : Array Launch
  /-- The calls that close members. -/
  closings : Array Closing
  /-- The runs. -/
  runs : Array Run
  /-- The assemblies. -/
  assemblies : Array Assembly
  /-- The calls that close assemblies. -/
  dissolutions : Array Dissolution
  /-- The members whose processes platforms were asked to stop. -/
  stopped : List Nat

namespace Core

variable (c : Core)

/-! ### Changing parts -/

/-- Replaces the member at a place. -/
def setMember (m : Nat) (x : Member) : Core := { c with members := c.members.setIfInBounds m x }

/-- Replaces the launch at a place. -/
def setLaunch (i : Nat) (l : Launch) : Core := { c with launches := c.launches.setIfInBounds i l }

/-- Replaces the call that closes a member at a place. -/
def setClosing (j : Nat) (k : Closing) : Core := { c with closings := c.closings.setIfInBounds j k }

/-- Replaces the run at a place. -/
def setRun (r : Nat) (run : Run) : Core := { c with runs := c.runs.setIfInBounds r run }

/-- Replaces the assembly at a place. -/
def setAssembly (a : Nat) (x : Assembly) : Core :=
  { c with assemblies := c.assemblies.setIfInBounds a x }

/-- Replaces the call that closes an assembly at a place. -/
def setDissolution (d : Nat) (x : Dissolution) : Core :=
  { c with dissolutions := c.dissolutions.setIfInBounds d x }

/-- Adds a member. -/
def addMember (x : Member) : Core := { c with members := c.members.push x }

/-- Adds an assembly. -/
def addAssembly (x : Assembly) : Core := { c with assemblies := c.assemblies.push x }

/-- Adds calls that close members, in order. -/
def call (ms : List Nat) : Core :=
  { c with closings := c.closings ++ (ms.map fun m => ({ member := m } : Closing)).toArray }

/-- The places of the calls that would be added next. -/
def callPlaces (ms : List Nat) : List Nat := List.range' c.closings.size ms.length

/-- A platform is asked to stop the process of a member. -/
def stop (m : Nat) : Core := { c with stopped := c.stopped ++ [m] }

/-! ### Views -/

/-- Callers have a member in their hands. -/
def Held (m : Nat) : Prop :=
  (∃ a ∈ c.assemblies, m ∈ a.members) ∨
    ∃ l ∈ c.launches, l.run? = none ∧ ∃ failures, l.phase = .settled (.realized m failures)

end Core

namespace World

/-- The core of a world. -/
def core (w : World) : Core :=
  ⟨w.members, w.launches, w.closings, w.runs, w.assemblies, w.dissolutions, w.stopped⟩

/-! ### Operations that leave the core alone -/

theorem stopped_note (w : World) (o : Occurrence) :
    (w.note o).stopped = w.stopped ++ o.stopped?.toList := by
  unfold stopped since note
  rw [Array.toList_push, List.drop_zero, List.drop_zero, List.filterMap_append]
  cases h : o.stopped? <;> simp [h]

theorem core_note {o : Occurrence} (h : o.stopped? = none) (w : World) : (w.note o).core = w.core := by
  unfold core
  rw [stopped_note, h]
  simp [note]

@[simp] theorem core_note_stopped (w : World) (m : Nat) :
    (w.note (.stopped m)).core = w.core.stop m := by
  unfold core Core.stop
  rw [stopped_note]
  simp [note, Occurrence.stopped?]

@[simp] theorem core_log (w : World) (level : Level) (message : String) :
    (w.log level message).core = w.core := core_note rfl w

@[simp] theorem core_measure (w : World) (name : String) : (w.measure name).core = w.core :=
  core_note rfl w

@[simp] theorem core_announce (w : World) (channel : Nat) (e : Event) :
    (w.announce channel e).core = w.core := core_note rfl _

@[simp] theorem core_modifyAccounts (w : World) (p : Nat) (f : Accounts → Accounts) :
    (w.modifyAccounts p f).core = w.core := rfl

@[simp] theorem core_ask (w : World) (p : Predicate) (members : List Nat) :
    (w.ask p members).2.core = w.core := by
  unfold ask
  dsimp only
  split
  · rw [core_log]; exact core_note rfl _
  · exact core_note rfl _

@[simp] theorem core_announceRun (w : World) (run : Run) (e : AssemblyEvent) :
    (w.announceRun run e).core = w.core := by
  unfold announceRun
  split
  · rw [core_announce]
  · rfl

theorem core_foldl {α : Type} (f : World → α → World) (hf : ∀ w x, (f w x).core = w.core) (l : List α)
    (w : World) : (l.foldl f w).core = w.core := by
  induction l generalizing w with
  | nil => rfl
  | cons x l ih => rw [List.foldl_cons, ih, hf]

@[simp] theorem core_logRollback (w : World) (t : Teardown) : (w.logRollback t).core = w.core := by
  unfold logRollback
  rw [core_foldl _ fun w f => core_log w _ _, core_foldl _ fun w f => core_log w _ _]

@[simp] theorem core_leaveTrail (w : World) (o : Observer) (occasion : Occasion) (m : Member) :
    (w.leaveTrail o occasion m).core = w.core := by
  unfold leaveTrail
  split
  · rfl
  · rfl
  · exact core_note rfl w
  · rw [core_announce]

@[simp] theorem core_respond (w : World) (round : Round) (o : Observer) (rest : List Observer)
    (seat : Seat) : (w.respond round o rest seat).1.core = w.core := by
  unfold respond
  split
  · rfl
  · rw [core_log]
  · rfl

@[simp] theorem core_tell (w : World) (round : Round) : (w.tell round).1.core = w.core := by
  unfold tell
  split
  · dsimp only
    split
    · rw [core_respond]
    · split
      · rw [core_respond, core_leaveTrail]; exact core_note rfl w
      · rw [core_leaveTrail]; exact core_note rfl w
  · rfl

/-! ### Operations that change one part of the core -/

section Change

variable {w : World}

theorem core_modifyMember {m : Nat} {x : Member} (h : w.members[m]? = some x) (f : Member → Member) :
    (w.modifyMember m f).core = w.core.setMember m (f x) := by
  unfold modifyMember core Core.setMember
  rw [modify_eq_setIfInBounds h]
  rfl

theorem core_setLaunchPhase {i : Nat} {l : Launch} (h : w.launches[i]? = some l) (p : Launch.Phase) :
    (w.setLaunchPhase i p).core = w.core.setLaunch i { l with phase := p } := by
  unfold setLaunchPhase modifyLaunch core Core.setLaunch
  rw [modify_eq_setIfInBounds h]
  rfl

theorem core_setClosingPhase {j : Nat} {k : Closing} (h : w.closings[j]? = some k) (p : Closing.Phase) :
    (w.setClosingPhase j p).core = w.core.setClosing j { k with phase := p } := by
  unfold setClosingPhase core Core.setClosing
  rw [modify_eq_setIfInBounds h]
  rfl

theorem core_modifyRun {r : Nat} {run : Run} (h : w.runs[r]? = some run) (f : Run → Run) :
    (w.modifyRun r f).core = w.core.setRun r (f run) := by
  unfold modifyRun core Core.setRun
  rw [modify_eq_setIfInBounds h]
  rfl

theorem core_modifyAssembly {a : Nat} {x : Assembly} (h : w.assemblies[a]? = some x)
    (f : Assembly → Assembly) : (w.modifyAssembly a f).core = w.core.setAssembly a (f x) := by
  unfold modifyAssembly core Core.setAssembly
  rw [modify_eq_setIfInBounds h]
  rfl

theorem core_setDissolutionPhase {d : Nat} {x : Dissolution} (h : w.dissolutions[d]? = some x)
    (p : Dissolution.Phase) :
    (w.setDissolutionPhase d p).core = w.core.setDissolution d { x with phase := p } := by
  unfold setDissolutionPhase core Core.setDissolution
  rw [modify_eq_setIfInBounds h]
  rfl

/-- Calls are added behind those that are there. -/
theorem callCloseAll_eq (w : World) (ms : List Nat) :
    w.callCloseAll ms = (w.core.callPlaces ms,
      { w with closings := w.closings ++ (ms.map fun m => ({ member := m } : Closing)).toArray }) := by
  induction ms generalizing w with
  | nil => simp [callCloseAll, Core.callPlaces]
  | cons m ms ih =>
    simp only [callCloseAll, callClose, ih]
    simp [Core.callPlaces, core, List.range'_succ]

end Change

end World

end Muster
