import Muster.Proofs.World.Reach

/-!
# The order of members

* `Run.Gathered`: a run has gathered its members: it asks the predicate, or has succeeded.
* **`Core.Ordered.move`**: gathered members stand in the order of their places.
* `World.advance_gather`, `World.Step.gather`: what a run does once it has launched all its members.
-/

namespace Muster

/-- A run has gathered its members, and has not given up. -/
inductive Run.Gathered (run : Run) : Prop where
  | asking (hp : run.phase = .asking)
  | resting {due : Nat} (hp : run.phase = .resting due)
  | succeeded {a : Nat} (hp : run.phase = .finished (.ok a))

theorem Run.Gathered.not_launching {run : Run} (h : run.Gathered) : run.phase ≠ .launching := by
  intro launching
  cases h with
  | asking hp | resting hp | succeeded hp => cases launching.symm.trans hp

theorem Run.Gathered.same {run run' : Run} (h : run'.Gathered) (same : run'.phase = run.phase) :
    run.Gathered := by
  cases h with
  | asking hp => exact .asking (same.symm.trans hp)
  | resting hp => exact .resting (same.symm.trans hp)
  | succeeded hp => exact .succeeded (same.symm.trans hp)

namespace Core

variable {c c' : Core} {r : Nat} {run run' : Run}

/-- The members that runs have gathered stand in the order of their places. -/
def Ordered (c : Core) : Prop :=
  ∀ {r : Nat} {run : Run}, c.runs[r]? = some run → run.Gathered →
    run.members.Pairwise fun m n => Members.ordinal c.members m ≤ Members.ordinal c.members n

theorem Ordered.empty : Core.Ordered ⟨#[], #[], #[], #[], #[], #[], []⟩ := fun hr => by simp at hr

/-- A member never changes its place. -/
theorem Keeps.ordinal_eq (keeps : c.Keeps c') {m : Nat} (hm : m < c.members.size) :
    Members.ordinal c'.members m = Members.ordinal c.members m := by
  obtain ⟨x, hx⟩ := exists_getElem? hm
  obtain ⟨x', hx', kept⟩ := keeps.members hx
  unfold Members.ordinal
  rw [hx', hx, Option.map_some, Option.map_some, kept.spec]

theorem pairwise_mergeSort_ordinal (ms : Array Member) (l : List Nat) :
    (l.mergeSort fun m n => Members.ordinal ms m ≤ Members.ordinal ms n).Pairwise fun m n =>
      Members.ordinal ms m ≤ Members.ordinal ms n := by
  refine (List.pairwise_mergeSort ?_ ?_ l).imp of_decide_eq_true
  · intro a b c hab hbc
    exact decide_eq_true (Nat.le_trans (of_decide_eq_true hab) (of_decide_eq_true hbc))
  · intro a b
    rw [Bool.or_eq_true, decide_eq_true_eq, decide_eq_true_eq]
    exact Nat.le_total _ _

/-- **Order.** Every move keeps gathered members in the order of their places. -/
theorem Ordered.move (h : c.Ordered) (sound : c.Sound) (move : c.Move c') : c'.Ordered := by
  intro r run' hr' gathered
  obtain ⟨run, hr⟩ := move.old_run hr' gathered.not_launching
  -- a run that keeps its members keeps their order
  have stay (gathered : run.Gathered) (members : run'.members = run.members) :
      run'.members.Pairwise fun m n => Members.ordinal c'.members m ≤ Members.ordinal c'.members n := by
    rw [members]
    refine (h hr gathered).imp_of_mem fun {m n} hm hn le => ?_
    rw [move.keeps.ordinal_eq (sound.lt_of_run hr hm), move.keeps.ordinal_eq (sound.lt_of_run hr hn)]
    exact le
  rcases move.run_cases hr hr' with same | move | move
  · exact stay (gathered.same same.phase) same.members
  · cases move with
    | take hs hp =>
      cases (getElem?_replace_self hs _).symm.trans hr'
      exact absurd hp gathered.not_launching
    | giveUp hs | refuse hs | dismiss hs | degrade hs | fail hs =>
      cases (getElem?_replace_self hs _).symm.trans hr'
      cases gathered with
      | asking hp | resting hp | succeeded hp => cases hp
    | gather hs =>
      cases (getElem?_replace_self hs _).symm.trans hr'
      exact pairwise_mergeSort_ordinal c.members _
    | succeedEmpty hs _ _ _ none =>
      cases (getElem?_replace_self hs _).symm.trans hr'
      rw [show _ = [] from none]
      exact .nil
    | succeed hs hp | rest hs hp =>
      obtain ⟨rfl, rfl⟩ := eq_of_replaced hr hs hr'
      exact stay (.asking hp) rfl
    | wake hs hp =>
      obtain ⟨rfl, rfl⟩ := eq_of_replaced hr hs hr'
      exact stay (.resting hp) rfl
  · obtain ⟨phase, members⟩ := move.stays hr hr'
    exact stay (gathered.same phase) members

end Core

namespace World

variable {w : World}

/-- Gathered members stand in the order of their places in every reachable world. -/
theorem Reachable.ordered (h : Reachable w) : w.core.Ordered := by
  refine (Steps.invariant (P := Core.Ordered) h .empty Core.Ordered.empty ?_).2
  exact fun sound move ordered => ordered.move sound move

/-- There is one order in which members may be gathered. -/
theorem mergeSort_ordinalOf (w : World) {l members : List Nat} (perm : members.Perm l)
    (sorted : members.Pairwise fun m n => w.ordinalOf m < w.ordinalOf n) :
    (l.mergeSort fun m n => w.ordinalOf m ≤ w.ordinalOf n) = members := by
  have apart : (members.map w.ordinalOf).Nodup := List.pairwise_map.mpr (sorted.imp Nat.ne_of_lt)
  have perm := (l.mergeSort_perm fun m n => w.ordinalOf m ≤ w.ordinalOf n).trans perm.symm
  refine List.Perm.eq_of_pairwise (fun m n hm hn hmn hnm => ?_)
    (Core.pairwise_mergeSort_ordinal w.members l) (sorted.imp Nat.le_of_lt) perm
  exact List.inj_on_of_nodup_map apart (perm.subset hm) hn (Nat.le_antisymm hmn hnm)

/-- A run that has launched all its members goes on to ask the predicate about them. -/
theorem advance_gather {r : Nat} {run : Run} {members : List Nat} (hr : w.runs[r]? = some run)
    (hp : run.phase = .launching) (all : run.pending = []) (fine : run.failures = [])
    (some : members ≠ []) (perm : members.Perm run.members)
    (sorted : members.Pairwise fun m n => w.ordinalOf m < w.ordinalOf n) :
    w.advance (.run r) = w.modifyRun r fun run =>
      { run with members, deadline := w.now + run.timeout.millis, phase := .asking } := by
  show w.stepRun r = _
  unfold stepRun
  rw [hr]
  dsimp only
  rw [hp]
  dsimp only
  unfold stepLaunching finishLaunching
  rw [all, fine, w.mergeSort_ordinalOf perm sorted]
  simp [some, modify_eq_setIfInBounds hr, modifyRun]

/-- A run that has launched all its members comes to ask. -/
theorem Step.gather {r : Nat} {ms members : List Nat}
    (there : w.runs[r]?.map (fun run => (run.phase, run.pending, run.failures, run.members)) =
      some (.launching, [], [], ms)) (some : members ≠ []) (perm : members.Perm ms)
    (sorted : members.Pairwise fun m n => w.ordinalOf m < w.ordinalOf n)
    (ready : w.readiness (.run r) = .ready) :
    Step w (w.modifyRun r fun run =>
      { run with members, deadline := w.now + run.timeout.millis, phase := .asking }) := by
  obtain ⟨run, hr, same⟩ := Option.map_eq_some_iff.mp there
  simp only [Prod.mk.injEq] at same
  obtain ⟨hp, all, fine, rfl⟩ := same
  rw [← advance_gather hr hp all fine some perm sorted]
  exact .advance _ ready

end World

end Muster
