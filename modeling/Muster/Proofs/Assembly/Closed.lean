import Muster.Proofs.Member.Lagging
import Muster.Proofs.Run.Success

/-!
# Closed assemblies

* `Core.Move.finish_cases`: the call that closed an assembly counts the members of the assembly.
* **`World.Reachable.closed_unless_lagging`**: the members of a closed assembly are closed just when no call
  for any of them lags, and so the call that closed the assembly counts the closed members just when none
  does.
-/

namespace Muster

namespace Core

variable {c c' : Core}

/-- The members of a closed assembly are those for which no call lags. -/
theorem Sound.closed_iff_of_closed (h : c.Sound) {a m : Nat} {x : Assembly}
    (ha : c.assemblies[a]? = some x) (closed : x.state = .closed) (hm : m ∈ x.members) :
    c.members[m]?.map (·.state) = some .closed ↔ ¬ Lags c.closings c.stopped m := by
  obtain ⟨y, hy⟩ := exists_getElem? (h.lt_of_assembly ha hm)
  rw [← h.closed_iff hy (h.dissolved.closed ha closed hm), hy, Option.map_some, Option.some.injEq]

/-- The call that closed an assembly counts the members of the assembly. -/
theorem Move.finish_cases (move : c.Move c') (h : c.Sound) {d : Nat} {y y' : Dissolution}
    {places : List Nat} {o : Except Teardown Teardown} (hd : c.dissolutions[d]? = some y)
    (hp : y.phase = .closing places) (hd' : c'.dissolutions[d]? = some y') (ho : y'.phase = .finished o) :
    ∃ a t, c'.assemblies[y.assembly]? = some a ∧ a.state = .closed ∧ (o = .ok t ∨ o = .error t) ∧
      t.closed = a.members.length := by
  rcases move.dissolution_cases hd hd' with rfl | move
  · cases hp.symm.trans ho
  · cases move with
    | skip hs _ hq | begin hs _ hq =>
      cases hd.symm.trans hs
      cases hp.symm.trans hq
    | @finish _ a _ outcomes hs ha hq houtcomes o' he =>
      obtain ⟨rfl, rfl⟩ := eq_of_replaced hd hs hd'
      cases hp.symm.trans hq
      cases ho
      refine ⟨{ a with state := .closed }, Teardown.ofOutcomes outcomes, getElem?_replace_self ha _, rfl,
        ?_, ?_⟩
      · rw [he]
        split
        · exact .inl rfl
        · exact .inr rfl
      · rw [Teardown.closed_ofOutcomes, (outcomes?_eq_some houtcomes).1]
        exact (h.dissolved.calls hd hp ha).length_eq

end Core

namespace World

variable {w : World}

/-- **Closed assemblies.** The members of a closed assembly are closed just when no call for any of them
lags. The call that closed the assembly counts all its members, which are the closed ones just when no
call for any of them lags. -/
theorem Reachable.closed_unless_lagging (h : Reachable w) :
    (∀ (a : Nat) (x : Assembly), w.assemblies[a]? = some x → x.state = .closed →
      ((∀ m ∈ x.members, w.isClosed m) ↔ ∀ m ∈ x.members, ¬ Core.Lags w.closings w.stopped m)) ∧
    ∀ (w' : World) (d : Nat) (y y' : Dissolution) (places : List Nat) (o : Except Teardown Teardown),
      Step w w' → w.dissolutions[d]? = some y → y.phase = .closing places →
      w'.dissolutions[d]? = some y' → y'.phase = .finished o →
      ∃ x t, w'.assemblies[y.assembly]? = some x ∧ x.state = .closed ∧ (o = .ok t ∨ o = .error t) ∧
        t.closed = x.members.length ∧
        (t.closed = (x.members.filter w'.isClosed).length ↔
          ∀ m ∈ x.members, ¬ Core.Lags w'.closings w'.stopped m) := by
  have all {w : World} (sound : w.core.Sound) {a : Nat} {x : Assembly} (hx : w.assemblies[a]? = some x)
      (closed : x.state = .closed) :
      (∀ m ∈ x.members, w.isClosed m) ↔ ∀ m ∈ x.members, ¬ Core.Lags w.closings w.stopped m := by
    refine forall₂_congr fun m hm => ?_
    unfold isClosed
    rw [decide_eq_true_eq]
    exact sound.closed_iff_of_closed hx closed hm
  refine ⟨fun a x hx closed => all h.sound hx closed,
    fun w' d y y' places o step hd hp hd' ho => ?_⟩
  have move := step.move h.sound
  obtain ⟨x, t, hx, closed, report, count⟩ := move.finish_cases h.sound hd hp hd' ho
  refine ⟨x, t, hx, closed, report, count, ?_⟩
  rw [← all (h.sound.move move) hx closed, count, eq_comm, List.length_filter_eq_length_iff]

/-- A call has closed the members of an assembly, and is about to end. -/
def drained : World :=
  (stable.callDissolve 0).2.goes [.dissolution 0, .closing 0, .closing 0, .closing 0, .closing 0,
    .closing 1, .closing 1, .closing 1, .closing 1]

theorem reachable_drained : Reachable drained :=
  (reachable_stable.tail (.dissolve 0 (by decide +kernel))).trans (Steps.goes (by decide +kernel))

/-- The call has ended. -/
def orderly : World := drained.advance (.dissolution 0)

set_option maxRecDepth 4000 in
/-- Both members are closed and counted, and no call for any of them lags. -/
theorem closed_unless_lagging_orderly : ∃ (x : Assembly) (t : Teardown), orderly.assemblies[0]? = some x ∧
    x.state = .closed ∧ t.closed = (x.members.filter orderly.isClosed).length ∧
    ∀ m ∈ x.members, ¬ Core.Lags orderly.closings orderly.stopped m := by
  have before : drained.dissolutions[0]?.map (fun y => (y.assembly, y.phase)) =
      some (0, .closing [0, 1]) := rfl
  have after : orderly.dissolutions[0]?.map (·.phase) = some (.finished (.ok { closed := 2 })) := rfl
  have members : orderly.assemblies[0]?.map (·.members) = some [1, 0] := by decide +kernel
  have both : ([1, 0].filter orderly.isClosed).length = [1, 0].length := by decide +kernel
  obtain ⟨y, hd, same⟩ := Option.map_eq_some_iff.mp before
  obtain ⟨y', hd', ho⟩ := Option.map_eq_some_iff.mp after
  obtain ⟨assembly, hp⟩ := Prod.mk.injEq .. ▸ same
  obtain ⟨x, t, hx, closed, -, count, lags⟩ := (Reachable.closed_unless_lagging reachable_drained).2 orderly 0
    y y' _ _ (.advance (.dissolution 0) (by decide +kernel)) hd hp hd' ho
  rw [assembly] at hx
  rw [hx, Option.map_some, Option.some.injEq] at members
  rw [← members, ← count] at both
  exact ⟨x, t, hx, closed, both.symm, lags.mp both.symm⟩

/-- Somebody closes one of two members by itself; its process is being stopped. -/
def halfway : World := (stable.callClose 0).2.goes [.closing 0, .closing 0]

theorem reachable_halfway : Reachable halfway := by
  have members : stable.assemblies[0]?.map (·.members) = some [1, 0] := by decide +kernel
  obtain ⟨x, hx, hxm⟩ := Option.map_eq_some_iff.mp members
  have held : stable.Held 0 := .inl ⟨x, Array.mem_of_getElem? hx, hxm ▸ by decide⟩
  exact (reachable_stable.tail (.close 0 held)).trans (Steps.goes (by decide +kernel))

/-- The assembly is closed meanwhile: its call finds that somebody closes that member, and closes the
other. -/
def hasty : World :=
  (halfway.callDissolve 0).2.goes
    [.dissolution 0, .closing 1, .closing 1, .closing 1, .closing 1, .closing 2]

theorem reachable_hasty : Reachable hasty :=
  (reachable_halfway.tail (.dissolve 0 (by decide +kernel))).trans (Steps.goes (by decide +kernel))

/-- The call has ended, and the process of that member is still being stopped. -/
def early : World := hasty.advance (.dissolution 0)

theorem step_early : Step hasty early := .advance (.dissolution 0) (by decide +kernel)

set_option maxRecDepth 4000 in
/-- A closed assembly may have a member that is not closed, and the report then counts it as closed. -/
theorem closed_early :
    (¬ ∀ (w : World) (a : Nat) (x : Assembly), Reachable w → w.assemblies[a]? = some x →
      x.state = .closed → ∀ m ∈ x.members, w.isClosed m) ∧
    ¬ ∀ (w w' : World) (d : Nat) (y y' : Dissolution) (places : List Nat) (t : Teardown) (x : Assembly),
      Reachable w → Step w w' → w.dissolutions[d]? = some y → y.phase = .closing places →
      w'.dissolutions[d]? = some y' → y'.phase = .finished (.ok t) → w'.assemblies[y.assembly]? = some x →
      t.closed = (x.members.filter w'.isClosed).length := by
  have before : hasty.dissolutions[0]?.map (fun y => (y.assembly, y.phase)) =
      some (0, .closing [1, 2]) := rfl
  have after : early.dissolutions[0]?.map (·.phase) = some (.finished (.ok { closed := 2 })) := rfl
  have assembly : early.assemblies[0]?.map (fun x => (x.members, x.state)) =
      some ([1, 0], .closed) := by decide +kernel
  have one : [1, 0].filter early.isClosed = [1] := by decide +kernel
  obtain ⟨y, hd, same⟩ := Option.map_eq_some_iff.mp before
  obtain ⟨y', hd', ho⟩ := Option.map_eq_some_iff.mp after
  obtain ⟨x, hx, parts⟩ := Option.map_eq_some_iff.mp assembly
  obtain ⟨first, hp⟩ := Prod.mk.injEq .. ▸ same
  obtain ⟨members, closed⟩ := Prod.mk.injEq .. ▸ parts
  rw [← members] at one
  refine ⟨fun all => ?_, fun count => ?_⟩
  · have closed := all early 0 x (reachable_hasty.tail step_early) hx closed 0 (members ▸ by decide)
    have := List.mem_filter.mpr ⟨show 0 ∈ x.members from members ▸ by decide, closed⟩
    rw [one] at this
    exact absurd this (by decide)
  · have same := count hasty early 0 y y' _ _ x reachable_hasty step_early hd hp hd' ho (first ▸ hx)
    rw [one] at same
    exact absurd same (by decide)

end World

end Muster
