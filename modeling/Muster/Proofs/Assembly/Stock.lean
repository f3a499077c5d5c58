import Mathlib.Data.List.Forall2
import Muster.Proofs.Member.Outcomes
import Muster.Proofs.Run.Change

/-!
# Assemblies and the calls that close them

* **`Core.Stocked.move`**: every assembly holds the members of a run that has ended in it.
* **`Core.Delivered.move`**: every run that has ended in an assembly has delivered it as it stood.
* **`Core.Dissolved.move`**: a call that closes an assembly has called for each of its members, and once
  the assembly is closed a call for each of its members has ended.
-/

namespace Muster

namespace Core

/-- Every assembly holds the members of a run that has ended in it. -/
def Stocked (as : Array Assembly) (rs : Array Run) : Prop :=
  ∀ (a : Nat) (x : Assembly), as[a]? = some x → ∃ (r : Nat) (run : Run),
    rs[r]? = some run ∧ run.phase = .finished (.ok a) ∧ x.members = run.members

variable {c c' : Core}

theorem Stocked.empty : Stocked #[] #[] := fun a x hx => by simp at hx

/-- **The stock.** Every move keeps assemblies and runs together. -/
theorem Stocked.move (h : Stocked c.assemblies c.runs) (move : c.Move c') :
    Stocked c'.assemblies c'.runs := by
  intro a x' hx'
  have keeps := move.keeps
  by_cases hlt : a < c.assemblies.size
  · obtain ⟨x, hx, kept⟩ := keeps.assemblies.of_lt hlt hx'
    obtain ⟨r, run, hr, hp, hm⟩ := h a x hx
    obtain ⟨run', hr', rkept⟩ := keeps.runs hr
    exact ⟨r, run', hr', rkept.finished hp, kept.members.trans (hm.trans (rkept.members hp).symm)⟩
  · have old {P : Prop} (hsize : c'.assemblies.size ≤ c.assemblies.size) : P :=
      absurd (Nat.lt_of_lt_of_le (lt_of_getElem?_eq_some hx') hsize) hlt
    have new {r : Nat} {run x : Run} (hr : c.runs[r]? = some run) (hc : c' = c.succeed r x) :
        ∃ (r : Nat) (run : Run), c'.runs[r]? = some run ∧ run.phase = .finished (.ok a) ∧
          x'.members = run.members := by
      subst hc
      have hx' : (c.assemblies.push x.assembly)[a]? = some x' := hx'
      rw [Array.getElem?_push] at hx'
      split at hx'
      · rename_i last
        cases hx'
        rw [last]
        exact ⟨r, _, getElem?_replace_self hr _, rfl, rfl⟩
      · exact absurd (lt_of_getElem?_eq_some hx') hlt
    cases move with
    | stay => exact old (Nat.le_refl _)
    | launch i move => exact old (by cases move <;> exact Nat.le_refl _)
    | closing j move => exact old (by cases move <;> exact Nat.le_refl _)
    | run r move =>
      cases move with
      | succeedEmpty hr | succeed hr => exact new hr rfl
      | take | giveUp | refuse | gather | dismiss | degrade | rest | wake | fail =>
        exact old (Nat.le_refl _)
    | reaper r move => exact old (by cases move <;> exact Nat.le_refl _)
    | dissolution d move => exact old (by cases move <;> simp [setDissolution, setAssembly, call])
    | outside move => exact old (by cases move <;> exact Nat.le_refl _)

/-- Every run that has ended in an assembly has delivered it as it stood. -/
def Delivered (c : Core) : Prop :=
  ∀ {r a : Nat} {run : Run}, c.runs[r]? = some run → run.phase = .finished (.ok a) →
    ∃ x, c.assemblies[a]? = some x ∧ run.assembly.Kept x

theorem Delivered.empty : Core.Delivered ⟨#[], #[], #[], #[], #[], #[], []⟩ := fun hr => by simp at hr

/-- **Deliveries.** Every move keeps what runs have delivered. -/
theorem Delivered.move (h : c.Delivered) (move : c.Move c') : c'.Delivered := by
  intro r a run' hr' hp'
  obtain ⟨run, hr⟩ := move.old_run hr' (by rw [hp']; exact fun h => Run.Phase.noConfusion h)
  -- a run that had ended before delivered then what it would deliver now
  have before (hp : run.phase = .finished (.ok a)) (id : run'.id = run.id)
      (channel : run'.channel? = run.channel?) (members : run'.members = run.members)
      (evaluations : run'.evaluations = run.evaluations)
      (reports : run'.observerFailures = run.observerFailures) :
      ∃ x, c'.assemblies[a]? = some x ∧ run'.assembly.Kept x := by
    obtain ⟨x, hx, kept⟩ := h hr hp
    obtain ⟨x', hx', kept'⟩ := move.keeps.assemblies hx
    refine ⟨x', hx', Assembly.Kept.trans ?_ (kept.trans kept')⟩
    exact ⟨id.symm, channel.symm, members.symm, evaluations.symm, reports.symm, fun h => h⟩
  rcases move.run_cases hr hr' with same | move | move
  · exact before (same.phase.symm.trans hp') same.lasts.id same.lasts.channel same.members
      same.evaluations same.reports
  · cases move with
    | succeedEmpty hs | succeed hs =>
      cases (getElem?_replace_self hs _).symm.trans hr'
      cases hp'
      exact ⟨_, Array.getElem?_push_size, .refl _⟩
    | take hs hp =>
      cases (getElem?_replace_self hs _).symm.trans hr'
      cases hp.symm.trans hp'
    | giveUp hs | refuse hs | gather hs | dismiss hs | degrade hs | rest hs | wake hs | fail hs =>
      cases (getElem?_replace_self hs _).symm.trans hr'
      cases hp'
  · obtain ⟨phase, members⟩ := move.stays hr hr'
    obtain ⟨lasts, reports, evaluations⟩ := move.heard hr hr'
    exact before (phase.symm.trans hp') lasts.id lasts.channel members evaluations reports

/-- There is a call at a place that closes a member. -/
def Closes (ks : Array Closing) (j m : Nat) : Prop := ∃ k, ks[j]? = some k ∧ k.member = m

theorem Closes.kept {j m : Nat} (h : Closes c.closings j m) (keeps : c.Keeps c') :
    Closes c'.closings j m := by
  obtain ⟨k, hk, hm⟩ := h
  obtain ⟨k', hk', kept⟩ := keeps.closings hk
  exact ⟨k', hk', kept.member.trans hm⟩

/-- Calls are added for members in their order. -/
theorem call_closes (c : Core) (ms : List Nat) :
    List.Forall₂ (Closes (c.call ms).closings) (c.callPlaces ms) ms := by
  refine List.forall₂_iff_get.mpr ⟨List.length_range', fun n hn hn' => ?_⟩
  refine ⟨{ member := ms.get ⟨n, hn'⟩ }, ?_, rfl⟩
  unfold call callPlaces
  rw [List.get_eq_getElem, List.getElem_range', Nat.one_mul,
    Array.getElem?_append_right (Nat.le_add_right _ _), Nat.add_sub_cancel_left, List.getElem?_toArray,
    List.getElem?_map, List.getElem?_eq_getElem hn', Option.map_some]
  rfl

/-- What is related to each of a list finds it in the other. -/
theorem forall₂_right {α β : Type} {R : α → β → Prop} {as : List α} {bs : List β}
    (h : List.Forall₂ R as bs) {b : β} (hb : b ∈ bs) : ∃ a ∈ as, R a b := by
  induction h with
  | nil => exact absurd hb List.not_mem_nil
  | cons hR _ ih =>
    rcases List.mem_cons.mp hb with rfl | hb
    · exact ⟨_, List.mem_cons_self, hR⟩
    · obtain ⟨a, ha, hab⟩ := ih hb
      exact ⟨a, List.mem_cons_of_mem _ ha, hab⟩

/-- A call that closes a member has ended. -/
def Ended (ks : Array Closing) (m : Nat) : Prop :=
  ∃ (j : Nat) (k : Closing) (o : Except CloseFailure (List ObserverFailure)),
    ks[j]? = some k ∧ k.member = m ∧ k.phase = .finished o

theorem Ended.grow {ks ks' : Array Closing} {m : Nat} (h : Ended ks m) (grows : Grows Closing.Kept ks ks') :
    Ended ks' m := by
  obtain ⟨j, k, o, hk, hkm, ho⟩ := h
  obtain ⟨k', hk', kept⟩ := grows hk
  exact ⟨j, k', o, hk', kept.member.trans hkm, kept.finished ho⟩

/-- What the calls that close assemblies have called for. -/
structure Dissolved (as : Array Assembly) (ds : Array Dissolution) (ks : Array Closing) : Prop where
  known : ∀ {d : Nat} {y : Dissolution}, ds[d]? = some y → y.assembly < as.size
  calls : ∀ {d : Nat} {y : Dissolution} {places : List Nat} {x : Assembly}, ds[d]? = some y →
    y.phase = .closing places → as[y.assembly]? = some x → List.Forall₂ (Closes ks) places x.members
  closed : ∀ {a m : Nat} {x : Assembly}, as[a]? = some x → x.state = .closed → m ∈ x.members →
    Ended ks m

namespace Dissolved

variable {as : Array Assembly} {ds : Array Dissolution} {ks ks' : Array Closing}

theorem empty : Dissolved #[] #[] #[] where
  known hy := by simp at hy
  calls hy := by simp at hy
  closed hx := by simp at hx

/-- Calls that close members go on, and new ones are added. -/
theorem grow (h : Dissolved as ds ks) (grows : Grows Closing.Kept ks ks') : Dissolved as ds ks' where
  known hy := h.known hy
  calls hy hp hx := (h.calls hy hp hx).imp fun j m hj => by
    obtain ⟨k, hk, hm⟩ := hj
    obtain ⟨k', hk', kept⟩ := grows hk
    exact ⟨k', hk', kept.member.trans hm⟩
  closed hx hs hm := (h.closed hx hs hm).grow grows

/-- An assembly is added that is not closed. -/
theorem pushAssembly (h : Dissolved as ds ks) {x : Assembly} (open_ : x.state ≠ .closed) :
    Dissolved (as.push x) ds ks where
  known hy := by
    rw [Array.size_push]
    exact Nat.lt_succ_of_lt (h.known hy)
  calls hy hp hx := by
    rw [Array.getElem?_push_lt (h.known hy), ← Array.getElem?_eq_getElem] at hx
    exact h.calls hy hp hx
  closed hx hs hm := by
    rw [Array.getElem?_push] at hx
    split at hx
    · cases hx
      exact absurd hs open_
    · exact h.closed hx hs hm

/-- An assembly goes on; when it gets closed, a call for each of its members has ended. -/
theorem setAssembly (h : Dissolved as ds ks) {a : Nat} {x : Assembly} (x' : Assembly) (hx : as[a]? = some x)
    (members : x'.members = x.members)
    (closed : x'.state = .closed → ∀ m ∈ x.members, Ended ks m) :
    Dissolved (as.setIfInBounds a x') ds ks where
  known hy := by
    rw [Array.size_setIfInBounds]
    exact h.known hy
  calls hy hp hz := by
    rw [getElem?_replace hx] at hz
    split at hz
    · rename_i same
      cases hz
      rw [members]
      exact h.calls hy hp (same ▸ hx)
    · exact h.calls hy hp hz
  closed hz hs hm := by
    rw [getElem?_replace hx] at hz
    split at hz
    · cases hz
      exact closed hs _ (members ▸ hm)
    · exact h.closed hz hs hm

/-- A call that closes an assembly goes on; when it begins to wait, it has called for each member. -/
theorem setDissolution (h : Dissolved as ds ks) {d : Nat} {y : Dissolution} {p : Dissolution.Phase}
    (hd : ds[d]? = some y)
    (calls : ∀ (places : List Nat) (x : Assembly), p = .closing places → as[y.assembly]? = some x →
      List.Forall₂ (Closes ks) places x.members) :
    Dissolved as (ds.setIfInBounds d { y with phase := p }) ks where
  known hz := by
    rw [getElem?_replace hd] at hz
    split at hz
    · cases hz
      exact (h.known hd : y.assembly < as.size)
    · exact h.known hz
  calls hz hp hx := by
    rw [getElem?_replace hd] at hz
    split at hz
    · cases hz
      exact calls _ _ hp hx
    · exact h.calls hz hp hx
  closed hx hs hm := h.closed hx hs hm

/-- A call is added that closes an assembly. -/
theorem pushDissolution (h : Dissolved as ds ks) {a : Nat} (known : a < as.size) :
    Dissolved as (ds.push { assembly := a }) ks where
  known hy := by
    rw [Array.getElem?_push] at hy
    split at hy
    · cases hy
      exact known
    · exact h.known hy
  calls hy hp hx := by
    rw [Array.getElem?_push] at hy
    split at hy
    · cases hy
      cases hp
    · exact h.calls hy hp hx
  closed hx hs hm := h.closed hx hs hm

end Dissolved

theorem DissolutionMove.dissolved {d : Nat} (move : c.DissolutionMove d c')
    (h : Dissolved c.assemblies c.dissolutions c.closings) :
    Dissolved c'.assemblies c'.dissolutions c'.closings := by
  cases move with
  | skip hd ha hp begun => exact h.setDissolution hd fun places x hp => by cases hp
  | @begin y a hd ha hp fresh =>
    have opened := h.setAssembly { a with closeStarted := true } ha rfl
      fun hs m hm => h.closed ha hs hm
    have called : Dissolved _ _ (c.call a.members).closings := opened.grow (.append .refl _ _)
    refine called.setDissolution hd fun places x hp hx => ?_
    cases hp
    rw [getElem?_replace_self ha] at hx
    cases hx
    exact call_closes c a.members
  | @finish y a places outcomes hd ha hp ho o he =>
    have closed := h.setAssembly { a with state := .closed } ha rfl fun _ m hm => by
      obtain ⟨j, hj, k, hk, hkm⟩ := forall₂_right (h.calls hd hp ha) hm
      obtain ⟨k', o, hk', ho'⟩ := (outcomes?_eq_some ho).2 j hj
      rw [hk] at hk'
      cases hk'
      exact ⟨j, k, o, hk, hkm, ho'⟩
    refine closed.setDissolution hd fun places x hp => ?_
    cases hp

/-- **Dissolutions.** Every move keeps what the calls that close assemblies have called for. -/
theorem Dissolved.move (h : Dissolved c.assemblies c.dissolutions c.closings) (move : c.Move c') :
    Dissolved c'.assemblies c'.dissolutions c'.closings := by
  have grown := h.grow move.keeps.closings
  cases move with
  | stay => exact h
  | launch i move => cases move <;> exact h
  | closing j move => cases move <;> exact grown
  | run r move =>
    cases move with
    | succeedEmpty | succeed => exact h.pushAssembly fun closed => by cases closed
    | take | gather | rest | wake | fail => exact h
    | giveUp | refuse | dismiss | degrade => exact grown
  | reaper r move => cases move <;> exact grown
  | dissolution d move => exact move.dissolved h
  | outside move =>
    cases move with
    | dissolve known => exact h.pushDissolution known
    | cancel | begin | launch => exact h
    | close held => exact grown

end Core

end Muster
