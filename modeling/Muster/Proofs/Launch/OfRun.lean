import Muster.Proofs.Core.Keeping

/-!
# The launches of a run

* `Launches.mem_ofRun`, `Launches.nodup_ofRun`: which launches belong to a run, each listed once.
* `Launches.ofRun_set`, `Launches.ofRun_append`: the list stays as it is while launches go on, and grows
  only when launches are added for the run.
* **`Core.Move.ofRun_eq`**: no move changes the launches of a run that is there.
-/

namespace Muster

namespace Launches

variable {ls : Array Launch} {i j r : Nat} {l l' : Launch}

theorem mem_ofRun : i ∈ ofRun ls r ↔ ∃ l, ls[i]? = some l ∧ l.run? = some r := by
  unfold ofRun
  rw [List.mem_filter, List.mem_range, decide_eq_true_eq, Option.bind_eq_some_iff]
  refine ⟨fun h => h.2, fun h => ⟨?_, h⟩⟩
  obtain ⟨l, hl, -⟩ := h
  exact lt_of_getElem?_eq_some hl

theorem lt_of_mem_ofRun (h : i ∈ ofRun ls r) : i < ls.size := by
  obtain ⟨l, hl, -⟩ := mem_ofRun.mp h
  exact lt_of_getElem?_eq_some hl

theorem nodup_ofRun (ls : Array Launch) (r : Nat) : (ofRun ls r).Nodup := List.nodup_range.filter _

/-- Launches that go on belong to the run to which they belonged. -/
theorem ofRun_set (hl : ls[i]? = some l) (run : l'.run? = l.run?) (r : Nat) :
    ofRun (ls.setIfInBounds i l') r = ofRun ls r := by
  unfold ofRun
  rw [Array.size_setIfInBounds]
  refine List.filter_congr fun j _ => ?_
  rw [getElem?_replace hl]
  split
  · rename_i same
    rw [same, hl, Option.bind_some, Option.bind_some, run]
  · rfl

/-- Of launches that are added, those for the run come last. -/
theorem ofRun_append (ls new : Array Launch) (r : Nat) :
    ofRun (ls ++ new) r = ofRun ls r ++ (ofRun new r).map (ls.size + ·) := by
  unfold ofRun
  rw [Array.size_append, List.range_add, List.filter_append, List.filter_map]
  congr 1
  · refine List.filter_congr fun j hj => ?_
    rw [Array.getElem?_append_left (List.mem_range.mp hj)]
  · congr 1
    refine List.filter_congr fun j _ => ?_
    rw [Function.comp_apply, Array.getElem?_append_right (Nat.le_add_right _ _), Nat.add_sub_cancel_left]

theorem ofRun_eq_nil (h : ∀ l ∈ ls, l.run? ≠ some r) : ofRun ls r = [] := by
  refine List.eq_nil_iff_forall_not_mem.mpr fun i hi => ?_
  obtain ⟨l, hl, hr⟩ := mem_ofRun.mp hi
  exact h l (Array.mem_of_getElem? hl) hr

theorem ofRun_eq_range (h : ∀ l ∈ ls, l.run? = some r) : ofRun ls r = List.range ls.size := by
  unfold ofRun
  refine List.filter_eq_self.mpr fun i hi => ?_
  have hi := List.mem_range.mp hi
  rw [decide_eq_true_eq, Array.getElem?_eq_getElem hi, Option.bind_some]
  exact h _ (Array.getElem_mem hi)

/-! ### What a launch that goes on shows -/

theorem outcome?_of_getElem? (hl : ls[i]? = some l) : outcome? ls i = l.outcome? := by
  unfold outcome?
  rw [hl, Option.bind_some]

theorem spec?_of_getElem? (hl : ls[i]? = some l) : spec? ls i = some l.spec := by
  unfold spec?
  rw [hl, Option.map_some]

theorem ordinal_of_getElem? (hl : ls[i]? = some l) : ordinal ls i = l.spec.ordinal := by
  unfold ordinal
  rw [spec?_of_getElem? hl, Option.map_some, Option.getD_some]

theorem ordinal_of_spec? {s : MemberSpec} (hs : spec? ls i = some s) : ordinal ls i = s.ordinal := by
  unfold ordinal
  rw [hs, Option.map_some, Option.getD_some]

theorem name_of_getElem? (hl : ls[i]? = some l) : name ls i = l.spec.name := by
  unfold name
  rw [spec?_of_getElem? hl, Option.map_some, Option.getD_some]

theorem memberOf?_eq_some {m : Nat} :
    memberOf? ls i = some m ↔ ∃ l failures, ls[i]? = some l ∧ l.phase = .settled (.realized m failures) := by
  unfold memberOf? outcome? Launch.outcome?
  cases hl : ls[i]? with
  | none => simp
  | some l =>
    simp only [Option.bind_some, Option.some.injEq]
    cases hp : l.phase with
    | settled o => cases o <;> simp [hp]
    | _ => simp [hp]

theorem spec?_set (hl : ls[i]? = some l) (spec : l'.spec = l.spec) (j : Nat) :
    spec? (ls.setIfInBounds i l') j = spec? ls j := by
  by_cases hji : j = i
  · rw [hji, spec?_of_getElem? (getElem?_replace_self hl l'), spec?_of_getElem? hl, spec]
  · unfold spec?
    rw [getElem?_replace_of_ne hl hji]

theorem ordinal_congr {ls' : Array Launch} (h : spec? ls' i = spec? ls i) :
    ordinal ls' i = ordinal ls i := by
  unfold ordinal
  rw [h]

theorem name_congr {ls' : Array Launch} (h : spec? ls' i = spec? ls i) : name ls' i = name ls i := by
  unfold name
  rw [h]

/-- A launch shows the same in both arrays: what is launched, and how it ended if it did. -/
def Alike (ls ls' : Array Launch) (i : Nat) : Prop :=
  spec? ls' i = spec? ls i ∧ outcome? ls' i = outcome? ls i

namespace Alike

variable {ls' : Array Launch}

theorem memberOf?_eq (h : Alike ls ls' i) : memberOf? ls' i = memberOf? ls i := by
  unfold memberOf?
  rw [h.2]

theorem failureOf?_eq (h : Alike ls ls' i) : failureOf? ls' i = failureOf? ls i := by
  unfold failureOf?
  rw [h.2, name_congr h.1, ordinal_congr h.1]

end Alike

theorem alike_of_getElem?_eq {ls' : Array Launch} (h : ls'[i]? = ls[i]?) : Alike ls ls' i := by
  unfold Alike spec? outcome?
  rw [h]
  exact ⟨rfl, rfl⟩

/-- While a launch has not ended, it shows nothing but what is launched. -/
theorem alike_set (hl : ls[i]? = some l) (spec : l'.spec = l.spec) (outcome : l'.outcome? = l.outcome?)
    (j : Nat) : Alike ls (ls.setIfInBounds i l') j := by
  refine ⟨spec?_set hl spec j, ?_⟩
  by_cases hji : j = i
  · rw [hji, outcome?_of_getElem? (getElem?_replace_self hl l'), outcome?_of_getElem? hl, outcome]
  · exact (alike_of_getElem?_eq (getElem?_replace_of_ne hl hji l')).2

/-- Launches that are added launch what they launch. -/
theorem map_spec?_append (ls : Array Launch) (new : List Launch) :
    (List.range' ls.size new.length).map (spec? (ls ++ new.toArray)) = new.map fun l => some l.spec := by
  refine List.ext_getElem (by simp) fun k hk hk' => ?_
  have hk : k < new.length := by simpa using hk
  rw [List.getElem_map, List.getElem_map, List.getElem_range', Nat.one_mul]
  unfold spec?
  rw [Array.getElem?_append_right (Nat.le_add_right _ _), Nat.add_sub_cancel_left, List.getElem?_toArray,
    List.getElem?_eq_getElem hk, Option.map_some]

/-- Launches that launch what a plan lists stand where the plan wants its members. -/
theorem map_ordinal {is : List Nat} {specs : List MemberSpec}
    (h : is.map (spec? ls) = specs.map some) : is.map (ordinal ls) = specs.map (·.ordinal) := by
  have := congrArg (List.map fun o => (o.map MemberSpec.ordinal).getD 0) h
  rw [List.map_map, List.map_map] at this
  exact this

theorem map_name {is : List Nat} {specs : List MemberSpec}
    (h : is.map (spec? ls) = specs.map some) : is.map (name ls) = specs.map (·.name) := by
  have := congrArg (List.map fun o => (o.map MemberSpec.name).getD "") h
  rw [List.map_map, List.map_map] at this
  exact this

theorem mem_specs {is : List Nat} {specs : List MemberSpec} (h : is.map (spec? ls) = specs.map some)
    {s : MemberSpec} : s ∈ specs ↔ ∃ i ∈ is, spec? ls i = some s := by
  rw [← List.mem_map, h, List.mem_map]
  exact ⟨fun hs => ⟨s, hs, rfl⟩, fun ⟨t, ht, same⟩ => Option.some.inj same ▸ ht⟩

/-- Launches that are there launch something each. -/
theorem exists_specs {is : List Nat} (h : ∀ i ∈ is, i < ls.size) :
    ∃ specs : List MemberSpec, is.map (spec? ls) = specs.map some := by
  induction is with
  | nil => exact ⟨[], rfl⟩
  | cons i is ih =>
    obtain ⟨specs, hspecs⟩ := ih fun j hj => h j (List.mem_cons_of_mem i hj)
    obtain ⟨l, hl⟩ := exists_getElem? (h i List.mem_cons_self)
    refine ⟨l.spec :: specs, ?_⟩
    rw [List.map_cons, List.map_cons, spec?_of_getElem? hl, hspecs]

end Launches

theorem Launch.outcome?_eq_none {l : Launch} (h : ∀ o, l.phase ≠ .settled o) : l.outcome? = none := by
  unfold Launch.outcome?
  split
  · rename_i o hp
    exact absurd hp (h o)
  · rfl

theorem Launch.outcome?_eq_some {l : Launch} {o : Launch.Outcome} :
    l.outcome? = some o ↔ l.phase = .settled o := by
  unfold Launch.outcome?
  split
  · rename_i o' hp
    rw [hp, Option.some.injEq, Launch.Phase.settled.injEq]
  · rename_i unsettled
    refine ⟨fun h => ?_, fun hp => absurd hp (unsettled o)⟩
    cases h

namespace Core

variable {c c' : Core}

theorem ofRun_eq_of_grows {ls ls' : Array Launch} {r : Nat} (h : Grows Launch.Kept ls ls')
    (new : ∀ (i : Nat) (l : Launch), ls.size ≤ i → ls'[i]? = some l → l.run? ≠ some r) :
    Launches.ofRun ls' r = Launches.ofRun ls r := by
  obtain ⟨k, hk⟩ := Nat.exists_eq_add_of_le h.size_le
  unfold Launches.ofRun
  rw [hk, List.range_add, List.filter_append, List.filter_map]
  have later : (List.range k).filter
      ((fun i => decide (ls'[i]?.bind (·.run?) = some r)) ∘ (ls.size + ·)) = [] := by
    refine List.filter_eq_nil_iff.mpr fun i hi => ?_
    rw [Function.comp_apply, decide_eq_true_eq, Option.bind_eq_some_iff]
    rintro ⟨l, hl, hr⟩
    exact new _ l (Nat.le_add_right _ _) hl hr
  rw [later, List.map_nil, List.append_nil]
  refine List.filter_congr fun i hi => ?_
  have hi := List.mem_range.mp hi
  obtain ⟨l, hl, kept⟩ := h (Array.getElem?_eq_getElem hi)
  rw [hl, Array.getElem?_eq_getElem hi, Option.bind_some, Option.bind_some, kept.run]

/-- **The launches of a run.** No move changes the launches of a run that is there. -/
theorem Move.ofRun_eq (move : c.Move c') {r : Nat} (hr : r < c.runs.size) :
    Launches.ofRun c'.launches r = Launches.ofRun c.launches r := by
  refine ofRun_eq_of_grows move.keeps.launches fun i l hi hl => ?_
  have old : c'.launches.size ≤ c.launches.size → False := fun hsize =>
    absurd (lt_of_getElem?_eq_some hl) (Nat.not_lt_of_le (Nat.le_trans hsize hi))
  cases move with
  | stay => exact (old (Nat.le_refl _)).elim
  | launch i move => cases move <;> exact (old (by simp [setLaunch, setRun, addMember])).elim
  | closing j move => cases move <;> exact (old (Nat.le_refl _)).elim
  | run r move => cases move <;> exact (old (Nat.le_refl _)).elim
  | reaper r move => cases move <;> exact (old (Nat.le_refl _)).elim
  | dissolution d move => cases move <;> exact (old (Nat.le_refl _)).elim
  | outside move =>
    cases move with
    | cancel | close | dissolve => exact (old (Nat.le_refl _)).elim
    | begin plan platform channel? id now cancelled =>
      unfold Core.begin at hl
      rw [Array.getElem?_append_right hi] at hl
      have hl := Array.mem_of_getElem? hl
      obtain ⟨spec, -, rfl⟩ := plan.mem_launches hl
      intro same
      cases same
      exact Nat.lt_irrefl _ hr
    | launch spec platform observers =>
      have hl : (c.launches.push { spec, platform, observers })[i]? = some l := hl
      rw [Array.getElem?_push] at hl
      split at hl
      · cases hl
        intro same
        cases same
      · exact absurd (lt_of_getElem?_eq_some hl) (Nat.not_lt_of_le hi)

end Core

end Muster
