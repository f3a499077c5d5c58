import Mathlib.Data.List.Perm.Basic
import Muster.World.Running

/-!
# Outstanding members

* `World.enter_sorted`: entering a name keeps the places in order, lowest first.
* `World.enter_perm`: a name that is entered under a new place is added.
* **`World.enterAll_perm`**: of members at different places, each is entered once.
-/

namespace Muster

namespace World

variable {o : Nat} {s : String} {l : List (Nat × String)}

theorem enter_fst_mem {e : Nat × String} (h : e ∈ enter o s l) : e.1 = o ∨ e ∈ l := by
  induction l with
  | nil =>
    rw [enter, List.mem_singleton] at h
    exact .inl (congrArg Prod.fst h)
  | cons x l ih =>
    unfold enter at h
    split at h
    · rcases List.mem_cons.mp h with rfl | h
      · exact .inl rfl
      · exact .inr h
    · split at h
      · rcases List.mem_cons.mp h with rfl | h
        · exact .inl rfl
        · exact .inr (List.mem_cons_of_mem x h)
      · rcases List.mem_cons.mp h with rfl | h
        · exact .inr List.mem_cons_self
        · exact (ih h).imp_right (List.mem_cons_of_mem x)

theorem enter_sorted (h : l.Pairwise (·.1 < ·.1)) (o : Nat) (s : String) :
    (enter o s l).Pairwise (·.1 < ·.1) := by
  induction l with
  | nil => exact List.pairwise_singleton _ _
  | cons x l ih =>
    rw [List.pairwise_cons] at h
    unfold enter
    split
    · rename_i before
      refine List.pairwise_cons.mpr ⟨fun e he => ?_, List.pairwise_cons.mpr h⟩
      rcases List.mem_cons.mp he with rfl | he
      · exact before
      · exact Nat.lt_trans before (h.1 e he)
    · rename_i notBefore
      split
      · rename_i same
        exact List.pairwise_cons.mpr ⟨fun e he => same ▸ h.1 e he, h.2⟩
      · rename_i other
        refine List.pairwise_cons.mpr ⟨fun e he => ?_, ih h.2⟩
        rcases enter_fst_mem he with same | he
        · omega
        · exact h.1 e he

theorem enter_perm (h : ∀ e ∈ l, e.1 ≠ o) (s : String) : (enter o s l).Perm ((o, s) :: l) := by
  induction l with
  | nil => exact .refl _
  | cons x l ih =>
    unfold enter
    rw [if_neg (h x List.mem_cons_self)]
    split
    · exact .refl _
    · exact ((ih fun e he => h e (List.mem_cons_of_mem x he)).cons x).trans (.swap _ _ _)

/-- **Outstanding members.** The places are in order. -/
theorem enterAll_sorted {specs : List MemberSpec} (h : l.Pairwise (·.1 < ·.1)) :
    (specs.foldl (fun l s => enter s.ordinal s.name l) l).Pairwise (·.1 < ·.1) := by
  induction specs generalizing l with
  | nil => exact h
  | cons spec specs ih => exact ih (enter_sorted h _ _)

/-- **Outstanding members.** Of members at different places, each is entered once. -/
theorem enterAll_perm {specs : List MemberSpec} (distinct : (specs.map (·.ordinal)).Nodup)
    (away : ∀ spec ∈ specs, ∀ e ∈ l, e.1 ≠ spec.ordinal) :
    (specs.foldl (fun l s => enter s.ordinal s.name l) l).Perm
      (specs.map (fun s => (s.ordinal, s.name)) ++ l) := by
  induction specs generalizing l with
  | nil => exact .refl _
  | cons spec specs ih =>
    rw [List.map_cons, List.nodup_cons] at distinct
    have first := enter_perm (away spec List.mem_cons_self) spec.name
    refine (ih distinct.2 fun later hlater e he => ?_).trans ?_
    · rcases enter_fst_mem he with same | he
      · intro clash
        exact distinct.1 (List.mem_map.mpr ⟨later, hlater, clash.symm.trans same⟩)
      · exact away later (List.mem_cons_of_mem spec hlater) e he
    · exact (first.append_left _).trans List.perm_middle

end World

end Muster
