import Muster.Proofs.Source.Drawer

/-!
# What one sequence gives

* `Sequences.draw_fst`, `Sequences.drawn_draw`: a draw takes the next value of one sequence, and leaves all
  others.
* `Draw.Follow`: draws that found the first values of a sequence, and nothing only after the last one.
* **`Draw.Follow.snoc`**: so it is after one more draw.
-/

namespace Muster

/-! ## Sequences -/

namespace Sequences

theorem draw_fst (q : Sequences) (id : SequenceId) :
    (q.draw id).1 = (q.sequence? id).bind fun s => s.at? (q.drawn id) := by
  unfold draw sequence? drawn
  cases q.cells[id.index]? with
  | none => rfl
  | some cell => cases h : cell.sequence.at? cell.drawn <;> simp [h]

/-- The cell of a sequence after a draw from another, or from the same. -/
theorem cell_draw (q : Sequences) (id other : SequenceId) :
    (q.draw id).2.cells[other.index]? = q.cells[other.index]?.map fun cell =>
      if other = id ∧ (q.draw id).1.isSome then { cell with drawn := cell.drawn + 1 } else cell := by
  have same (cell : Sequence.Cell) :
      (if other = id ∧ (none : Option String).isSome then { cell with drawn := cell.drawn + 1 } else cell) =
        cell := if_neg (by simp)
  cases hcell : q.cells[id.index]? with
  | none => simp only [draw, hcell, same, Option.map_id']
  | some cell =>
    cases hv : cell.sequence.at? cell.drawn with
    | none => simp only [draw, hcell, hv, same, Option.map_id']
    | some v =>
      simp only [draw, hcell, hv, Option.isSome_some, and_true]
      by_cases heq : other = id
      · subst heq
        obtain ⟨hlt, -⟩ := Array.getElem?_eq_some_iff.mp hcell
        rw [hcell, Array.getElem?_setIfInBounds_self_of_lt hlt, Option.map_some, if_pos rfl]
      · have hne : id.index ≠ other.index := fun h => heq (by cases id; cases other; exact congrArg _ h.symm)
        simp only [Array.getElem?_setIfInBounds_ne hne, if_neg heq, Option.map_id']

@[simp] theorem sequence?_draw (q : Sequences) (id other : SequenceId) :
    (q.draw id).2.sequence? other = q.sequence? other := by
  simp only [sequence?, cell_draw, Option.map_map]
  congr 1
  funext cell
  simp only [Function.comp]
  split <;> rfl

theorem drawn_draw (q : Sequences) (id other : SequenceId) :
    (q.draw id).2.drawn other = q.drawn other + if other = id ∧ (q.draw id).1.isSome then 1 else 0 := by
  by_cases h : other = id ∧ (q.draw id).1.isSome
  · have there : q.cells[id.index]? ≠ none := fun hnone => by
      rw [draw, hnone] at h
      exact absurd h.2 (by simp)
    obtain ⟨cell, hcell⟩ := Option.ne_none_iff_exists'.mp there
    simp only [drawn, cell_draw, if_pos h]
    rw [h.1, hcell]
    rfl
  · simp only [drawn, cell_draw, if_neg h, Option.map_id', Nat.add_zero]

@[simp] theorem size_draw (q : Sequences) (id : SequenceId) :
    (q.draw id).2.cells.size = q.cells.size := by
  unfold draw
  split
  · rfl
  · split <;> simp

/-- A new sequence stands behind all others. -/
theorem sequence?_add (q : Sequences) (s : Sequence) (id : SequenceId) :
    (q.add s).2.sequence? id = if id.index = q.cells.size then some s else q.sequence? id := by
  simp only [sequence?, add, Array.getElem?_push]
  split <;> rfl

theorem drawn_add (q : Sequences) (s : Sequence) (id : SequenceId) :
    (q.add s).2.drawn id = q.drawn id := by
  simp only [drawn, add, Array.getElem?_push]
  split
  case isTrue h => rw [h, Array.getElem?_eq_none (Nat.le_refl _)]; rfl
  case isFalse => rfl

theorem drawn_eq_zero {q : Sequences} {id : SequenceId} (h : q.cells.size ≤ id.index) : q.drawn id = 0 := by
  rw [drawn, Array.getElem?_eq_none h]
  rfl

end Sequences

namespace Source

/-- The sequence behind a source. -/
def id? : Source → Option SequenceId
  | fixed _ => none
  | shared id _ => some id

/-- The sequence behind a source is one of the first `n`. -/
def Within (n : Nat) (src : Source) : Prop := ∀ id, src.id? = some id → id.index < n

theorem Within.mono {m n : Nat} {src : Source} (h : src.Within m) (hmn : m ≤ n) : src.Within n :=
  fun id hid => Nat.lt_of_lt_of_le (h id hid) hmn

theorem within_fixed (n : Nat) (v : String) : (fixed v).Within n := nofun

/-- A draw leaves what the sequences are. -/
theorem sequence?_draw (src : Source) (q : Sequences) (id : SequenceId) :
    (src.draw q).2.sequence? id = q.sequence? id := by
  cases src with
  | fixed v => rfl
  | shared other word => exact q.sequence?_draw other id

theorem size_draw (src : Source) (q : Sequences) : (src.draw q).2.cells.size = q.cells.size := by
  cases src with
  | fixed v => rfl
  | shared other word => exact q.size_draw other

/-- A draw from something else leaves how much is drawn from a sequence. -/
theorem drawn_draw_of_ne {src : Source} {id : SequenceId} (h : src.id? ≠ some id) (q : Sequences) :
    (src.draw q).2.drawn id = q.drawn id := by
  cases src with
  | fixed v => rfl
  | shared other word =>
    rw [draw, q.drawn_draw, if_neg, Nat.add_zero]
    rintro ⟨rfl, -⟩
    exact h rfl

end Source

/-! ## The draws from one sequence -/

/-- Draws from one sequence, in the order of time: they found its first `m` values, and none of them
found nothing as long as there was one. -/
structure Draw.Follow (s : Sequence) (xs : List Draw) (m : Nat) : Prop where
  /-- The values that were found are the first of the sequence. -/
  first : (xs.filterMap (·.value)).map some = (List.range m).map s.at?
  /-- A draw that finds nothing comes after the last value, and so do all later ones. -/
  ended : ∀ {front : List Draw} {x : Draw} {back : List Draw}, xs = front ++ x :: back →
    x.value = none → s.at? m = none ∧ ∀ y ∈ back, y.value = none

theorem Draw.Follow.nil (s : Sequence) : Draw.Follow s [] 0 := ⟨rfl, by simp⟩

/-- Where a part of a longer list stands. -/
theorem Draw.split_snoc {xs front back : List Draw} {x y : Draw} (h : xs ++ [x] = front ++ y :: back) :
    (back = [] ∧ x = y) ∨ ∃ back', back = back' ++ [x] ∧ xs = front ++ y :: back' := by
  rcases List.eq_nil_or_concat back with rfl | ⟨back, last, rfl⟩
  · exact .inl ⟨rfl, (List.append_singleton_inj.mp h).2⟩
  · rw [List.concat_eq_append, ← List.cons_append, ← List.append_assoc] at h
    obtain ⟨hxs, rfl⟩ := List.append_singleton_inj.mp h
    exact .inr ⟨back, List.concat_eq_append, hxs⟩

/-- One more draw. -/
theorem Draw.Follow.snoc {s : Sequence} {xs : List Draw} {m : Nat} (h : Draw.Follow s xs m) {x : Draw}
    (hx : x.value = s.at? m) :
    Draw.Follow s (xs ++ [x]) (m + if x.value.isSome then 1 else 0) := by
  cases hv : x.value with
  | none =>
    refine ⟨by simpa [List.filterMap_append, hv] using h.first, fun {front y back} heq hy => ?_⟩
    refine ⟨hx.symm.trans hv, fun z hz => ?_⟩
    rcases Draw.split_snoc heq with ⟨rfl, -⟩ | ⟨back, rfl, earlier⟩
    · cases hz
    · rcases List.mem_append.mp hz with hz | hz
      · exact (h.ended earlier hy).2 z hz
      · rw [List.mem_singleton.mp hz, hv]
  | some v =>
    have there : s.at? m = some v := hx.symm.trans hv
    constructor
    · simp [List.filterMap_append, hv, List.range_succ, h.first, there]
    · intro front y back heq hy
      rcases Draw.split_snoc heq with ⟨-, rfl⟩ | ⟨back, -, earlier⟩
      · exact absurd (hv.symm.trans hy) (by simp)
      · exact absurd (there.symm.trans (h.ended earlier hy).1) (by simp)

end Muster
