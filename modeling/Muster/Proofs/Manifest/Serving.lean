import Mathlib.Data.List.Forall2
import Muster.Manifest.Basic
import Muster.Proofs.Source.Answers
import Muster.Proofs.Source.Follow

/-!
# Sources that serve variables

* `Variable.value?`: the value of a variable for the member at a place.
* `Source.Serves`: a source gives the values of a variable, from a place on; a template of sources serves
  a list of variables.
* **`Generator.drawAll_serves`**: a snapshot takes one value of each variable, and serves the next member
  then.
* **`Draft.planMembers_serves`**: so do some members in a row.
-/

namespace Muster

namespace Variable

/-- The value for the member at a place, counted from zero. -/
def value? : Variable → Nat → Option String
  | fixed s, _ => some s.shown
  | sequence vs, i => vs[i]?.map Scalar.shown
  | cycle vs, i => vs[i % vs.length]?.map Scalar.shown
  | counter start, i => some (toString (start + i))

theorem value?_eq_at? {v : Variable} {s : Sequence} (h : v.sequence? = some s) (i : Nat) :
    v.value? i = s.at? i := by
  cases v with
  | fixed x => cases h
  | sequence vs =>
    cases h
    rw [value?, Sequence.at?_once, List.getElem?_map]
  | cycle vs =>
    cases h
    rw [value?, Sequence.at?, List.length_map, List.getElem?_map]
  | counter n =>
    cases h
    rfl

end Variable

/-- Names with a value each: those of some variables for the member at a place. -/
def Valued (i : Nat) (ps : List (String × String)) (vs : List (String × Variable)) : Prop :=
  List.Forall₂ (fun p v => p.1 = v.1 ∧ v.2.value? i = some p.2) ps vs

theorem Valued.value {i : Nat} {ps : List (String × String)} {vs : List (String × Variable)}
    (h : Valued i ps vs) {v : String × Variable} (hv : v ∈ vs) : (v.2.value? i).isSome := by
  induction h with
  | nil => cases hv
  | cons head _ ih =>
    rcases List.mem_cons.mp hv with rfl | hv
    · rw [head.2]
      rfl
    · exact ih hv

/-- When some members have values, each of their places has. -/
theorem Valued.everywhere {P : MemberSpec → Prop} {ms : List MemberSpec} {js : List Nat}
    {vs : List (String × Variable)}
    (h : List.Forall₂ (fun m j => P m ∧ Valued j m.environment.pairs vs) ms js) {j : Nat} (hj : j ∈ js)
    {v : String × Variable} (hv : v ∈ vs) : (v.2.value? j).isSome := by
  induction h with
  | nil => cases hj
  | cons head _ ih =>
    rcases List.mem_cons.mp hj with rfl | hj
    · exact head.2.value hv
    · exact ih hj

/-! ## Sources -/

/-- Nothing has changed but some sequences. -/
def Sequences.AgreeOff (ids : List SequenceId) (q q' : Sequences) : Prop :=
  ∀ id, id ∉ ids → q'.cells[id.index]? = q.cells[id.index]?

theorem Sequences.AgreeOff.refl (ids : List SequenceId) (q : Sequences) : AgreeOff ids q q := fun _ _ => rfl

theorem Sequences.AgreeOff.trans {ids ids' : List SequenceId} {q q' q'' : Sequences}
    (h : AgreeOff ids q q') (h' : AgreeOff ids' q' q'') : AgreeOff (ids ++ ids') q q'' := fun id hid =>
  (h' id fun hmem => hid (List.mem_append_right _ hmem)).trans
    (h id fun hmem => hid (List.mem_append_left _ hmem))

/-- Some sequences have not changed. -/
def Sequences.AgreeOn (ids : List SequenceId) (q q' : Sequences) : Prop :=
  ∀ id ∈ ids, q'.cells[id.index]? = q.cells[id.index]?

theorem Sequences.AgreeOff.agreeOn {ids ids' : List SequenceId} {q q' : Sequences} (h : AgreeOff ids q q')
    (apart : ∀ id ∈ ids', id ∉ ids) : AgreeOn ids' q q' := fun id hid => h id (apart id hid)

namespace Source

/-- A source gives the values of a variable, from a place on. -/
inductive Serves (q : Sequences) (i : Nat) : Source → Variable → Prop where
  /-- It has the value of every place. -/
  | fixed (s : Scalar) : Serves q i (.fixed s.shown) (.fixed s)
  /-- Its sequence is that of the variable, and the values before the place are drawn. -/
  | shared {id : SequenceId} {word : String} {v : Variable} {s : Sequence} (is : v.sequence? = some s)
    (cell : q.cells[id.index]? = some ⟨s, i⟩) : Serves q i (.shared id word) v

variable {q q' : Sequences} {i : Nat} {src : Source} {v : Variable}

theorem Serves.agree (h : src.Serves q i v) (same : q.AgreeOn src.id?.toList q') : src.Serves q' i v := by
  cases h with
  | fixed s => exact .fixed s
  | shared is cell => exact .shared is ((same _ (Option.mem_toList.mpr rfl)).trans cell)

/-- The next value of the variable, and after it the one after. -/
theorem Serves.draw (h : src.Serves q i v) : (src.draw q).1 = v.value? i ∧
    ((v.value? i).isSome → src.Serves (src.draw q).2 (i + 1) v) := by
  cases h with
  | fixed s => exact ⟨rfl, fun _ => .fixed s⟩
  | @shared id word _ s is cell =>
    have value : (q.draw id).1 = v.value? i := by
      rw [Sequences.draw_fst, Sequences.sequence?, Sequences.drawn, cell, Variable.value?_eq_at? is]
      rfl
    refine ⟨value, fun some_ => .shared is ?_⟩
    rw [Source.draw, Sequences.cell_draw, cell, value, Option.map_some, if_pos ⟨rfl, some_⟩]

theorem draw_agree (src : Source) (q : Sequences) : q.AgreeOff src.id?.toList (src.draw q).2 := by
  intro id hid
  cases src with
  | fixed v => rfl
  | shared other word =>
    have hne : ¬ id = other := fun heq => hid (by simp [id?, heq])
    simp [Source.draw, Sequences.cell_draw, hne]

end Source

namespace Generator

/-- The sequences behind some entries. -/
def ids (es : List (String × Source)) : List SequenceId := es.filterMap (·.2.id?)

/-- Each of some entries serves the variable of its name. -/
def Serve (q : Sequences) (i : Nat) (es : List (String × Source)) (vs : List (String × Variable)) : Prop :=
  List.Forall₂ (fun e v => e.1 = v.1 ∧ e.2.Serves q i v.2) es vs

variable {q q' : Sequences} {i : Nat} {es : List (String × Source)} {vs : List (String × Variable)}

theorem ids_cons (e : String × Source) (es : List (String × Source)) :
    ids (e :: es) = e.2.id?.toList ++ ids es := by
  cases h : e.2.id? <;> simp [ids, h]

theorem Serve.agree (h : Serve q i es vs) (same : q.AgreeOn (ids es) q') : Serve q' i es vs := by
  induction h with
  | nil => exact .nil
  | @cons e v es vs head _ ih =>
    rw [ids_cons] at same
    exact .cons ⟨head.1, head.2.agree fun id hid => same id (List.mem_append_left _ hid)⟩
      (ih fun id hid => same id (List.mem_append_right _ hid))

/-- **One member.** A draw for each entry gives the variables' values for the member at a place, and the
entries serve the next member then; or there is no value for one of the variables. -/
theorem drawAll_serves (serve : Serve q i es vs) (nodup : (ids es).Nodup) :
    (∃ ps q', drawAll q es = (.ok ps, q') ∧ Valued i ps vs ∧ Serve q' (i + 1) es vs ∧
      q.AgreeOff (ids es) q') ∨
    ∃ x q', drawAll q es = (.error x, q') ∧ ∃ v ∈ vs, v.2.value? i = none := by
  induction es generalizing q vs with
  | nil =>
    cases serve
    exact .inl ⟨[], q, rfl, .nil, .nil, .refl _ q⟩
  | cons e es ih =>
    rcases serve with _ | @⟨_, v, _, vs, ⟨named, serves⟩, tail⟩
    obtain ⟨value, next⟩ := serves.draw
    have agree := e.2.draw_agree q
    rw [ids_cons] at nodup ⊢
    obtain ⟨-, nodup', apart⟩ := List.nodup_append.mp nodup
    rw [drawAll]
    rcases hdraw : e.2.draw q with ⟨_ | x, q₁⟩
    · rw [hdraw] at value
      exact .inr ⟨_, _, rfl, v, List.mem_cons_self, value.symm⟩
    · rw [hdraw] at value next agree
      have tail' : Serve q₁ i es vs :=
        Serve.agree tail (agree.agreeOn fun id hid hmem => apart id hmem id hid rfl)
      rcases ih tail' nodup' with ⟨ps, q₂, hall, valued, after, agree'⟩ | ⟨y, q₂, hall, missing⟩
      · refine .inl ⟨(e.1, x) :: ps, q₂, by simp only [hall], .cons ⟨named, value.symm⟩ valued,
          .cons ⟨named, ?_⟩ after, agree.trans agree'⟩
        refine (next (by rw [← value]; rfl)).agree (agree'.agreeOn fun id hid hmem => ?_)
        exact apart id hid id hmem rfl
      · obtain ⟨v', hv', none_⟩ := missing
        exact .inr ⟨y, q₂, by simp only [hall], v', List.mem_cons_of_mem _ hv', none_⟩

end Generator

namespace Draft

open Generator

variable {q : Sequences} {s : Schema} {vs : List (String × Variable)}

/-- **Some members in a row.** -/
theorem planMembers_serves {i : Nat} (serve : Serve q i s.environment.entries vs)
    (nodup : (ids s.environment.entries).Nodup) (base : String) (number ordinal count : Nat) :
    (∃ ms q', planMembers s base number ordinal q count = (.ok ms, q') ∧
      List.Forall₂ (fun m j => m.schema = s ∧ Valued j m.environment.pairs vs) ms
        (List.range' i count) ∧
      Serve q' (i + count) s.environment.entries vs ∧ q.AgreeOff (ids s.environment.entries) q') ∨
    ∃ member x q', planMembers s base number ordinal q count = (.error (.environment member x), q') ∧
      ∃ j ∈ List.range' i count, ∃ v ∈ vs, v.2.value? j = none := by
  induction count generalizing q i number ordinal with
  | zero => exact .inl ⟨[], q, rfl, .nil, serve, .refl _ q⟩
  | succ count ih =>
    rw [List.range'_succ]
    rcases drawAll_serves serve nodup with ⟨ps, q₁, hall, valued, next, agree⟩ | ⟨x, q₁, hall, missing⟩
    · have one : s.resolveEnvironment q = (.ok ⟨ps⟩, q₁) := by
        rw [Schema.resolveEnvironment, snapshot, hall]
      rcases ih next (number + 1) (ordinal + 1) with
        ⟨ms, q₂, hms, made, after, agree'⟩ | ⟨member, x, q₂, hms, j, hj, missing⟩
      · refine .inl ⟨⟨ordinal, base ++ "-" ++ toString (number + 1), s, ⟨ps⟩⟩ :: ms, q₂,
          by simp only [planMembers, one, hms], .cons ⟨rfl, valued⟩ made, ?_, ?_⟩
        · rwa [Nat.add_right_comm, Nat.add_assoc] at after
        · exact fun id hid => (agree' id hid).trans (agree id hid)
      · exact .inr ⟨member, x, q₂, by simp only [planMembers, one, hms], j, List.mem_cons_of_mem _ hj,
          missing⟩
    · have one : s.resolveEnvironment q = (.error x, q₁) := by
        rw [Schema.resolveEnvironment, snapshot, hall]
      refine .inr ⟨base ++ "-" ++ toString (number + 1), x, q₁, ?_, i, List.mem_cons_self, missing⟩
      simp only [planMembers, one]

end Draft

end Muster
