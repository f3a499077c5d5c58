import Muster.Proofs.Config.Registries

/-!
# What a question is told

* `Registry.get_add_self`, `Registry.get_add_of_ne`: the value that was added last counts, for its kind only.
* `Registry.Answers`: how a question may be answered, by values that were added, by a default that was kept, or by
  one that is made; `Registry.answers_get`, `Registry.answers_getAll`: both questions are answered so.
* `Registry.Hides`: the last value of a kind is not of a type, though another one is.
* `Registry.Agrees`: the last value of a type is the last of all its values, in whichever order one asks.
* **`Registries.get_agrees`**: both questions agree exactly on the types of which no value is hidden; a type alone in
  its kind is one of them.
-/

namespace Muster

open Std

theorem OptionFamily.ofTy?_eq_none {F : OptionFamily} {t : F.Ty} {v : F.Value} :
    F.ofTy? t v = none ↔ F.tyOf v ≠ t := by
  unfold OptionFamily.ofTy?
  split <;> simp [*]

theorem OptionFamily.ofTy?_eq_some {F : OptionFamily} {t : F.Ty} {v w : F.Value} :
    F.ofTy? t v = some w ↔ v = w ∧ F.tyOf v = t := by
  unfold OptionFamily.ofTy?
  split <;> simp [*]

theorem OptionFamily.ofTy?_of_eq {F : OptionFamily} {t : F.Ty} {v : F.Value} (own : F.tyOf v = t) :
    F.ofTy? t v = some v := if_pos own

/-- The default of a type is of that type. -/
theorem OptionFamily.default?_bind {F : OptionFamily} (t : F.Ty) (calls : Nat) :
    (F.default? t calls).bind (F.ofTy? t) = F.default? t calls := by
  cases made : F.default? t calls with
  | none => rfl
  | some v => exact F.ofTy?_of_eq (F.tyOf_default made)

namespace Registry

variable {F : OptionFamily} {r : Registry F} {t : F.Ty}

theorem ofKind_of_mem_toList {k : F.Kind} {vs : List F.Value} (there : (k, vs) ∈ r.toList) : r.ofKind k = vs := by
  obtain ⟨j, -, same⟩ := List.mem_map.mp there
  cases same
  rfl

/-! ### What is kept -/

theorem defaults_merge (r s : Registry F) : (r.merge s).defaults = r.defaults := by
  unfold merge
  induction s.toList generalizing r with
  | nil => rfl
  | cons e l ih => exact ih _

theorem defaults_remove (r : Registry F) (v : F.Value) : (r.remove v).defaults = r.defaults := by
  rcases Tidy.remove_cases r v with ⟨-, same⟩ | ⟨-, closed⟩ | ⟨-, -, kept⟩
  · rw [same]
  · rw [closed]
    rfl
  · rw [kept]
    rfl

theorem defaults_addIfAbsent (r : Registry F) (v : F.Value) : (r.addIfAbsent v).defaults = r.defaults := by
  unfold addIfAbsent
  split <;> rfl

/-! ### Answers -/

theorem default_of_kept {slot : Option F.Value} (kept : r.defaults[F.kindOf t]? = some slot) (calls : Nat) :
    (r.default t calls).value = slot.bind (F.ofTy? t) ∧ (r.default t calls).registry = r ∧
      (r.default t calls).made = false := by
  unfold default
  simp only [kept, and_self]

theorem default_of_unkept (unkept : r.defaults[F.kindOf t]? = none) (calls : Nat) :
    (r.default t calls).value = F.default? t calls ∧
      (r.default t calls).registry =
        { r with defaults := r.defaults.insert (F.kindOf t) (F.default? t calls) } ∧
      (r.default t calls).made = true := by
  unfold default
  simp only [unkept, F.default?_bind, and_self]

theorem get_of_nil (bare : r.ofKind (F.kindOf t) = []) (calls : Nat) : r.get t calls = r.default t calls := by
  unfold get
  rw [bare]
  rfl

theorem getAll_of_nil (bare : r.ofKind (F.kindOf t) = []) (calls : Nat) :
    r.getAll t calls = { r.default t calls with value := (r.default t calls).value.toList } := by
  unfold getAll
  rw [bare]

theorem get_of_last {v : F.Value} (last : (r.ofKind (F.kindOf t)).getLast? = some v) (calls : Nat) :
    (r.get t calls).value = F.ofTy? t v ∧ (r.get t calls).registry = r ∧ (r.get t calls).made = false := by
  unfold get
  simp only [last, and_self]

theorem getAll_of_ne_nil (filled : r.ofKind (F.kindOf t) ≠ []) (calls : Nat) :
    (r.getAll t calls).value = (r.ofKind (F.kindOf t)).filterMap (F.ofTy? t) ∧
      (r.getAll t calls).registry = r ∧ (r.getAll t calls).made = false := by
  unfold getAll
  split
  · exact absurd ‹_› filled
  · exact ⟨rfl, rfl, rfl⟩

theorem get_empty (F : OptionFamily) (t : F.Ty) (calls : Nat) :
    ((∅ : Registry F).get t calls).value = F.default? t calls := by
  have bare : (∅ : Registry F).ofKind (F.kindOf t) = [] := HashMap.getD_empty
  have unkept : (∅ : Registry F).defaults[F.kindOf t]? = none := HashMap.getElem?_empty
  rw [get_of_nil bare, (default_of_unkept unkept calls).1]

/-- A value that is added comes after those of its kind, and changes nothing for other kinds. -/
theorem ofKind_add (r : Registry F) (v : F.Value) (k : F.Kind) :
    (r.add v).ofKind k = if F.kindOfValue v = k then r.ofKind k ++ [v] else r.ofKind k :=
  r.ofKind_extend (F.kindOfValue v) k [v]

/-- The value of a type that was added last counts, -/
theorem get_add_self (r : Registry F) (v : F.Value) (calls : Nat) :
    ((r.add v).get (F.tyOf v) calls).value = some v := by
  have last : ((r.add v).ofKind (F.kindOf (F.tyOf v))).getLast? = some v := by
    rw [ofKind_add, if_pos (show F.kindOfValue v = F.kindOf (F.tyOf v) from rfl), List.getLast?_concat]
  rw [(get_of_last last calls).1]
  exact F.ofTy?_of_eq rfl

/-- and a value of another kind does not. -/
theorem get_add_of_ne (r : Registry F) {v : F.Value} {t : F.Ty} (other : F.kindOfValue v ≠ F.kindOf t)
    (calls : Nat) : ((r.add v).get t calls).value = (r.get t calls).value := by
  have same : (r.add v).ofKind (F.kindOf t) = r.ofKind (F.kindOf t) := by rw [ofKind_add, if_neg other]
  cases last : (r.ofKind (F.kindOf t)).getLast? with
  | some w => rw [(get_of_last last calls).1, (get_of_last (by rw [same]; exact last) calls).1]
  | none =>
    have bare := List.getLast?_eq_none_iff.mp last
    rw [get_of_nil bare, get_of_nil (same.trans bare)]
    cases slot : r.defaults[F.kindOf t]? with
    | some s => rw [(default_of_kept slot calls).1, (default_of_kept (r := r.add v) slot calls).1]
    | none => rw [(default_of_unkept slot calls).1, (default_of_unkept (r := r.add v) slot calls).1]

/-- How a question for a type may be answered: what is told, the registry afterwards, and whether the type was
asked for its default. -/
inductive Answers (r : Registry F) (t : F.Ty) (calls : Nat) : List F.Value → Registry F → Bool → Prop where
  /-- The kind holds values, and what is told are values of the type among them. -/
  | added {told : List F.Value} (filled : r.ofKind (F.kindOf t) ≠ [])
    (own : ∀ v ∈ told, v ∈ r.ofKind (F.kindOf t) ∧ F.tyOf v = t) : Answers r t calls told r false
  /-- The kind holds none, and what was made before is told if it is of the type. -/
  | kept {slot : Option F.Value} (bare : r.ofKind (F.kindOf t) = []) (kept : r.defaults[F.kindOf t]? = some slot) :
    Answers r t calls (slot.bind (F.ofTy? t)).toList r false
  /-- The kind holds none, nothing was made before, and the default is made, told and kept. -/
  | made (bare : r.ofKind (F.kindOf t) = []) (unkept : r.defaults[F.kindOf t]? = none) :
    Answers r t calls (F.default? t calls).toList
      { r with defaults := r.defaults.insert (F.kindOf t) (F.default? t calls) } true

theorem answers_default (bare : r.ofKind (F.kindOf t) = []) (calls : Nat) :
    r.Answers t calls (r.default t calls).value.toList (r.default t calls).registry (r.default t calls).made := by
  cases slot : r.defaults[F.kindOf t]? with
  | some s =>
    obtain ⟨value, registry, made⟩ := default_of_kept slot calls
    rw [value, registry, made]
    exact .kept bare slot
  | none =>
    obtain ⟨value, registry, made⟩ := default_of_unkept slot calls
    rw [value, registry, made]
    exact .made bare slot

theorem answers_get (r : Registry F) (t : F.Ty) (calls : Nat) :
    r.Answers t calls (r.get t calls).value.toList (r.get t calls).registry (r.get t calls).made := by
  cases last : (r.ofKind (F.kindOf t)).getLast? with
  | none =>
    have bare := List.getLast?_eq_none_iff.mp last
    rw [get_of_nil bare]
    exact answers_default bare calls
  | some v =>
    obtain ⟨value, registry, made⟩ := get_of_last last calls
    have there := List.mem_of_getLast? last
    rw [value, registry, made]
    refine .added (List.ne_nil_of_mem there) fun w told => ?_
    obtain ⟨rfl, own⟩ := F.ofTy?_eq_some.mp (Option.mem_toList.mp told)
    exact ⟨there, own⟩

theorem answers_getAll (r : Registry F) (t : F.Ty) (calls : Nat) :
    r.Answers t calls (r.getAll t calls).value (r.getAll t calls).registry (r.getAll t calls).made := by
  by_cases bare : r.ofKind (F.kindOf t) = []
  · rw [getAll_of_nil bare]
    exact answers_default bare calls
  · obtain ⟨value, registry, made⟩ := getAll_of_ne_nil bare calls
    rw [value, registry, made]
    refine .added bare fun w told => ?_
    obtain ⟨v, there, found⟩ := List.mem_filterMap.mp told
    obtain ⟨rfl, own⟩ := F.ofTy?_eq_some.mp found
    exact ⟨there, own⟩

/-! ### The last value and all values -/

/-- The last value of the type's kind is not of the type, though another one is. -/
def Hides (r : Registry F) (t : F.Ty) : Prop :=
  ∃ w, (r.ofKind (F.kindOf t)).getLast? = some w ∧ F.tyOf w ≠ t ∧ ∃ v ∈ r.ofKind (F.kindOf t), F.tyOf v = t

/-- The last value of a type is the last of all its values, -/
structure Agrees (r : Registry F) (t : F.Ty) : Prop where
  /-- whichever of the two is asked for, -/
  last : ∀ calls, (r.get t calls).value = (r.getAll t calls).value.getLast?
  /-- so that there is none exactly when there are none; -/
  none : ∀ calls, (r.get t calls).value = none ↔ (r.getAll t calls).value = []
  /-- the same when all of them are asked for first, -/
  allFirst : ∀ calls later,
    ((r.getAll t calls).registry.get t later).value = (r.getAll t calls).value.getLast?
  /-- and when the last is. -/
  lastFirst : ∀ calls later,
    (r.get t calls).value = ((r.get t calls).registry.getAll t later).value.getLast?

/-- A default that is kept is told from then on. -/
theorem value_default_default (r : Registry F) (t : F.Ty) (calls later : Nat) :
    ((r.default t calls).registry.default t later).value = (r.default t calls).value := by
  cases slot : r.defaults[F.kindOf t]? with
  | some s =>
    obtain ⟨value, registry, -⟩ := default_of_kept slot calls
    rw [registry, value, (default_of_kept slot later).1]
  | none =>
    obtain ⟨value, registry, -⟩ := default_of_unkept slot calls
    have kept : (r.default t calls).registry.defaults[F.kindOf t]? = some (F.default? t calls) := by
      rw [registry]
      exact HashMap.getElem?_insert_self
    rw [(default_of_kept kept later).1, value, F.default?_bind]

/-- Where no value was added both questions are told the default. -/
theorem agrees_of_nil (bare : r.ofKind (F.kindOf t) = []) : r.Agrees t := by
  have get := get_of_nil bare
  have all := getAll_of_nil bare
  have after (calls : Nat) : (r.default t calls).registry.ofKind (F.kindOf t) = [] := by
    obtain ⟨d, same⟩ := registry_default r t calls
    rw [same]
    exact bare
  have last (o : Option F.Value) : o.toList.getLast? = o := by cases o <;> rfl
  constructor
  · intro calls
    rw [get, all, last]
  · intro calls
    rw [get, all, Option.toList_eq_nil_iff]
  · intro calls later
    rw [all, get_of_nil (after calls), value_default_default, last]
  · intro calls later
    rw [get, getAll_of_nil (after calls), last, value_default_default]

theorem filterMap_ofTy?_eq_nil {vs : List F.Value} :
    vs.filterMap (F.ofTy? t) = [] ↔ ∀ v ∈ vs, F.tyOf v ≠ t := by
  simp only [List.filterMap_eq_nil_iff, F.ofTy?_eq_none]

/-- Where values were added the questions agree when the last of them is of the type, or none is. -/
theorem agrees_of_last {w : F.Value} (last : (r.ofKind (F.kindOf t)).getLast? = some w)
    (shown : F.tyOf w = t ∨ ∀ v ∈ r.ofKind (F.kindOf t), F.tyOf v ≠ t) : r.Agrees t := by
  have get := get_of_last last
  have all := getAll_of_ne_nil (List.ne_nil_of_mem (List.mem_of_getLast? last))
  have agree : F.ofTy? t w = ((r.ofKind (F.kindOf t)).filterMap (F.ofTy? t)).getLast? := by
    rcases shown with own | other
    · obtain ⟨front, whole⟩ := List.getLast?_eq_some_iff.mp last
      rw [whole, List.filterMap_append, F.ofTy?_of_eq own]
      simp [F.ofTy?_of_eq own]
    · rw [filterMap_ofTy?_eq_nil.mpr other]
      exact F.ofTy?_eq_none.mpr (other w (List.mem_of_getLast? last))
  constructor
  · intro calls
    rw [(get calls).1, (all calls).1, agree]
  · intro calls
    rw [(get calls).1, (all calls).1, agree, List.getLast?_eq_none_iff]
  · intro calls later
    rw [(all calls).2.1, (get later).1, (all calls).1, agree]
  · intro calls later
    rw [(get calls).2.1, (all later).1, (get calls).1, agree]

/-- Nothing is told of a hidden value when the last one is asked for. -/
theorem Hides.get_getAll (h : r.Hides t) (calls : Nat) :
    (r.get t calls).value = none ∧ (r.getAll t calls).value ≠ [] := by
  obtain ⟨w, last, other, v, hv, own⟩ := h
  rw [(get_of_last last calls).1, (getAll_of_ne_nil (List.ne_nil_of_mem hv) calls).1]
  exact ⟨F.ofTy?_eq_none.mpr other, fun none => filterMap_ofTy?_eq_nil.mp none v hv own⟩

theorem agrees_iff : r.Agrees t ↔ ¬ r.Hides t := by
  constructor
  · intro agrees hides
    obtain ⟨none, some⟩ := hides.get_getAll 0
    exact some ((agrees.none 0).mp none)
  · intro shown
    cases last : (r.ofKind (F.kindOf t)).getLast? with
    | none => exact agrees_of_nil (List.getLast?_eq_none_iff.mp last)
    | some w =>
      refine agrees_of_last last ?_
      by_contra hidden
      obtain ⟨other, some⟩ := not_or.mp hidden
      push Not at some
      exact shown ⟨w, last, other, some⟩

/-- Nothing is hidden of a type that is alone in its kind. -/
theorem Tidy.not_hides (h : r.Tidy) (alone : ∀ u, F.kindOf u = F.kindOf t → u = t) : ¬ r.Hides t := by
  rintro ⟨w, last, other, -⟩
  exact other (alone _ (h.own _ w (List.mem_of_getLast? last)))

end Registry

namespace Registries

variable {F : OptionFamily}

/-- **The last value and all values.** Whatever was done, a registry tells the last of all values of a type when
it is asked for the last, and nothing exactly when there are none, unless a last value of another type hides
those of the type. In that case the last one is not told, and not a default either, though all are told. A type
that is alone in its kind is never hidden. -/
theorem get_agrees (acts : List (Act F)) (i : Nat) (t : F.Ty) :
    (((after acts).held i).Agrees t ↔ ¬ ((after acts).held i).Hides t) ∧
    (((after acts).held i).Hides t → ∀ calls,
      (((after acts).held i).get t calls).value = none ∧ (((after acts).held i).getAll t calls).value ≠ []) ∧
    ((∀ u, F.kindOf u = F.kindOf t → u = t) → ¬ ((after acts).held i).Hides t) :=
  ⟨Registry.agrees_iff, Registry.Hides.get_getAll, (listed_after acts i).1.not_hides⟩

/-- A label below a number of the same kind. -/
theorem get_disagrees :
    let r := (after (F := standardOptions) [.add 0 (.label "a"), .add 0 (.clash 3)]).held 0
    let t : standardOptions.Ty := OptionTy.label
    (r.getAll t 0).value = [OptionValue.label "a"] ∧ (r.get t 0).value = none ∧ ¬ r.Agrees t := by
  intro r t
  have values : r.ofKind (standardOptions.kindOf t) = [OptionValue.label "a", OptionValue.clash 3] := by
    refine Registry.ofKind_of_mem_toList ?_
    rw [(listed_after _ 0).2]
    exact List.mem_singleton_self _
  have last : (r.ofKind (standardOptions.kindOf t)).getLast? = some (OptionValue.clash 3) :=
    congrArg List.getLast? values
  have all := (Registry.getAll_of_ne_nil (List.ne_nil_of_mem (List.mem_of_getLast? last)) 0).1
  rw [values] at all
  have none : (r.get t 0).value = none := (Registry.get_of_last last 0).1
  refine ⟨all, none, fun agrees => ?_⟩
  rw [(agrees.none 0).mp none] at all
  cases all

end Registries

end Muster
