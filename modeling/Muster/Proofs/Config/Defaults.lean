import Muster.Proofs.Config.Reading

/-!
# Defaults

* `Registries.Making`: a type is asked for its default on behalf of a registry; `Registries.makings`: every time it
  happens over some acts, in order; `Registries.made_foldl_act`: the counts of defaults count them.
* `Registries.Remembers`: a registry keeps what was made for it, at most one default per kind;
  `Registries.Remembers.act`: every act leaves it so.
* `Registries.Steady`: over some acts at most one default per kind is made for the registry at a place, only where it
  is needed, and it is told ever after.
* **`Registries.defaults_steady`**: every registry is so over its whole life; it starts without defaults, and only
  questions make any or change which are kept.
-/

namespace Muster

open Std

namespace Registries

variable {F : OptionFamily} {s : Registries F} {a : Act F} {i : Nat} {k : F.Kind} {t : F.Ty}

/-- The type for which an act asks. -/
def Act.asks? : Act F → Option F.Ty
  | get _ t | getAll _ t => some t
  | start _ | copy _ _ | add _ _ | addIfAbsent _ _ | remove _ _ | clear _ _ | merge _ _ => none

/-- An act by which a new registry comes to its place. -/
def Act.Bears : Act F → Prop
  | start _ | copy _ _ => True
  | add _ _ | addIfAbsent _ _ | remove _ _ | clear _ _ | merge _ _ | get _ _ | getAll _ _ => False

/-- The registry at a place has just come there. -/
inductive Fresh (i : Nat) : List (Act F) → Prop where
  /-- Nothing was done yet. -/
  | first : Fresh i []
  /-- It came by the last act. -/
  | born (before : List (Act F)) {a : Act F} (bears : a.Bears) (here : a.place = i) : Fresh i (before ++ [a])

/-- A type is asked for its default on behalf of the registry at a place. -/
structure Making (F : OptionFamily) where
  /-- The place of the registry. -/
  place : Nat
  /-- The type that is asked. -/
  ty : F.Ty
  /-- What it gives. -/
  value : Option F.Value
  /-- A value that it gives is of that type. -/
  own : value.bind (F.ofTy? ty) = value

/-- The call of a type that was asked so many times before. -/
def Making.call (i : Nat) (t : F.Ty) (calls : Nat) : Making F :=
  ⟨i, t, F.default? t calls, F.default?_bind t calls⟩

/-- What an act asks a type for. -/
def making? (s : Registries F) : Act F → Option (Making F)
  | .get i t => if ((s.held i).get t (s.made t)).made then some (.call i t (s.made t)) else none
  | .getAll i t => if ((s.held i).getAll t (s.made t)).made then some (.call i t (s.made t)) else none
  | .start _ | .copy _ _ | .add _ _ | .addIfAbsent _ _ | .remove _ _ | .clear _ _ | .merge _ _ => none

/-- What some acts ask types for, in order. -/
def makings (s : Registries F) : List (Act F) → List (Making F)
  | [] => []
  | a :: acts => (s.making? a).toList ++ (s.act a).makings acts

/-- What an act is told. -/
def told (s : Registries F) : Act F → List F.Value
  | .get i t => ((s.held i).get t (s.made t)).value.toList
  | .getAll i t => ((s.held i).getAll t (s.made t)).value
  | .start _ | .copy _ _ | .add _ _ | .addIfAbsent _ _ | .remove _ _ | .clear _ _ | .merge _ _ => []

/-- What was made for a kind of the registry at a place. -/
def madeFor (i : Nat) (k : F.Kind) (ms : List (Making F)) : List (Making F) :=
  ms.filter fun m => m.place = i ∧ F.kindOf m.ty = k

/-- Over some acts at most one default per kind is made for the registry at a place, and it stays. -/
structure Steady (s : Registries F) (i : Nat) (life : List (Act F)) : Prop where
  /-- No kind is asked twice. -/
  once : ∀ k, (madeFor i k (s.makings life)).length ≤ 1
  /-- A type is asked only by a question for it that finds no value of its kind. -/
  needed : ∀ front a back, life = front ++ a :: back → ∀ m, (front.foldl act s).making? a = some m →
    a.asks? = some m.ty ∧ a.place = m.place ∧
      ((front.foldl act s).held m.place).ofKind (F.kindOf m.ty) = []
  /-- A question that finds no value is told what was made for the kind, now or before. -/
  stays : ∀ front a back, life = front ++ a :: back → a.place = i → ∀ t, a.asks? = some t →
    ((front.foldl act s).held i).ofKind (F.kindOf t) = [] →
    ∃ m, madeFor i (F.kindOf t) (s.makings (front ++ [a])) = [m] ∧
      (front.foldl act s).told a = (m.value.bind (F.ofTy? t)).toList ∧
      (m.ty = t → (front.foldl act s).told a = m.value.toList)

/-! ### What an act makes -/

theorem makings_append (s : Registries F) (front back : List (Act F)) :
    s.makings (front ++ back) = s.makings front ++ (front.foldl act s).makings back := by
  induction front generalizing s with
  | nil => rfl
  | cons a front ih => rw [List.cons_append, makings, makings, ih, List.foldl_cons, List.append_assoc]

theorem makings_concat (s : Registries F) (front : List (Act F)) (a : Act F) :
    s.makings (front ++ [a]) = s.makings front ++ ((front.foldl act s).making? a).toList := by
  rw [makings_append, makings, makings, List.append_nil]

/-- A question is answered by its registry. -/
theorem answers_act (asks : a.asks? = some t) (s : Registries F) :
    ∃ made, (s.held a.place).Answers t (s.made t) (s.told a) ((s.act a).held a.place) made ∧
      s.making? a = (if made then some (.call a.place t (s.made t)) else none) ∧
      (s.act a).made = if made then Function.update s.made t (s.made t + 1) else s.made := by
  cases a with
  | get i t =>
    cases asks
    refine ⟨_, ?_, rfl, rfl⟩
    rw [act, Act.place, held_keep]
    exact Registry.answers_get _ t _
  | getAll i t =>
    cases asks
    refine ⟨_, ?_, rfl, rfl⟩
    rw [act, Act.place, held_keep]
    exact Registry.answers_getAll _ t _
  | start | copy | add | addIfAbsent | remove | clear | merge => cases asks

/-- Any other act makes nothing, -/
theorem making?_of_asks (silent : a.asks? = none) (s : Registries F) :
    s.making? a = none ∧ (s.act a).made = s.made := by
  cases a with
  | get | getAll => cases silent
  | start | copy | add | addIfAbsent | remove | clear | merge => exact ⟨rfl, rfl⟩

/-- and leaves what is kept as it is, unless a new registry comes by it. -/
theorem defaults_act (silent : a.asks? = none) {j : Nat} (still : a.Bears → a.place ≠ j) (s : Registries F) :
    ((s.act a).held j).defaults = (s.held j).defaults := by
  by_cases here : a.place = j
  · subst here
    cases a with
    | get | getAll => cases silent
    | start | copy => exact absurd rfl (still trivial)
    | add i v =>
      rw [act, Act.place, held_put]
      rfl
    | addIfAbsent i v =>
      rw [act, Act.place, held_put]
      exact Registry.defaults_addIfAbsent _ v
    | remove i v =>
      rw [act, Act.place, held_put]
      exact Registry.defaults_remove _ v
    | clear i t =>
      rw [act, Act.place, held_put]
      rfl
    | merge i j =>
      rw [act, Act.place, held_put]
      exact Registry.defaults_merge _ _
  · rw [held_act_of_ne here]

/-- What an act makes is made at its place, for a question that finds no value. -/
theorem needed_of_making? {m : Making F} (made : s.making? a = some m) :
    a.asks? = some m.ty ∧ a.place = m.place ∧ (s.held m.place).ofKind (F.kindOf m.ty) = [] := by
  cases asks : a.asks? with
  | none =>
    rw [(making?_of_asks asks s).1] at made
    cases made
  | some t =>
    obtain ⟨b, answers, making, -⟩ := answers_act asks s
    rw [making] at made
    generalize s.told a = told at answers
    generalize (s.act a).held a.place = r at answers
    cases answers with
    | added | kept => cases made
    | made bare =>
      cases made
      exact ⟨rfl, rfl, bare⟩

/-- The counts of defaults count what is made. -/
theorem made_foldl_act (s : Registries F) (acts : List (Act F)) (t : F.Ty) :
    (acts.foldl act s).made t = s.made t + (s.makings acts).countP fun m => m.ty = t := by
  induction acts generalizing s with
  | nil => rfl
  | cons a acts ih =>
    have first : (s.act a).made t = s.made t + (s.making? a).toList.countP fun m => m.ty = t := by
      cases asks : a.asks? with
      | none =>
        obtain ⟨making, made⟩ := making?_of_asks asks s
        rw [making, made]
        rfl
      | some u =>
        obtain ⟨b, -, making, made⟩ := answers_act asks s
        rw [making, made]
        cases b with
        | false => rfl
        | true =>
          by_cases same : t = u
          · subst same
            simp [Making.call]
          · simp [Making.call, same, Ne.symm same]
    rw [List.foldl_cons, ih, first, makings, List.countP_append, Nat.add_assoc]

/-! ### What a registry keeps -/

/-- The registry at a place keeps what was made for it, at most one default per kind. -/
def Remembers (s : Registries F) (i : Nat) (ms : List (Making F)) : Prop :=
  ∀ k, (madeFor i k ms = [] ∧ (s.held i).defaults[k]? = none) ∨
    ∃ m, madeFor i k ms = [m] ∧ (s.held i).defaults[k]? = some m.value

variable {ms : List (Making F)}

theorem Remembers.start (bare : (s.held i).defaults = ∅) : s.Remembers i [] := by
  intro k
  rw [bare]
  exact .inl ⟨rfl, HashMap.getElem?_empty⟩

theorem Remembers.length_le (h : s.Remembers i ms) (k : F.Kind) : (madeFor i k ms).length ≤ 1 := by
  rcases h k with ⟨none, -⟩ | ⟨m, one, -⟩
  · rw [none]
    exact Nat.zero_le 1
  · rw [one]
    exact Nat.le_refl 1

theorem madeFor_append (i : Nat) (k : F.Kind) (ms ms' : List (Making F)) :
    madeFor i k (ms ++ ms') = madeFor i k ms ++ madeFor i k ms' := List.filter_append _ _

theorem madeFor_call (i : Nat) (k : F.Kind) (t : F.Ty) (calls : Nat) :
    madeFor i k [.call i t calls] = if F.kindOf t = k then [.call i t calls] else [] := by
  by_cases same : F.kindOf t = k <;> simp [madeFor, Making.call, same]

/-- A registry that is not touched keeps what it has. -/
theorem Remembers.of_defaults {s' : Registries F} {ms' : List (Making F)} (h : s.Remembers i ms)
    (same : (s'.held i).defaults = (s.held i).defaults) (none : ∀ k, madeFor i k ms' = []) :
    s'.Remembers i (ms ++ ms') := by
  intro k
  rw [madeFor_append, none, List.append_nil, same]
  exact h k

/-- Every act leaves it so, unless a new registry comes by it. -/
theorem Remembers.act (h : s.Remembers i ms) (still : a.Bears → a.place ≠ i) :
    (s.act a).Remembers i (ms ++ (s.making? a).toList) := by
  cases asks : a.asks? with
  | none =>
    refine h.of_defaults (defaults_act asks still s) fun k => ?_
    rw [(making?_of_asks asks s).1]
    rfl
  | some t =>
    obtain ⟨made, answers, making, -⟩ := answers_act asks s
    rw [making]
    by_cases here : a.place = i
    · subst here
      generalize told : s.told a = answer at answers
      generalize after : (s.act a).held a.place = r at answers
      cases answers with
      | added | kept => exact h.of_defaults (congrArg Registry.defaults after) fun _ => rfl
      | made bare unkept =>
        intro k
        rw [after, madeFor_append, if_pos rfl, Option.toList_some, madeFor_call, HashMap.getElem?_insert]
        by_cases same : F.kindOf t = k
        · subst same
          rcases h (F.kindOf t) with ⟨none, -⟩ | ⟨m, -, kept⟩
          · rw [none, if_pos rfl, if_pos BEq.rfl]
            exact .inr ⟨_, rfl, rfl⟩
          · cases unkept.symm.trans kept
        · rw [if_neg same, List.append_nil, if_neg (by simpa using same)]
          exact h k
    · refine h.of_defaults (congrArg Registry.defaults (held_act_of_ne here s)) fun k => ?_
      cases made with
      | false => rfl
      | true => simp [madeFor, Making.call, here]

theorem Remembers.foldl_act {life : List (Act F)} (h : s.Remembers i ms)
    (still : ∀ a ∈ life, a.Bears → a.place ≠ i) :
    (life.foldl Registries.act s).Remembers i (ms ++ s.makings life) := by
  induction life generalizing s ms with
  | nil =>
    rw [makings, List.append_nil]
    exact h
  | cons a life ih =>
    rw [makings, ← List.append_assoc]
    exact ih (h.act (still a List.mem_cons_self)) fun b hb => still b (List.mem_cons_of_mem a hb)

/-- A question that finds no value is told what is kept. -/
theorem Remembers.told (h : s.Remembers i ms) (here : a.place = i) (asks : a.asks? = some t)
    (bare : (s.held i).ofKind (F.kindOf t) = []) :
    ∃ m, madeFor i (F.kindOf t) (ms ++ (s.making? a).toList) = [m] ∧
      s.told a = (m.value.bind (F.ofTy? t)).toList := by
  subst here
  obtain ⟨made, answers, making, -⟩ := answers_act asks s
  rw [making, madeFor_append]
  generalize s.told a = told at answers ⊢
  generalize (s.act a).held a.place = r at answers
  cases answers with
  | added filled => exact absurd bare filled
  | kept _ kept =>
    rcases h (F.kindOf t) with ⟨-, unkept⟩ | ⟨m, one, kept'⟩
    · cases unkept.symm.trans kept
    · cases kept.symm.trans kept'
      exact ⟨m, by rw [one]; rfl, rfl⟩
  | made _ unkept =>
    rcases h (F.kindOf t) with ⟨none, -⟩ | ⟨m, -, kept⟩
    · refine ⟨.call a.place t (s.made t), ?_, ?_⟩
      · rw [none, if_pos rfl, Option.toList_some, madeFor_call, if_pos rfl, List.nil_append]
      · rw [Making.call, F.default?_bind]
    · cases unkept.symm.trans kept

/-- A registry that has just come to a place keeps no default. -/
theorem Fresh.defaults {before : List (Act F)} (fresh : Fresh i before) :
    ((after before).held i).defaults = ∅ := by
  cases fresh with
  | first => rfl
  | @born before a bears here =>
    unfold after
    rw [List.foldl_append, List.foldl_cons, List.foldl_nil]
    subst here
    cases a with
    | start i =>
      rw [act, Act.place, held_put]
      rfl
    | copy i j =>
      rw [act, Act.place, held_put]
      rfl
    | add | addIfAbsent | remove | clear | merge | get | getAll => exact bears.elim

/-- **Defaults are made once and stay.** From when a registry comes to a place until another comes there, whatever
is done at whatever places, at most one default per kind is made for it, only by a question that finds no value of
the kind, and every such question is told the default that was made. It comes without defaults, copies included.
An act that asks nothing, like appending or copying, makes no default for any registry and leaves those that are
kept as they are. The counts of defaults count exactly what is made. -/
theorem defaults_steady {before : List (Act F)} {i : Nat} (fresh : Fresh i before) {life : List (Act F)}
    (still : ∀ a ∈ life, a.Bears → a.place ≠ i) :
    ((after before).held i).defaults = ∅ ∧ (after before).Steady i life ∧
    (∀ (s : Registries F) (a : Act F), a.asks? = none → s.making? a = none ∧
      ∀ j, (a.Bears → a.place ≠ j) → ((s.act a).held j).defaults = (s.held j).defaults) ∧
    ∀ t, (after (before ++ life)).made t =
      (after before).made t + ((after before).makings life).countP fun m => m.ty = t := by
  have start : (after before).Remembers i [] := .start fresh.defaults
  refine ⟨fresh.defaults, ?_, fun s a silent => ?_, fun t => ?_⟩
  · refine ⟨(start.foldl_act still).length_le, fun front a back _ m => needed_of_making?, ?_⟩
    intro front a back cut here t asks bare
    have so : (front.foldl act (after before)).Remembers i ((after before).makings front) :=
      start.foldl_act fun b hb => still b (cut ▸ List.mem_append_left _ hb)
    obtain ⟨m, one, told⟩ := so.told here asks bare
    rw [← makings_concat] at one
    refine ⟨m, one, told, ?_⟩
    rintro rfl
    rw [told, m.own]
  · exact ⟨(making?_of_asks silent s).1, fun j still => defaults_act silent still s⟩
  · unfold after
    rw [List.foldl_append]
    exact made_foldl_act _ life t

/-- A copy of a registry that keeps a default, asked before a value is added and after it is removed. -/
theorem defaults_steady_copied :
    let before : List (Act standardOptions) := [.getAll 0 OptionTy.counted, .copy 1 0]
    let life : List (Act standardOptions) := [.get 1 OptionTy.counted, .add 1 (.counted 5),
      .remove 1 (.counted 5), .merge 0 1, .getAll 1 OptionTy.counted]
    Fresh 1 before ∧ (∀ a ∈ life, a.Bears → a.place ≠ 1) ∧ ((after before).held 1).defaults = ∅ ∧
      (after before).Steady 1 life := by
  intro before life
  have fresh : Fresh 1 before :=
    .born (F := standardOptions) (a := .copy 1 0) [.getAll 0 OptionTy.counted] trivial rfl
  have still : ∀ a ∈ life, a.Bears → a.place ≠ 1 := by simp [life, Act.Bears]
  obtain ⟨bare, steady, -⟩ := defaults_steady fresh still
  exact ⟨fresh, still, bare, steady⟩

end Registries

end Muster
