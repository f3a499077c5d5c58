import Muster.Proofs.Source.Answers
import Muster.Proofs.Source.Follow

/-!
# Who holds sources, and who draws

* `Holder`, `Holder.MadeFrom`: everything that holds sources, and how one is made from others without
  drawing.
* **`Holder.MadeFrom.sources`**: whatever is made holds the sources of those it was made from.
* `Call`: everything that draws. `Call.drawer` is a call draw by draw, `Call.answer` the whole call.
* **`Call.told_of_leads`**: what a call answers tells what was drawn for it.
-/

namespace Muster

/-! ## What holds sources -/

/-- Something that holds sources. -/
inductive Holder where
  /-- A source by itself. -/
  | source (src : Source)
  /-- A value generator. -/
  | generator (g : Generator)
  /-- A schema under construction. -/
  | builder (s : Schema)
  /-- A finished schema. -/
  | schema (s : Schema)
  /-- An assembly under construction. -/
  | draft (d : Draft)

namespace Generator

/-- The sources of a generator. -/
def sources (g : Generator) : List Source := g.entries.map (·.2)

theorem mem_setIn {name : String} {src src' : Source} {es : List (String × Source)}
    (h : src' ∈ (setIn name src es).map (·.2)) : src' = src ∨ src' ∈ es.map (·.2) := by
  induction es with
  | nil => exact .inl (by simpa [setIn] using h)
  | cons e es ih =>
    unfold setIn at h
    split at h
    · rcases List.mem_cons.mp h with h | h
      · exact .inl h
      · exact .inr (List.mem_cons_of_mem _ h)
    · rcases List.mem_cons.mp h with h | h
      · exact .inr (List.mem_cons.mpr (.inl h))
      · exact (ih h).imp_right (List.mem_cons_of_mem _)

theorem mem_sources_set {g : Generator} {name : String} {src src' : Source}
    (h : src' ∈ (g.set name src).sources) : src' = src ∨ src' ∈ g.sources := mem_setIn h

theorem mem_sources_merge {g h : Generator} {src : Source} (hsrc : src ∈ (g.merge h).sources) :
    src ∈ h.sources ∨ src ∈ g.sources := by
  obtain ⟨es⟩ := h
  unfold merge at hsrc
  induction es generalizing g with
  | nil => exact .inr hsrc
  | cons e es ih =>
    rcases ih hsrc with h | h
    · exact .inl (List.mem_cons_of_mem _ h)
    · exact (mem_sources_set h).imp_left fun h => List.mem_cons.mpr (.inl h)

theorem mem_sources_of_source? {g : Generator} {name : String} {src : Source}
    (h : g.source? name = some src) : src ∈ g.sources := by
  obtain ⟨e, he, rfl⟩ := Option.map_eq_some_iff.mp h
  exact List.mem_map_of_mem (List.mem_of_find?_eq_some he)

end Generator

/-- The sources of an assembly under construction. -/
def Draft.sources (d : Draft) : List Source := d.groups.flatMap fun g => g.schema.environment.sources

section Asks

open Drawer

variable {P : Source → Prop}

theorem Generator.asks_resolving {g : Generator} {name : String}
    (h : ∀ src, g.source? name = some src → P src) : (g.resolving name).Asks P := by
  unfold resolving
  cases hsrc : g.source? name with
  | none => trivial
  | some src => exact ⟨h src hsrc, fun v => by cases v <;> trivial⟩

theorem Generator.asks_drawing {es : List (String × Source)} (h : ∀ src ∈ es.map (·.2), P src) :
    (drawing es).Asks P := by
  induction es with
  | nil => trivial
  | cons e es ih =>
    refine ⟨h _ (List.mem_cons.mpr (.inl rfl)), fun v => ?_⟩
    cases v with
    | none => trivial
    | some v =>
      refine (ih fun src hsrc => h src (List.mem_cons_of_mem _ hsrc)).bind fun r => ?_
      cases r <;> trivial

theorem Generator.asks_snapshotting {g : Generator} (h : ∀ src ∈ g.sources, P src) :
    g.snapshotting.Asks P :=
  (asks_drawing h).bind fun r => by cases r <;> trivial

theorem Draft.asks_planningMembers {s : Schema} (h : ∀ src ∈ s.environment.sources, P src)
    (base : String) (number ordinal count : Nat) :
    (planningMembers s base number ordinal count).Asks P := by
  induction count generalizing number ordinal with
  | zero => trivial
  | succ count ih =>
    refine (Generator.asks_snapshotting h).bind fun r => ?_
    cases r with
    | error e => trivial
    | ok env => exact (ih _ _).bind fun r => by cases r <;> trivial

theorem Draft.asks_planningGroup {g : Group} (h : ∀ src ∈ g.schema.environment.sources, P src)
    (p : Progress) : (planningGroup p g).Asks P := by
  unfold planningGroup
  split
  · trivial
  · cases hs : g.schema.build with
    | error e => trivial
    | ok s =>
      rw [← environment_build hs] at h
      exact (asks_planningMembers h _ _ _ _).bind fun r => by cases r <;> trivial

theorem Draft.asks_planningGroups {gs : List Group}
    (h : ∀ src ∈ gs.flatMap fun g => g.schema.environment.sources, P src) (p : Progress) :
    (planningGroups p gs).Asks P := by
  induction gs generalizing p with
  | nil => trivial
  | cons g gs ih =>
    rw [List.flatMap_cons] at h
    refine (asks_planningGroup (fun src hsrc => h src (List.mem_append_left _ hsrc)) p).bind fun r => ?_
    cases r with
    | error e => trivial
    | ok p => exact ih (fun src hsrc => h src (List.mem_append_right _ hsrc)) p

theorem Draft.asks_planning {d : Draft} (h : ∀ src ∈ d.sources, P src) : d.planning.Asks P :=
  (asks_planningGroups h {}).bind fun r => by cases r <;> trivial

end Asks

namespace Holder

/-- The sources that are held. -/
def sources : Holder → List Source
  | source src => [src]
  | generator g => g.sources
  | builder s => s.environment.sources
  | schema s => s.environment.sources
  | draft d => d.sources

/-- What is made from what is held, without drawing. What is held may also change: then the changed one
is made, and the one from before is no longer asked. -/
inductive MadeFrom (held : List Holder) : Holder → Prop where
  /-- A fixed value. -/
  | fixed (v : String) : MadeFrom held (source (.fixed v))
  /-- The source under a name. -/
  | found {g : Generator} {name : String} {src : Source} (from_ : generator g ∈ held)
    (there : g.source? name = some src) : MadeFrom held (source src)
  /-- An empty generator. -/
  | generator : MadeFrom held (generator {})
  /-- A generator with a source under a name. -/
  | set {g : Generator} {src : Source} (from_ : Holder.generator g ∈ held) (with_ : source src ∈ held)
    (name : String) : MadeFrom held (.generator (g.set name src))
  /-- A generator with all entries of another. -/
  | merge {g h : Generator} (from_ : Holder.generator g ∈ held) (with_ : Holder.generator h ∈ held) :
    MadeFrom held (.generator (g.merge h))
  /-- The generator of a schema. -/
  | template {s : Schema} (from_ : schema s ∈ held) : MadeFrom held (.generator s.environment)
  /-- A schema under construction. -/
  | builder (executable : String) : MadeFrom held (builder { executable })
  /-- A schema under construction with a source under a name. -/
  | env {s : Schema} {src : Source} (from_ : Holder.builder s ∈ held) (with_ : source src ∈ held)
    (name : String) : MadeFrom held (.builder { s with environment := s.environment.set name src })
  /-- A schema under construction with all entries of a generator. -/
  | environment {s : Schema} {g : Generator} (from_ : Holder.builder s ∈ held)
    (with_ : Holder.generator g ∈ held) :
    MadeFrom held (.builder { s with environment := s.environment.merge g })
  /-- A schema under construction that differs in other parts. -/
  | edited {s s' : Schema} (from_ : Holder.builder s ∈ held) (same : s'.environment = s.environment) :
    MadeFrom held (.builder s')
  /-- A copy of a schema under construction. -/
  | copied {s : Schema} (from_ : Holder.builder s ∈ held) : MadeFrom held (.builder s.copy)
  /-- A finished schema. -/
  | built {s s' : Schema} (from_ : Holder.builder s ∈ held) (ok : s.build = .ok s') :
    MadeFrom held (.schema s')
  /-- A copy of a finished schema. -/
  | kept {s : Schema} (from_ : Holder.schema s ∈ held) : MadeFrom held (.schema s.copy)
  /-- An assembly under construction. -/
  | draft : MadeFrom held (draft {})
  /-- An assembly with some more members of a schema under construction. -/
  | included {d : Draft} {s : Schema} (from_ : Holder.draft d ∈ held) (with_ : Holder.builder s ∈ held)
    (count : Nat) : MadeFrom held (.draft (d.addGroup count s))
  /-- An assembly under construction that differs in other parts. -/
  | tuned {d d' : Draft} (from_ : Holder.draft d ∈ held) (same : d'.groups = d.groups) :
    MadeFrom held (.draft d')
  /-- A copy of an assembly under construction. -/
  | cloned {d : Draft} (from_ : Holder.draft d ∈ held) : MadeFrom held (.draft d.copy)

/-- **Nothing that is made has a sequence of its own.** Every source comes from a holder, or is fixed. -/
theorem MadeFrom.sources {held : List Holder} {h : Holder} (made : h.MadeFrom held) {src : Source}
    (hsrc : src ∈ h.sources) : (∃ v, src = .fixed v) ∨ ∃ h' ∈ held, src ∈ h'.sources := by
  cases made with
  | fixed v => exact .inl ⟨v, List.mem_singleton.mp hsrc⟩
  | found from_ there =>
    cases List.mem_singleton.mp hsrc
    exact .inr ⟨_, from_, Generator.mem_sources_of_source? there⟩
  | generator | builder | draft => cases hsrc
  | set from_ with_ | env from_ with_ =>
    rcases Generator.mem_sources_set hsrc with rfl | hsrc
    · exact .inr ⟨_, with_, List.mem_singleton.mpr rfl⟩
    · exact .inr ⟨_, from_, hsrc⟩
  | merge from_ with_ | environment from_ with_ =>
    rcases Generator.mem_sources_merge hsrc with hsrc | hsrc
    · exact .inr ⟨_, with_, hsrc⟩
    · exact .inr ⟨_, from_, hsrc⟩
  | template from_ => exact .inr ⟨_, from_, hsrc⟩
  | copied from_ => exact .inr ⟨_, from_, hsrc⟩
  | kept from_ => exact .inr ⟨_, from_, hsrc⟩
  | edited from_ same => exact .inr ⟨_, from_, by rwa [Holder.sources, ← same]⟩
  | built from_ ok => exact .inr ⟨_, from_, by rwa [Holder.sources, ← Draft.environment_build ok]⟩
  | tuned from_ same => exact .inr ⟨_, from_, by rwa [Holder.sources, Draft.sources, ← same]⟩
  | included from_ with_ =>
    rw [Holder.sources, Draft.sources, Draft.addGroup, List.flatMap_append, List.mem_append] at hsrc
    rcases hsrc with hsrc | hsrc
    · exact .inr ⟨_, from_, hsrc⟩
    · rw [List.flatMap_singleton] at hsrc
      exact .inr ⟨_, with_, hsrc⟩
  | cloned from_ =>
    rw [Holder.sources, Draft.sources, Draft.copy, List.flatMap_map] at hsrc
    exact .inr ⟨_, from_, hsrc⟩

end Holder

/-! ## Calls -/

/-- A call that draws. -/
inductive Call where
  /-- Asks a generator for the value of one name. -/
  | resolve (g : Generator) (name : String)
  /-- Asks a generator for the values of all names. -/
  | snapshot (g : Generator)
  /-- Asks a schema for the environment of one more member. -/
  | environment (s : Schema)
  /-- Asks an assembly under construction for a plan. -/
  | plan (d : Draft)

/-- What a call answers. -/
inductive Answer where
  /-- One value. -/
  | value (r : Except DrawError String)
  /-- A value for each name. -/
  | environment (r : Except DrawError Environment)
  /-- A plan. -/
  | plan (r : Except SetupError Plan)

namespace Call

open Drawer

/-- The answer of a call that nobody comes between, and the sequences after it. -/
def answer (c : Call) (q : Sequences) : Answer × Sequences :=
  match c with
  | resolve g name => (.value (g.resolve name q).1, (g.resolve name q).2)
  | snapshot g => (.environment (g.snapshot q).1, (g.snapshot q).2)
  | environment s => (.environment (s.resolveEnvironment q).1, (s.resolveEnvironment q).2)
  | plan d => (.plan (d.plan q).1, (d.plan q).2)

/-- A call, draw by draw. -/
def drawer : Call → Drawer Answer
  | resolve g name => (g.resolving name).bind fun r => done (.value r)
  | snapshot g => g.snapshotting.bind fun r => done (.environment r)
  | environment s => s.environment.snapshotting.bind fun r => done (.environment r)
  | plan d => d.planning.bind fun r => done (.plan r)

/-- **A call that nobody comes between.** -/
theorem run_drawer (c : Call) (q : Sequences) : c.drawer.run q = c.answer q := by
  cases c with
  | resolve g name => simp only [drawer, run_bind, Generator.run_resolving, run_done, answer]
  | snapshot g => simp only [drawer, run_bind, Generator.run_snapshotting, run_done, answer]
  | environment s =>
    simp only [drawer, run_bind, Generator.run_snapshotting, run_done, answer, Schema.resolveEnvironment]
  | plan d => simp only [drawer, run_bind, Draft.run_planning, run_done, answer]

/-- Who is asked. -/
def holder : Call → Holder
  | resolve g _ | snapshot g => .generator g
  | environment s => .schema s
  | plan d => .draft d

/-- A call asks no other sources than those of its holder. -/
theorem asks_drawer (c : Call) : c.drawer.Asks (· ∈ c.holder.sources) := by
  cases c with
  | resolve g name =>
    exact (Generator.asks_resolving fun src => Generator.mem_sources_of_source?).bind fun _ => trivial
  | snapshot g => exact (Generator.asks_snapshotting fun src => id).bind fun _ => trivial
  | environment s => exact (Generator.asks_snapshotting fun src => id).bind fun _ => trivial
  | plan d => exact (Draft.asks_planning fun src => id).bind fun _ => trivial

/-- What an answer says of the draws that were made for it. -/
inductive Told : Call → List Draw → Answer → Prop where
  /-- The name has no source. -/
  | unknown {g : Generator} {name : String} (none_ : g.source? name = none) :
    Told (.resolve g name) [] (.value (.error (.unknown name)))
  /-- The value is the one that was drawn under the name. -/
  | resolve {g : Generator} {name : String} {src : Source} {xs : List Draw} {r : Except DrawError String}
    (there : g.source? name = some src)
    (tells : Draw.Tells [(name, src)] (fun v => [(name, v)]) DrawError.Misses (fun _ => False) xs r) :
    Told (.resolve g name) xs (.value r)
  /-- The values are those that were drawn under the names. -/
  | snapshot {g : Generator} {xs : List Draw} {r : Except DrawError Environment}
    (tells : Draw.Tells g.entries Environment.pairs DrawError.Misses (fun _ => False) xs r) :
    Told (.snapshot g) xs (.environment r)
  /-- The values are those that were drawn under the names. -/
  | environment {s : Schema} {xs : List Draw} {r : Except DrawError Environment}
    (tells : Draw.Tells s.environment.entries Environment.pairs DrawError.Misses (fun _ => False) xs r) :
    Told (.environment s) xs (.environment r)
  /-- The members' values are those that were drawn under the names, member by member. -/
  | plan {d : Draft} {xs : List Draw} {r : Except SetupError Plan}
    (tells : Draw.Tells d.requests (fun p => Draft.drawn p.members) SetupError.Misses SetupError.Plain
      xs r) : Told (.plan d) xs (.plan r)

/-- A call that has come to an end tells what was drawn. -/
theorem told_of_leads {c : Call} {xs : List Draw} {a : Answer} (h : c.drawer.Leads xs (done a)) :
    c.Told xs a := by
  cases c with
  | resolve g name =>
    obtain ⟨ys, zs, r, rfl, first, last⟩ := leads_bind h
    obtain ⟨rfl, heq⟩ := done_leads last
    cases heq
    rw [List.append_nil]
    rcases Generator.resolving_leads first with ⟨none_, rfl, rfl⟩ | ⟨src, there, tells⟩
    · exact .unknown none_
    · exact .resolve there tells
  | snapshot g =>
    obtain ⟨ys, zs, r, rfl, first, last⟩ := leads_bind h
    obtain ⟨rfl, heq⟩ := done_leads last
    cases heq
    rw [List.append_nil]
    exact .snapshot (Generator.tells_of_leads first)
  | environment s =>
    obtain ⟨ys, zs, r, rfl, first, last⟩ := leads_bind h
    obtain ⟨rfl, heq⟩ := done_leads last
    cases heq
    rw [List.append_nil]
    exact .environment (Generator.tells_of_leads first)
  | plan d =>
    obtain ⟨ys, zs, r, rfl, first, last⟩ := leads_bind h
    obtain ⟨rfl, heq⟩ := done_leads last
    cases heq
    rw [List.append_nil]
    exact .plan (Draft.tells_of_leads first)

/-- Before an answer is given only the last draw may find nothing. -/
theorem Told.dropLast {c : Call} {xs : List Draw} {a : Answer} (h : c.Told xs a) {x : Draw}
    (hx : x ∈ xs.dropLast) : x.value.isSome := by
  cases h with
  | unknown none_ => cases hx
  | resolve there tells => exact tells.dropLast hx
  | snapshot tells => exact tells.dropLast hx
  | environment tells => exact tells.dropLast hx
  | plan tells => exact tells.dropLast hx

end Call

end Muster
