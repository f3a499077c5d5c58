import Mathlib.Data.List.Basic
import Mathlib.Data.List.Nodup
import Muster.Proofs.Source.Shared

/-!
# Generators laid over each other

* `Generator.Built`: generators that come from empty ones by registering sources and by merging.
* `Generator.names_set`, `Generator.source?_set`, `Generator.names_merge`, `Generator.source?_merge`: what becomes of
  the names and of the source under each.
* `Generator.eq_of_names_of_source?`: names that are distinct and their sources are all there is to a generator.
* `Generator.Overlays`: one generator laid over another keeps the places of the one and the sources of the other.
* **`Generator.Built.merge_laws`**: merging does this, is associative, has the empty generator as its neutral element,
  changes nothing when it is done again, and draws nothing.
-/

namespace Muster

namespace Generator

variable {g h k : Generator} {name other : String} {src : Source} {es : List (String × Source)}

/-! ## Looking up -/

theorem names_cons (e : String × Source) (es : List (String × Source)) :
    names ⟨e :: es⟩ = e.1 :: names ⟨es⟩ := rfl

theorem nodup_names_cons {e : String × Source} :
    (names ⟨e :: es⟩).Nodup ↔ e.1 ∉ names ⟨es⟩ ∧ (names ⟨es⟩).Nodup := List.nodup_cons

theorem source?_cons (e : String × Source) (es : List (String × Source)) (name : String) :
    source? ⟨e :: es⟩ name = if e.1 = name then some e.2 else source? ⟨es⟩ name := by
  unfold source?
  by_cases same : e.1 = name <;> simp [same]

theorem source?_eq_none : g.source? name = none ↔ name ∉ g.names := by
  obtain ⟨es⟩ := g
  induction es with
  | nil => simp [source?]
  | cons e es ih =>
    rw [source?_cons, names_cons, List.mem_cons, not_or]
    split
    · rename_i same
      simp [same]
    · rename_i differ
      exact ih.trans (and_iff_right (Ne.symm differ)).symm

theorem exists_source? (there : name ∈ g.names) : ∃ src, g.source? name = some src :=
  Option.ne_none_iff_exists'.mp fun absent => source?_eq_none.mp absent there

/-- Entries with distinct names can be made again from the names and their sources. -/
theorem filterMap_source? (once : (names ⟨es⟩).Nodup) :
    (names ⟨es⟩).filterMap (fun n => (source? ⟨es⟩ n).map (n, ·)) = es := by
  induction es with
  | nil => rfl
  | cons e es ih =>
    obtain ⟨first, once⟩ := nodup_names_cons.mp once
    rw [names_cons, List.filterMap_cons, source?_cons, if_pos rfl]
    refine congrArg (e :: ·) ((List.filterMap_congr fun n there => ?_).trans (ih once))
    have differ : e.1 ≠ n := fun same => first (same ▸ there)
    rw [source?_cons, if_neg differ]

/-- Names that are distinct and their sources are all there is to a generator. -/
theorem eq_of_names_of_source? (once : g.names.Nodup) (names : g.names = h.names)
    (sources : ∀ name, g.source? name = h.source? name) : g = h := by
  obtain ⟨es⟩ := g
  obtain ⟨es'⟩ := h
  refine congrArg mk ((filterMap_source? once).symm.trans (Eq.trans ?_ (filterMap_source? (names ▸ once))))
  rw [names]
  exact List.filterMap_congr fun n _ => by rw [sources]

/-! ## Registering a source -/

/-- A name that is there keeps its place, and a new one comes last. -/
theorem names_set (g : Generator) (name : String) (src : Source) :
    (g.set name src).names = if name ∈ g.names then g.names else g.names ++ [name] := by
  obtain ⟨es⟩ := g
  rw [set]
  induction es with
  | nil => rfl
  | cons e es ih =>
    unfold setIn
    dsimp only at ih ⊢
    by_cases same : e.1 = name
    · simp [same]
    · simp only [if_neg same, names_cons, ih, List.mem_cons, Ne.symm same, false_or]
      split <;> rfl

/-- A registered source counts for its name only. -/
theorem source?_set (g : Generator) (name other : String) (src : Source) :
    (g.set name src).source? other = if other = name then some src else g.source? other := by
  obtain ⟨es⟩ := g
  rw [set]
  induction es with
  | nil =>
    rw [setIn, source?_cons]
    simp only [eq_comm]
  | cons e es ih =>
    unfold setIn
    dsimp only at ih ⊢
    by_cases same : e.1 = name
    · subst same
      rw [if_pos rfl, source?_cons, source?_cons]
      simp only [@eq_comm _ other]
      split <;> rfl
    · rw [if_neg same, source?_cons, source?_cons, ih]
      by_cases here : e.1 = other
      · subst here
        rw [if_pos rfl, if_neg same, if_pos rfl]
      · rw [if_neg here, if_neg here]

/-- Registering a name that is there changes its source, and nothing else. -/
theorem entries_set_of_mem (once : g.names.Nodup) (there : name ∈ g.names) (src : Source) :
    (g.set name src).entries = g.entries.map fun e => if e.1 = name then (e.1, src) else e := by
  obtain ⟨es⟩ := g
  rw [entries_set]
  dsimp only
  induction es with
  | nil => cases there
  | cons e es ih =>
    obtain ⟨first, once⟩ := nodup_names_cons.mp once
    unfold setIn
    by_cases same : e.1 = name
    · subst same
      rw [if_pos rfl, List.map_cons, if_pos rfl]
      refine congrArg (_ :: ·) ((List.map_id es).symm.trans (List.map_congr_left fun e' he' => ?_))
      have named : e'.1 ∈ names ⟨es⟩ := List.mem_map_of_mem he'
      have differ : e'.1 ≠ e.1 := fun same => first (same ▸ named)
      rw [if_neg differ, id]
    · rw [if_neg same, List.map_cons, if_neg same, ih once ((List.mem_cons.mp there).resolve_left (Ne.symm same))]

theorem nodup_names_set (once : g.names.Nodup) (name : String) (src : Source) : (g.set name src).names.Nodup := by
  rw [names_set]
  split
  · exact once
  · rename_i absent
    exact List.nodup_append_comm.mp (List.nodup_cons.mpr ⟨absent, once⟩)

/-! ## Merging -/

theorem merge_cons (g : Generator) (e : String × Source) (es : List (String × Source)) :
    g.merge ⟨e :: es⟩ = (g.set e.1 e.2).merge ⟨es⟩ := rfl

/-- Merging keeps the names in their places, and appends the new ones. -/
theorem names_merge (g : Generator) (once : h.names.Nodup) :
    (g.merge h).names = g.names ++ h.names.filter (· ∉ g.names) := by
  obtain ⟨es⟩ := h
  induction es generalizing g with
  | nil => exact (List.append_nil _).symm
  | cons e es ih =>
    obtain ⟨first, once⟩ := nodup_names_cons.mp once
    rw [merge_cons, ih _ once, names_set, names_cons, List.filter_cons]
    by_cases there : e.1 ∈ g.names
    · simp [there]
    · rw [if_neg there, if_pos (decide_eq_true there), List.append_assoc, List.singleton_append]
      refine congrArg (fun ns => g.names ++ e.1 :: ns) (List.filter_congr fun n hn => ?_)
      have differ : n ≠ e.1 := fun same => first (same ▸ hn)
      simp [differ]

/-- The source of a name is that of the generator laid over, if it has one. -/
theorem source?_merge (g : Generator) (once : h.names.Nodup) (name : String) :
    (g.merge h).source? name = (h.source? name).or (g.source? name) := by
  obtain ⟨es⟩ := h
  induction es generalizing g with
  | nil => rfl
  | cons e es ih =>
    obtain ⟨first, once⟩ := nodup_names_cons.mp once
    rw [merge_cons, ih _ once, source?_set, source?_cons]
    by_cases same : e.1 = name
    · have none : source? ⟨es⟩ name = none := source?_eq_none.mpr (same ▸ first)
      rw [none, if_pos same, if_pos same.symm]
      rfl
    · rw [if_neg same, if_neg (Ne.symm same)]

theorem nodup_names_merge (once : g.names.Nodup) (once' : h.names.Nodup) : (g.merge h).names.Nodup := by
  rw [names_merge g once']
  refine List.nodup_append.mpr ⟨once, once'.filter _, fun n hn n' hn' same => ?_⟩
  have absent := of_decide_eq_true (List.mem_filter.mp hn').2
  exact absent (same ▸ hn)

/-- **Merging is associative.** -/
theorem merge_assoc (hg : g.names.Nodup) (hh : h.names.Nodup) (hk : k.names.Nodup) :
    (g.merge h).merge k = g.merge (h.merge k) := by
  have inner := nodup_names_merge hh hk
  refine eq_of_names_of_source? (nodup_names_merge (nodup_names_merge hg hh) hk) ?_ fun name => ?_
  · rw [names_merge _ hk, names_merge _ hh, names_merge _ inner, names_merge _ hk, List.filter_append,
      List.filter_filter, List.append_assoc]
    refine congrArg (fun ns => g.names ++ (h.names.filter (· ∉ g.names) ++ ns)) (List.filter_congr fun n _ => ?_)
    by_cases there : n ∈ g.names <;> simp [there]
  · rw [source?_merge _ hk, source?_merge _ hh, source?_merge _ inner, source?_merge _ hk, Option.or_assoc]

theorem empty_merge (once : g.names.Nodup) : (({} : Generator).merge g) = g := by
  refine eq_of_names_of_source? (nodup_names_merge List.nodup_nil once) ?_ fun name => ?_
  · rw [names_merge _ once]
    simp [names]
  · rw [source?_merge _ once]
    exact Option.or_none

/-- A generator whose names and sources are there already changes nothing. -/
theorem merge_eq_self (hg : g.names.Nodup) (hh : h.names.Nodup)
    (there : ∀ name ∈ h.names, h.source? name = g.source? name) : g.merge h = g := by
  have names : ∀ n ∈ h.names, n ∈ g.names := by
    intro n hn
    by_contra absent
    rw [← source?_eq_none, ← there n hn, source?_eq_none] at absent
    exact absent hn
  refine eq_of_names_of_source? (nodup_names_merge hg hh) ?_ fun name => ?_
  · rw [names_merge _ hh, List.filter_eq_nil_iff.mpr fun n hn => by simpa using names n hn, List.append_nil]
  · rw [source?_merge _ hh]
    by_cases hn : name ∈ h.names
    · rw [there name hn, Option.or_self]
    · rw [source?_eq_none.mpr hn, Option.none_or]

theorem merge_merge_self (hg : g.names.Nodup) (hh : h.names.Nodup) : (g.merge h).merge h = g.merge h := by
  refine merge_eq_self (nodup_names_merge hg hh) hh fun name there => ?_
  rw [source?_merge _ hh]
  obtain ⟨src, found⟩ := exists_source? there
  rw [found, Option.some_or]

/-- A generator laid over another: the names stand in the places of the one below, the new ones behind them, and each
has the source of the one on top if that has one. -/
structure Overlays (below above whole : Generator) : Prop where
  /-- The names below keep their places, and those that are only above follow in their order. -/
  names : whole.names = below.names ++ above.names.filter (· ∉ below.names)
  /-- The source of a name is the very one that it has above, or else below. -/
  source? : ∀ name, whole.source? name = (above.source? name).or (below.source? name)
  /-- So a sequence above is the same one in the whole. -/
  same : ∀ name id word, above.source? name = some (.shared id word) →
    (whole.source? name).bind (·.sameSequence? (.shared id word)) = some true
  /-- What is drawn next under a name is what would be drawn above, or else below. -/
  resolve : ∀ name q, whole.resolve name q =
    if name ∈ above.names then above.resolve name q else below.resolve name q

theorem overlays_merge (g : Generator) (once : h.names.Nodup) : Overlays g h (g.merge h) where
  names := names_merge g once
  source? := source?_merge g once
  same name id word found := by
    rw [source?_merge g once, found, Option.some_or, Option.bind_some, Source.sameSequence?, decide_eq_true rfl]
  resolve name q := by
    unfold Generator.resolve
    rw [source?_merge g once]
    by_cases there : name ∈ h.names
    · obtain ⟨src, found⟩ := exists_source? there
      rw [if_pos there, found, Option.some_or]
    · rw [if_neg there, source?_eq_none.mpr there, Option.none_or]

/-! ## Generators that are built -/

/-- Generators that come from empty ones by registering sources and by merging. A copy of a generator is the
generator itself. -/
inductive Built : Generator → Prop where
  /-- Nothing is registered. -/
  | empty : Built {}
  /-- A source is registered under a name, new or not. -/
  | set {g : Generator} (built : Built g) (name : String) (src : Source) : Built (g.set name src)
  /-- A generator is laid over another. -/
  | merge {g h : Generator} (built : Built g) (built' : Built h) : Built (g.merge h)

theorem Built.nodup (built : Built g) : g.names.Nodup := by
  induction built with
  | empty => exact List.nodup_nil
  | set _ name src ih => exact nodup_names_set ih name src
  | merge _ _ ih ih' => exact nodup_names_merge ih ih'

/-- **The laws of merging.** However generators were built, their names are distinct. A merged generator is the second
laid over the first; merging is associative, has the empty generator as its neutral element, and changes nothing when
it is done again or with the generator itself; it is done without a draw. Registering a name that is there changes
nothing but its source. -/
theorem Built.merge_laws (hg : Built g) (hh : Built h) (hk : Built k) :
    g.names.Nodup ∧ Overlays g h (g.merge h) ∧
    (g.merge h).merge k = g.merge (h.merge k) ∧
    (g.merge {} = g ∧ ({} : Generator).merge g = g) ∧
    ((g.merge h).merge h = g.merge h ∧ g.merge g = g) ∧
    (∀ w : Sharing, .generator g ∈ w.held → .generator h ∈ w.held →
      Sharing.Step w [] { w with held := .generator (g.merge h) :: w.held }) ∧
    ∀ name ∈ g.names, ∀ src,
      (g.set name src).entries = g.entries.map fun e => if e.1 = name then (e.1, src) else e :=
  ⟨hg.nodup, overlays_merge g hh.nodup, merge_assoc hg.nodup hh.nodup hk.nodup, ⟨rfl, empty_merge hg.nodup⟩,
    ⟨merge_merge_self hg.nodup hh.nodup, merge_eq_self hg.nodup hg.nodup fun _ _ => rfl⟩,
    fun _ first second => .make (.merge first second),
    fun _ there src => entries_set_of_mem hg.nodup there src⟩

/-- A counter laid over a fixed value keeps the place of that value, and stands where it stood. -/
theorem merge_laws_counted :
    let g := (({} : Generator).set "ROLE" (.fixed "storage")).set "PORT" (.fixed "1")
    let h := (({} : Generator).set "PORT" (.shared ⟨0⟩ "counter")).set "EXTRA" (.fixed "x")
    let q := (({} : Sequences).add (.counter 7000)).2
    Built g ∧ Built h ∧ (g.merge h).names = ["ROLE", "PORT", "EXTRA"] ∧
      (g.merge h).source? "PORT" = some (.shared ⟨0⟩ "counter") ∧
      (g.merge h).resolve "PORT" q = h.resolve "PORT" q ∧ (g.merge h).merge h = g.merge h := by
  intro g h q
  have hg : Built g := (Built.empty.set "ROLE" _).set "PORT" _
  have hh : Built h := (Built.empty.set "PORT" _).set "EXTRA" _
  obtain ⟨-, overlays, -, -, again, -⟩ := Built.merge_laws hg hh hh
  exact ⟨hg, hh, overlays.names, overlays.source? "PORT", overlays.resolve "PORT" q, again.1⟩

end Generator

end Muster
