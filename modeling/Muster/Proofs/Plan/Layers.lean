import Muster.Proofs.Config.Reading
import Muster.Proofs.Plan.Numbering
import Muster.Proofs.Run.Clock
import Muster.Proofs.Run.Submission
import Muster.Session.Calls

/-!
# Options in layers

* `Registry.added`: the values of a type that were added; `Registry.foldl_merge`: registries appended to each other
  hold the values of all of them, and keep no default.
* `Draft.layers`: the options of the groups' schemas in order, then those of the assembly; `Draft.added`,
  `Draft.settled?`: all values of a type in the layers, and the one that counts.
* `Draft.timeout`, `Draft.pollInterval`, `Draft.predicate`, `Draft.permits`: what the layers come to.
* `Settings.options`: options that say some settings; so what holds of runs of plans holds of runs by any settings.
* `World.Steps.goesBy`: a run goes by the settings with which it began.
* **`Draft.plan_layers`**: the options of a plan are those of its layers, a run of the plan goes by them from its
  beginning to its end, and planning leaves the layers as they are.

All of it holds of any family of options among which are those that building an assembly reads.
-/

namespace Muster

/-- No other type shares its kind with a type. -/
def OptionFamily.Alone (F : OptionFamily) (t : F.Ty) : Prop := ∀ u, F.kindOf u = F.kindOf t → u = t

theorem OptionFamily.filterMap_ofTy? (F : OptionFamily) (t : F.Ty) (vs : List F.Value) :
    vs.filterMap (F.ofTy? t) = vs.filter fun v => F.tyOf v = t := by
  induction vs with
  | nil => rfl
  | cons v vs ih =>
    unfold OptionFamily.ofTy? at ih ⊢
    by_cases own : F.tyOf v = t <;> simp [own, ih]

namespace Registry

variable {F : OptionFamily} {r : Registry F} {t : F.Ty} {layers : List (Registry F)}

/-- A registry that comes of what may be done with registries. -/
def Reachable (r : Registry F) : Prop := ∃ acts i, (Registries.after acts).held i = r

theorem Reachable.tidy (h : r.Reachable) : r.Tidy := by
  obtain ⟨acts, i, rfl⟩ := h
  exact (Registries.listed_after acts i).1

theorem reachable_empty : (∅ : Registry F).Reachable := ⟨[], 0, rfl⟩

theorem Reachable.add (h : r.Reachable) (v : F.Value) : (r.add v).Reachable := by
  obtain ⟨acts, i, rfl⟩ := h
  refine ⟨acts ++ [.add i v], i, ?_⟩
  rw [Registries.after, List.foldl_append, List.foldl_cons, List.foldl_nil, Registries.act, Registries.held_put]
  rfl

/-- The values of a type that were added, in order. -/
def added (r : Registry F) (t : F.Ty) : List F.Value := (r.ofKind (F.kindOf t)).filter fun v => F.tyOf v = t

theorem added_empty (t : F.Ty) : (∅ : Registry F).added t = [] := by
  unfold added
  rw [ofKind_of_not_mem Std.HashMap.not_mem_empty, List.filter_nil]

theorem added_add (r : Registry F) (v : F.Value) (t : F.Ty) :
    (r.add v).added t = if F.tyOf v = t then r.added t ++ [v] else r.added t := by
  unfold added
  rw [ofKind_add]
  by_cases own : F.tyOf v = t
  · have kind : F.kindOfValue v = F.kindOf t := congrArg F.kindOf own
    rw [if_pos own, if_pos kind, List.filter_append]
    simp [own]
  · rw [if_neg own]
    split
    · simp [List.filter_append, own]
    · rfl

/-- A registry that keeps no default tells the values that were added, or else the default. -/
theorem getAll_of_alone (h : r.Tidy) (fresh : r.defaults = ∅) (alone : F.Alone t) (calls : Nat) :
    (r.getAll t calls).value = if r.added t = [] then (F.default? t calls).toList else r.added t := by
  have whole : r.added t = r.ofKind (F.kindOf t) :=
    List.filter_eq_self.mpr fun v hv => decide_eq_true (alone _ (h.own _ v hv))
  split
  · rename_i bare
    rw [whole] at bare
    have unkept : r.defaults[F.kindOf t]? = none := by
      rw [fresh]
      exact Std.HashMap.getElem?_empty
    rw [getAll_of_nil bare, (default_of_unkept unkept calls).1]
  · rename_i filled
    rw [whole] at filled
    rw [(getAll_of_ne_nil filled calls).1, F.filterMap_ofTy?]
    rfl

/-- It tells the last of the values that were added, or else the default. -/
theorem get_of_alone (h : r.Tidy) (fresh : r.defaults = ∅) (alone : F.Alone t) (calls : Nat) :
    (r.get t calls).value = (r.added t).getLast?.or (F.default? t calls) := by
  rw [(agrees_iff.mpr (h.not_hides alone)).last, getAll_of_alone h fresh alone]
  split
  · rename_i bare
    rw [bare]
    cases F.default? t calls <;> rfl
  · rename_i filled
    rw [Option.or_of_isSome (by simpa using filled)]

/-- Registries that are appended to each other hold the values of all of them. -/
theorem foldl_merge (tidy : ∀ s ∈ layers, s.Tidy) (h : r.Tidy) :
    (layers.foldl merge r).Tidy ∧ (layers.foldl merge r).defaults = r.defaults ∧
      (layers.foldl merge r).added t = r.added t ++ layers.flatMap (·.added t) := by
  induction layers generalizing r with
  | nil => exact ⟨h, rfl, (List.append_nil _).symm⟩
  | cons s layers ih =>
    have first := tidy s List.mem_cons_self
    obtain ⟨tidy, defaults, added⟩ := ih (fun s' hs' => tidy s' (List.mem_cons_of_mem s hs')) (h.merge first)
    refine ⟨tidy, defaults.trans (r.defaults_merge s), ?_⟩
    rw [List.foldl_cons, added, List.flatMap_cons, ← List.append_assoc]
    refine congrArg (· ++ _) ?_
    unfold Registry.added
    rw [first.ofKind_merge, List.filter_append]

end Registry

namespace Draft

variable {F : OptionFamily} {d : Draft F} {p : Plan F} {q q' : Sequences} {g : Group F} {gs : List (Group F)}

/-! ### What layers come to -/

/-- The options of the groups' schemas in order, then those of the assembly. -/
def layers (d : Draft F) : List (Registry F) := d.groups.map (·.schema.options) ++ [d.options]

/-- The values of a type in all layers. -/
def added (d : Draft F) (t : F.Ty) : List F.Value :=
  (d.groups.flatMap fun g => g.schema.options.added t) ++ d.options.added t

/-- The value of a type that counts: the last one of the assembly, or else the last one of the last group of which
the schema has one. -/
def settled? (d : Draft F) (t : F.Ty) : Option F.Value :=
  (d.options.added t).getLast?.or (d.groups.reverse.findSome? fun g => (g.schema.options.added t).getLast?)

/-- What a type comes to: the value that counts, or else its default. -/
def effective? (d : Draft F) (t : F.Ty) : Option F.Value := (d.settled? t).or (F.default? t 0)

section

variable [Engine F]

/-- The bound on each phase that the layers come to. -/
def timeout (d : Draft F) : Duration :=
  ((d.effective? Engine.timeout).bind Engine.duration?).getD defaultTimeout

/-- The time between two questions that the layers come to. -/
def pollInterval (d : Draft F) : Duration :=
  ((d.effective? Engine.pollInterval).bind Engine.duration?).getD defaultPollInterval

/-- The predicate that the layers come to. -/
def predicate (d : Draft F) : Predicate :=
  ((d.effective? Engine.stability).bind Engine.predicate?).getD (.always defaultPredicateId)

/-- How many members may be launched at one time, by what the layers come to. -/
def permits (d : Draft F) : Nat :=
  ((d.effective? Engine.parallelism).bind Engine.number?).getD (max d.memberCount 1)

end

theorem flatMap_added (d : Draft F) (t : F.Ty) : d.layers.flatMap (·.added t) = d.added t := by
  unfold layers added
  rw [List.flatMap_append, List.flatMap_singleton, List.flatMap_map]

theorem getLast?_added (d : Draft F) (t : F.Ty) : (d.added t).getLast? = d.settled? t := by
  unfold added settled?
  rw [List.getLast?_append, List.getLast?_flatMap]

/-! ### What planning makes of them -/

/-- What the options of a plan are, and those of its members. -/
structure Layered (d : Draft F) (p : Plan F) : Prop where
  /-- All values of a type are those of the layers, or else its default. -/
  all (t : F.Ty) (alone : F.Alone t) (calls : Nat) :
    (p.options.getAll t calls).value = if d.added t = [] then (F.default? t calls).toList else d.added t
  /-- The value of a type is the one that counts, or else its default. -/
  last (t : F.Ty) (alone : F.Alone t) (calls : Nat) :
    (p.options.get t calls).value = (d.settled? t).or (F.default? t calls)
  /-- The members of a group have the options of its schema. -/
  own : p.members.map (·.schema.options.toList) =
    d.groups.flatMap fun g => List.replicate g.count g.schema.options.toList

variable [Engine F]

theorem options_of_planGroups {p p' : Progress F} (planned : planGroups p q gs = (.ok p', q')) :
    p'.options = (gs.map (·.schema.options)).foldl Registry.merge p.options := by
  induction gs generalizing p q with
  | nil =>
    cases planned
    rfl
  | cons g gs ih =>
    rw [planGroups] at planned
    split at planned
    · cases planned
    case h_2 p₁ q₁ one =>
      obtain ⟨ms, -, rfl⟩ := Progress.exists_of_planGroup one
      rw [ih planned, List.map_cons, List.foldl_cons]
      rfl

theorem options_of_plan (planned : (d.plan q).1 = .ok p) : p.options = d.layers.foldl Registry.merge ∅ := by
  unfold plan at planned
  split at planned
  · cases planned
  case h_2 progress q' groups =>
    cases planned
    unfold layers
    rw [List.foldl_append, options_of_planGroups groups]
    rfl

theorem layered_of_plan (planned : (d.plan q).1 = .ok p) (made : ∀ r ∈ d.layers, r.Reachable) : d.Layered p := by
  have merged (t : F.Ty) :=
    Registry.foldl_merge (t := t) (fun r hr => (made r hr).tidy) Registry.tidy_empty
  have added (t : F.Ty) : p.options.added t = d.added t := by
    rw [options_of_plan planned, (merged t).2.2, flatMap_added, Registry.added_empty, List.nil_append]
  have fresh : p.options.defaults = ∅ := by
    rw [options_of_plan planned, (merged Engine.timeout).2.1]
    rfl
  have tidy : p.options.Tidy := by
    rw [options_of_plan planned]
    exact (merged Engine.timeout).1
  refine ⟨fun t alone calls => ?_, fun t alone calls => ?_, ?_⟩
  · rw [Registry.getAll_of_alone tidy fresh alone, added]
  · rw [Registry.get_of_alone tidy fresh alone, added, getLast?_added]
  · have schemas := congrArg (List.map fun s : Schema F => s.options.toList) (numbers_of_plan planned).schemas
    rw [List.map_map, List.map_flatMap] at schemas
    refine schemas.trans (congrArg (List.flatMap · d.groups) (funext fun g => ?_))
    rw [List.map_replicate]
    rfl

/-- What the layers come to is what a run goes by, as far as no other type shares its kind with the one that is read. -/
structure Terms (d : Draft F) (s : Settings) : Prop where
  timeout (alone : F.Alone Engine.timeout) : s.timeout = d.timeout
  pollInterval (alone : F.Alone Engine.pollInterval) : s.pollInterval = d.pollInterval
  predicate (alone : F.Alone Engine.stability) : s.predicate = d.predicate
  permits (alone : F.Alone Engine.parallelism) : s.parallelism?.getD (max d.memberCount 1) = d.permits

theorem Layered.terms (h : d.Layered p) : d.Terms p.options.settings := by
  constructor
  all_goals intro alone
  · exact congrArg (fun v => (v.bind Engine.duration?).getD defaultTimeout) (h.last _ alone 0)
  · exact congrArg (fun v => (v.bind Engine.duration?).getD defaultPollInterval) (h.last _ alone 0)
  · exact congrArg (fun v => (v.bind Engine.predicate?).getD (.always defaultPredicateId)) (h.last _ alone 0)
  · exact congrArg (fun v => (v.bind Engine.number?).getD (max d.memberCount 1)) (h.last _ alone 0)

end Draft

/-! ### What planning leaves as it is -/

namespace Session

theorem run_bind {α β : Type} {a : Act α} {f : α → Act β} {s u : Session} {x : α}
    (h : a.run.run s = (.ok x, u)) : (a >>= f).run.run s = (f x).run.run u := by
  rw [ExceptT.run_bind, StateT.run_bind, h]
  rfl

/-- Planning a draft leaves a session as it is, but for what is drawn. -/
theorem run_planOf {s : Session} {name : String} {d : Draft} (there : s.drafts.get? name = some d) :
    (planOf name).run.run s = (.ok (d.plan s.sequences).1, { s with sequences := (d.plan s.sequences).2 }) := by
  have found : (Place.drafts.find name).run.run s = (.ok d, s) := by
    unfold Place.find
    refine (run_bind (x := s) (u := s) rfl).trans ?_
    rw [show Place.drafts.get s = s.drafts from rfl, there]
    rfl
  exact run_bind found

end Session

/-! ### What a run goes by -/

namespace Settings

/-- Options that say some settings. -/
def options (s : Settings) : Options :=
  ((s.parallelism?.elim ∅ Options.bounded).withPredicate s.predicate).timed s.timeout s.pollInterval

theorem parallelismOf?_options (s : Settings) : s.options.parallelismOf? = s.parallelism? := by
  unfold options
  rw [Options.parallelismOf?_timed, Options.parallelismOf?_withPredicate]
  cases s.parallelism? with
  | none => exact Options.parallelismOf?_empty
  | some n => exact Options.parallelismOf?_bounded n

theorem settings_options (s : Settings) : s.options.settings = s := by
  unfold Registry.settings
  rw [parallelismOf?_options, options, Options.predicateOf_timed, Options.predicateOf_withPredicate,
    Options.timeoutOf_timed, Options.pollIntervalOf_timed]

end Settings

namespace World

variable {w₀ w w' : World} {r : Nat} {run run' : Run} {s : Settings} {platform : Nat} {channel? : Option Nat}
  {cancelled : Bool}

/-- A run by some settings is one of a plan whose options say them. -/
theorem beginWith_eq (w : World) (s : Settings) (members : List MemberSpec) (observers : List Observer) :
    w.beginWith s members observers platform channel? cancelled =
      w.begin ⟨members, s.options, observers⟩ platform channel? cancelled := by
  unfold World.begin
  rw [s.settings_options]

/-- A run goes by some settings. -/
structure GoesBy (s : Settings) (run : Run) : Prop where
  timeout : run.timeout = s.timeout
  pollInterval : run.pollInterval = s.pollInterval
  predicate : run.predicate = s.predicate

/-- No step changes what a run goes by. -/
theorem GoesBy.step (h : GoesBy s run) (before : Reachable w) (step : Step w w') (hr : w.runs[r]? = some run)
    (hr' : w'.runs[r]? = some run') : GoesBy s run' := by
  have lasts := (step.move before.sound).run_lasts hr hr'
  have dial : run'.timeout = run.timeout ∧ run'.pollInterval = run.pollInterval := by
    rcases step.ticks hr hr' with same | ⟨ticks, -⟩
    · exact ⟨congrArg Run.Dial.timeout same, congrArg Run.Dial.pollInterval same⟩
    · exact ticks.lasts
  exact ⟨dial.1.trans h.timeout, dial.2.trans h.pollInterval, lasts.predicate.trans h.predicate⟩

/-- A run goes by the settings that the options of its plan say from its beginning on. -/
theorem Steps.goesBy {plan : Plan} (h₀ : Reachable w₀)
    (h : Steps (w₀.begin plan platform channel? cancelled).2 w) :
    ∃ run, w.runs[(w₀.begin plan platform channel? cancelled).1]? = some run ∧
      GoesBy plan.options.settings run := by
  induction h with
  | refl => exact ⟨_, run_begin w₀ plan platform channel? cancelled, rfl, rfl, rfl⟩
  | @tail w w' before step ih =>
    obtain ⟨run, hr, goes⟩ := ih
    have reachable := Steps.reachable h₀ before
    obtain ⟨run', hr', -⟩ := (step.move reachable.sound).keeps.runs hr
    exact ⟨run', hr', goes.step reachable step hr hr'⟩

end World

namespace Draft

/-- **Options in layers.** All values that the options of a plan have of a type, if it shares its kind with no
other, are those of the groups' schemas, in the order of the groups and once for each group, and then those of the
assembly; where there are none, it is the default alone. The last of them counts. The timeout, the interval, the
predicate and the permits of a run that begins with the options of the plan are those that count, from its beginning
to its end, whatever members it launches. Planning leaves a draft and its schemas as they are, and members have the
options of their schemas. -/
theorem plan_layers {F : OptionFamily} [Engine F] {d : Draft F} {q : Sequences} {p : Plan F}
    (planned : (d.plan q).1 = .ok p) (made : ∀ r ∈ d.layers, r.Reachable) :
    d.Layered p ∧
    (∀ (s : Session) (name : String) (e : Draft), s.drafts.get? name = some e →
      (Session.planOf name).run.run s =
        (.ok (e.plan s.sequences).1, { s with sequences := (e.plan s.sequences).2 })) ∧
    ∀ {w₀ w : World} (members : List MemberSpec) (observers : List Observer) (platform : Nat)
      (channel? : Option Nat) (cancelled : Bool), World.Reachable w₀ → members.length = p.members.length →
      let begun := w₀.beginWith p.options.settings members observers platform channel? cancelled
      World.Steps begun.2 w →
      (∃ run, w.runs[begun.1]? = some run ∧ (F.Alone Engine.timeout → run.timeout = d.timeout) ∧
        (F.Alone Engine.pollInterval → run.pollInterval = d.pollInterval) ∧
        (F.Alone Engine.stability → run.predicate = d.predicate)) ∧
      (F.Alone Engine.parallelism → w.core.Rationed begun.1 d.permits ∧ w.inside begun.1 ≤ d.permits) := by
  have layered := layered_of_plan planned made
  have terms := layered.terms
  refine ⟨layered, fun s name e => Session.run_planOf, ?_⟩
  intro w₀ w members observers platform channel? cancelled h₀ size begun h
  have same : begun = w₀.begin ⟨members, p.options.settings.options, observers⟩ platform channel? cancelled :=
    World.beginWith_eq w₀ p.options.settings members observers
  clear_value begun
  subst same
  obtain ⟨run, hr, goes⟩ := h.goesBy h₀
  rw [Settings.settings_options] at goes
  refine ⟨⟨run, hr, fun alone => ?_, fun alone => ?_, fun alone => ?_⟩, fun alone => ?_⟩
  · exact goes.timeout.trans (terms.timeout alone)
  · exact goes.pollInterval.trans (terms.pollInterval alone)
  · exact goes.predicate.trans (terms.predicate alone)
  · have rationed := h.rationed h₀
    rw [Settings.parallelismOf?_options, size, (numbers_of_plan planned).size, terms.permits alone] at rationed
    exact ⟨rationed, World.inside_le_of_rationed rationed⟩

/-- A group of two members with bounds of its own, in an assembly with others. -/
def tiered : Draft where
  groups := [⟨2, { executable := "a", options := (∅ : Options).timed (.ofMillis 5000) (.ofMillis 100) }⟩]
  options := (∅ : Options).timed (.ofMillis 9000) (.ofMillis 300)

/-- Only labels and clashes share a kind. -/
theorem alone_of_kind_ne {t : OptionTy} (apart : t.kind ≠ "label") : standardOptions.Alone t := by
  have all (u : OptionTy) (same : u.kind = t.kind) : u = t := by
    revert apart same
    cases t <;> cases u <;> simp [OptionTy.kind]
  exact all

/-- The bounds of the assembly count, and a run goes by them. -/
theorem plan_layers_tiered : ∃ p run, (tiered.plan {}).1 = .ok p ∧ (∀ r ∈ tiered.layers, r.Reachable) ∧
    tiered.Layered p ∧ ((World.stage (.custom {} [])).begin p 0 none false).2.runs[0]? = some run ∧
    run.timeout = .ofMillis 9000 := by
  have made : ∀ r ∈ tiered.layers, r.Reachable := by
    have timed (bound interval : Duration) : ((∅ : Options).timed bound interval).Reachable :=
      (Registry.reachable_empty.add _).add _
    intro r hr
    simp only [layers, tiered, List.map_cons, List.map_nil, List.singleton_append, List.mem_cons,
      List.not_mem_nil, or_false] at hr
    rcases hr with rfl | rfl <;> exact timed _ _
  have counts : tiered.settled? OptionTy.timeout = some (OptionValue.timeout (.ofMillis 9000)) := by
    have own : tiered.options.added OptionTy.timeout = [OptionValue.timeout (.ofMillis 9000)] := by
      refine (@Registry.added_add standardOptions _ (OptionValue.pollInterval (.ofMillis 300))
        OptionTy.timeout).trans ?_
      refine (@Registry.added_add standardOptions ∅ (OptionValue.timeout (.ofMillis 9000))
        OptionTy.timeout).trans ?_
      exact congrArg (· ++ [_]) (Registry.added_empty (F := standardOptions) OptionTy.timeout)
    unfold settled?
    rw [own]
    rfl
  have planned : ∃ p, (tiered.plan {}).1 = .ok p := by
    have fine (o : Options) : Schema.build { executable := "a", options := o } =
        .ok (Schema.copy { executable := "a", options := o }) := by
      have visible : ¬ Text.Blank "a" := by decide
      refine Schema.build_of_fine ?_
      rw [Schema.check?, if_neg visible]
      rfl
    simp only [tiered, plan, planGroups, planGroup, fine, planMembers]
    exact ⟨_, rfl⟩
  obtain ⟨p, planned⟩ := planned
  obtain ⟨layered, -, goes⟩ := plan_layers planned made
  obtain ⟨⟨run, hr, timeout, -⟩, -⟩ :=
    goes p.members p.observers 0 none false (World.reachable_stage (.custom {} [])) rfl .refl
  refine ⟨p, run, planned, made, layered, hr, (timeout (alone_of_kind_ne (by decide))).trans ?_⟩
  unfold Draft.timeout effective?
  rw [show tiered.settled? Engine.timeout = _ from counts]
  rfl

end Draft

end Muster
