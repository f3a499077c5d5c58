import Mathlib
import Muster.Proofs.Run.Success

/-!
# The numbering of a plan

* `Draft.memberLabel`: the name of a member; **`Draft.memberLabel_injective`**: it tells the base name and
  the number, whatever the base name.
* `Draft.planMembers_numbers`: members planned in a row are numbered in a row.
* `Draft.Progress.Covers`: what holds of the members planned so far; `Covers.planGroup`: planning one more
  group keeps it.
* `nodup_of_classes`: names that are apart within each class, and tell the class, are apart.
* `World.Finds`: an assembly finds the members of a plan by their names.
* **`Draft.plan_numbers`**: the members of a plan, their places and their names.
-/

namespace Muster

/-! ### Names -/

/-- What is written behind the last dash, and what before it. -/
theorem Text.eq_of_append_dash {xs ys ds es : List Char} (hd : '-' ∉ ds) (he : '-' ∉ es)
    (h : xs ++ '-' :: ds = ys ++ '-' :: es) : xs = ys ∧ ds = es := by
  rcases List.append_eq_append_iff.mp h with ⟨cs, rfl, hcs⟩ | ⟨cs, rfl, hcs⟩
  · cases cs with
    | nil =>
      rw [List.nil_append, List.cons.injEq] at hcs
      exact ⟨(List.append_nil xs).symm, hcs.2⟩
    | cons c cs =>
      rw [List.cons_append, List.cons.injEq] at hcs
      exact absurd (hcs.2 ▸ List.mem_append_right cs List.mem_cons_self) hd
  · cases cs with
    | nil =>
      rw [List.nil_append, List.cons.injEq] at hcs
      exact ⟨List.append_nil ys, hcs.2.symm⟩
    | cons c cs =>
      rw [List.cons_append, List.cons.injEq] at hcs
      exact absurd (hcs.2 ▸ List.mem_append_right cs List.mem_cons_self) he

/-- No number is written with a dash. -/
theorem Text.dash_not_mem_toDigits (n : Nat) : '-' ∉ Nat.toDigits 10 n := by
  intro dash
  have digit : '-'.isDigit = true := Nat.isDigit_of_mem_toDigits (by decide) (by decide) dash
  cases digit

namespace Draft

/-- The name of a member, where `number` others with the base name come before it. -/
def memberLabel (base : String) (number : Nat) : String := base ++ "-" ++ toString (number + 1)

theorem toList_memberLabel (base : String) (number : Nat) :
    (memberLabel base number).toList = base.toList ++ '-' :: Nat.toDigits 10 (number + 1) := by
  unfold memberLabel
  rw [String.toList_append, String.toList_append, List.append_assoc, Nat.toString_eq_repr, Nat.toList_repr]
  rfl

/-- **Names of members.** A name tells the base name and the number, also where one base name is another
one followed by a dash and digits: the number stands behind the last dash. -/
theorem memberLabel_injective {base base' : String} {n n' : Nat}
    (h : memberLabel base n = memberLabel base' n') : base = base' ∧ n = n' := by
  have written := congrArg String.toList h
  rw [toList_memberLabel, toList_memberLabel] at written
  obtain ⟨same, digits⟩ := Text.eq_of_append_dash (Text.dash_not_mem_toDigits _)
    (Text.dash_not_mem_toDigits _) written
  have value : n + 1 = n' + 1 := by
    rw [← Nat.ofDigitChars_ten_toDigits (n := n + 1), digits, Nat.ofDigitChars_ten_toDigits]
  exact ⟨String.toList_inj.mp same, Nat.succ.inj value⟩

/-! ### One group -/

section

variable {F : OptionFamily} {s : Schema F} {base : String} {number ordinal count : Nat} {q q' : Sequences}

/-- Members planned in a row are members of their schema, and are numbered in a row. -/
theorem planMembers_numbers {ms : List (MemberSpec F)}
    (h : planMembers s base number ordinal q count = (.ok ms, q')) :
    ms.map (·.schema) = List.replicate count s ∧ ms.map (·.ordinal) = List.range' ordinal count ∧
      ms.map (·.name) = (List.range' number count).map (memberLabel base) := by
  induction count generalizing number ordinal q ms with
  | zero =>
    cases h
    exact ⟨rfl, rfl, rfl⟩
  | succ count ih =>
    rw [planMembers] at h
    split at h
    case h_1 => cases h
    case h_2 env q₁ drawn =>
      split at h
      case h_1 => cases h
      case h_2 rest q₂ more =>
        cases h
        obtain ⟨schemas, ordinals, names⟩ := ih more
        rw [List.map_cons, List.map_cons, List.map_cons, schemas, ordinals, names]
        exact ⟨rfl, rfl, rfl⟩

theorem memberCount_eq_sum (d : Draft F) : d.memberCount = (d.groups.map (·.count)).sum := by
  unfold memberCount
  induction d.groups with
  | nil => rfl
  | cons g gs ih => rw [List.foldr_cons, ih, List.map_cons, List.sum_cons]

variable [Engine F]

/-- The number of members of all groups whose members have a base name. -/
def countOf (gs : List (Group F)) (base : String) : Nat :=
  ((gs.filter fun g => g.schema.copy.displayName = base).map (·.count)).sum

theorem countOf_concat (gs : List (Group F)) (g : Group F) (base : String) :
    countOf (gs ++ [g]) base =
      countOf gs base + if g.schema.copy.displayName = base then g.count else 0 := by
  unfold countOf
  rw [List.filter_append, List.map_append, List.sum_append]
  by_cases own : g.schema.copy.displayName = base
  · rw [if_pos own, List.filter_cons_of_pos (by simpa using own)]
    rfl
  · rw [if_neg own, List.filter_cons_of_neg (by simpa using own)]
    rfl

/-- The members with a base name, in order. -/
def withBase (ms : List (MemberSpec F)) (base : String) : List (MemberSpec F) :=
  ms.filter fun m => m.schema.displayName = base

namespace Progress

/-- What has been planned are the members of some groups, in order, each numbered among those with its base
name. -/
structure Covers (p : Progress F) (gs : List (Group F)) : Prop where
  /-- The members of one group stand behind those of the group before. -/
  schemas : p.members.map (·.schema) = gs.flatMap fun g => List.replicate g.count g.schema.copy
  /-- The places count up. -/
  ordinals : p.members.map (·.ordinal) = List.range p.members.length
  /-- The numbering knows how many members have each base name. -/
  counted (base : String) : p.numbering base = countOf gs base
  /-- The members with one base name are numbered without gaps. -/
  named (base : String) :
    (withBase p.members base).map (·.name) = (List.range (p.numbering base)).map (memberLabel base)

variable {p p' : Progress F} {g : Group F} {gs gs' : List (Group F)}

theorem Covers.nil : Covers ({} : Progress F) [] := ⟨rfl, rfl, fun _ => rfl, fun _ => rfl⟩

/-- Planning one more group plans its members and appends its options. -/
theorem exists_of_planGroup (planned : Draft.planGroup p g q = (.ok p', q')) :
    ∃ ms, planMembers g.schema.copy g.schema.copy.displayName (p.numbering g.schema.copy.displayName)
        p.members.length q g.count = (.ok ms, q') ∧
      p' = {
        members := p.members ++ ms
        options := p.options.merge g.schema.copy.options
        numbering := fun b => if b = g.schema.copy.displayName then p.numbering b + g.count else p.numbering b } := by
  unfold Draft.planGroup at planned
  split at planned
  · cases planned
  split at planned
  · cases planned
  case h_2 s built =>
    obtain ⟨-, rfl⟩ := Schema.copy_of_build built
    dsimp only at planned
    split at planned
    · cases planned
    case h_2 ms q₁ more =>
      cases planned
      exact ⟨ms, more, rfl⟩

/-- Planning one more group goes on with the numbering. -/
theorem Covers.planGroup (h : p.Covers gs) (planned : Draft.planGroup p g q = (.ok p', q')) :
    p'.Covers (gs ++ [g]) := by
  obtain ⟨ms, more, rfl⟩ := exists_of_planGroup planned
  obtain ⟨schemas, ordinals, names⟩ := planMembers_numbers more
  have size : ms.length = g.count := by
    rw [← List.length_map (f := fun m : MemberSpec F => m.schema), schemas, List.length_replicate]
  have base_of {m : MemberSpec F} (hm : m ∈ ms) : m.schema = g.schema.copy :=
    List.eq_of_mem_replicate (schemas ▸ List.mem_map_of_mem hm)
  constructor
  · rw [List.map_append, h.schemas, schemas, List.flatMap_append, List.flatMap_singleton]
  · rw [List.map_append, h.ordinals, ordinals, List.length_append, size, List.range_eq_range',
      List.range_eq_range', ← List.range'_append_1, Nat.zero_add]
  · intro base
    rw [countOf_concat, ← h.counted]
    by_cases own : g.schema.copy.displayName = base
    · rw [if_pos own]
      exact if_pos own.symm
    · rw [if_neg own]
      exact if_neg (Ne.symm own)
  · intro base
    unfold withBase
    rw [List.filter_append, List.map_append]
    by_cases own : base = g.schema.copy.displayName
    · -- all new members have the base name
      have all : ms.filter (fun m => m.schema.displayName = base) = ms :=
        List.filter_eq_self.mpr fun m hm => decide_eq_true (by rw [base_of hm, own])
      dsimp only
      rw [all, names, if_pos own, ← own, List.range_eq_range', ← List.range'_append_1, Nat.zero_add,
        List.map_append, ← List.range_eq_range', ← h.named base]
      rfl
    · have none : ms.filter (fun m => m.schema.displayName = base) = [] :=
        List.filter_eq_nil_iff.mpr fun m hm => by
          rw [base_of hm, decide_eq_true_eq]
          exact Ne.symm own
      dsimp only
      rw [none, if_neg own, List.map_nil, List.append_nil]
      exact h.named base

/-- Planning some more groups goes on with the numbering. -/
theorem Covers.planGroups (h : p.Covers gs) (planned : Draft.planGroups p q gs' = (.ok p', q')) :
    p'.Covers (gs ++ gs') := by
  induction gs' generalizing p q gs with
  | nil =>
    cases planned
    rw [List.append_nil]
    exact h
  | cons g gs' ih =>
    rw [Draft.planGroups] at planned
    split at planned
    · cases planned
    case h_2 p₁ q₁ one =>
      have more := ih (h.planGroup one) planned
      rw [List.append_assoc] at more
      exact more

/-- There are as many members as the groups say. -/
theorem Covers.length (h : p.Covers gs) : p.members.length = (gs.map (·.count)).sum := by
  have size := congrArg List.length h.schemas
  rw [List.length_map, List.length_flatMap] at size
  rw [size]
  exact congrArg List.sum (List.map_congr_left fun g _ => List.length_replicate)

end Progress

end

end Draft

/-! ### Names that are apart -/

/-- Where names are apart within each class, and two members of different classes never share a name, all
names are apart. -/
theorem nodup_of_classes {α β γ : Type} [DecidableEq γ] {l : List α} {name : α → β} (cls : α → γ)
    (within : ∀ c, ((l.filter fun x => cls x = c).map name).Nodup)
    (across : ∀ x ∈ l, ∀ y ∈ l, name x = name y → cls x = cls y) : (l.map name).Nodup := by
  refine List.pairwise_map.mpr (List.pairwise_iff_forall_sublist.mpr fun {x y} sub same => ?_)
  have hx : x ∈ l := sub.subset List.mem_cons_self
  have hy : y ∈ l := sub.subset (List.mem_cons_of_mem x List.mem_cons_self)
  have together := sub.filter fun z => cls z = cls y
  rw [List.filter_cons_of_pos (by simpa using across x hx y hy same),
    List.filter_cons_of_pos (by simp), List.filter_nil] at together
  have apart : [name x, name y].Nodup := (within (cls y)).sublist (together.map name)
  exact (List.nodup_cons.mp apart).1 (same ▸ List.mem_cons_self)

namespace Draft

section

variable {F : OptionFamily} [Engine F]

/-- The numbering of a plan: how many members it has, where they stand, and what they are called. -/
structure Numbers (d : Draft F) (p : Plan F) : Prop where
  /-- There are as many members as the draft counts. -/
  size : p.members.length = d.memberCount
  /-- The places count up in the order of the list. -/
  ordinals : p.members.map (·.ordinal) = List.range d.memberCount
  /-- The groups follow each other as they were included. -/
  schemas : p.members.map (·.schema) = d.groups.flatMap fun g => List.replicate g.count g.schema.copy
  /-- The members of all groups with one base name are numbered from one on, without gaps. -/
  named (base : String) : (withBase p.members base).map (·.name) =
    (List.range (countOf d.groups base)).map fun i => base ++ "-" ++ toString (i + 1)
  /-- No two members have one name. -/
  nodup : (p.members.map (·.name)).Nodup

/-- Names within one base name are apart, and a name tells the base name. -/
theorem Progress.Covers.nodup {p : Progress F} {gs : List (Group F)} (h : p.Covers gs) :
    (p.members.map (·.name)).Nodup := by
  have label {m : MemberSpec F} (hm : m ∈ p.members) : ∃ i, memberLabel m.schema.displayName i = m.name := by
    have named := h.named m.schema.displayName
    have own : m ∈ withBase p.members m.schema.displayName :=
      List.mem_filter.mpr ⟨hm, decide_eq_true rfl⟩
    have listed : m.name ∈ (withBase p.members m.schema.displayName).map (·.name) :=
      List.mem_map_of_mem own
    rw [named] at listed
    obtain ⟨i, -, hi⟩ := List.mem_map.mp listed
    exact ⟨i, hi⟩
  refine nodup_of_classes (fun m => m.schema.displayName) (fun base => ?_) fun x hx y hy same => ?_
  · have named := h.named base
    unfold withBase at named
    rw [named]
    exact List.nodup_range.map fun i j hij => (memberLabel_injective hij).2
  · obtain ⟨i, hi⟩ := label hx
    obtain ⟨j, hj⟩ := label hy
    rw [← hi, ← hj] at same
    exact (memberLabel_injective same).1

theorem numbers_of_plan {d : Draft F} {q : Sequences} {p : Plan F} (planned : (d.plan q).1 = .ok p) :
    d.Numbers p := by
  unfold plan at planned
  split at planned
  · cases planned
  case h_2 progress q' groups =>
    cases planned
    have covers := Progress.Covers.nil.planGroups groups
    have size : progress.members.length = d.memberCount := by rw [memberCount_eq_sum, covers.length]; rfl
    exact {
      size
      ordinals := size ▸ covers.ordinals
      schemas := covers.schemas
      named := fun base => (covers.named base).trans (congrArg (fun n => (List.range n).map _) (covers.counted base))
      nodup := covers.nodup }

end

end Draft

/-! ### Members by name -/

namespace World

/-- An assembly finds the members of a plan by their names, and finds nothing else. -/
structure Finds (w : World) (a : Assembly) (p : Plan) : Prop where
  /-- Every name of the plan finds the member built for it. -/
  found : ∀ spec ∈ p.members, ∃ m, w.memberOf? a spec.name = some m ∧ w.BuiltFrom m spec
  /-- What a name finds is the member of the assembly that has it. -/
  own (name : String) (m : Nat) : w.memberOf? a name = some m ↔ m ∈ a.members ∧ w.memberName m = name

variable {w : World} {a : Assembly} {p : Plan}

theorem BuiltFrom.memberName {m : Nat} {spec : MemberSpec} (h : w.BuiltFrom m spec) :
    w.memberName m = spec.name := by
  obtain ⟨x, hx, rfl⟩ := h
  unfold World.memberName
  rw [hx, Option.map_some, Option.getD_some]

/-- Where names are apart, the first member with a name is the only one. -/
theorem memberOf?_iff (apart : (a.members.map w.memberName).Nodup) (name : String) (m : Nat) :
    w.memberOf? a name = some m ↔ m ∈ a.members ∧ w.memberName m = name := by
  unfold World.memberOf?
  constructor
  · intro h
    exact ⟨List.mem_of_find?_eq_some h, by simpa using List.find?_some h⟩
  · rintro ⟨hm, rfl⟩
    have there : (a.members.find? fun k => w.memberName k = w.memberName m).isSome = true :=
      List.find?_isSome.mpr ⟨m, hm, by simp⟩
    obtain ⟨k, hk⟩ := Option.isSome_iff_exists.mp there
    have same : w.memberName k = w.memberName m := by simpa using List.find?_some hk
    rw [hk, List.inj_on_of_nodup_map apart (List.mem_of_find?_eq_some hk) hm same]

/-- An assembly with one member for each of a plan finds them by names that are apart. -/
theorem Fulfils.finds (h : w.Fulfils a.members p) (apart : (p.members.map (·.name)).Nodup) :
    w.Finds a p := by
  obtain ⟨specs, all, -, built⟩ := h
  have names : a.members.map w.memberName = specs.map (·.name) := by
    rw [← List.forall₂_eq_eq_eq, List.forall₂_map_left_iff, List.forall₂_map_right_iff]
    exact built.imp fun m spec h => h.memberName
  have apart' : (a.members.map w.memberName).Nodup := by
    rw [names]
    exact (all.map _).nodup_iff.mpr apart
  refine ⟨fun spec hspec => ?_, memberOf?_iff apart'⟩
  obtain ⟨m, hm, own⟩ := Core.forall₂_right built (all.mem_iff.mpr hspec)
  exact ⟨m, (memberOf?_iff apart' _ m).mpr ⟨hm, own.memberName⟩, own⟩

end World

namespace Draft

/-- **The numbering of a plan.** A plan has as many members as the draft counts. Their places count up from
zero, group by group. The members of all groups with one base name are numbered from one on, without gaps,
and no two members have one name. So the assembly in which a run of the plan ends finds every member by its
name. -/
theorem plan_numbers {d : Draft} {q : Sequences} {p : Plan} (planned : (d.plan q).1 = .ok p) :
    d.Numbers p ∧ ∀ {w₀ w : World} (platform : Nat) (channel? : Option Nat) (cancelled : Bool),
      World.Reachable w₀ → World.Steps (w₀.begin p platform channel? cancelled).2 w →
      ∀ (run : Run) (a : Nat), w.runs[(w₀.begin p platform channel? cancelled).1]? = some run →
        run.phase = .finished (.ok a) → ∃ x, w.assemblies[a]? = some x ∧ w.Finds x p := by
  have numbers := numbers_of_plan planned
  refine ⟨numbers, fun {w₀ w} platform channel? cancelled h₀ h run a hr ok => ?_⟩
  obtain ⟨sound, builds⟩ := h.builds h₀
  have reachable := h.reachable h₀
  have distinct : (p.members.map (·.ordinal)).Nodup := by
    rw [numbers.ordinals]
    exact List.nodup_range
  obtain ⟨x, hx, kept⟩ := reachable.delivered hr ok
  have members : x.members = run.members := kept.members
  have fulfils : w.Fulfils x.members p := by
    rw [members]
    exact sound.fulfilled reachable.ordered builds distinct hr ok
  exact ⟨x, hx, fulfils.finds numbers.nodup⟩

end Draft

/-! ### One base name inside another -/

/-- An executable that is a file name gives the base name. -/
theorem Schema.displayName_of_fileName? {executable : String}
    (plain : Schema.fileName? executable = some executable) :
    Schema.displayName (F := standardOptions) { executable } = executable := by
  unfold Schema.displayName
  rw [Options.displayName?_empty, plain]
  rfl

/-- Two groups, the base name of the second one being the name of the first one's member. -/
def Draft.nested : Draft where
  groups := [⟨1, { executable := "a" }⟩, ⟨1, { executable := "a-1" }⟩]

/-- Their members. -/
def Plan.nested : Plan where
  members := [⟨0, "a-1", { executable := "a" }, {}⟩, ⟨1, "a-1-1", { executable := "a-1" }, {}⟩]

theorem Draft.nested_plan : (nested.plan {}).1 = .ok Plan.nested := by
  have first : Schema.displayName { executable := "a" } = "a" :=
    Schema.displayName_of_fileName? (by cbv)
  have second : Schema.displayName { executable := "a-1" } = "a-1" :=
    Schema.displayName_of_fileName? (by cbv)
  have fine : Schema.build ({ executable := "a" } : Schema) = .ok { executable := "a" } := rfl
  have fine' : Schema.build ({ executable := "a-1" } : Schema) = .ok { executable := "a-1" } := rfl
  simp only [nested, plan, planGroups, planGroup, fine, fine', first, second, planMembers]
  rfl

namespace World

/-- The world once the two members were launched. -/
def nested : World :=
  { stage (.custom {} []) with
    identities := 1
    runs := #[Plan.nested.plainRun (.random 0) 0 false [0, 1]]
    launches := (Plan.nested.launches 0 0 []).toArray : World }.goes
    [.launch 0, .launch 0, .launch 0, .launch 1, .launch 1, .launch 1, .run 0, .run 0]

/-- The world once they are an assembly. -/
def nestedStable : World :=
  (nested.modifyRun 0 fun run =>
    { run with members := [0, 1], deadline := nested.now + run.timeout.millis, phase := .asking }).advance
    (.run 0)

theorem steps_nestedStable :
    Steps ((stage (.custom {} [])).begin .nested 0 none false).2 nestedStable := by
  have launched : Steps ((stage (.custom {} [])).begin .nested 0 none false).2 nested := by
    rw [begin_plain _ rfl]
    exact Steps.goes (by decide +kernel)
  have gather := Step.gather (w := nested) (r := 0) rfl (List.cons_ne_nil 0 [1]) (.refl [0, 1])
    (by decide +kernel) (by decide +kernel)
  exact (launched.tail gather).tail (.advance (.run 0) (by decide +kernel))

end World

set_option maxRecDepth 4000 in
/-- Each of them is found by its own name. -/
theorem Draft.plan_numbers_nested : Draft.nested.Numbers .nested ∧
    ∃ x, World.nestedStable.assemblies[0]? = some x ∧ World.nestedStable.Finds x .nested := by
  obtain ⟨numbers, finds⟩ := Draft.plan_numbers Draft.nested_plan
  have after : World.nestedStable.runs[0]?.map (·.phase) = some (.finished (.ok 0)) := rfl
  obtain ⟨run, hr, ok⟩ := Option.map_eq_some_iff.mp after
  exact ⟨numbers, finds 0 none false (World.reachable_stage _) World.steps_nestedStable run 0 hr ok⟩

end Muster
