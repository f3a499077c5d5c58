import Muster.Proofs.Manifest.Serving

/-!
# Groups made from templates

* `Template.Ready`: nothing is wrong with a template, and its sequences last for one more plan.
* `Template.Makes`: a planned member is what its template says, with the variables' values for its place.
* `Group.Serves`: a group is made from a template, and some plans have drawn from its sequences.
* **`Draft.planGroups_serves`**: groups with sequences of their own are planned when their templates are
  ready, and serve the next plan then.
-/

namespace Muster

open Generator

namespace Variable

/-- There is a value for each of the first `n` members. -/
def Suffices (n : Nat) : Variable → Prop
  | fixed _ => True
  | sequence vs => n ≤ vs.length
  | cycle vs => vs ≠ []
  | counter _ => True

/-- There is a value for each of the first `n` members when there is one for the last few of them: a
sequence does not end before. -/
theorem suffices_iff (v : Variable) {count : Nat} (pos : 0 < count) (k : Nat) :
    v.Suffices ((k + 1) * count) ↔ ∀ j ∈ List.range' (k * count) count, (v.value? j).isSome := by
  have bounds : (k + 1) * count = k * count + count := Nat.succ_mul k count
  have last : k * count + (count - 1) ∈ List.range' (k * count) count := by
    rw [List.mem_range'_1]
    omega
  cases v with
  | fixed s => exact ⟨fun _ _ _ => rfl, fun _ => trivial⟩
  | counter n => exact ⟨fun _ _ _ => rfl, fun _ => trivial⟩
  | sequence vs =>
    have value (j : Nat) : ((sequence vs).value? j).isSome ↔ j < vs.length := by simp [value?]
    constructor
    · intro (h : (k + 1) * count ≤ vs.length) j hj
      rw [List.mem_range'_1] at hj
      exact (value j).mpr (by omega)
    · intro h
      have := (value _).mp (h _ last)
      change (k + 1) * count ≤ vs.length
      omega
  | cycle vs =>
    have value (j : Nat) : ((cycle vs).value? j).isSome ↔ vs ≠ [] := by
      have index : ((cycle vs).value? j).isSome ↔ j % vs.length < vs.length := by simp [value?]
      rw [index, ← List.length_pos_iff]
      exact ⟨fun h => Nat.lt_of_le_of_lt (Nat.zero_le _) h, fun h => Nat.mod_lt _ h⟩
    exact ⟨fun h j _ => (value j).mpr h, fun h => (value _).mp (h _ last)⟩

end Variable

namespace Template

/-- Nothing is wrong with the names and arguments of a template, and its sequences last for one more plan
after `k`. -/
structure Ready (t : Template) (k : Nat) : Prop where
  /-- Names are not empty, and have no equals sign and no NUL. -/
  names : ∀ v ∈ t.environment, v.1 ≠ "" ∧ '=' ∉ v.1.toList ∧ '\x00' ∉ v.1.toList
  /-- Arguments have no NUL. -/
  arguments : ∀ a ∈ t.arguments, '\x00' ∉ a.toList
  /-- Sequences are long enough, and cycles have a value. -/
  enough : ∀ v ∈ t.environment, v.2.Suffices ((k + 1) * t.count)

/-- A planned member is what its template says, with the variables' values for the member at a place. -/
structure Makes (t : Template) (i : Nat) (m : MemberSpec) : Prop where
  /-- It runs the same program. -/
  executable : m.schema.executable = t.executable
  /-- It gets the same arguments. -/
  arguments : m.schema.arguments = t.arguments
  /-- It runs in the same directory. -/
  workingDirectory : m.schema.workingDirectory = t.workingDirectory
  /-- Its errors go to the same place. -/
  errorsRedirected : m.schema.errorsRedirected = t.errorsRedirected
  /-- It gets the variables in order, each with its value for the place. -/
  environment : Valued i m.environment.pairs t.environment

end Template

/-- An error that a valid manifest does not exclude. -/
def SetupError.Proper (e : SetupError) : Prop := e ≠ .blankExecutable ∧ ∀ schema, e ≠ .noMembers schema

namespace Schema

theorem invalidName_eq_false {name : String} :
    invalidName name = false ↔ name ≠ "" ∧ '=' ∉ name.toList ∧ '\x00' ∉ name.toList := by
  simp only [invalidName, Bool.or_eq_false_iff, List.any_eq_false, String.isEmpty_eq_false_iff,
    Bool.or_eq_true, decide_eq_true_eq, not_or, ne_eq]
  exact and_congr_right fun _ =>
    ⟨fun h => ⟨fun hmem => (h _ hmem).1 rfl, fun hmem => (h _ hmem).2 rfl⟩,
      fun h c hc => ⟨fun heq => h.1 (heq ▸ hc), fun heq => h.2 (heq ▸ hc)⟩⟩

/-- When nothing is wrong with a schema. -/
theorem check?_eq_none_iff (s : Schema) : s.check? = none ↔ ¬ Text.Blank s.executable ∧
    (∀ name ∈ s.environment.names, invalidName name = false) ∧
    ∀ a ∈ s.arguments, '\x00' ∉ a.toList := by
  unfold check?
  split
  case isTrue h => simp [h]
  case isFalse h =>
    simp only [h, not_false_eq_true, true_and]
    split
    case h_1 name hname =>
      have bad := List.find?_some hname
      refine ⟨nofun, fun ⟨names, _⟩ => ?_⟩
      rw [names _ (List.mem_of_find?_eq_some hname)] at bad
      cases bad
    case h_2 hnone =>
      have names : ∀ name ∈ s.environment.names, invalidName name = false := fun name hname =>
        Bool.eq_false_iff.mpr (List.find?_eq_none.mp hnone name hname)
      simp only [Option.map_eq_none_iff, List.findIdx?_eq_none_iff, List.any_eq_false, decide_eq_true_eq]
      exact ⟨fun h => ⟨names, fun a ha hmem => h a ha _ hmem rfl⟩,
        fun h a ha c hc heq => h.2 a ha (heq ▸ hc)⟩

/-- What is wrong with a schema whose executable is not blank. -/
theorem proper_of_check? {s : Schema} (named : ¬ Text.Blank s.executable) {e : SetupError}
    (h : s.check? = some e) : e.Proper := by
  unfold check? at h
  rw [if_neg named] at h
  split at h
  · cases h
    exact ⟨nofun, nofun⟩
  · obtain ⟨i, -, rfl⟩ := Option.map_eq_some_iff.mp h
    exact ⟨nofun, nofun⟩

end Schema

/-! ## One group -/

/-- The sequences of a group. -/
def Group.ids (g : Group) : List SequenceId := Generator.ids g.schema.environment.entries

/-- A group is made from a template, and `k` plans have drawn from its sequences. -/
structure Group.Serves (q : Sequences) (k : Nat) (g : Group) (t : Template) : Prop where
  /-- It has as many members. -/
  count : g.count = t.count
  /-- It has the template's program. -/
  executable : g.schema.executable = t.executable
  /-- It has the template's arguments. -/
  arguments : g.schema.arguments = t.arguments
  /-- It has the template's directory. -/
  workingDirectory : g.schema.workingDirectory = t.workingDirectory
  /-- Its errors go where the template says. -/
  errorsRedirected : g.schema.errorsRedirected = t.errorsRedirected
  /-- Its sources serve the template's variables. -/
  environment : Serve q (k * t.count) g.schema.environment.entries t.environment

namespace Group.Serves

variable {q q' : Sequences} {k : Nat} {g : Group} {t : Template}

theorem agree (h : g.Serves q k t) (same : q.AgreeOn g.ids q') : g.Serves q' k t :=
  { h with environment := h.environment.agree same }

theorem forall_agree {gs : List Group} {ts : List Template}
    (h : List.Forall₂ (fun g t => g.Serves q k t) gs ts) (same : q.AgreeOn (gs.flatMap Group.ids) q') :
    List.Forall₂ (fun g t => g.Serves q' k t) gs ts := by
  induction h with
  | nil => exact .nil
  | cons head _ ih =>
    rw [List.flatMap_cons] at same
    exact .cons (head.agree fun id hid => same id (List.mem_append_left _ hid))
      (ih fun id hid => same id (List.mem_append_right _ hid))

theorem names (h : g.Serves q k t) : g.schema.environment.names = t.environment.map (·.1) := by
  have same : List.Forall₂ (· = ·) (g.schema.environment.entries.map (·.1)) (t.environment.map (·.1)) := by
    rw [List.forall₂_map_left_iff, List.forall₂_map_right_iff]
    exact h.environment.imp fun _ _ head => head.1
  rwa [List.forall₂_eq_eq_eq] at same

/-- When nothing is wrong with the schema of a group. -/
theorem check?_eq_none_iff (h : g.Serves q k t) (named : ¬ Text.Blank t.executable) :
    g.schema.check? = none ↔
      (∀ v ∈ t.environment, v.1 ≠ "" ∧ '=' ∉ v.1.toList ∧ '\x00' ∉ v.1.toList) ∧
        ∀ a ∈ t.arguments, '\x00' ∉ a.toList := by
  rw [g.schema.check?_eq_none_iff, h.names, h.executable, h.arguments]
  simp only [named, not_false_eq_true, true_and, List.forall_mem_map, Schema.invalidName_eq_false]

/-- **One group.** It is planned when its template is ready, with the members that the template says;
otherwise the plan fails. -/
theorem planGroup (h : g.Serves q k t) (nodup : g.ids.Nodup) (named : ¬ Text.Blank t.executable)
    (pos : 0 < t.count) (p : Draft.Progress) :
    (t.Ready k ∧ ∃ p' ms q', Draft.planGroup p g q = (.ok p', q') ∧ p'.members = p.members ++ ms ∧
      List.Forall₂ (fun m i => t.Makes i m) ms (List.range' (k * t.count) t.count) ∧
      g.Serves q' (k + 1) t ∧ q.AgreeOff g.ids q') ∨
    (¬ t.Ready k ∧ ∃ e q', Draft.planGroup p g q = (.error e, q') ∧ e.Proper) := by
  have some_ : ¬ g.count = 0 := by rw [h.count]; omega
  unfold Draft.planGroup
  rw [if_neg some_]
  cases hcheck : g.schema.check? with
  | some e =>
    rw [Schema.build_of_fault hcheck]
    refine .inr ⟨fun ready => ?_, e, q, rfl, ?_⟩
    · rw [(h.check?_eq_none_iff named).mpr ⟨ready.names, ready.arguments⟩] at hcheck
      cases hcheck
    · exact Schema.proper_of_check? (by rwa [h.executable]) hcheck
  | none =>
    obtain ⟨names, arguments⟩ := (h.check?_eq_none_iff named).mp hcheck
    rw [Schema.build_of_fine hcheck, Schema.copy]
    generalize hs : ({ g.schema with options := g.schema.options.copy } : Schema) = s
    have same : s.environment = g.schema.environment := by rw [← hs]
    have serve := h.environment
    rw [Group.ids] at nodup ⊢
    rw [← same] at serve nodup ⊢
    rcases Draft.planMembers_serves serve nodup s.displayName (p.numbering s.displayName)
      p.members.length g.count with ⟨ms, q', hms, made, after, agree⟩ | ⟨member, x, q', hms, j, hj, v, hv, none_⟩
    · simp only [hms]
      rw [h.count] at made
      refine .inl ⟨⟨names, arguments, fun v hv => ?_⟩, _, ms, q', rfl, rfl, ?_, ?_, agree⟩
      · exact (v.2.suffices_iff pos k).mpr fun j hj => Valued.everywhere made hj hv
      · refine made.imp fun m i ⟨hm, valued⟩ => ?_
        rw [← hs] at hm
        exact ⟨by rw [hm, h.executable], by rw [hm, h.arguments], by rw [hm, h.workingDirectory],
          by rw [hm, h.errorsRedirected], valued⟩
      · rw [h.count, ← Nat.succ_mul, same] at after
        exact { h with environment := after }
    · simp only [hms]
      refine .inr ⟨fun ready => ?_, _, q', rfl, nofun, nofun⟩
      rw [h.count] at hj
      have there := (v.2.suffices_iff pos k).mp (ready.enough v hv) j hj
      rw [none_] at there
      cases there

end Group.Serves

/-! ## All groups -/

/-- The places of a template's members in the plan after `k` others. -/
def Template.places (k : Nat) (t : Template) : List (Template × Nat) :=
  (List.range t.count).map fun j => (t, k * t.count + j)

/-- A valid template: its executable is not blank, and it has members. -/
def Template.Fine (t : Template) : Prop := ¬ Text.Blank t.executable ∧ 0 < t.count

namespace Draft

variable {q : Sequences} {k : Nat} {gs : List Group} {ts : List Template}

/-- **All groups.** They are planned when all templates are ready, and serve the next plan then. -/
theorem planGroups_serves (h : List.Forall₂ (fun g t => g.Serves q k t) gs ts)
    (nodup : (gs.flatMap Group.ids).Nodup) (fine : ∀ t ∈ ts, t.Fine) (p : Progress) :
    ((∀ t ∈ ts, t.Ready k) ∧ ∃ p' ms q', planGroups p q gs = (.ok p', q') ∧
      p'.members = p.members ++ ms ∧
      List.Forall₂ (fun m x => x.1.Makes x.2 m) ms (ts.flatMap (Template.places k)) ∧
      List.Forall₂ (fun g t => g.Serves q' (k + 1) t) gs ts ∧ q.AgreeOff (gs.flatMap Group.ids) q') ∨
    ((∃ t ∈ ts, ¬ t.Ready k) ∧ ∃ e q', planGroups p q gs = (.error e, q') ∧ e.Proper) := by
  induction gs generalizing q ts p with
  | nil =>
    cases h
    exact .inl ⟨nofun, p, [], q, rfl, by simp, .nil, .nil, .refl _ q⟩
  | cons g gs ih =>
    rcases h with _ | @⟨_, t, _, ts, serves, rest⟩
    rw [List.flatMap_cons] at nodup
    obtain ⟨nodup₁, nodup₂, apart⟩ := List.nodup_append.mp nodup
    have fine₁ := fine t List.mem_cons_self
    have fine₂ : ∀ t ∈ ts, t.Fine := fun t ht => fine t (List.mem_cons_of_mem _ ht)
    rcases serves.planGroup nodup₁ fine₁.1 fine₁.2 p with
      ⟨ready, p₁, ms, q₁, hg, hmembers, made, after, agree⟩ | ⟨unready, e, q₁, hg, proper⟩
    · have rest₁ : List.Forall₂ (fun g t => g.Serves q₁ k t) gs ts :=
        Group.Serves.forall_agree rest (agree.agreeOn fun id hid hmem => apart id hmem id hid rfl)
      rcases ih rest₁ nodup₂ fine₂ p₁ with
        ⟨readies, p₂, ms', q₂, hgs, hmembers', made', after', agree'⟩ | ⟨unready, e, q₂, hgs, proper⟩
      · refine .inl ⟨?_, p₂, ms ++ ms', q₂, by simp only [planGroups, hg, hgs], ?_, ?_, .cons ?_ after', ?_⟩
        · intro t' ht'
          rcases List.mem_cons.mp ht' with rfl | ht'
          · exact ready
          · exact readies t' ht'
        · rw [hmembers', hmembers, List.append_assoc]
        · rw [List.flatMap_cons]
          refine List.rel_append ?_ made'
          rw [Template.places, List.forall₂_map_right_iff]
          rw [List.range'_eq_map_range, List.forall₂_map_right_iff] at made
          exact made
        · exact after.agree (agree'.agreeOn fun id hid hmem => apart id hid id hmem rfl)
        · exact agree.trans agree'
      · obtain ⟨t', ht', not_ready⟩ := unready
        exact .inr ⟨⟨t', List.mem_cons_of_mem _ ht', not_ready⟩, e, q₂,
          by simp only [planGroups, hg, hgs], proper⟩
    · exact .inr ⟨⟨t, List.mem_cons_self, unready⟩, e, q₁, by simp only [planGroups, hg], proper⟩

end Draft

end Muster
