import Muster.Proofs.Manifest.Grouped

/-!
# Planning what a manifest describes

* `Sequences.Stocks`: some sequences are made, and the others stay as they are.
* `Template.schema_serves`, **`Manifest.draft_serves`**: the groups of a manifest's draft are made from its
  templates, each with sequences of its own.
* **`Manifest.planned`**: which plans of a valid manifest succeed, and what their members are.
-/

namespace Muster

open Generator

/-! ## Making sequences -/

/-- Some sequences are made, each once; the others stay as they are. -/
structure Sequences.Stocks (q q' : Sequences) (ids : List SequenceId) : Prop where
  /-- No sequence goes away. -/
  grown : q.cells.size ≤ q'.cells.size
  /-- The sequences that were there stay as they are. -/
  kept : ∀ n < q.cells.size, q'.cells[n]? = q.cells[n]?
  /-- Every sequence is made once. -/
  nodup : ids.Nodup
  /-- They were not there before. -/
  fresh : ∀ id ∈ ids, q.cells.size ≤ id.index ∧ id.index < q'.cells.size

namespace Sequences.Stocks

variable {q q' q'' : Sequences} {ids ids' : List SequenceId}

theorem refl (q : Sequences) : Stocks q q [] := ⟨Nat.le_refl _, fun _ _ => rfl, .nil, nofun⟩

theorem trans (h : Stocks q q' ids) (h' : Stocks q' q'' ids') : Stocks q q'' (ids ++ ids') where
  grown := Nat.le_trans h.grown h'.grown
  kept n hn := (h'.kept n (Nat.lt_of_lt_of_le hn h.grown)).trans (h.kept n hn)
  nodup := List.nodup_append.mpr ⟨h.nodup, h'.nodup, fun a ha b hb heq =>
    absurd (h.fresh a ha).2 (Nat.not_lt.mpr (heq ▸ (h'.fresh b hb).1))⟩
  fresh id hid := by
    have := h.grown
    have := h'.grown
    rcases List.mem_append.mp hid with hid | hid
    · have := h.fresh id hid
      omega
    · have := h'.fresh id hid
      omega

/-- Sequences made before stay as they are. -/
theorem agreeOn (h : Stocks q q' ids) (h' : Stocks q' q'' ids') : q'.AgreeOn ids q'' :=
  fun id hid => h'.kept _ (h.fresh id hid).2

end Sequences.Stocks

/-- The source of a variable serves it, with a sequence of its own if it needs one. -/
theorem Variable.source_serves (v : Variable) (q : Sequences) :
    (v.source q).1.Serves (v.source q).2 0 v ∧ q.Stocks (v.source q).2 (v.source q).1.id?.toList := by
  have made (s : Sequence) : q.Stocks (q.add s).2 [(q.add s).1] := by
    refine ⟨?_, fun n hn => ?_, by simp, fun id hid => ?_⟩
    · simp [Sequences.add]
    · simp [Sequences.add, Array.getElem?_push, Nat.ne_of_lt hn]
    · rw [List.mem_singleton.mp hid]
      simp [Sequences.add]
  cases v with
  | fixed s => exact ⟨.fixed s, .refl q⟩
  | sequence vs => exact ⟨.shared rfl Array.getElem?_push_size, made _⟩
  | cycle vs => exact ⟨.shared rfl Array.getElem?_push_size, made _⟩
  | counter n => exact ⟨.shared rfl Array.getElem?_push_size, made _⟩

/-- A new name stands behind all others. -/
theorem Generator.setIn_of_not_mem {name : String} {src : Source} {es : List (String × Source)}
    (h : name ∉ es.map (·.1)) : setIn name src es = es ++ [(name, src)] := by
  induction es with
  | nil => rfl
  | cons e es ih =>
    rw [List.map_cons, List.mem_cons, not_or] at h
    rw [setIn, if_neg (Ne.symm h.1), ih h.2, List.cons_append]

namespace Template

/-- The variables get one entry each, in order, behind those that are there. -/
theorem addVariables_serves {g : Generator} {q : Sequences} {vs : List (String × Variable)}
    (distinct : (g.names ++ vs.map (·.1)).Nodup) :
    ∃ es, (addVariables g q vs).1.entries = g.entries ++ es ∧ Serve (addVariables g q vs).2 0 es vs ∧
      q.Stocks (addVariables g q vs).2 (ids es) := by
  induction vs generalizing g q with
  | nil => exact ⟨[], (List.append_nil _).symm, .nil, .refl q⟩
  | cons v vs ih =>
    obtain ⟨name, v⟩ := v
    obtain ⟨serves, stocks⟩ := v.source_serves q
    rw [List.map_cons] at distinct
    have absent : name ∉ g.entries.map (·.1) := fun hmem =>
      (List.nodup_append.mp distinct).2.2 name hmem name List.mem_cons_self rfl
    have entries : (g.set name (v.source q).1).entries = g.entries ++ [(name, (v.source q).1)] :=
      setIn_of_not_mem absent
    have distinct' : ((g.set name (v.source q).1).names ++ vs.map (·.1)).Nodup := by
      rw [names, entries, List.map_append, List.append_assoc]
      exact distinct
    obtain ⟨es, hes, serve, stocks'⟩ := ih (q := (v.source q).2) distinct'
    refine ⟨(name, (v.source q).1) :: es, ?_, .cons ⟨rfl, ?_⟩ serve, ?_⟩
    · rw [addVariables, hes, entries, List.append_assoc]
      rfl
    · exact serves.agree (stocks.agreeOn stocks')
    · rw [ids_cons]
      exact stocks.trans stocks'

/-- The schema of a template serves its variables, with sequences of its own. -/
theorem schema_serves {t : Template} (distinct : (t.environment.map (·.1)).Nodup) (q : Sequences) :
    (⟨t.count, (t.schema q).1⟩ : Group).Serves (t.schema q).2 0 t ∧
      q.Stocks (t.schema q).2 (⟨t.count, (t.schema q).1⟩ : Group).ids := by
  obtain ⟨es, hes, serve, stocks⟩ := addVariables_serves (g := {}) (q := q) distinct
  have same : (addVariables {} q t.environment).1.entries = es := hes
  rw [← same] at serve stocks
  rw [← Nat.zero_mul t.count] at serve
  exact ⟨⟨rfl, rfl, rfl, rfl, rfl, serve⟩, stocks⟩

end Template

namespace Manifest

theorem groups_serve {ts : List Template} (distinct : ∀ t ∈ ts, (t.environment.map (·.1)).Nodup)
    (q : Sequences) :
    List.Forall₂ (fun g t => g.Serves (groups.go q ts).2 0 t) (groups.go q ts).1 ts ∧
      q.Stocks (groups.go q ts).2 ((groups.go q ts).1.flatMap Group.ids) := by
  induction ts generalizing q with
  | nil => exact ⟨.nil, .refl q⟩
  | cons t ts ih =>
    obtain ⟨serves, stocks⟩ := t.schema_serves (distinct t List.mem_cons_self) q
    obtain ⟨rest, stocks'⟩ := ih (fun t ht => distinct t (List.mem_cons_of_mem _ ht)) (t.schema q).2
    exact ⟨.cons (serves.agree (stocks.agreeOn stocks')) rest, stocks.trans stocks'⟩

/-- **The draft of a manifest.** Its groups serve the templates in order, each with sequences of its own. -/
theorem draft_serves {m : Manifest} (distinct : ∀ t ∈ m.members, (t.environment.map (·.1)).Nodup)
    (q : Sequences) :
    List.Forall₂ (fun g t => g.Serves (m.draft q).2 0 t) (m.draft q).1.groups m.members ∧
      ((m.draft q).1.groups.flatMap Group.ids).Nodup := by
  obtain ⟨serves, stocks⟩ := groups_serve distinct q
  exact ⟨serves, stocks.nodup⟩

/-- Every template of a valid manifest is fine. -/
theorem fine_of_fault? {m : Manifest} (valid : m.fault? = none) {t : Template} (ht : t ∈ m.members) :
    t.Fine := by
  unfold fault? at valid
  split at valid
  · cases valid
  split at valid
  · cases valid
  split at valid
  · cases valid
  obtain ⟨i, hi⟩ := List.getElem?_of_mem ht
  have faultless : t.fault? i = none :=
    List.findSome?_eq_none_iff.mp valid (t, i) (List.mk_mem_zipIdx_iff_getElem?.mpr hi)
  unfold Template.fault? at faultless
  split at faultless
  · cases faultless
  case isFalse named =>
    split at faultless
    · cases faultless
    case isFalse some_ => exact ⟨named, Nat.pos_of_ne_zero some_⟩

end Manifest

/-! ## Plan after plan -/

/-- The sequences after some plans of an assembly under construction. -/
def Draft.afterPlans (d : Draft) (q : Sequences) : Nat → Sequences
  | 0 => q
  | k + 1 => (d.plan (d.afterPlans q k)).2

/-- The plan after `k` others. -/
def Draft.planAt (d : Draft) (q : Sequences) (k : Nat) : Except SetupError Plan :=
  (d.plan (d.afterPlans q k)).1

/-- What one more plan gives when the groups serve it. -/
theorem Draft.plan_serves {d : Draft} {q : Sequences} {k : Nat} {ts : List Template}
    (serves : List.Forall₂ (fun g t => g.Serves q k t) d.groups ts)
    (nodup : (d.groups.flatMap Group.ids).Nodup) (fine : ∀ t ∈ ts, t.Fine) :
    ((∀ t ∈ ts, t.Ready k) ∧ (∃ p, (d.plan q).1 = .ok p ∧
      List.Forall₂ (fun m x => x.1.Makes x.2 m) p.members (ts.flatMap (Template.places k))) ∧
      List.Forall₂ (fun g t => g.Serves (d.plan q).2 (k + 1) t) d.groups ts) ∨
    ((∃ t ∈ ts, ¬ t.Ready k) ∧ ∃ e, (d.plan q).1 = .error e ∧ e.Proper) := by
  rcases planGroups_serves serves nodup fine {} with
    ⟨ready, p, ms, q', hgs, hmembers, made, after, -⟩ | ⟨unready, e, q', hgs, proper⟩
  · refine .inl ⟨ready, ⟨⟨p.members, p.options.merge d.options, d.observers⟩, by simp only [plan, hgs], ?_⟩,
      by simpa only [plan, hgs] using after⟩
    rw [hmembers]
    exact made
  · exact .inr ⟨unready, e, by simp only [plan, hgs], proper⟩

/-- As long as plans succeed, the groups serve the next one. -/
theorem Draft.serves_afterPlans {d : Draft} {q : Sequences} {ts : List Template}
    (serves : List.Forall₂ (fun g t => g.Serves q 0 t) d.groups ts)
    (nodup : (d.groups.flatMap Group.ids).Nodup) (fine : ∀ t ∈ ts, t.Fine) {k : Nat}
    (earlier : ∀ i < k, ∃ p, d.planAt q i = .ok p) :
    List.Forall₂ (fun g t => g.Serves (d.afterPlans q k) k t) d.groups ts := by
  induction k with
  | zero => exact serves
  | succ k ih =>
    have before := ih fun i hi => earlier i (Nat.lt_succ_of_lt hi)
    rcases plan_serves before nodup fine with ⟨-, -, after⟩ | ⟨-, e, he, -⟩
    · exact after
    · obtain ⟨p, hp⟩ := earlier k (Nat.lt_succ_self k)
      rw [Draft.planAt, he] at hp
      cases hp

namespace Manifest

variable {m : Manifest}

/-- **Plans of a manifest.** Let a manifest be valid, and let the first `k` plans of its draft have
succeeded. The next one succeeds just when nothing is wrong with a name or an argument, and every
sequence lasts for one more plan. Its members are, template by template, as many as the template says, each
with the template's parts and with the variables in order, the `j`-th member of a template with the values
for place `k * count + j`. It never fails for a blank executable or for a group without members. -/
theorem planned (valid : m.fault? = none) (distinct : ∀ t ∈ m.members, (t.environment.map (·.1)).Nodup)
    (q : Sequences) (k : Nat)
    (earlier : ∀ i < k, ∃ p, (m.draft q).1.planAt (m.draft q).2 i = .ok p) :
    ((∃ p, (m.draft q).1.planAt (m.draft q).2 k = .ok p) ↔ ∀ t ∈ m.members, t.Ready k) ∧
    (∀ p, (m.draft q).1.planAt (m.draft q).2 k = .ok p →
      List.Forall₂ (fun spec x => x.1.Makes x.2 spec) p.members
        (m.members.flatMap (Template.places k))) ∧
    ∀ e, (m.draft q).1.planAt (m.draft q).2 k = .error e → e.Proper := by
  obtain ⟨serves, nodup⟩ := draft_serves distinct q
  have fine : ∀ t ∈ m.members, t.Fine := fun t => fine_of_fault? valid
  have now := Draft.serves_afterPlans serves nodup fine earlier
  unfold Draft.planAt
  rcases Draft.plan_serves now nodup fine with
    ⟨ready, ⟨p, hp, made⟩, -⟩ | ⟨⟨t, ht, unready⟩, e, he, proper⟩
  · rw [hp]
    refine ⟨⟨fun _ => ready, fun _ => ⟨p, rfl⟩⟩, fun p' hp' => ?_, fun e he => ?_⟩
    · cases hp'
      exact made
    · cases he
  · rw [he]
    refine ⟨⟨fun ⟨p, hp⟩ => ?_, fun ready => absurd (ready t ht) unready⟩, fun p hp => ?_, fun e' he' => ?_⟩
    · cases hp
    · cases hp
    · cases he'
      exact proper

/-- Two templates, the first of them with two members and a sequence that lasts for two plans. -/
def twice : Manifest where
  apiVersion := manifestVersion
  kind := manifestKind
  name := "twice"
  members :=
    [{ executable := "server", count := 2,
       environment := [("ID", .sequence [.text "a", .text "b", .text "c", .text "d"]), ("PORT", .counter 80)] },
     { executable := "client", environment := [("ZONE", .cycle [.text "x", .text "y"])] }]

/-- Its second plan succeeds and its third one fails. -/
theorem planned_twice :
    (∃ p, (twice.draft {}).1.planAt (twice.draft {}).2 1 = .ok p ∧
      List.Forall₂ (fun spec x => x.1.Makes x.2 spec) p.members
        (twice.members.flatMap (Template.places 1))) ∧
    ¬ ∃ p, (twice.draft {}).1.planAt (twice.draft {}).2 2 = .ok p := by
  have valid : twice.fault? = none := by decide +kernel
  have distinct : ∀ t ∈ twice.members, (t.environment.map (·.1)).Nodup := by decide
  have ready (k : Nat) (hk : k < 2) : ∀ t ∈ twice.members, t.Ready k := by
    intro t ht
    rcases List.mem_cons.mp ht with rfl | ht
    · refine ⟨by decide, by decide, ?_⟩
      simp only [List.forall_mem_cons, Variable.Suffices, List.length_cons, List.length_nil]
      exact ⟨by omega, trivial, nofun⟩
    · cases List.mem_singleton.mp ht
      refine ⟨by decide, by decide, ?_⟩
      simp [Variable.Suffices]
  have first := (planned valid distinct {} 0 nofun).1.mpr (ready 0 (by omega))
  have earlier : ∀ i < 1, ∃ p, (twice.draft {}).1.planAt (twice.draft {}).2 i = .ok p := fun i hi => by
    cases Nat.lt_one_iff.mp hi
    exact first
  have second := planned valid distinct {} 1 earlier
  obtain ⟨p, hp⟩ := second.1.mpr (ready 1 (by omega))
  refine ⟨⟨p, hp, second.2.1 p hp⟩, fun third => ?_⟩
  have all : ∀ i < 2, ∃ p, (twice.draft {}).1.planAt (twice.draft {}).2 i = .ok p := fun i hi => by
    rcases Nat.lt_succ_iff_lt_or_eq.mp hi with hi | rfl
    · exact earlier i hi
    · exact ⟨p, hp⟩
  have short := (planned valid distinct {} 2 all).1.mp third _ List.mem_cons_self
  have enough : 3 * 2 ≤ 4 := short.enough _ List.mem_cons_self
  omega

end Manifest

end Muster
