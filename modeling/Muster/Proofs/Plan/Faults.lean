import Muster.Proofs.Manifest.Grouped
import Muster.Proofs.Plan.Numbering

/-!
# What a plan fails of

* `Sequences.advance`: sequences after so many more draws from each; `Source.draw_of_not_exhausted`: a draw is one
  more from its own sequence, unless that has run out.
* `Schema.Fault`: what is wrong with a schema; `Schema.fault_of_check?`, `Schema.Fault.check?`: it is what checking
  the schema finds.
* `Draft.Check`, `Draft.checks`: what has to be so for a plan to succeed, in order.
* `Draft.Comes`: how some checks come out, and what is drawn meanwhile; `Comes.append`, `Comes.unique`: checks
  in a row, and that nothing else may come of them.
* **`Draft.plan_fails_iff`**: a plan fails of the first check that does, and its draws are those of the checks
  before.
-/

namespace Muster

/-! ### Draws counted -/

namespace Sequences

variable {q : Sequences} {m n : SequenceId → Nat}

/-- Sequences are told by their cells. -/
theorem eq_of_cells {q q' : Sequences} (same : ∀ id : SequenceId, q.cells[id.index]? = q'.cells[id.index]?) :
    q = q' := by
  cases q
  cases q'
  exact congrArg _ (Array.ext_getElem? fun i => same ⟨i⟩)

/-- The sequences after so many more draws from each. -/
def advance (q : Sequences) (n : SequenceId → Nat) : Sequences :=
  ⟨q.cells.mapIdx fun i cell => { cell with drawn := cell.drawn + n ⟨i⟩ }⟩

theorem cell_advance (q : Sequences) (n : SequenceId → Nat) (id : SequenceId) :
    (q.advance n).cells[id.index]? =
      q.cells[id.index]?.map fun cell => { cell with drawn := cell.drawn + n id } :=
  Array.getElem?_mapIdx

@[simp] theorem advance_zero (q : Sequences) : q.advance 0 = q := by
  refine eq_of_cells fun id => ?_
  rw [cell_advance]
  exact Option.map_id'

theorem advance_advance (q : Sequences) (m n : SequenceId → Nat) :
    (q.advance m).advance n = q.advance (m + n) := by
  refine eq_of_cells fun id => ?_
  rw [cell_advance, cell_advance, cell_advance, Option.map_map]
  refine congrArg (fun f => Option.map f _) (funext fun cell => ?_)
  rw [Function.comp_apply, Nat.add_assoc]
  rfl

end Sequences

namespace Source

variable {src : Source} {q : Sequences}

/-- How often one draw from a source draws from each sequence. -/
def share (src : Source) (id : SequenceId) : Nat := if src.id? = some id then 1 else 0

/-- The sequence of a source has no further value. -/
def Exhausted (q : Sequences) (src : Source) : Prop :=
  ∃ id, src.id? = some id ∧ (q.sequence? id).bind (fun s => s.at? (q.drawn id)) = none

theorem exhausted_iff (src : Source) (q : Sequences) : src.Exhausted q ↔ (src.draw q).1 = none := by
  cases src with
  | fixed v =>
    refine ⟨?_, nofun⟩
    rintro ⟨id, same, -⟩
    cases same
  | shared id word =>
    rw [draw, Sequences.draw_fst]
    constructor
    · rintro ⟨other, same, out⟩
      cases same
      exact out
    · exact fun out => ⟨id, rfl, out⟩

/-- A draw that finds nothing changes nothing. -/
theorem draw_of_exhausted (out : src.Exhausted q) : src.draw q = (none, q) := by
  have none := (exhausted_iff src q).mp out
  refine Prod.ext none (Sequences.eq_of_cells fun id => ?_)
  cases src with
  | fixed v => rfl
  | shared other word =>
    rw [draw] at none ⊢
    simp [Sequences.cell_draw, none]

/-- A draw that finds a value is one more from its sequence. -/
theorem draw_of_not_exhausted (more : ¬ src.Exhausted q) : ∃ v, src.draw q = (some v, q.advance src.share) := by
  rw [exhausted_iff] at more
  obtain ⟨v, found⟩ := Option.ne_none_iff_exists'.mp more
  refine ⟨v, Prod.ext found (Sequences.eq_of_cells fun id => ?_)⟩
  rw [Sequences.cell_advance]
  cases src with
  | fixed v => simp [draw, share, id?]
  | shared other word =>
    rw [draw] at found ⊢
    rw [Sequences.cell_draw, found]
    refine congrArg (fun f => Option.map f _) (funext fun cell => ?_)
    by_cases own : id = other
    · simp [own, share, id?]
    · simp [own, Ne.symm own, share, id?]

end Source

/-! ### What may be wrong with a schema -/

namespace Schema

/-- A name that a variable may have. -/
def ProperName (name : String) : Prop := name ≠ "" ∧ '=' ∉ name.toList ∧ '\x00' ∉ name.toList

variable {F : OptionFamily}

/-- What is wrong with a schema: its executable, or else the first improper name in the order of registration,
or else the first argument with a NUL. -/
inductive Fault (s : Schema F) : SetupError → Prop where
  /-- The executable is blank. -/
  | executable (blank : Text.Blank s.executable) : Fault s .blankExecutable
  /-- A name is improper, and those before it are not. -/
  | name {name : String} {front back : List String} (visible : ¬ Text.Blank s.executable)
    (cut : s.environment.names = front ++ name :: back) (proper : ∀ n ∈ front, ProperName n)
    (improper : ¬ ProperName name) : Fault s (.invalidName name)
  /-- An argument has a NUL, and those before it have none. -/
  | argument {a : String} {front back : List String} (visible : ¬ Text.Blank s.executable)
    (names : ∀ n ∈ s.environment.names, ProperName n) (cut : s.arguments = front ++ a :: back)
    (clean : ∀ b ∈ front, '\x00' ∉ b.toList) (nul : '\x00' ∈ a.toList) :
    Fault s (.invalidArgument front.length)

/-- Where the first entry with a property stands. -/
theorem findIdx?_eq_some_iff_append {α : Type} {p : α → Bool} {l : List α} {i : Nat} :
    l.findIdx? p = some i ↔
      ∃ front a back, l = front ++ a :: back ∧ front.length = i ∧ p a = true ∧
        ∀ b ∈ front, p b = false := by
  constructor
  · intro found
    obtain ⟨inside, here, before⟩ := List.findIdx?_eq_some_iff_getElem.mp found
    refine ⟨l.take i, l[i], l.drop (i + 1), ?_, List.length_take_of_le (Nat.le_of_lt inside), here, ?_⟩
    · rw [List.getElem_cons_drop, List.take_append_drop]
    · intro b hb
      obtain ⟨j, hj, rfl⟩ := List.mem_take_iff_getElem.mp hb
      exact Bool.eq_false_iff.mpr (before j (by omega))
  · rintro ⟨front, a, back, rfl, rfl, here, before⟩
    rw [List.findIdx?_append, List.findIdx?_eq_none_iff.mpr before, List.findIdx?_cons, here]
    simp

theorem any_nul_eq_true {a : String} : (a.toList.any (· = '\x00')) = true ↔ '\x00' ∈ a.toList := by
  simp

theorem any_nul_eq_false {a : String} : (a.toList.any (· = '\x00')) = false ↔ '\x00' ∉ a.toList := by
  rw [← any_nul_eq_true, Bool.not_eq_true]

/-- What checking a schema finds is wrong with it. -/
theorem fault_of_check? {s : Schema F} {e : SetupError} (h : s.check? = some e) : s.Fault e := by
  unfold check? at h
  split at h
  · rename_i blank
    cases h
    exact .executable blank
  · rename_i visible
    split at h
    · rename_i name found
      cases h
      obtain ⟨improper, front, back, cut, before⟩ := List.find?_eq_some_iff_append.mp found
      refine .name visible cut (fun n hn => invalidName_eq_false.mp (by simpa using before n hn)) fun proper => ?_
      rw [invalidName_eq_false.mpr proper] at improper
      cases improper
    · rename_i none
      obtain ⟨i, found, rfl⟩ := Option.map_eq_some_iff.mp h
      obtain ⟨front, a, back, cut, rfl, here, before⟩ := findIdx?_eq_some_iff_append.mp found
      refine .argument visible (fun n hn => ?_) cut (fun b hb => any_nul_eq_false.mp (before b hb))
        (any_nul_eq_true.mp here)
      exact invalidName_eq_false.mp (Bool.eq_false_iff.mpr (List.find?_eq_none.mp none n hn))

/-- Checking a schema finds what is wrong with it. -/
theorem Fault.check? {s : Schema F} {e : SetupError} (h : s.Fault e) : s.check? = some e := by
  unfold Schema.check?
  cases h with
  | executable blank => rw [if_pos blank]
  | @name name front back visible cut proper improper =>
    have found : s.environment.names.find? invalidName = some name := by
      refine List.find?_eq_some_iff_append.mpr ⟨?_, front, back, cut, fun n hn => ?_⟩
      · exact (Bool.not_eq_false _).mp (mt invalidName_eq_false.mp improper)
      · rw [invalidName_eq_false.mpr (proper n hn)]
        rfl
    rw [if_neg visible, found]
  | @argument a front back visible names cut clean nul =>
    have none : s.environment.names.find? invalidName = none :=
      List.find?_eq_none.mpr fun n hn => by
        rw [invalidName_eq_false.mpr (names n hn)]
        exact Bool.false_ne_true
    have found : s.arguments.findIdx? (fun a => a.toList.any (· = '\x00')) = some front.length :=
      findIdx?_eq_some_iff_append.mpr
        ⟨front, a, back, cut, rfl, any_nul_eq_true.mpr nul, fun b hb => any_nul_eq_false.mpr (clean b hb)⟩
    rw [if_neg visible, none, found]
    rfl

end Schema

/-! ### What has to be so for a plan -/

namespace Draft

/-- What has to be so for a plan to succeed. -/
inductive Check (F : OptionFamily := standardOptions) where
  /-- A group has members. -/
  | members (g : Group F)
  /-- Nothing is wrong with a schema. -/
  | schema (s : Schema F)
  /-- There is a value for a variable of a member. -/
  | value (member name : String) (src : Source)

variable {F : OptionFamily}

namespace Check

/-- How often a check draws from each sequence. -/
def share : Check F → SequenceId → Nat
  | members _ | schema _ => 0
  | value _ _ src => src.share

/-- How a check fails, the sequences being as they are. -/
inductive Fails (q : Sequences) : Check F → SetupError → Prop where
  /-- The group has no members. -/
  | members {g : Group F} (none : g.count = 0) : Fails q (.members g) (.noMembers g.schema.executable)
  /-- Something is wrong with the schema. -/
  | schema {s : Schema F} {e : SetupError} (fault : s.Fault e) : Fails q (.schema s) e
  /-- The variable's sequence has run out. -/
  | value {member name : String} {src : Source} (out : src.Exhausted q) :
    Fails q (.value member name src) (.environment member (.exhausted name))

theorem Fails.unique {q : Sequences} {c : Check F} {e e' : SetupError} (h : c.Fails q e) (h' : c.Fails q e') :
    e = e' := by
  cases h with
  | members => cases h'; rfl
  | schema fault =>
    cases h' with
    | schema fault' => exact Option.some.inj (fault.check?.symm.trans fault'.check?)
  | value => cases h'; rfl

end Check

/-- How often some checks draw from each sequence. -/
def draws (cs : List (Check F)) : SequenceId → Nat := (cs.map Check.share).sum

/-- None of some checks fails, each of them made after the draws of those before. -/
def Passes (q : Sequences) (cs : List (Check F)) : Prop :=
  ∀ front c back, cs = front ++ c :: back → ∀ e, ¬ c.Fails (q.advance (draws front)) e

/-- How some checks come out, and the sequences afterwards: none of them fails, or one does first. -/
inductive Comes (q : Sequences) (cs : List (Check F)) : Option SetupError → Sequences → Prop where
  /-- All draws were made. -/
  | passes (pass : Passes q cs) : Comes q cs none (q.advance (draws cs))
  /-- The draws before the first failure were made. -/
  | fails {front back : List (Check F)} {c : Check F} {e : SetupError} (cut : cs = front ++ c :: back)
    (pass : Passes q front) (fail : c.Fails (q.advance (draws front)) e) :
    Comes q cs (some e) (q.advance (draws front))

/-- The checks on the variables of a member, in the order of registration. -/
def variableChecks (member : String) (es : List (String × Source)) : List (Check F) :=
  es.map fun e => .value member e.1 e.2

/-- The checks on some members in a row, where `number` others with the base name come before them. -/
def memberChecks (s : Schema F) (base : String) (number count : Nat) : List (Check F) :=
  (List.range' number count).flatMap fun i => variableChecks (memberLabel base i) s.environment.entries

section

variable [Engine F]

/-- The checks on a group: on itself, its schema, and its members. -/
def groupChecks (number : Nat) (g : Group F) : List (Check F) :=
  .members g :: .schema g.schema :: memberChecks g.schema g.schema.copy.displayName number g.count

/-- The checks on some groups, after some others; members are numbered among all those with their base name. -/
def groupsChecks (before : List (Group F)) : List (Group F) → List (Check F)
  | [] => []
  | g :: gs => groupChecks (countOf before g.schema.copy.displayName) g ++ groupsChecks (before ++ [g]) gs

/-- What has to be so for a draft's plan to succeed, in order. -/
def checks (d : Draft F) : List (Check F) := groupsChecks [] d.groups

end

variable {q q' q'' : Sequences} {cs cs' : List (Check F)} {c : Check F} {r r' : Option SetupError} {e : SetupError}

theorem draws_append (cs cs' : List (Check F)) : draws (cs ++ cs') = draws cs + draws cs' := by
  unfold draws
  rw [List.map_append, List.sum_append]

/-- No check draws nothing. -/
@[simp] theorem advance_draws_nil (q : Sequences) : q.advance (draws ([] : List (Check F))) = q := by
  rw [draws, List.map_nil, List.sum_nil, Sequences.advance_zero]

theorem passes_nil (q : Sequences) : Passes q ([] : List (Check F)) := fun front c back cut => by simp at cut

/-- Checks in a row. -/
theorem passes_append : Passes q (cs ++ cs') ↔ Passes q cs ∧ Passes (q.advance (draws cs)) cs' := by
  constructor
  · intro h
    refine ⟨fun front c back cut => h front c (back ++ cs') (by simp [cut]), fun front c back cut => ?_⟩
    rw [Sequences.advance_advance, ← draws_append]
    exact h (cs ++ front) c back (by simp [cut])
  · rintro ⟨h, h'⟩ front c back cut
    rcases List.append_eq_append_iff.mp cut with ⟨mid, rfl, rest⟩ | ⟨mid, whole, rest⟩
    · rw [draws_append, ← Sequences.advance_advance]
      exact h' mid c back rest
    · cases mid with
      | nil =>
        rw [List.append_nil] at whole
        rw [← whole]
        simpa [draws] using h' [] c back rest.symm
      | cons c' mid =>
        cases rest
        exact h front c mid whole

/-- A check before the first that fails does not fail. -/
theorem length_le_of_first {front front' back back' : List (Check F)} {c c' : Check F}
    (cut : front ++ c :: back = front' ++ c' :: back') (pass : Passes q front')
    (fail : c.Fails (q.advance (draws front)) e) : front'.length ≤ front.length := by
  rcases List.append_eq_append_iff.mp cut with ⟨mid, whole, rest⟩ | ⟨mid, whole, -⟩
  · cases mid with
    | nil => rw [whole, List.append_nil]
    | cons d mid =>
      cases rest
      exact absurd fail (pass front c mid whole e)
  · rw [whole, List.length_append]
    exact Nat.le_add_right _ _

/-- Nothing else may come of some checks. -/
theorem Comes.unique (h : Comes q cs r q') (h' : Comes q cs r' q'') : r = r' ∧ q' = q'' := by
  cases h with
  | passes pass =>
    cases h' with
    | passes => exact ⟨rfl, rfl⟩
    | fails cut _ fail => exact absurd fail (pass _ _ _ cut _)
  | @fails front back c e cut pass fail =>
    cases h' with
    | passes pass' => exact absurd fail (pass' _ _ _ cut _)
    | @fails front' back' c' e' cut' pass' fail' =>
      have same := cut.symm.trans cut'
      have size := Nat.le_antisymm (length_le_of_first same.symm pass fail') (length_le_of_first same pass' fail)
      obtain ⟨rfl, rest⟩ := List.append_inj same size
      cases rest
      exact ⟨congrArg some (fail.unique fail'), rfl⟩

theorem Comes.append (h : Comes q cs none q') (h' : Comes q' cs' r q'') : Comes q (cs ++ cs') r q'' := by
  cases h with
  | passes pass =>
    cases h' with
    | passes pass' =>
      rw [Sequences.advance_advance, ← draws_append]
      exact .passes (passes_append.mpr ⟨pass, pass'⟩)
    | @fails front back c e cut pass' fail =>
      rw [Sequences.advance_advance, ← draws_append] at fail ⊢
      exact .fails (by rw [cut, List.append_assoc]) (passes_append.mpr ⟨pass, pass'⟩) fail

theorem Comes.stop (h : Comes q cs (some e) q') (cs' : List (Check F)) : Comes q (cs ++ cs') (some e) q' := by
  cases h with
  | @fails front back c e cut pass fail => exact .fails (by rw [cut, List.append_assoc]; rfl) pass fail

/-- One check. -/
theorem Comes.one_fails (fail : c.Fails q e) : Comes q [c] (some e) q := by
  have h : Comes q [c] (some e) (q.advance (draws [])) :=
    .fails (List.nil_append [c]).symm (passes_nil q) (by rwa [advance_draws_nil])
  rwa [advance_draws_nil] at h

theorem Comes.one_passes (pass : ∀ e, ¬ c.Fails q e) : Comes q [c] none (q.advance c.share) := by
  have one : draws [c] = c.share := List.sum_singleton
  rw [← one]
  refine .passes fun front c' back cut e => ?_
  cases front with
  | nil =>
    cases cut
    rw [advance_draws_nil]
    exact pass e
  | cons d front => simp at cut

/-- One check for which nothing is drawn. -/
theorem Comes.one_still (pass : ∀ e, ¬ c.Fails q e) (still : c.share = 0) : Comes q [c] none q := by
  have h := one_passes pass
  rwa [still, Sequences.advance_zero] at h

/-! ### What comes of a plan -/

/-- The error in which something has ended, if it has. -/
def failure? {ε α : Type} : Except ε α → Option ε
  | .error e => some e
  | .ok _ => none

/-- Drawing values checks the variables of a member. -/
theorem comes_drawAll (member : String) (es : List (String × Source)) (q : Sequences) :
    Comes (F := F) q (variableChecks member es) ((failure? (Generator.drawAll q es).1).map (.environment member))
      (Generator.drawAll q es).2 := by
  induction es generalizing q with
  | nil =>
    have none := Comes.passes (passes_nil (F := F) q)
    rwa [advance_draws_nil] at none
  | cons e es ih =>
    by_cases out : e.2.Exhausted q
    · simp only [Generator.drawAll, Source.draw_of_exhausted out]
      exact (Comes.one_fails (.value out)).stop _
    · obtain ⟨v, found⟩ := Source.draw_of_not_exhausted out
      have first : Comes (F := F) q [.value member e.1 e.2] none (q.advance e.2.share) := by
        refine .one_passes fun x fail => ?_
        cases fail with
        | value out' => exact out out'
      have rest := ih (q.advance e.2.share)
      simp only [Generator.drawAll, found]
      rcases more : Generator.drawAll (q.advance e.2.share) es with ⟨_ | ps, q'⟩ <;> rw [more] at rest <;>
        exact first.append rest

/-- Planning members checks them in a row. -/
theorem comes_planMembers (s : Schema F) (base : String) (number ordinal count : Nat) (q : Sequences) :
    Comes q (memberChecks s base number count) (failure? (planMembers s base number ordinal q count).1)
      (planMembers s base number ordinal q count).2 := by
  induction count generalizing number ordinal q with
  | zero => exact comes_drawAll "" [] q
  | succ count ih =>
    have first := comes_drawAll (F := F) (memberLabel base number) s.environment.entries q
    rw [memberChecks, List.range'_succ, List.flatMap_cons]
    unfold planMembers Schema.resolveEnvironment Generator.snapshot
    rcases drawn : Generator.drawAll q s.environment.entries with ⟨x | ps, q₁⟩ <;> rw [drawn] at first
    · exact first.stop _
    · have rest := ih (number + 1) (ordinal + 1) q₁
      dsimp only
      rcases more : planMembers s base (number + 1) (ordinal + 1) q₁ count with ⟨_ | ms, q₂⟩ <;>
        rw [more] at rest <;> exact first.append rest

variable [Engine F]

/-- Planning a group checks it. -/
theorem comes_planGroup (p : Progress F) (g : Group F) (q : Sequences) :
    Comes q (groupChecks (p.numbering g.schema.copy.displayName) g) (failure? (planGroup p g q).1)
      (planGroup p g q).2 := by
  unfold planGroup groupChecks
  split
  · rename_i none
    exact (Comes.one_fails (.members none)).stop _
  · rename_i some
    have members : Comes q [.members g] none q := by
      refine .one_still (fun e fail => ?_) rfl
      cases fail with
      | members none => exact some none
    refine members.append ?_
    cases checked : g.schema.check? with
    | some e =>
      rw [Schema.build_of_fault checked]
      exact (Comes.one_fails (.schema (Schema.fault_of_check? checked))).stop _
    | none =>
      have fine : Comes q [.schema g.schema] none q := by
        refine .one_still (fun e fail => ?_) rfl
        cases fail with
        | schema fault => cases checked.symm.trans fault.check?
      refine fine.append ?_
      rw [Schema.build_of_fine checked]
      have rest := comes_planMembers g.schema.copy g.schema.copy.displayName
        (p.numbering g.schema.copy.displayName) p.members.length g.count q
      dsimp only
      rcases more : planMembers g.schema.copy g.schema.copy.displayName
        (p.numbering g.schema.copy.displayName) p.members.length q g.count with ⟨_ | ms, q'⟩ <;>
        rw [more] at rest <;> exact rest

/-- Planning groups checks them in a row. -/
theorem comes_planGroups {p : Progress F} {before : List (Group F)} (covers : p.Covers before) (gs : List (Group F))
    (q : Sequences) :
    Comes q (groupsChecks before gs) (failure? (planGroups p q gs).1) (planGroups p q gs).2 := by
  induction gs generalizing p before q with
  | nil => exact comes_drawAll "" [] q
  | cons g gs ih =>
    have first := comes_planGroup p g q
    rw [covers.counted] at first
    rw [groupsChecks, planGroups]
    rcases one : planGroup p g q with ⟨e | p', q'⟩ <;> rw [one] at first
    · exact first.stop _
    · exact first.append (ih (covers.planGroup one) q')

/-- A plan checks what has to be so for it to succeed. -/
theorem comes_plan (d : Draft F) (q : Sequences) : Comes q d.checks (failure? (d.plan q).1) (d.plan q).2 := by
  have groups := comes_planGroups .nil d.groups q
  unfold plan
  rcases all : planGroups {} q d.groups with ⟨e | p, q'⟩ <;> rw [all] at groups <;> exact groups

/-- **What a plan fails of.** It fails with an error when some check fails with that error, and none does
before: a group has no members, or something is wrong with its schema, or the sequence of a member's variable
has run out. What was drawn by then are the values for the variables before, each once. It succeeds when no
check fails, and then one value was drawn for every variable. -/
theorem plan_fails_iff (d : Draft F) (q q' : Sequences) :
    (∀ e, d.plan q = (.error e, q') ↔ ∃ front c back, d.checks = front ++ c :: back ∧ Passes q front ∧
      c.Fails (q.advance (draws front)) e ∧ q' = q.advance (draws front)) ∧
    ((∃ p, d.plan q = (.ok p, q')) ↔ Passes q d.checks ∧ q' = q.advance (draws d.checks)) := by
  have comes := comes_plan d q
  refine ⟨fun e => ⟨fun failed => ?_, ?_⟩, ?_, ?_⟩
  · rw [failed] at comes
    cases comes with
    | fails cut pass fail => exact ⟨_, _, _, cut, pass, fail, rfl⟩
  · rintro ⟨front, c, back, cut, pass, fail, rfl⟩
    obtain ⟨failed, same⟩ := comes.unique (.fails cut pass fail)
    rcases all : d.plan q with ⟨e' | p, q''⟩ <;> rw [all] at failed same <;> cases failed
    rw [← same]
  · rintro ⟨p, planned⟩
    rw [planned] at comes
    cases comes with
    | passes pass => exact ⟨pass, rfl⟩
  · rintro ⟨pass, rfl⟩
    obtain ⟨failed, same⟩ := comes.unique (.passes pass)
    rcases all : d.plan q with ⟨e' | p, q''⟩ <;> rw [all] at failed same <;> cases failed
    exact ⟨p, by rw [← same]⟩

end Draft

end Muster
