import Muster.Proofs.Run.Order

/-!
# Who asks about whom

* `Core.runOf?`: the run of whose launches a member came.
* `Core.Peopled`, `Core.Unasked`: a run that asks its predicate has members to ask about, and one that still
  launches them has asked nothing.
* `Run.Asks`, `Run.Quiet`: a run asks its predicate and heeds the answer, or does not ask.
* **`Core.Deed.asks`**: as long as a run has not ended nobody asks about its members but the run itself,
  and only when it is due to ask and its caller has not given up.
-/

namespace Muster

/-- The question that a beat puts to a predicate. -/
def Beat.question? : Beat → Option (Nat × List Nat)
  | ask p ms => some (p, ms)
  | tell .. | stop _ | announce .. => none

theorem Beat.questions_announce {α : Type} (l : List α) (channel : α → Nat) (e : α → Event) :
    (l.map fun a => Beat.announce (channel a) (e a)).filterMap question? = [] := by
  rw [List.filterMap_eq_nil_iff]
  intro b hb
  obtain ⟨a, -, rfl⟩ := List.mem_map.mp hb
  rfl

/-- A run asks its predicate, and heeds the answer. -/
structure Run.Asks (run run' : Run) (holds : Bool) : Prop where
  due : run.phase = .asking
  going : run.cancelled = false
  count : run'.evaluations = run.evaluations + 1
  held : holds = true → ∃ a, run'.phase = .finished (.ok a)
  failed : holds = false → (∃ due, run'.phase = .resting due) ∨
    ∃ seen places, run'.phase = .rollingBack (.unstable seen) places

/-- A run that ends in an assembly when it asks got a positive answer. -/
theorem Run.Asks.holds_of_ok {run run' : Run} {holds : Bool} (asks : run.Asks run' holds) {a : Nat}
    (hp : run'.phase = .finished (.ok a)) : holds = true := by
  by_contra fails
  rcases asks.failed (Bool.eq_false_iff.mpr fails) with ⟨due, other⟩ | ⟨seen, places, other⟩ <;>
    cases hp.symm.trans other

/-- A run that does not end in an assembly when it asks got no positive answer. -/
theorem Run.Asks.fails_of_not_ok {run run' : Run} {holds : Bool} (asks : run.Asks run' holds)
    (other : ∀ a, run'.phase ≠ .finished (.ok a)) : holds = false := by
  refine Bool.eq_false_iff.mpr fun positive => ?_
  obtain ⟨a, hp⟩ := asks.held positive
  exact other a hp

/-- A run does not ask its predicate; if it ends in an assembly now, there was nothing to launch. -/
structure Run.Quiet (run run' : Run) : Prop where
  count : run'.evaluations = run.evaluations
  ends : ∀ {a : Nat}, run'.phase = .finished (.ok a) → run.phase = .finished (.ok a) ∨
    run.phase = .launching ∧ run.pending = [] ∧ run.failures = [] ∧ run.members = []

theorem Run.Same.quiet {run run' : Run} (same : run.Same run') : run.Quiet run' :=
  ⟨same.evaluations, fun hp => .inl (same.phase.symm.trans hp)⟩

namespace Core

variable {c c' : Core} {r s m : Nat} {run run' : Run}

/-- The run of whose launches a member came. -/
def runOf? (c : Core) (m : Nat) : Option Nat :=
  c.members[m]?.bind fun x => c.launches[x.launch]?.bind (·.run?)

theorem Sound.runOf?_eq (h : c.Sound) (hr : c.runs[r]? = some run) (hm : m ∈ run.members) :
    c.runOf? m = some r := by
  obtain ⟨i, l, x, -, hl, hlr, -, hx, rfl, -⟩ := h.launch_of_member hr hm
  unfold runOf?
  rw [hx, Option.bind_some, hl, Option.bind_some, hlr]

/-- Whether a question about members is one about those of a run; a question about nobody is taken for
one. -/
def about (c : Core) (r : Nat) (ms : List Nat) : Bool :=
  ms.isEmpty || ms.any fun m => c.runOf? m == some r

/-- The questions about members of a run. -/
def questions (c : Core) (r : Nat) (beats : List Beat) : List (Nat × List Nat) :=
  (beats.filterMap Beat.question?).filter fun q => c.about r q.2

theorem questions_nil {beats : List Beat} (none : beats.filterMap Beat.question? = []) :
    c.questions r beats = [] := by
  unfold questions
  rw [none]
  rfl

theorem questions_cons (c : Core) (r p : Nat) (ms : List Nat) (beats : List Beat) :
    c.questions r (.ask p ms :: beats) =
      (if c.about r ms then [(p, ms)] else []) ++ c.questions r beats := by
  have first : (Beat.ask p ms :: beats).filterMap Beat.question? =
      (p, ms) :: beats.filterMap Beat.question? := rfl
  unfold questions
  rw [first, List.filter_cons]
  split <;> rfl

/-- A run that is due to ask its predicate has members to ask about. -/
def Peopled (c : Core) : Prop := ∀ {r : Nat} {run : Run}, c.runs[r]? = some run →
  (run.phase = .asking ∨ ∃ due, run.phase = .resting due) → run.members ≠ []

theorem Peopled.empty : Core.Peopled ⟨#[], #[], #[], #[], #[], #[], []⟩ := fun hr => by simp at hr

theorem Peopled.move (h : c.Peopled) (move : c.Move c') : c'.Peopled := by
  intro r run' hr' hp'
  obtain ⟨run, hr⟩ := move.old_run hr' (by rcases hp' with hp' | ⟨due, hp'⟩ <;> simp [hp'])
  have stay (phase : run'.phase = run.phase) (members : run'.members = run.members) :
      run'.members ≠ [] := by
    rw [members]
    exact h hr (phase ▸ hp')
  rcases move.run_cases hr hr' with same | move | move
  · exact stay same.phase same.members
  · cases move with
    | gather hs _ _ _ some =>
      cases (getElem?_replace_self hs _).symm.trans hr'
      refine fun none => some (List.Perm.eq_nil ?_)
      rw [← none]
      exact (List.mergeSort_perm _ _).symm
    | rest hs hp =>
      obtain ⟨rfl, rfl⟩ := eq_of_replaced hr hs hr'
      have some := h hr (.inl hp)
      exact some
    | wake hs hp =>
      obtain ⟨rfl, rfl⟩ := eq_of_replaced hr hs hr'
      have some := h hr (.inr ⟨_, hp⟩)
      exact some
    | take hs hp =>
      cases (getElem?_replace_self hs _).symm.trans hr'
      rcases hp' with hp' | ⟨due, hp'⟩ <;> cases hp.symm.trans hp'
    | giveUp hs | refuse hs | succeedEmpty hs | dismiss hs | succeed hs | degrade hs | fail hs =>
      cases (getElem?_replace_self hs _).symm.trans hr'
      rcases hp' with hp' | ⟨due, hp'⟩ <;> cases hp'
  · obtain ⟨phase, members⟩ := move.stays hr hr'
    exact stay phase members

/-- A run that launches its members has asked nothing. -/
def Unasked (c : Core) : Prop := ∀ {r : Nat} {run : Run}, c.runs[r]? = some run →
  run.phase = .launching → run.evaluations = 0

theorem Unasked.empty : Core.Unasked ⟨#[], #[], #[], #[], #[], #[], []⟩ := fun hr => by simp at hr

theorem Unasked.move (h : c.Unasked) (move : c.Move c') : c'.Unasked := by
  intro r run' hr' hp'
  by_cases hlt : r < c.runs.size
  · obtain ⟨run, hr⟩ := exists_getElem? hlt
    rcases move.run_cases hr hr' with same | move | move
    · rw [same.evaluations]
      exact h hr (same.phase.symm.trans hp')
    · cases move with
      | take hs hp =>
        obtain ⟨rfl, rfl⟩ := eq_of_replaced hr hs hr'
        have none := h hr hp
        exact none
      | giveUp hs | refuse hs | gather hs | succeedEmpty hs | dismiss hs | succeed hs | degrade hs | rest hs
      | wake hs | fail hs =>
        cases (getElem?_replace_self hs _).symm.trans hr'
        cases hp'
    · rw [(move.heard hr hr').2.2]
      exact h hr ((move.stays hr hr').1.symm.trans hp')
  · exact (move.new_run (Nat.le_of_not_lt hlt) hr').2

/-- A question about the members of one run is not about those of another. -/
theorem Sound.about_other (h : c.Sound) (hs : c.runs[s]? = some run) (some : run.members ≠ [])
    (other : r ≠ s) : c.about r run.members = false := by
  unfold about
  rw [Bool.or_eq_false_iff, List.isEmpty_eq_false_iff, List.any_eq_false]
  refine ⟨some, fun m hm => ?_⟩
  rw [h.runOf?_eq hs hm, beq_iff_eq, Option.some.injEq]
  exact fun same => other same.symm

theorem Sound.about_own (h : c.Sound) (hr : c.runs[r]? = some run) : c.about r run.members = true := by
  unfold about
  cases hm : run.members with
  | nil => rfl
  | cons m ms =>
    have own := h.runOf?_eq hr (hm ▸ List.mem_cons_self)
    rw [List.any_cons, own, beq_self_eq_true, Bool.true_or, Bool.or_true]

/-- A run asks its predicate, and what comes of it is announced; other runs do not ask. -/
theorem RunMove.asks (move : c.RunMove s c') (h : c.Sound) (peopled : c.Peopled) (hr : c.runs[r]? = some run)
    (hr' : c'.runs[r]? = some run') {x : Run} {beats : List Beat} {holds : Run → Bool}
    (hs : c.runs[s]? = some x) (hp : x.phase = .asking) (none : beats.filterMap Beat.question? = [])
    (own : ∀ {x' : Run}, c'.runs[s]? = some x' → x.Asks x' (holds x)) :
    c.questions r (.ask x.predicate.id x.members :: beats) = [] ∧ run.Quiet run' ∨
      c.questions r (.ask x.predicate.id x.members :: beats) = [(run.predicate.id, run.members)] ∧
        run.Asks run' (holds run) := by
  rw [questions_cons, questions_nil none, List.append_nil]
  by_cases same : r = s
  · subst same
    cases hr.symm.trans hs
    refine .inr ⟨?_, own hr'⟩
    rw [if_pos (h.about_own hr)]
  · refine .inl ⟨?_, (Run.Same.of_eq (move.run_eq same hr hr')).quiet⟩
    rw [h.about_other hs (peopled hs (.inl hp)) same, if_neg Bool.false_ne_true]

theorem RunMove.quiet (move : c.RunMove s c') (hr : c.runs[r]? = some run) (hr' : c'.runs[r]? = some run')
    (own : r = s → run.Quiet run') : run.Quiet run' := by
  by_cases same : r = s
  · exact own same
  · exact (Run.Same.of_eq (move.run_eq same hr hr')).quiet

/-- **Questions.** As long as a run has not ended nobody asks about any of its members but the run itself,
and only when it is due to ask and its caller has not given up. -/
theorem Deed.asks {t : Setting} {beats : List Beat} (deed : c.Deed t beats c') (h : c.Sound)
    (peopled : c.Peopled) (hr : c.runs[r]? = some run) (hr' : c'.runs[r]? = some run')
    (unfinished : ∀ o, run.phase ≠ .finished o) : c.questions r beats = [] ∧ run.Quiet run' ∨
      c.questions r beats = [(run.predicate.id, run.members)] ∧ run.Asks run' (t.holds run) := by
  have silent (none : beats.filterMap Beat.question? = []) (quiet : run.Quiet run') :
      c.questions r beats = [] ∧ run.Quiet run' ∨
        c.questions r beats = [(run.predicate.id, run.members)] ∧ run.Asks run' (t.holds run) :=
    .inl ⟨questions_nil none, quiet⟩
  cases deed with
  | stay | announce =>
    cases hr.symm.trans hr'
    exact silent rfl (Run.Same.refl run).quiet
  | launch move => exact silent rfl (move.run_same hr hr').quiet
  | launchTells move _ _ _ _ goes =>
    refine silent ?_ (move.run_same hr hr').quiet
    cases goes <;> rfl
  | closing move => exact silent rfl (Run.Same.of_eq (run_eq move.runs_eq hr hr')).quiet
  | closingTells hk hp which left hx goes =>
    have move := tell_closingMove hk hp which left goes
    refine silent ?_ (Run.Same.of_eq (run_eq move.runs_eq hr hr')).quiet
    cases goes <;> rfl
  | stop => exact silent rfl (Run.Same.of_eq (run_eq rfl hr hr')).quiet
  | run move quiet =>
    refine silent rfl (move.quiet hr hr' fun own => ?_)
    subst own
    obtain ⟨count, unfinished'⟩ := quiet run run' hr hr'
    exact ⟨count, fun hp => absurd hp (unfinished' _)⟩
  | succeedEmpty hs hp all fine none deadline =>
    have move := RunMove.succeedEmpty hs hp all fine none deadline
    refine silent (Beat.questions_announce _ _ _) (move.quiet hr hr' fun own => ?_)
    subst own
    obtain ⟨rfl, rfl⟩ := eq_of_replaced hr hs hr'
    exact ⟨rfl, fun _ => .inr ⟨hp, all, fine, none⟩⟩
  | succeed hs hp goes holds =>
    have move := RunMove.succeed hs hp goes
    refine move.asks h peopled hr hr' hs hp (Beat.questions_announce _ _ _) fun hx' => ?_
    cases (getElem?_replace_self hs _).symm.trans hx'
    exact ⟨hp, goes, rfl, fun _ => ⟨_, rfl⟩, fun fails => absurd (holds.symm.trans fails) Bool.noConfusion⟩
  | degrade hs hp goes fails _ _ seen =>
    have move := RunMove.degrade hs hp goes seen
    refine move.asks h peopled hr hr' hs hp (Beat.questions_announce _ _ _) fun hx' => ?_
    cases (getElem?_replace_self hs _).symm.trans hx'
    exact ⟨hp, goes, rfl, fun holds => absurd (fails.symm.trans holds) Bool.noConfusion,
      fun _ => .inr ⟨_, _, rfl⟩⟩
  | rest hs hp goes fails due =>
    have move := RunMove.rest hs hp goes due
    refine move.asks h peopled hr hr' hs hp rfl fun hx' => ?_
    cases (getElem?_replace_self hs _).symm.trans hx'
    exact ⟨hp, goes, rfl, fun holds => absurd (fails.symm.trans holds) Bool.noConfusion,
      fun _ => .inl ⟨_, rfl⟩⟩
  | fail hs hp ho he =>
    subst he
    refine silent (Beat.questions_announce _ _ _) ((RunMove.fail hs hp ho).quiet hr hr' fun own => ?_)
    subst own
    obtain ⟨rfl, rfl⟩ := eq_of_replaced hr hs hr'
    exact ⟨rfl, fun hp' => by cases hp'⟩
  | @reaper _ s move =>
    refine silent rfl ?_
    by_cases own : r = s
    · subst own
      obtain ⟨phase, -⟩ := move.stays hr hr'
      exact ⟨(move.heard hr hr').2.2, fun hp => .inl (phase.symm.trans hp)⟩
    · exact (Run.Same.of_eq (move.run_eq own hr hr')).quiet
  | dissolution move => exact silent rfl (Run.Same.of_eq (run_eq move.runs_eq hr hr')).quiet
  | dissolved => exact silent (Beat.questions_announce _ _ _) (Run.Same.of_eq (run_eq rfl hr hr')).quiet
  | outside move => exact silent rfl (move.run_same hr hr').quiet
  | close => exact silent rfl (Run.Same.of_eq (run_eq rfl hr hr')).quiet
  | begin plan platform channel? id now cancelled =>
    refine silent (Beat.questions_announce _ _ _) ?_
    have move : c.OutsideMove t.closes _ := .begin plan platform channel? id now cancelled
    exact (move.run_same hr hr').quiet
  | @ask a ha some =>
    -- members of an assembly are those of a run that has ended
    cases hr.symm.trans hr'
    obtain ⟨i, hi⟩ := Array.mem_iff_getElem?.mp ha
    obtain ⟨s, x, hs, ended, members⟩ := h.stocked i a hi
    have other : r ≠ s := by
      rintro rfl
      cases hr.symm.trans hs
      exact unfinished _ ended
    refine .inl ⟨?_, (Run.Same.refl run).quiet⟩
    rw [questions_cons, members, h.about_other hs (members ▸ some) other, if_neg Bool.false_ne_true]
    rfl

/-- A run that has ended asks no more. -/
theorem Move.quiet (move : c.Move c') (hr : c.runs[r]? = some run) (hr' : c'.runs[r]? = some run')
    {o : Except AssemblyError Nat} (ended : run.phase = .finished o) : run.Quiet run' := by
  rcases move.run_cases hr hr' with same | move | move
  · exact same.quiet
  · cases move with
    | take hs hp | giveUp hs hp | refuse hs hp | gather hs hp | succeedEmpty hs hp | dismiss hs hp
    | succeed hs hp | degrade hs hp | rest hs hp | wake hs hp | fail hs hp =>
      cases hr.symm.trans hs
      cases ended.symm.trans hp
  · exact ⟨(move.heard hr hr').2.2, fun hp => .inl ((move.stays hr hr').1.symm.trans hp)⟩

end Core

end Muster
