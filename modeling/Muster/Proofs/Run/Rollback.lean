import Muster.Proofs.Member.Reporting
import Muster.Proofs.Run.Asking

/-!
# What becomes of the members of a run that gives up

* `Teardown.closeFailures_ofOutcomes`, `Teardown.observerFailures_ofOutcomes`: a teardown lists the processes
  that could not be stopped, and passes on what observers report.
* `Core.Rolling`: a run that closes its members has called for them in their order.
* **`Core.GivenUp.move`**: the error in which a run ends tells what the calls have ended in that it made.
* `Core.Faithful.own_ending`: its calls end in what there is to tell of the members where nobody else closes them.
* `Core.RolledBack`, **`Core.RolledBack.move`**: the error in which a run ends tells what there is to tell of
  each of its members, in their order.
-/

namespace Muster

/-! ### Teardowns -/

namespace Closing

/-- What a call that closed a member reports, whether or not its process could be stopped. -/
def reportsOf : Except CloseFailure (List ObserverFailure) → List ObserverFailure
  | .ok fs => fs
  | .error f => f.observerFailures

/-- Why the process of a member could not be stopped, as a call that closed the member reports it. -/
def failureOf? : Except CloseFailure (List ObserverFailure) → Option CloseFailure
  | .ok _ => none
  | .error f => some f

end Closing

namespace Member

/-- Why the process of a member could not be stopped, and what its observers reported when it was closed. -/
def closeFailure? (x : Member) : Option CloseFailure :=
  x.process.stopError?.map fun cause => ⟨x.spec.name, cause, x.reports .closing ++ x.reports .closed⟩

theorem reportsOf_ending (x : Member) :
    Closing.reportsOf x.ending = x.reports .closing ++ x.reports .closed := by
  unfold ending
  split <;> rfl

theorem failureOf?_ending (x : Member) : Closing.failureOf? x.ending = x.closeFailure? := by
  unfold ending closeFailure?
  cases x.process.stopError? <;> rfl

end Member

namespace Teardown

theorem observerFailures_addOutcome (t : Teardown) (o : Except CloseFailure (List ObserverFailure)) :
    (t.addOutcome o).observerFailures = t.observerFailures ++ Closing.reportsOf o := by
  cases o <;> rfl

/-- A teardown passes on what calls that closed members report, in their order. -/
theorem observerFailures_ofOutcomes (l : List (Except CloseFailure (List ObserverFailure))) :
    (ofOutcomes l).observerFailures = l.flatMap Closing.reportsOf := by
  have all : ∀ t : Teardown, (l.foldl addOutcome t).observerFailures =
      t.observerFailures ++ l.flatMap Closing.reportsOf := by
    induction l with
    | nil => exact fun t => (List.append_nil _).symm
    | cons o l ih =>
      intro t
      rw [List.foldl_cons, ih, observerFailures_addOutcome, List.flatMap_cons, List.append_assoc]
  exact all {}

theorem closeFailures_addOutcome (t : Teardown) (o : Except CloseFailure (List ObserverFailure)) :
    (t.addOutcome o).closeFailures = t.closeFailures ++ (Closing.failureOf? o).toList := by
  cases o with
  | ok fs => exact (List.append_nil _).symm
  | error f => rfl

/-- A teardown lists the processes that could not be stopped in the order of the calls. -/
theorem closeFailures_ofOutcomes (l : List (Except CloseFailure (List ObserverFailure))) :
    (ofOutcomes l).closeFailures = l.filterMap Closing.failureOf? := by
  have all : ∀ t : Teardown, (l.foldl addOutcome t).closeFailures =
      t.closeFailures ++ l.filterMap Closing.failureOf? := by
    induction l with
    | nil => exact fun t => (List.append_nil _).symm
    | cons o l ih =>
      intro t
      rw [List.foldl_cons, ih, closeFailures_addOutcome, List.append_assoc]
      cases h : Closing.failureOf? o with
      | none => rw [List.filterMap_cons_none h]; rfl
      | some f => rw [List.filterMap_cons_some h]; rfl
  exact all {}

end Teardown

/-- The error in which a run has ended. -/
def Run.failure? (run : Run) : Option AssemblyError :=
  match run.phase with
  | .finished (.error e) => some e
  | _ => none

theorem Run.failure?_eq_some {run : Run} {e : AssemblyError} :
    run.failure? = some e ↔ run.phase = .finished (.error e) := by
  unfold failure?
  split <;> simp_all

/-- The calls that a run makes between two times, when it gives up. -/
def Run.rolls (run run' : Run) : List Nat :=
  match run.phase, run'.phase with
  | .rollingBack .., _ => []
  | _, .rollingBack _ places => places
  | _, _ => []

theorem World.rollback?_errorOf (run : Run) (t : Teardown) (cause : Run.Cause) :
    (errorOf run t cause).rollback? = some t := by
  cases cause <;> rfl

namespace Members

/-- What the observers of the member at a place report on an occasion, in their order. -/
def reports (ms : Array Member) (occasion : Occasion) (m : Nat) : List ObserverFailure :=
  (ms[m]?.map (·.reports occasion)).getD []

/-- What the observers of the member at a place report when it is closed. -/
def parting (ms : Array Member) (m : Nat) : List ObserverFailure :=
  reports ms .closing m ++ reports ms .closed m

/-- Why the process of the member at a place could not be stopped. -/
def closeFailure? (ms : Array Member) (m : Nat) : Option CloseFailure := ms[m]?.bind (·.closeFailure?)

/-- Closing the member at a place ends in an outcome. -/
def EndsIn (ms : Array Member) (m : Nat) (o : Except CloseFailure (List ObserverFailure)) : Prop :=
  ∃ x, ms[m]? = some x ∧ o = x.ending

theorem reports_of_getElem? {ms : Array Member} {m : Nat} {x : Member} (hx : ms[m]? = some x)
    (occasion : Occasion) : reports ms occasion m = x.reports occasion := by
  unfold reports
  rw [hx, Option.map_some, Option.getD_some]

variable {ms : Array Member} {places : List Nat} {outcomes : List (Except CloseFailure (List ObserverFailure))}

/-- What there is to tell of members is what their observers report when they are closed, -/
theorem flatMap_reportsOf (ended : List.Forall₂ (EndsIn ms) places outcomes) :
    outcomes.flatMap Closing.reportsOf = places.flatMap (parting ms) := by
  induction ended with
  | nil => rfl
  | cons first _ ih =>
    obtain ⟨x, hx, rfl⟩ := first
    rw [List.flatMap_cons, List.flatMap_cons, ih, x.reportsOf_ending, parting, reports_of_getElem? hx,
      reports_of_getElem? hx]

/-- and why their processes could not be stopped. -/
theorem filterMap_failureOf? (ended : List.Forall₂ (EndsIn ms) places outcomes) :
    outcomes.filterMap Closing.failureOf? = places.filterMap (closeFailure? ms) := by
  induction ended with
  | nil => rfl
  | @cons m _ _ _ first _ ih =>
    obtain ⟨x, hx, rfl⟩ := first
    have same : closeFailure? ms m = Closing.failureOf? x.ending := by
      rw [x.failureOf?_ending, closeFailure?, hx, Option.bind_some]
    rw [List.filterMap_cons, List.filterMap_cons, ih, same]

end Members

/-- The member that the call at a place closes. -/
def Closings.member? (ks : Array Closing) (j : Nat) : Option Nat := ks[j]?.map (·.member)

namespace Core

variable {c c' : Core} {r : Nat} {run run' : Run} {log : List Errand}

/-! ### Calls in the order of the members -/

/-- A call that closes a member has ended in an outcome. -/
def Returns (ks : Array Closing) (j : Nat) (o : Except CloseFailure (List ObserverFailure)) : Prop :=
  ∃ k, ks[j]? = some k ∧ k.phase = .finished o

theorem Returns.kept {j : Nat} {o : Except CloseFailure (List ObserverFailure)}
    (h : Returns c.closings j o) (keeps : c.Keeps c') : Returns c'.closings j o := by
  obtain ⟨k, hk, ended⟩ := h
  obtain ⟨k', hk', kept⟩ := keeps.closings hk
  exact ⟨k', hk', kept.finished ended⟩

/-- Calls have outcomes only when each of them has ended, and then in their order. -/
theorem outcomes?_forall₂ {places : List Nat} {outcomes : List (Except CloseFailure (List ObserverFailure))}
    (h : c.outcomes? places = some outcomes) : List.Forall₂ (Returns c.closings) places outcomes := by
  induction places generalizing outcomes with
  | nil =>
    cases h
    exact .nil
  | cons j places ih =>
    simp only [outcomes?, List.mapM_cons, bind, pure, Option.bind_eq_some_iff, Option.some.injEq] at h
    obtain ⟨o, ⟨k, hk, hko⟩, rest, hrest, rfl⟩ := h
    exact .cons ⟨k, hk, Closing.outcome?_eq_some.mp hko⟩ (ih hrest)

theorem Closes.member? {ks : Array Closing} {j m : Nat} : Closings.member? ks j = some m ↔ Closes ks j m :=
  Option.map_eq_some_iff

/-- Calls for members in order are for these members. -/
theorem filterMap_of_closes {ks : Array Closing} {places ms : List Nat}
    (calls : List.Forall₂ (Closes ks) places ms) :
    places.filterMap (Closings.member? ks) = ms := by
  induction calls with
  | nil => rfl
  | cons closes _ ih => rw [List.filterMap_cons_some (Closes.member?.mpr closes), ih]

/-- What calls have ended in of which only those of the log have anything to tell. -/
theorem flatMap_of_returns {β : Type} {ks : Array Closing} {places ms : List Nat}
    {os : List (Except CloseFailure (List ObserverFailure))}
    {f : Except CloseFailure (List ObserverFailure) → List β} {g : Nat → List β}
    (calls : List.Forall₂ (Closes ks) places ms) (ended : List.Forall₂ (Returns ks) places os)
    (told : ∀ j m o, .member j ∈ log → Closes ks j m → Returns ks j o → f o = g m)
    (idle : ∀ j o, .member j ∉ log → Returns ks j o → f o = []) :
    os.flatMap f = ((places.filter (.member · ∈ log)).filterMap (Closings.member? ks)).flatMap g := by
  induction calls generalizing os with
  | nil =>
    cases ended
    rfl
  | @cons j m places ms closes _ ih =>
    cases ended with
    | cons returns rest =>
      rw [List.flatMap_cons, ih rest]
      by_cases hj : .member j ∈ log
      · rw [List.filter_cons_of_pos (p := fun j => decide (.member j ∈ log)) (decide_eq_true hj),
          List.filterMap_cons_some (Closes.member?.mpr closes), List.flatMap_cons,
          told j m _ hj closes returns]
      · rw [List.filter_cons_of_neg (p := fun j => decide (.member j ∈ log)) (by simpa using hj),
          idle j _ hj returns, List.nil_append]

/-- Different ones of a list are related to different ones of another that has each only once. -/
theorem forall₂_inj {R : Nat → Nat → Prop} (one : ∀ j m m', R j m → R j m' → m = m')
    {places ms : List Nat} (h : List.Forall₂ R places ms) (once : ms.Nodup) {i j m : Nat} (hi : i ∈ places)
    (hj : j ∈ places) (him : R i m) (hjm : R j m) : i = j := by
  induction h with
  | nil => exact absurd hi List.not_mem_nil
  | @cons p n places ms hR rest ih =>
    obtain ⟨first, once⟩ := List.nodup_cons.mp once
    -- what is related to the first one is related to none of the others
    have away {q : Nat} (hq : q ∈ places) (hqm : R q m) (hpm : R p m) : False := by
      obtain ⟨m', hm', hqm'⟩ := forall₂_right rest.flip hq
      rw [one _ _ _ hR hpm] at first
      exact first (one _ _ _ hqm' hqm ▸ hm')
    rcases List.mem_cons.mp hi with first | hi' <;> rcases List.mem_cons.mp hj with other | hj'
    · exact first.trans other.symm
    · exact (away hj' hjm (first ▸ him)).elim
    · exact (away hi' him (other ▸ hjm)).elim
    · exact ih once hi' hj'

/-- What is related to the entries of one list is related as they are. -/
theorem forall₂_of_common {α : Type} {R : Nat → Nat → Prop} {S : Nat → α → Prop} {T : Nat → α → Prop}
    {places ms : List Nat} {os : List α} (h : List.Forall₂ R places ms) (h' : List.Forall₂ S places os)
    (each : ∀ j ∈ places, ∀ (m : Nat) (o : α), R j m → S j o → T m o) : List.Forall₂ T ms os := by
  induction h generalizing os with
  | nil =>
    cases h'
    exact .nil
  | cons hR _ ih =>
    cases h' with
    | cons hS rest =>
      exact .cons (each _ List.mem_cons_self _ _ hR hS) (ih rest fun j hj => each j (List.mem_cons_of_mem _ hj))

/-- A run that closes its members has called for them in their order. -/
def Rolling (c : Core) : Prop :=
  ∀ {r : Nat} {run : Run} {cause : Run.Cause} {places : List Nat}, c.runs[r]? = some run →
    run.phase = .rollingBack cause places → List.Forall₂ (Closes c.closings) places run.members

theorem Rolling.empty : Core.Rolling ⟨#[], #[], #[], #[], #[], #[], []⟩ := fun hr => by simp at hr

theorem Rolling.move (h : c.Rolling) (move : c.Move c') : c'.Rolling := by
  intro r run' cause places hr' hp'
  have keeps := move.keeps
  obtain ⟨run, hr⟩ := move.old_run hr' (by simp [hp'])
  have stay (phase : run'.phase = run.phase) (members : run'.members = run.members) :
      List.Forall₂ (Closes c'.closings) places run'.members := by
    rw [members]
    exact (h hr (phase.symm.trans hp')).imp fun j m closes => closes.kept keeps
  rcases move.run_cases hr hr' with same | move | move
  · exact stay same.phase same.members
  · cases move with
    | giveUp hs | refuse hs | dismiss hs | degrade hs =>
      cases (getElem?_replace_self hs _).symm.trans hr'
      cases hp'
      exact call_closes c _
    | take hs hp =>
      cases (getElem?_replace_self hs _).symm.trans hr'
      cases hp.symm.trans hp'
    | gather hs | succeedEmpty hs | succeed hs | rest hs | wake hs | fail hs =>
      cases (getElem?_replace_self hs _).symm.trans hr'
      cases hp'
  · obtain ⟨phase, members⟩ := move.stays hr hr'
    exact stay phase members

theorem Sound.nodup_members (h : c.Sound) (hr : c.runs[r]? = some run) : run.members.Nodup := by
  obtain ⟨taken, left, ledger⟩ := h.booked r run hr
  refine ledger.members.nodup_iff.mpr (List.Nodup.filterMap ?_ (List.nodup_append.mp ledger.nodup).1)
  intro i j m hi hj
  obtain ⟨_, x, _, -, -, hx, rfl, -⟩ := h.born.of_memberOf? hi
  obtain ⟨_, y, _, -, -, hy, rfl, -⟩ := h.born.of_memberOf? hj
  cases hx.symm.trans hy
  rfl

/-! ### What a run has called for -/

/-- The calls that the run at a place makes in a move, when it gives up. -/
def rolls (c : Core) (r : Nat) (c' : Core) : List Nat :=
  ((c.runs[r]?.bind fun run => c'.runs[r]?.map run.rolls)).getD []

theorem rolls_of_runs (hr : c.runs[r]? = some run) (hr' : c'.runs[r]? = some run') :
    c.rolls r c' = run.rolls run' := by
  unfold rolls
  rw [hr, hr']
  rfl

theorem rolls_eq_nil (hr : c.runs[r]? = some run) (hr' : c'.runs[r]? = some run')
    (other : ∀ cause places, run'.phase = .rollingBack cause places → run.phase = run'.phase) :
    c.rolls r c' = [] := by
  rw [rolls_of_runs hr hr']
  unfold Run.rolls
  split
  · rfl
  · rename_i now before
    exact absurd ((other _ _ now).trans now) (before _ _)
  · rfl

theorem rolls_eq (hr : c.runs[r]? = some run) (hr' : c'.runs[r]? = some run') {cause : Run.Cause}
    {places : List Nat} (before : ∀ cause places, run.phase ≠ .rollingBack cause places)
    (now : run'.phase = .rollingBack cause places) : c.rolls r c' = places := by
  rw [rolls_of_runs hr hr']
  unfold Run.rolls
  split
  · rename_i was
    exact absurd was (before _ _)
  · rename_i same _
    cases now.symm.trans same
    rfl
  · rename_i none
    exact absurd now (none _ _)

/-- The calls that a run has made when it gave up are those for its members, in order, and the error in which it
ends tells what they have ended in. -/
structure GivenUp (c : Core) (run : Run) (places : List Nat) : Prop where
  early : (∀ cause ps, run.phase ≠ .rollingBack cause ps) → (∀ e, run.phase ≠ .finished (.error e)) → places = []
  rolling : ∀ {cause : Run.Cause} {ps : List Nat}, run.phase = .rollingBack cause ps → places = ps
  failed : ∀ {e : AssemblyError}, run.phase = .finished (.error e) →
    List.Forall₂ (Closes c.closings) places run.members ∧ ∃ outcomes,
      List.Forall₂ (Returns c.closings) places outcomes ∧
        e.rollback? = some ((Teardown.ofOutcomes outcomes).after run.observerFailures)

/-- **Giving up.** Every move keeps to the calls that a run has made when it gave up. -/
theorem GivenUp.move {places : List Nat} (h : c.GivenUp run places) (rolling : c.Rolling) (move : c.Move c')
    (hr : c.runs[r]? = some run) (hr' : c'.runs[r]? = some run') : c'.GivenUp run' (places ++ c.rolls r c') := by
  have keeps := move.keeps
  have stay (phase : run'.phase = run.phase) (members : run'.members = run.members)
      (reports : run'.observerFailures = run.observerFailures) : c'.GivenUp run' (places ++ c.rolls r c') := by
    rw [rolls_eq_nil hr hr' fun _ _ _ => phase.symm, List.append_nil]
    refine ⟨fun rolls fails => h.early (phase ▸ rolls) (phase ▸ fails), fun hp => h.rolling (phase.symm.trans hp),
      fun hp => ?_⟩
    obtain ⟨calls, outcomes, ended, told⟩ := h.failed (phase.symm.trans hp)
    rw [members, reports]
    exact ⟨calls.imp fun j m closes => closes.kept keeps, outcomes,
      ended.imp fun j o returns => returns.kept keeps, told⟩
  -- a run that goes on without giving up has made no calls
  have goes (was : run.phase = .launching ∨ run.phase = .asking ∨ ∃ due, run.phase = .resting due)
      (rolls : ∀ cause ps, run'.phase ≠ .rollingBack cause ps) (fails : ∀ e, run'.phase ≠ .finished (.error e)) :
      c'.GivenUp run' (places ++ c.rolls r c') := by
    have none := h.early (by rcases was with was | was | ⟨due, was⟩ <;> simp [was])
      (by rcases was with was | was | ⟨due, was⟩ <;> simp [was])
    rw [rolls_eq_nil hr hr' fun cause ps hp => absurd hp (rolls cause ps), none]
    exact ⟨fun _ _ => rfl, fun hp => absurd hp (rolls _ _), fun hp => absurd hp (fails _)⟩
  have gives {cause : Run.Cause} {ps : List Nat} (was : run.phase = .launching ∨ run.phase = .asking)
      (now : run'.phase = .rollingBack cause ps) : c'.GivenUp run' (places ++ c.rolls r c') := by
    have before : ∀ cause ps, run.phase ≠ .rollingBack cause ps := by rcases was with was | was <;> simp [was]
    rw [h.early before (by rcases was with was | was <;> simp [was]), rolls_eq hr hr' before now, List.nil_append]
    refine ⟨fun rolls => absurd now (rolls _ _), fun hp => ?_, fun hp => ?_⟩
    · cases now.symm.trans hp
      rfl
    · cases now.symm.trans hp
  rcases move.run_cases hr hr' with same | move | move
  · exact stay same.phase same.members same.reports
  · cases move with
    | fail hs hp ho =>
      obtain ⟨rfl, rfl⟩ := eq_of_replaced hr hs hr'
      obtain rfl := h.rolling hp
      have calls := rolling hr hp
      rw [rolls_eq_nil hr hr' (by simp), List.append_nil]
      refine ⟨fun _ fails => absurd rfl (fails _), fun hp' => by simp at hp', fun hp' => ?_⟩
      cases hp'
      exact ⟨calls, _, outcomes?_forall₂ ho, World.rollback?_errorOf _ _ _⟩
    | giveUp hs hp | refuse hs hp =>
      obtain ⟨rfl, rfl⟩ := eq_of_replaced hr hs hr'
      exact gives (.inl hp) rfl
    | dismiss hs hp | degrade hs hp =>
      obtain ⟨rfl, rfl⟩ := eq_of_replaced hr hs hr'
      exact gives (.inr hp) rfl
    | take hs hp =>
      obtain ⟨rfl, rfl⟩ := eq_of_replaced hr hs hr'
      exact goes (.inl hp) (by simp [Run.take, hp]) (by simp [Run.take, hp])
    | gather hs hp | succeedEmpty hs hp =>
      obtain ⟨rfl, rfl⟩ := eq_of_replaced hr hs hr'
      exact goes (.inl hp) (by simp) (by simp)
    | succeed hs hp | rest hs hp =>
      obtain ⟨rfl, rfl⟩ := eq_of_replaced hr hs hr'
      exact goes (.inr (.inl hp)) (by simp) (by simp)
    | wake hs hp =>
      obtain ⟨rfl, rfl⟩ := eq_of_replaced hr hs hr'
      exact goes (.inr (.inr ⟨_, hp⟩)) (by simp) (by simp)
  · obtain ⟨phase, members⟩ := move.stays hr hr'
    exact stay phase members (move.heard hr hr').2.1

/-! ### What calls tell -/

/-- Somebody has begun to close a member for which a call has ended. -/
theorem Doers.begun_of_returns (h : c.Doers log) (sound : c.Sound) {j m : Nat}
    {o : Except CloseFailure (List ObserverFailure)} (closes : Closes c.closings j m)
    (returns : Returns c.closings j o) : ∃ i, .member i ∈ log ∧ Closes c.closings i m := by
  obtain ⟨k, hk, rfl⟩ := closes
  obtain ⟨k', hk', ended⟩ := returns
  cases hk.symm.trans hk'
  obtain ⟨x, hx⟩ := exists_getElem? (sound.lives.calls hk)
  rcases sound.lives.life hx with fresh | ⟨i, way⟩
  · cases ended.symm.trans (fresh.calls hk rfl)
  · exact h.begun hx way.begun

/-- A call that closes its member itself ends in what there is to tell of the member. -/
theorem Faithful.endsIn (h : c.Faithful log) (sound : c.Sound) {j m : Nat}
    {o : Except CloseFailure (List ObserverFailure)} (hj : .member j ∈ log) (closes : Closes c.closings j m)
    (returns : Returns c.closings j o) : Members.EndsIn c.members m o := by
  obtain ⟨k, hk, rfl⟩ := closes
  obtain ⟨k', hk', ended⟩ := returns
  cases hk.symm.trans hk'
  obtain ⟨x, hx⟩ := exists_getElem? (sound.lives.calls hk)
  exact ⟨x, hx, h.ending hj hk ended hx⟩

/-- All other calls have nothing to tell. -/
theorem Doers.returns (h : c.Doers log) {j : Nat} {o : Except CloseFailure (List ObserverFailure)}
    (hj : .member j ∉ log) (returns : Returns c.closings j o) : o = .ok [] := by
  obtain ⟨k, hk, ended⟩ := returns
  rcases h.idle hk hj with called | nothing
  · cases ended.symm.trans called
  · cases ended.symm.trans nothing
    rfl

/-- **What calls tell.** Calls for members tell what there is to tell of those that they close themselves, in their
order, and nothing of the others. -/
theorem Faithful.tells (h : c.Faithful log) (doers : c.Doers log) (sound : c.Sound) {places ms closed : List Nat}
    {os : List (Except CloseFailure (List ObserverFailure))} (calls : List.Forall₂ (Closes c.closings) places ms)
    (returns : List.Forall₂ (Returns c.closings) places os)
    (own : closed = (places.filter (.member · ∈ log)).filterMap (Closings.member? c.closings)) :
    closed.Sublist ms ∧ os.filterMap Closing.failureOf? = closed.filterMap (Members.closeFailure? c.members) ∧
      os.flatMap Closing.reportsOf = closed.flatMap (Members.parting c.members) := by
  subst own
  refine ⟨?_, ?_, ?_⟩
  · exact filterMap_of_closes calls ▸ List.filter_sublist.filterMap _
  · rw [List.filterMap_eq_flatMap_toList, List.filterMap_eq_flatMap_toList]
    refine flatMap_of_returns calls returns (fun j m o hj closes returns => ?_) fun j o hj returns => ?_
    · obtain ⟨x, hx, rfl⟩ := h.endsIn sound hj closes returns
      rw [x.failureOf?_ending, Members.closeFailure?, hx, Option.bind_some]
    · rw [doers.returns hj returns]
      rfl
  · refine flatMap_of_returns calls returns (fun j m o hj closes returns => ?_) fun j o hj returns => ?_
    · obtain ⟨x, hx, rfl⟩ := h.endsIn sound hj closes returns
      unfold Members.parting
      rw [x.reportsOf_ending, Members.reports_of_getElem? hx, Members.reports_of_getElem? hx]
    · rw [doers.returns hj returns]
      rfl

/-! ### Runs of whose members nobody else closes any -/

/-- While a run closes its members, all calls for them are its own. -/
theorem Warranted.own_call (warranted : c.Warranted) (h : c.Sound) (hr : c.runs[r]? = some run) {cause : Run.Cause}
    {places : List Nat} (hp : run.phase = .rollingBack cause places) {j : Nat} {k : Closing}
    (hk : c.closings[j]? = some k) (hm : k.member ∈ run.members) : j ∈ places := by
  obtain ⟨_, l, x, _, hl, hlr, -, hx, rfl, -⟩ := h.launch_of_member hr hm
  cases warranted.allows hk hx hl hlr hr with
  | rolling hp' _ hj =>
    cases hp.symm.trans hp'
    exact hj
  | handed hp' | rolled hp' => cases hp.symm.trans hp'
  | reaping _ away | reaped _ away => exact absurd hm away

/-- While a run closes its members, calls for them that have ended did so in what the observers of the member
report. -/
theorem Faithful.own_ending (h : c.Faithful log) (doers : c.Doers log) (sound : c.Sound) (warranted : c.Warranted)
    (rolling : c.Rolling) {cause : Run.Cause} {places : List Nat} (hr : c.runs[r]? = some run)
    (hp : run.phase = .rollingBack cause places) {j : Nat} (hj : j ∈ places) {k : Closing} {x : Member}
    {o : Except CloseFailure (List ObserverFailure)} (hk : c.closings[j]? = some k)
    (ended : k.phase = .finished o) (hx : c.members[k.member]? = some x) : o = x.ending := by
  have calls := rolling hr hp
  obtain ⟨m, hm, k₁, hk₁, rfl⟩ := forall₂_right calls.flip hj
  cases hk.symm.trans hk₁
  -- the call that closes the member is one of the run, and there is only one of these
  obtain ⟨i, hi, k', hk', own⟩ := doers.begun_of_returns sound ⟨k, hk, rfl⟩ ⟨k, hk, ended⟩
  obtain rfl : j = i := forall₂_inj (R := Closes c.closings) (fun _ _ _ => Closes.eq) calls
    (sound.nodup_members hr) hj (warranted.own_call sound hr hp hk' (own ▸ hm)) ⟨k, hk, rfl⟩ ⟨k', hk', own⟩
  exact h.ending hi hk ended hx

/-- The calls of a run that closes its members end in what there is to tell of each of them. -/
theorem Faithful.own_endings (h : c.Faithful log) (doers : c.Doers log) (sound : c.Sound) (warranted : c.Warranted)
    (rolling : c.Rolling) {cause : Run.Cause} {places : List Nat} (hr : c.runs[r]? = some run)
    (hp : run.phase = .rollingBack cause places) {outcomes : List (Except CloseFailure (List ObserverFailure))}
    (ho : c.outcomes? places = some outcomes) :
    List.Forall₂ (Members.EndsIn c.members) run.members outcomes := by
  have each {j m : Nat} {o : Except CloseFailure (List ObserverFailure)} (hj : j ∈ places)
      (closes : Closes c.closings j m) (ended : Returns c.closings j o) : Members.EndsIn c.members m o := by
    obtain ⟨k, hk, rfl⟩ := closes
    obtain ⟨k', hk', ended⟩ := ended
    cases hk.symm.trans hk'
    obtain ⟨x, hx⟩ := exists_getElem? (sound.lives.calls hk)
    exact ⟨x, hx, h.own_ending doers sound warranted rolling hr hp hj hk ended hx⟩
  exact forall₂_of_common (rolling hr hp) (outcomes?_forall₂ ho) fun j hj m o => each hj

/-! ### Errors -/

/-- What closing a member ends in stays the same. -/
theorem Move.ending_eq (move : c.Move c') {m : Nat} {x x' : Member} (hx : c.members[m]? = some x)
    (hx' : c'.members[m]? = some x') : x'.ending = x.ending := by
  rcases move.member_cases hx hx' with rfl | ⟨-, rfl⟩ | rfl
  · rfl
  · rfl
  · rfl

/-- The error in which a run has ended tells what observers reported while its members were launched, and what
there was to tell of each of them when it was closed. -/
def RolledBack (c : Core) : Prop :=
  ∀ {r : Nat} {run : Run} {e : AssemblyError}, c.runs[r]? = some run → run.phase = .finished (.error e) →
    ∃ outcomes, List.Forall₂ (Members.EndsIn c.members) run.members outcomes ∧
      e.rollback? = some ((Teardown.ofOutcomes outcomes).after run.observerFailures)

theorem RolledBack.empty : Core.RolledBack ⟨#[], #[], #[], #[], #[], #[], []⟩ := fun hr => by simp at hr

/-- **Errors.** Every move keeps errors to what there was to tell. -/
theorem RolledBack.move (h : c.RolledBack) (faithful : c.Faithful log) (doers : c.Doers log) (sound : c.Sound)
    (warranted : c.Warranted) (rolling : c.Rolling) (move : c.Move c') : c'.RolledBack := by
  intro r run' e hr' hp'
  have keeps := move.keeps
  obtain ⟨run, hr⟩ := move.old_run hr' (by simp [hp'])
  have kept {ms : List Nat} {outcomes : List (Except CloseFailure (List ObserverFailure))}
      (ended : List.Forall₂ (Members.EndsIn c.members) ms outcomes) :
      List.Forall₂ (Members.EndsIn c'.members) ms outcomes := by
    refine ended.imp fun m o ⟨x, hx, ho⟩ => ?_
    obtain ⟨x', hx', -⟩ := keeps.members hx
    exact ⟨x', hx', ho.trans (move.ending_eq hx hx').symm⟩
  have stay (phase : run'.phase = run.phase) (members : run'.members = run.members)
      (reports : run'.observerFailures = run.observerFailures) :
      ∃ outcomes, List.Forall₂ (Members.EndsIn c'.members) run'.members outcomes ∧
        e.rollback? = some ((Teardown.ofOutcomes outcomes).after run'.observerFailures) := by
    obtain ⟨outcomes, ended, told⟩ := h hr (phase.symm.trans hp')
    rw [members, reports]
    exact ⟨outcomes, kept ended, told⟩
  rcases move.run_cases hr hr' with same | move | move
  · exact stay same.phase same.members same.reports
  · cases move with
    | fail hs hp ho =>
      obtain ⟨rfl, rfl⟩ := eq_of_replaced hr hs hr'
      cases hp'
      exact ⟨_, faithful.own_endings doers sound warranted rolling hr hp ho, World.rollback?_errorOf _ _ _⟩
    | take hs hp =>
      cases (getElem?_replace_self hs _).symm.trans hr'
      cases hp.symm.trans hp'
    | giveUp hs | refuse hs | dismiss hs | degrade hs | gather hs | succeedEmpty hs | succeed hs | rest hs
    | wake hs =>
      cases (getElem?_replace_self hs _).symm.trans hr'
      cases hp'
  · obtain ⟨phase, members⟩ := move.stays hr hr'
    exact stay phase members (move.heard hr hr').2.1

end Core

namespace World

variable {w : World}

theorem OpenReachable.rolling (h : OpenReachable w) : w.core.Rolling := by
  refine (OpenSteps.invariant (P := Core.Rolling) h .empty Core.Rolling.empty ?_).2
  exact fun _ move rolling => rolling.move move

theorem Reachable.rolling (h : Reachable w) : w.core.Rolling := h.opened.rolling

theorem Reachable.rolledBack (h : Reachable w) : w.core.RolledBack := by
  induction h with
  | refl => exact Core.RolledBack.empty
  | @tail w w' steps step ih =>
    have before : Reachable w := steps
    obtain ⟨log, doers, faithful⟩ := before.opened.faithful
    have move := step.move before.sound
    intro r run e hr hp
    exact ih.move faithful doers before.sound before.warranted before.rolling move hr hp

/-- **Rollbacks.** The error in which a run ends counts its members, tells which of their processes could not be
stopped, and what observers reported while they were launched and when they were closed. -/
theorem Reachable.rollback (h : Reachable w) {r : Nat} {run : Run} {e : AssemblyError}
    (hr : w.runs[r]? = some run) (hp : run.phase = .finished (.error e)) : e.rollback? = some {
      closed := run.members.length
      closeFailures := run.members.filterMap (Members.closeFailure? w.members)
      observerFailures := run.observerFailures ++ run.members.flatMap (Members.parting w.members) } := by
  obtain ⟨outcomes, ended, told⟩ := h.rolledBack hr hp
  have ended : List.Forall₂ (Members.EndsIn w.members) run.members outcomes := ended
  rw [told, ended.length_eq, ← Members.filterMap_failureOf? ended, ← Members.flatMap_reportsOf ended,
    ← Teardown.closed_ofOutcomes, ← Teardown.closeFailures_ofOutcomes, ← Teardown.observerFailures_ofOutcomes]
  rfl

end World

end Muster
