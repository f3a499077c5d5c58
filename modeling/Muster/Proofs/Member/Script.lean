import Muster.Proofs.Chronicle.Deed

/-!
# What is said of a member

* `Note`: what the record says of one member; `Beat.note?` finds it in a beat.
* `Note.script`: everything that is ever said of a member with given observers, in order.
* `Round.Stands`: how far a round has come; `Round.Stands.answer` and `Round.Stands.linger`: how it goes on.
* `Closing.Phase.Says`: what was said of a member by the call that closes it, told from its phase.
* **`Closing.Phase.Says.isPrefix`**: whatever that call has said is a beginning of what it says in the end.
-/

namespace Muster

/-! ### Notes -/

/-- The state of a member on an occasion in its life. -/
def Occasion.state : Occasion → MemberState
  | realized => .realized
  | closing => .closing
  | closed => .closed

/-- What the record says of one member. -/
inductive Note where
  /-- An observer was told of an occasion; the member was in the given state. -/
  | told (o : Observer) (occasion : Occasion) (state : MemberState)
  /-- A platform was asked to stop the process. -/
  | stopped

namespace Note

/-- How a note on a member stands in the record. -/
def entry (m : Nat) : Note → Occurrence
  | told o occasion state => .told o.id occasion m state
  | stopped => .stopped m

/-- Observers were told of an occasion, one after another. -/
def tells (occasion : Occasion) (os : List Observer) : List Note :=
  os.map fun o => .told o occasion occasion.state

/-- What the call says that closes a member. -/
def parting (os : List Observer) : List Note := tells .closing os ++ stopped :: tells .closed os

/-- What is said of a member in the end: each observer was told that there is a process, then that it will
be stopped; it was stopped; and each observer was told so. -/
def script (os : List Observer) : List Note := tells .realized os ++ parting os

theorem tells_isPrefix {os os' : List Observer} (h : os <+: os') (occasion : Occasion) :
    tells occasion os <+: tells occasion os' := h.map _

theorem getLast?_tells (before : List Note) (occasion : Occasion) (answered : List Observer) (o : Observer)
    (m : Nat) : ((before ++ tells occasion (answered ++ [o])).map (entry m)).getLast? =
      some (.told o.id occasion m occasion.state) := by
  simp [tells, entry]

end Note

/-- What a beat says of a member. -/
def Beat.note? (m : Nat) : Beat → Option Note
  | tell m' o occasion state _ => if m' = m then some (.told o occasion state) else none
  | stop m' => if m' = m then some .stopped else none
  | ask .. | announce .. => none

theorem Beat.note?_tell (m : Nat) (o : Observer) (occasion : Occasion) (state : MemberState)
    (events : List (Nat × Event)) : note? m (tell m o occasion state events) =
      some (.told o occasion state) := if_pos rfl

theorem Beat.note?_stop (m : Nat) : note? m (stop m) = some .stopped := if_pos rfl

theorem Beat.notes_announce {α : Type} (l : List α) (channel : α → Nat) (e : α → Event) (m : Nat) :
    (l.map fun a => Beat.announce (channel a) (e a)).filterMap (note? m) = [] := by
  rw [List.filterMap_eq_nil_iff]
  intro b hb
  obtain ⟨a, -, rfl⟩ := List.mem_map.mp hb
  rfl

/-! ### Rounds -/

namespace Observer

@[simp] theorem reports_append (os os' : List Observer) (occasion : Occasion) (seat : Seat) :
    reports (os ++ os') occasion seat = reports os occasion seat ++ reports os' occasion seat :=
  List.filterMap_append

theorem reports_singleton (o : Observer) (occasion : Occasion) (seat : Seat) :
    reports [o] occasion seat = (o.report? occasion seat).toList := by
  unfold reports
  cases h : o.report? occasion seat <;> simp [h]

end Observer

namespace Round

/-- The observer that was told and has not responded. -/
def hearing (round : Round) : List Observer := if round.due?.isSome then round.left.take 1 else []

/-- How far a round about a member has come, in which some observers have responded. -/
structure Stands (round : Round) (m : Nat) (x : Member) (occasion : Occasion)
    (earlier : List ObserverFailure) (answered : List Observer) : Prop where
  what : round.occasion = occasion
  whose : round.member = m
  all : answered ++ round.left = x.observers
  failures : round.failures = earlier ++ Observer.reports answered occasion x.spec.seat

variable {round : Round} {m : Nat} {x : Member} {occasion : Occasion} {earlier : List ObserverFailure}
  {answered : List Observer}

theorem Stands.start (m : Nat) (x : Member) (occasion : Occasion) (earlier : List ObserverFailure) :
    (Round.start occasion m x.observers earlier).Stands m x occasion earlier [] :=
  ⟨rfl, rfl, rfl, (List.append_nil _).symm⟩

namespace Stands

theorem told_isPrefix (h : round.Stands m x occasion earlier answered) :
    answered ++ round.hearing <+: x.observers := by
  rw [← h.all]
  refine (List.prefix_append_right_inj answered).mpr ?_
  unfold hearing
  split
  · exact List.take_prefix 1 round.left
  · exact List.nil_prefix

theorem done (h : round.Stands m x occasion earlier answered) (left : round.left = []) :
    answered = x.observers ∧ round.hearing = [] ∧
      round.failures = earlier ++ Observer.reports x.observers occasion x.spec.seat := by
  have all : answered = x.observers := by
    rw [← h.all, left, List.append_nil]
  refine ⟨all, ?_, all ▸ h.failures⟩
  unfold hearing
  rw [left]
  exact ite_self []

variable {o : Observer} {rest : List Observer}

theorem linger (h : round.Stands m x occasion earlier answered) (due : Nat) :
    Stands { round with due? := some due } m x occasion earlier answered :=
  ⟨h.what, h.whose, h.all, h.failures⟩

theorem respond (h : round.Stands m x occasion earlier answered) (left : round.left = o :: rest) :
    Stands { round with
      left := rest
      due? := none
      failures := round.failures ++ (o.report? round.occasion x.spec.seat).toList }
      m x occasion earlier (answered ++ [o]) where
  what := h.what
  whose := h.whose
  all := by rw [List.append_assoc, List.singleton_append, ← left]; exact h.all
  failures := by
    rw [Observer.reports_append, Observer.reports_singleton, ← List.append_assoc, ← h.failures, h.what]

end Stands

/-- A round says nothing of other members. -/
theorem Goes.notes_of_ne {o : Observer} {rest : List Observer} {beats : List Beat} {told : Told}
    (goes : round.Goes x o rest beats told) (other : round.member ≠ m) :
    beats.filterMap (Beat.note? m) = [] := by
  cases goes with
  | lingers | atOnce => simp [Beat.note?, other]
  | responds => rfl

/-- How telling the observers of a member of an occasion has gone on: it was taken down by the last one that
was told, or stands somewhere. -/
inductive Outcome (m : Nat) (x : Member) (occasion : Occasion) (earlier : List ObserverFailure)
    (said : List Note) : Told → Prop where
  | on {round : Round} {answered : List Observer} (stands : round.Stands m x occasion earlier answered)
    (told : said = Note.tells occasion (answered ++ round.hearing)) :
    Outcome m x occasion earlier said (.on round)
  | dead {message : String} {answered rest : List Observer} {o : Observer}
    (all : answered ++ o :: rest = x.observers) (dies : ¬ o.Responds)
    (told : said = Note.tells occasion (answered ++ [o])) : Outcome m x occasion earlier said (.dead message)

/-- **Rounds.** What is said while a round goes on is what it should say. -/
theorem Goes.outcome {o : Observer} {rest : List Observer} {beats : List Beat} {told : Told}
    (goes : round.Goes x o rest beats told) (h : round.Stands m x occasion earlier answered)
    (left : round.left = o :: rest) (state : x.state = occasion.state) :
    Outcome m x occasion earlier
      (Note.tells occasion (answered ++ round.hearing) ++ beats.filterMap (Beat.note? m)) told := by
  have tell (events : List (Nat × Event)) : List.filterMap (Beat.note? m)
      [.tell round.member o round.occasion x.state events] = Note.tells occasion [o] := by
    rw [h.whose, h.what, state]
    simp [Beat.note?_tell, Note.tells]
  -- the first one responds after it was told
  have answer {said : List Note} (told : said = Note.tells occasion (answered ++ [o])) :
      Outcome m x occasion earlier said (round.answer o rest x.spec.seat) := by
    unfold answer
    split
    · rename_i message dies
      exact .dead (left ▸ h.all) (fun responds => responds _ _ _ dies) told
    all_goals
      refine .on (h.respond left) ?_
      rw [told]
      exact congrArg _ (List.append_nil _).symm
  cases goes with
  | lingers untold announces due =>
    refine .on (h.linger due) ?_
    rw [tell]
    simp [hearing, untold, left, Note.tells]
  | atOnce untold announces =>
    refine answer ?_
    rw [tell]
    simp [hearing, untold, Note.tells]
  | responds told =>
    refine answer ?_
    simp [hearing, told, left]

end Round

/-! ### Calls that close a member -/

namespace Member

/-- What the observers of a member report on an occasion. -/
def reports (x : Member) (occasion : Occasion) : List ObserverFailure :=
  Observer.reports x.observers occasion x.spec.seat

/-- What closing a member ends in. -/
def ending (x : Member) : Except CloseFailure (List ObserverFailure) :=
  match x.process.stopError? with
  | none => .ok (x.reports .closing ++ x.reports .closed)
  | some cause => .error ⟨x.spec.name, cause, x.reports .closing ++ x.reports .closed⟩

end Member

/-- What was said by the call that closes a member, told from its phase. -/
inductive Closing.Phase.Says (m : Nat) (x : Member) : Closing.Phase → List Note → Prop where
  | telling {round : Round} {answered : List Observer} (stands : round.Stands m x .closing [] answered)
    (state : x.state = .closing) : Says m x (.telling round) (Note.tells .closing (answered ++ round.hearing))
  | stopping (due : Nat) (state : x.state = .closing) :
    Says m x (.stopping due (x.reports .closing)) (Note.tells .closing x.observers ++ [.stopped])
  | tellingClosed {round : Round} {answered : List Observer}
    (stands : round.Stands m x .closed (x.reports .closing) answered) (state : x.state = .closed) :
    Says m x (.tellingClosed round)
      (Note.tells .closing x.observers ++ .stopped :: Note.tells .closed (answered ++ round.hearing))
  | finished (state : x.state = .closed) : Says m x (.finished x.ending) (Note.parting x.observers)
  /-- An observer took the call down that was told that the process will be stopped. -/
  | fallen {answered rest : List Observer} {o : Observer} (all : answered ++ o :: rest = x.observers)
    (dies : ¬ o.Responds) (state : x.state = .closing) :
    Says m x .dead (Note.tells .closing (answered ++ [o]))
  /-- An observer took the call down that was told that the process was stopped. -/
  | fallenLate {answered rest : List Observer} {o : Observer} (all : answered ++ o :: rest = x.observers)
    (dies : ¬ o.Responds) (state : x.state = .closed) :
    Says m x .dead (Note.tells .closing x.observers ++ .stopped :: Note.tells .closed (answered ++ [o]))

namespace Closing.Phase.Says

variable {m : Nat} {x : Member} {p : Closing.Phase} {said : List Note}

/-- **Partings.** Whatever the call that closes a member has said is a beginning of what it says in the
end. -/
theorem isPrefix (h : p.Says m x said) : said <+: Note.parting x.observers := by
  have fallen {answered rest : List Observer} {o : Observer} (all : answered ++ o :: rest = x.observers) :
      answered ++ [o] <+: x.observers := ⟨rest, by rw [List.append_assoc]; exact all⟩
  have early {os : List Observer} (h : os <+: x.observers) :
      Note.tells .closing os <+: Note.parting x.observers :=
    (Note.tells_isPrefix h .closing).trans (List.prefix_append _ _)
  have late {os : List Observer} (h : os <+: x.observers) :
      Note.tells .closing x.observers ++ .stopped :: Note.tells .closed os <+:
        Note.parting x.observers := by
    refine (List.prefix_append_right_inj _).mpr (List.cons_prefix_cons.mpr ⟨rfl, ?_⟩)
    exact Note.tells_isPrefix h .closed
  cases h with
  | telling stands => exact early stands.told_isPrefix
  | stopping due => exact late List.nil_prefix
  | tellingClosed stands => exact late stands.told_isPrefix
  | finished => exact List.prefix_refl _
  | fallen all => exact early (fallen all)
  | fallenLate all => exact late (fallen all)

theorem ne_called (h : p.Says m x said) : p ≠ .called := by
  rintro rfl
  cases h

/-- A call that tells observers tells them of its member. -/
theorem round_member {round : Round} (h : p.Says m x said) (hp : p = .telling round ∨ p = .tellingClosed round) :
    round.member = m := by
  rcases hp with rfl | rfl
  · cases h with
    | telling stands => exact stands.whose
  · cases h with
    | tellingClosed stands => exact stands.whose

theorem tells {round : Round} {phase : Round → Closing.Phase} {o : Observer} {rest : List Observer}
    {beats : List Beat} {told : Told} (h : (phase round).Says m x said)
    (which : phase = .telling ∨ phase = .tellingClosed) (left : round.left = o :: rest)
    (goes : round.Goes x o rest beats told) :
    (told.closingPhase phase).Says m x (said ++ beats.filterMap (Beat.note? m)) := by
  rcases which with rfl | rfl
  · cases h with
    | telling stands state =>
      cases goes.outcome stands left state with
      | on stands told => rw [told]; exact .telling stands state
      | dead all dies told => rw [told]; exact .fallen all dies state
  · cases h with
    | tellingClosed stands state =>
      rw [List.append_assoc, List.cons_append]
      cases goes.outcome stands left state with
      | on stands told => rw [told]; exact .tellingClosed stands state
      | dead all dies told => rw [told]; exact .fallenLate all dies state

theorem stop {round : Round} (h : (Closing.Phase.telling round).Says m x said) (left : round.left = [])
    (due : Nat) : (Closing.Phase.stopping due round.failures).Says m x (said ++ [.stopped]) := by
  cases h with
  | telling stands state =>
    obtain ⟨rfl, hearing, failures⟩ := stands.done left
    rw [hearing, List.append_nil, failures]
    exact .stopping due state

theorem mark {due : Nat} {failures : List ObserverFailure}
    (h : (Closing.Phase.stopping due failures).Says m x said) :
    (Closing.Phase.tellingClosed (.start .closed m x.observers failures)).Says m
      { x with state := .closed } said := by
  cases h with
  | stopping =>
    have start := Round.Stands.start m { x with state := .closed } .closed (x.reports .closing)
    exact .tellingClosed start rfl

theorem finish {round : Round} (h : (Closing.Phase.tellingClosed round).Says m x said)
    (left : round.left = []) {o : Except CloseFailure (List ObserverFailure)}
    (ho : o = match x.process.stopError? with
      | none => .ok round.failures
      | some cause => .error ⟨x.spec.name, cause, round.failures⟩) :
    (Closing.Phase.finished o).Says m x said := by
  cases h with
  | tellingClosed stands state =>
    obtain ⟨rfl, hearing, failures⟩ := stands.done left
    rw [hearing, List.append_nil]
    have ending : o = x.ending := by
      rw [ho, failures]
      rfl
    rw [ending]
    exact .finished state

end Closing.Phase.Says

end Muster
