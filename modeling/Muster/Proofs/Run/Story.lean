import Muster.Proofs.Assembly.Guarded
import Muster.Proofs.Member.Voices

/-!
# What a run announces

* `Run.kinds`: the kinds of events that a run has announced, told from where it stands;
  `Run.kinds_cases`: they come in one of three orders; `Run.mem_kinds`: they tell how far the run has got.
* `Core.Due`: when an event of a kind is to be announced; `Core.RunMove.publishes`, `Core.publishes_closed`:
  runs and calls that close assemblies announce events that are due.
* **`Core.Deed.publishes`**: whatever is announced under the identifier of a run tells of members, or is due;
  **`Core.Deed.announce_channel`**: what observers do not announce is announced on the channel of the run.
-/

namespace Muster

/-! ### Kinds -/

/-- The kinds of events that are announced when a run begins to give up. -/
def Run.Cause.kinds : Run.Cause → List AssemblyEvent.Kind
  | .unstable _ => [.degraded]
  | .launch _ | .launchTimeout _ | .cancelled => []

/-- The kinds of events that were announced when the run began to give up that ended in an error. -/
def AssemblyError.kinds : AssemblyError → List AssemblyEvent.Kind
  | .unstable .. => [.degraded]
  | .setup _ | .launch .. | .launchTimeout .. | .cancelled _ => []

theorem Run.Cause.kinds_cases (cause : Run.Cause) : cause.kinds = [] ∨ cause.kinds = [.degraded] := by
  cases cause with
  | unstable => exact .inr rfl
  | launch | launchTimeout | cancelled => exact .inl rfl

theorem AssemblyError.kinds_cases (e : AssemblyError) : e.kinds = [] ∨ e.kinds = [.degraded] := by
  cases e with
  | unstable => exact .inr rfl
  | setup | launch | launchTimeout | cancelled => exact .inl rfl

theorem World.kinds_errorOf (run : Run) (t : Teardown) (cause : Run.Cause) :
    (errorOf run t cause).kinds = cause.kinds := by
  cases cause <;> rfl

namespace Run

/-- The kinds of events that a run has announced, told from where it stands. -/
def kinds (run : Run) (as : Array Assembly) : List AssemblyEvent.Kind :=
  match run.phase with
  | .launching | .asking | .resting _ => [.building]
  | .rollingBack cause _ => .building :: cause.kinds
  | .finished (.error e) => .building :: (e.kinds ++ [.failed])
  | .finished (.ok a) =>
    .building :: .stable :: if as[a]?.map (·.state) = some .closed then [.closed] else []

variable {run : Run} {as : Array Assembly}

theorem kinds_of_working (hp : run.phase = .launching ∨ run.phase = .asking ∨ ∃ due, run.phase = .resting due) :
    run.kinds as = [.building] := by
  unfold kinds
  rcases hp with hp | hp | ⟨due, hp⟩ <;> rw [hp]

theorem kinds_of_rollingBack {cause : Run.Cause} {places : List Nat}
    (hp : run.phase = .rollingBack cause places) : run.kinds as = .building :: cause.kinds := by
  unfold kinds
  rw [hp]

theorem kinds_of_failed {e : AssemblyError} (hp : run.phase = .finished (.error e)) :
    run.kinds as = .building :: (e.kinds ++ [.failed]) := by
  unfold kinds
  rw [hp]

theorem kinds_of_succeeded {a : Nat} (hp : run.phase = .finished (.ok a)) : run.kinds as =
    .building :: .stable :: if as[a]?.map (·.state) = some .closed then [.closed] else [] := by
  unfold kinds
  rw [hp]

/-- The kinds of events that a run announces come in one of three orders. -/
theorem kinds_cases (run : Run) (as : Array Assembly) : run.kinds as <+: [.building, .stable, .closed] ∨
    run.kinds as <+: [.building, .failed] ∨ run.kinds as <+: [.building, .degraded, .failed] := by
  unfold kinds
  split
  · decide
  · decide
  · decide
  · rename_i cause _ _
    rcases cause.kinds_cases with none | one
    · rw [none]
      decide
    · rw [one]
      decide
  · rename_i e _
    rcases e.kinds_cases with none | one
    · rw [none]
      decide
    · rw [one]
      decide
  · split <;> decide

/-- A run has got as far as a kind of event in the life of its assembly tells. -/
def Reached (run : Run) (as : Array Assembly) : AssemblyEvent.Kind → Prop
  | .building => True
  | .stable => ∃ a, run.phase = .finished (.ok a)
  | .degraded => (∃ seen places, run.phase = .rollingBack (.unstable seen) places) ∨
    ∃ timeout evaluations seen t, run.phase = .finished (.error (.unstable timeout evaluations seen t))
  | .failed => ∃ e, run.phase = .finished (.error e)
  | .closed => ∃ a x, run.phase = .finished (.ok a) ∧ as[a]? = some x ∧ x.state = .closed

/-- A run has announced just what it has got to. -/
theorem mem_kinds {kind : AssemblyEvent.Kind} : kind ∈ run.kinds as ↔ run.Reached as kind := by
  unfold kinds
  cases hp : run.phase with
  | launching | asking | resting => cases kind <;> simp [Reached, hp]
  | rollingBack cause => cases kind <;> cases cause <;> simp [Reached, hp, Cause.kinds]
  | finished o =>
    cases o with
    | error e => cases kind <;> cases e <;> simp [Reached, hp, AssemblyError.kinds]
    | ok a => cases kind <;> simp [Reached, hp]

/-- A run that has not ended has announced no end. -/
theorem kinds_of_unfinished (unfinished : ∀ o, run.phase ≠ .finished o) {kind : AssemblyEvent.Kind}
    (h : kind ∈ run.kinds as) : kind = .building ∨ kind = .degraded := by
  have reached := mem_kinds.mp h
  cases kind with
  | building => exact .inl rfl
  | degraded => exact .inr rfl
  | stable | failed =>
    obtain ⟨_, hp⟩ := reached
    exact absurd hp (unfinished _)
  | closed =>
    obtain ⟨_, _, hp, -⟩ := reached
    exact absurd hp (unfinished _)

end Run

namespace Core

variable {c c' : Core} {s : Setting} {new : List Beat} {id : Uuid} {r channel : Nat} {run run' : Run}

/-! ### When events are due -/

/-- When an event of a kind in the life of the assembly of a run is to be announced. -/
inductive Due (c : Core) (run : Run) : AssemblyEvent.Kind → Prop where
  /-- There was nothing to launch. -/
  | empty (hp : run.phase = .launching) (nobody : run.members = []) : Due c run .stable
  /-- The predicate holds. -/
  | stable (hp : run.phase = .asking) : Due c run .stable
  /-- The predicate does not hold, and the time is up. -/
  | degraded (hp : run.phase = .asking) : Due c run .degraded
  /-- All members of a run that gave up are closed. -/
  | failed {cause : Run.Cause} {places : List Nat}
    {outcomes : List (Except CloseFailure (List ObserverFailure))}
    (hp : run.phase = .rollingBack cause places) (ho : c.outcomes? places = some outcomes) : Due c run .failed
  /-- All members of the assembly are closed. -/
  | closed {d : Nat} {y : Dissolution} {places : List Nat}
    {outcomes : List (Except CloseFailure (List ObserverFailure))} (hd : c.dissolutions[d]? = some y)
    (hp : run.phase = .finished (.ok y.assembly)) (hq : y.phase = .closing places)
    (ho : c.outcomes? places = some outcomes) : Due c run .closed

/-- What is announced when one core becomes another tells of members, or is due. -/
inductive Publishes (c c' : Core) (run run' : Run) : List Event → Prop where
  /-- The assembly goes on in silence. -/
  | aside {events : List Event} (members : ∀ e ∈ events, e.kind? = none)
    (same : run'.kinds c'.assemblies = run.kinds c.assemblies) : Publishes c c' run run' events
  /-- Something happens in the life of the assembly. -/
  | assembly {e : AssemblyEvent} (due : c.Due run e.kind) (members : run'.members = run.members)
    (more : run'.kinds c'.assemblies = run.kinds c.assemblies ++ [e.kind]) :
    Publishes c c' run run' [.assembly e]

/-! ### Assemblies that stay as they are -/

theorem LaunchMove.assemblies_eq {i : Nat} (move : c.LaunchMove i c') : c'.assemblies = c.assemblies := by
  cases move <;> rfl

theorem ClosingMove.assemblies_eq {j : Nat} (move : c.ClosingMove j c') : c'.assemblies = c.assemblies := by
  cases move <;> rfl

theorem ReaperMove.assemblies_eq (move : c.ReaperMove r c') : c'.assemblies = c.assemblies := by
  cases move <;> rfl

theorem OutsideMove.assemblies_eq {closes : Nat → Prop} (move : c.OutsideMove closes c') :
    c'.assemblies = c.assemblies := by
  cases move <;> rfl

theorem RunMove.assembly_eq (move : c.RunMove r c') {a : Nat} (ha : a < c.assemblies.size) :
    c'.assemblies[a]? = c.assemblies[a]? := by
  cases move with
  | succeedEmpty | succeed => exact (Array.getElem?_push_lt ha).trans (Array.getElem?_eq_getElem ha).symm
  | take | giveUp | refuse | gather | dismiss | degrade | rest | wake | fail => rfl

/-- A run that stands where it stood has announced what it had. -/
theorem Delivered.kinds_eq (delivered : c.Delivered) (hr : c.runs[r]? = some run)
    (phase : run'.phase = run.phase)
    (states : ∀ a < c.assemblies.size, run.phase = .finished (.ok a) →
      c'.assemblies[a]?.map (·.state) = c.assemblies[a]?.map (·.state)) :
    run'.kinds c'.assemblies = run.kinds c.assemblies := by
  unfold Run.kinds
  rw [phase]
  split
  all_goals try rfl
  rename_i a hp
  obtain ⟨x, hx, -⟩ := delivered hr hp
  rw [states a (lt_of_getElem?_eq_some hx) hp]

/-! ### What deeds announce -/

theorem RunMove.kinds_eq (move : c.RunMove r c') (silent : c.SilentRun r c') (hr : c.runs[r]? = some run)
    (hr' : c'.runs[r]? = some run') : run'.kinds c'.assemblies = run.kinds c.assemblies := by
  obtain ⟨count, unfinished⟩ := silent run run' hr hr'
  have gaveUp {cause : Run.Cause} {places : List Nat} (hp : run.phase = .launching ∨ run.phase = .asking)
      (hp' : run'.phase = .rollingBack cause places) (quiet : cause.kinds = []) :
      run'.kinds c'.assemblies = run.kinds c.assemblies := by
    rw [Run.kinds_of_rollingBack hp', quiet, Run.kinds_of_working (hp.imp_right .inl)]
  have works (hp : run.phase = .launching ∨ run.phase = .asking ∨ ∃ due, run.phase = .resting due)
      (hp' : run'.phase = .launching ∨ run'.phase = .asking ∨ ∃ due, run'.phase = .resting due) :
      run'.kinds c'.assemblies = run.kinds c.assemblies :=
    (Run.kinds_of_working hp').trans (Run.kinds_of_working hp).symm
  cases move with
  | take hs hp =>
    obtain ⟨rfl, rfl⟩ := eq_of_replaced hr hs hr'
    exact works (.inl hp) (.inl hp)
  | giveUp hs hp waits why =>
    obtain ⟨rfl, rfl⟩ := eq_of_replaced hr hs hr'
    refine gaveUp (.inl hp) rfl ?_
    rcases why with ⟨-, rfl⟩ | ⟨-, rfl⟩ <;> rfl
  | refuse hs hp =>
    obtain ⟨rfl, rfl⟩ := eq_of_replaced hr hs hr'
    exact gaveUp (.inl hp) rfl rfl
  | dismiss hs hp =>
    obtain ⟨rfl, rfl⟩ := eq_of_replaced hr hs hr'
    exact gaveUp (.inr hp) rfl rfl
  | gather hs hp =>
    obtain ⟨rfl, rfl⟩ := eq_of_replaced hr hs hr'
    exact works (.inl hp) (.inr (.inl rfl))
  | wake hs hp =>
    obtain ⟨rfl, rfl⟩ := eq_of_replaced hr hs hr'
    exact works (.inr (.inr ⟨_, hp⟩)) (.inr (.inl rfl))
  | degrade hs | rest hs =>
    obtain ⟨rfl, rfl⟩ := eq_of_replaced hr hs hr'
    exact absurd count (Nat.succ_ne_self _)
  | succeedEmpty hs | succeed hs | fail hs =>
    obtain ⟨rfl, rfl⟩ := eq_of_replaced hr hs hr'
    exact absurd rfl (unfinished _)

theorem kinds_succeed {x : Run} (hr : c.runs[r]? = some run) (hr' : (c.succeed r x).runs[r]? = some run')
    (hp : run.phase = .launching ∨ run.phase = .asking) :
    run'.kinds (c.succeed r x).assemblies = run.kinds c.assemblies ++ [.stable] := by
  have last : (c.succeed r x).assemblies[c.assemblies.size]? = some x.assembly := Array.getElem?_push_size
  cases (getElem?_replace_self hr _).symm.trans hr'
  rw [Run.kinds_of_succeeded rfl, last, Run.kinds_of_working (hp.imp_right .inl)]
  rfl

/-- A round announces nothing but events of its member. -/
theorem events_of_goes {round : Round} {x : Member} {o : Observer} {rest : List Observer} {beats : List Beat}
    {told : Told} (goes : round.Goes x o rest beats told) {e : Event}
    (he : e ∈ beats.flatMap (Beat.events id)) : e.kind? = none := by
  cases goes with
  | lingers untold announces | atOnce untold announces =>
    rw [List.flatMap_singleton] at he
    rcases announces.voices.events_tell id round.member x.state with ⟨-, e', events, -⟩ | ⟨-, events⟩
    · rw [events] at he
      cases List.mem_singleton.mp he
      rfl
    · rw [events] at he
      exact absurd he List.not_mem_nil
  | responds told => exact absurd he List.not_mem_nil

namespace Publishes

variable {events : List Event}

theorem silent (nothing : events = []) (same : run'.kinds c'.assemblies = run.kinds c.assemblies) :
    c.Publishes c' run run' events :=
  .aside (fun _ he => absurd (nothing ▸ he) List.not_mem_nil) same

end Publishes

section Published

variable (delivered : c.Delivered) (reserved : c.Reserved r id) (hr : c.runs[r]? = some run)
  (hr' : c'.runs[r]? = some run') (own : run.id = id) (there : run.channel? = some channel)

include delivered hr in
theorem kinds_still (phase : run'.phase = run.phase) (same : c'.assemblies = c.assemblies) :
    run'.kinds c'.assemblies = run.kinds c.assemblies :=
  delivered.kinds_eq hr phase fun _ _ _ => by rw [same]

include delivered hr hr' in
theorem kinds_elsewhere {q : Nat} (move : c.RunMove q c') (other : r ≠ q) :
    run'.kinds c'.assemblies = run.kinds c.assemblies :=
  delivered.kinds_eq hr (congrArg Run.phase (move.run_eq other hr hr')) fun a ha _ => by
    rw [move.assembly_eq ha]

include delivered reserved hr hr' own there in
/-- Some run announces an event. -/
theorem RunMove.publishes {q : Nat} {x : Run} {e : AssemblyEvent} (move : c.RunMove q c')
    (hq : c.runs[q]? = some x) (about : e.assembly = x.id) (due : c.Due x e.kind)
    (more : ∀ {x' : Run}, c'.runs[q]? = some x' →
      x'.members = x.members ∧ x'.kinds c'.assemblies = x.kinds c.assemblies ++ [e.kind]) :
    c.Publishes c' run run' ((x.announces e).flatMap (Beat.events id)) := by
  by_cases same : r = q
  · subst same
    cases hr.symm.trans hq
    obtain ⟨members, more⟩ := more hr'
    have one : (run.announces e).flatMap (Beat.events id) = [.assembly e] :=
      Beat.events_announces (about.trans own) there
    rw [one]
    exact .assembly due members more
  · have other : e.assembly ≠ id := fun h => same (reserved.runs hq (about.symm.trans h)).symm
    exact .silent (Beat.events_announces_of_ne other x.channel?) (kinds_elsewhere delivered hr hr' move same)

include delivered reserved hr own there in
/-- All members of an assembly are closed. -/
theorem publishes_closed (h : c.Sound) (alone : Alone c.assemblies c.dissolutions) {d : Nat} {y : Dissolution}
    {a : Assembly} {places : List Nat} {outcomes : List (Except CloseFailure (List ObserverFailure))}
    (hd : c.dissolutions[d]? = some y) (ha : c.assemblies[y.assembly]? = some a)
    (hp : y.phase = .closing places) (ho : c.outcomes? places = some outcomes) (o : Except Teardown Teardown)
    (time : Timestamp) : c.Publishes ((c.setAssembly y.assembly { a with state := .closed }).setDissolution d
      { y with phase := .finished o }) run run ((a.announces (.closed a.id time)).flatMap (Beat.events id)) := by
  -- the assembly came of a run
  obtain ⟨q, x, hq, hpq, -⟩ := h.stocked _ a ha
  obtain ⟨a', ha', kept⟩ := delivered hq hpq
  cases ha.symm.trans ha'
  by_cases same : r = q
  · subst same
    cases hr.symm.trans hq
    have one : (a.announces (.closed a.id time)).flatMap (Beat.events id) = [.assembly (.closed a.id time)] :=
      Beat.events_announces (e := .closed a.id time) (kept.id.trans own) (kept.channel.trans there)
    have closed : ((c.setAssembly y.assembly { a with state := .closed }).setDissolution d
        { y with phase := .finished o }).assemblies[y.assembly]? = some { a with state := .closed } :=
      getElem?_replace_self ha _
    rw [one]
    refine .assembly (.closed hd hpq hp ho) rfl ?_
    rw [Run.kinds_of_succeeded hpq, Run.kinds_of_succeeded hpq, closed, ha, Option.map_some, Option.map_some,
      if_pos rfl, if_neg fun h => (alone.begun hd hp ha).2 (Option.some.inj h)]
    rfl
  · have other : a.id ≠ id := fun h => same (reserved.runs hq (kept.id.symm.trans h)).symm
    refine .silent (Beat.events_announces_of_ne (e := .closed a.id time) other a.channel?)
      (delivered.kinds_eq hr rfl fun b _ hpb => ?_)
    -- it is not the assembly of our run
    have apart : b ≠ y.assembly := by
      rintro rfl
      obtain ⟨a', ha', kept'⟩ := delivered hr hpb
      cases ha.symm.trans ha'
      exact other (kept'.id.trans own)
    show ((c.assemblies.setIfInBounds _ _)[b]?).map (·.state) = _
    rw [getElem?_replace_of_ne ha apart]

end Published

theorem DissolutionMove.kinds_eq {d : Nat} (move : c.DissolutionMove d c') (delivered : c.Delivered)
    (hr : c.runs[r]? = some run) (hr' : c'.runs[r]? = some run')
    (called : c.dissolutions[d]?.map (·.phase) = some .called) :
    run'.kinds c'.assemblies = run.kinds c.assemblies := by
  refine delivered.kinds_eq hr (congrArg _ (run_eq move.runs_eq hr hr')) fun a _ _ => ?_
  cases move with
  | skip => rfl
  | begin hd ha =>
    show ((c.assemblies.setIfInBounds _ _)[a]?).map (·.state) = _
    rw [getElem?_replace ha]
    split
    · rename_i same
      rw [same, ha]
      rfl
    · rfl
  | finish hd ha hp =>
    rw [hd, Option.map_some, Option.some.injEq, hp] at called
    cases called

/-- A run that begins has another identifier than one that is there. -/
theorem Reserved.ne_of_begin {plan : Plan} {platform now : Nat} {channel? : Option Nat} {id' : Uuid}
    {cancelled : Bool} (reserved : (c.begin plan platform channel? id' now cancelled).Reserved r id)
    (hr : c.runs[r]? = some run) : id' ≠ id := by
  intro same
  have last : (c.begin plan platform channel? id' now cancelled).runs[c.runs.size]? = some _ :=
    Array.getElem?_push_size
  exact absurd (lt_of_getElem?_eq_some hr) (Nat.not_lt_of_le (Nat.le_of_eq (reserved.runs last same)))

/-- **Announcements.** Whatever is announced under the identifier of a run tells of members, or is due. -/
theorem Deed.publishes (deed : c.Deed s new c') (h : c.Sound) (delivered : c.Delivered)
    (alone : Alone c.assemblies c.dissolutions) (reserved : c'.Reserved r id) (hr : c.runs[r]? = some run)
    (hr' : c'.runs[r]? = some run') (own : run.id = id) (there : run.channel? = some channel)
    (nobody : ∀ e, s.announces e → e.assemblyId ≠ id) :
    c.Publishes c' run run' (new.flatMap (Beat.events id)) := by
  have before := reserved.before deed.move
  have still (phase : run'.phase = run.phase) (same : c'.assemblies = c.assemblies) :=
    kinds_still delivered hr phase same
  have elsewhere {q : Nat} := kinds_elsewhere (q := q) delivered hr hr'
  have speaks {q : Nat} {x : Run} {e : AssemblyEvent} (move : c.RunMove q c') :=
    move.publishes (x := x) (e := e) delivered before hr hr' own there
  cases deed with
  | stay =>
    cases hr.symm.trans hr'
    exact .silent rfl rfl
  | launch move => exact .silent rfl (still (move.run_same hr hr').phase move.assemblies_eq)
  | launchTells move _ _ _ _ goes =>
    exact .aside (fun _ => events_of_goes goes) (still (move.run_same hr hr').phase move.assemblies_eq)
  | closing move => exact .silent rfl (still (congrArg _ (run_eq move.runs_eq hr hr')) move.assemblies_eq)
  | closingTells _ _ _ _ _ goes =>
    exact .aside (fun _ => events_of_goes goes) (still (congrArg _ (run_eq rfl hr hr')) rfl)
  | stop | close => exact .silent rfl (still (congrArg _ (run_eq rfl hr hr')) rfl)
  | @run _ q move quiet =>
    by_cases same : r = q
    · subst same
      exact .silent rfl (move.kinds_eq quiet hr hr')
    · exact .silent rfl (elsewhere move same)
  | succeedEmpty hq hp all fine none deadline =>
    refine speaks (.succeedEmpty hq hp all fine none deadline) hq rfl (.empty hp none) fun hx' => ?_
    refine ⟨?_, kinds_succeed hq hx' (.inl hp)⟩
    cases (getElem?_replace_self hq _).symm.trans hx'
    rfl
  | succeed hq hp goes =>
    refine speaks (.succeed hq hp goes) hq rfl (.stable hp) fun hx' => ?_
    refine ⟨?_, kinds_succeed hq hx' (.inr hp)⟩
    cases (getElem?_replace_self hq _).symm.trans hx'
    rfl
  | degrade hq hp goes _ _ _ seen =>
    refine speaks (.degrade hq hp goes seen) hq rfl (.degraded hp) fun hx' => ?_
    cases (getElem?_replace_self hq _).symm.trans hx'
    refine ⟨rfl, ?_⟩
    rw [Run.kinds_of_rollingBack rfl, Run.kinds_of_working (.inr (.inl hp))]
    rfl
  | @rest q _ hq hp goes _ due =>
    by_cases same : r = q
    · subst same
      obtain ⟨rfl, rfl⟩ := eq_of_replaced hr hq hr'
      refine .silent rfl ?_
      rw [Run.kinds_of_working (.inr (.inr ⟨_, rfl⟩)), Run.kinds_of_working (.inr (.inl hp))]
    · exact .silent rfl (elsewhere (.rest hq hp goes due) same)
  | fail hq hp ho he =>
    subst he
    refine speaks (.fail hq hp ho) hq rfl (.failed hp ho) fun hx' => ?_
    cases (getElem?_replace_self hq _).symm.trans hx'
    refine ⟨rfl, ?_⟩
    rw [Run.kinds_of_failed rfl, Run.kinds_of_rollingBack hp, World.kinds_errorOf]
    rfl
  | @reaper _ q move =>
    refine .silent rfl (still ?_ move.assemblies_eq)
    by_cases same : r = q
    · exact ((same ▸ move).stays hr hr').1
    · exact congrArg _ (move.run_eq same hr hr')
  | dissolution move called => exact .silent rfl (move.kinds_eq delivered hr hr' called)
  | dissolved hd ha hp ho =>
    cases run_eq rfl hr hr'
    exact publishes_closed delivered before hr own there h alone hd ha hp ho _ _
  | outside move => exact .silent rfl (still (move.run_same hr hr').phase move.assemblies_eq)
  | begin plan platform channel? id' now cancelled time =>
    have move : c.OutsideMove s.closes _ := .begin plan platform channel? id' now cancelled
    exact .silent (Beat.events_announces_of_ne (e := .building id' plan.members.length time)
      (reserved.ne_of_begin hr) channel?) (still (move.run_same hr hr').phase rfl)
  | ask =>
    cases hr.symm.trans hr'
    exact .silent rfl rfl
  | announce channel e may =>
    cases hr.symm.trans hr'
    refine .silent ?_ rfl
    rw [List.flatMap_singleton]
    exact Beat.events_announce_of_ne (nobody e may) channel

/-- **One channel.** What is announced under the identifier of a run goes to its channel, but by an observer. -/
theorem Deed.announce_channel (deed : c.Deed s new c') (h : c.Sound) (delivered : c.Delivered)
    (reserved : c'.Reserved r id) (hr : c.runs[r]? = some run) (there : run.channel? = some channel)
    (nobody : ∀ e, s.announces e → e.assemblyId ≠ id) {number : Nat} {e : Event} (he : .announce number e ∈ new)
    (about : e.assemblyId = id) : number = channel := by
  have before := reserved.before deed.move
  -- the only run that has the identifier has the channel
  have of_run {q : Nat} {x : Run} {e' : AssemblyEvent} (hq : c.runs[q]? = some x) (same : e'.assembly = x.id)
      (he : .announce number e ∈ x.announces e') : number = channel := by
    obtain ⟨number', on, same'⟩ := List.mem_map.mp he
    cases same'
    obtain rfl := before.runs hq (same.symm.trans about)
    cases hr.symm.trans hq
    rw [there] at on
    exact List.mem_singleton.mp on
  cases deed with
  | launchTells _ _ _ _ _ goes | closingTells _ _ _ _ _ goes =>
    cases goes with
    | lingers | atOnce => cases List.mem_singleton.mp he
    | responds => exact absurd he List.not_mem_nil
  | stay | launch | closing | run | reaper | dissolution | outside | close => exact absurd he List.not_mem_nil
  | stop | rest | ask => cases List.mem_singleton.mp he
  | succeedEmpty hq | fail hq => exact of_run hq rfl he
  | succeed hq | degrade hq =>
    rcases List.mem_cons.mp he with he | he
    · cases he
    · exact of_run hq rfl he
  | dissolved _ ha _ _ _ time =>
    obtain ⟨q, x, hq, hpq, -⟩ := h.stocked _ _ ha
    obtain ⟨a', ha', kept⟩ := delivered hq hpq
    cases ha.symm.trans ha'
    have about' : (AssemblyEvent.closed _ time).assembly = x.id := kept.id
    refine of_run hq about' ?_
    unfold Assembly.announces at he
    rw [kept.channel] at he
    exact he
  | begin plan platform channel? id' now cancelled time =>
    obtain ⟨_, -, same⟩ := List.mem_map.mp he
    cases same
    exact absurd about (reserved.ne_of_begin hr)
  | announce number' e' may =>
    cases List.mem_singleton.mp he
    exact absurd about (nobody _ may)

end Core

end Muster
