import Muster.Proofs.Chronicle.Record
import Muster.Proofs.Core.Move

/-!
# Deeds

* `Observer.report?`, `Observer.Announces`: what an observer reports and announces of what it is told.
* `Round.Goes`: how telling the observers of a round goes on: what is entered in the record, and what it
  leads to.
* **`Core.Deed`**: what a step of the world enters in the record, together with the move of the core that
  goes with it, one constructor for each kind of entry and one for each kind of silent move; `Core.Setting`
  is what the core cannot tell of it.
* `Core.Deed.moves`: a deed is a move.
-/

namespace Muster

/-! ### Observers -/

namespace Observer

/-- What an observer reports when it is told of an occasion in the life of a member. -/
def report? (o : Observer) (occasion : Occasion) (seat : Seat) : Option ObserverFailure :=
  match (o.reaction occasion seat).response with
  | .fails causes => some ⟨o.name, seat.name, occasion, causes.line⟩
  | .fine | .dies _ => none

/-- What observers report, in their order. -/
def reports (os : List Observer) (occasion : Occasion) (seat : Seat) : List ObserverFailure :=
  os.filterMap (·.report? occasion seat)

/-- Events are what an observer announces when it is told of an occasion in the life of a member. -/
def Announces (o : Observer) (x : Member) (occasion : Occasion) (events : List (Nat × Event)) : Prop :=
  match o.trail with
  | .announces channel assembly =>
    ∃ w : World, events = [(channel, .member (w.memberEvent assembly occasion x))]
  | .silent | .records | .journals => events = []

end Observer

/-! ### Rounds -/

namespace Round

/-- What follows the response of the first observer that is left. -/
def answer (round : Round) (o : Observer) (rest : List Observer) (seat : Seat) : Told :=
  match (o.reaction round.occasion seat).response with
  | .dies message => .dead message
  | .fine | .fails _ =>
    .on { round with
      left := rest
      due? := none
      failures := round.failures ++ (o.report? round.occasion seat).toList }

/-- How telling the observers of a round goes on, of whom the first and others are left. -/
inductive Goes (round : Round) (x : Member) (o : Observer) (rest : List Observer) :
    List Beat → Told → Prop where
  /-- The first one is told, and takes its time. -/
  | lingers {events : List (Nat × Event)} (untold : round.due? = none)
    (announces : o.Announces x round.occasion events) (due : Nat) :
    Goes round x o rest [.tell round.member o round.occasion x.state events]
      (.on { round with due? := some due })
  /-- The first one is told, and responds at once. -/
  | atOnce {events : List (Nat × Event)} (untold : round.due? = none)
    (announces : o.Announces x round.occasion events) :
    Goes round x o rest [.tell round.member o round.occasion x.state events]
      (round.answer o rest x.spec.seat)
  /-- The first one was told, and responds. -/
  | responds {due : Nat} (told : round.due? = some due) :
    Goes round x o rest [] (round.answer o rest x.spec.seat)

/-- What telling an observer may lead to. -/
def LeadsTo (round : Round) (o : Observer) : Told → Prop
  | .on round' => round'.member = round.member ∧ round'.left <:+ round.left
  | .dead _ => ¬ o.Responds

/-- The round goes on with fewer observers, unless one that does not respond takes it down. -/
theorem Goes.leadsTo {round : Round} {x : Member} {o : Observer} {rest : List Observer}
    {beats : List Beat} {told : Told} (goes : round.Goes x o rest beats told)
    (left : round.left = o :: rest) : round.LeadsTo o told := by
  have answer : round.LeadsTo o (round.answer o rest x.spec.seat) := by
    unfold answer
    split
    · rename_i message dies
      exact fun responds => responds _ _ _ dies
    all_goals exact ⟨rfl, left ▸ List.suffix_cons o rest⟩
  cases goes with
  | lingers untold announces due => exact ⟨rfl, List.suffix_refl _⟩
  | atOnce untold announces => exact answer
  | responds told => exact answer

end Round

namespace Told

/-- The phase of a launch that has told its observers. -/
def launchPhase : Told → Launch.Phase
  | on round => .telling round
  | dead message => .settled (.died message)

/-- The phase of a call that has told the observers of its member. -/
def closingPhase (phase : Round → Closing.Phase) : Told → Closing.Phase
  | on round => phase round
  | dead _ => .dead

end Told

namespace Core

variable (c : Core)

/-- A launch tells nobody: when the observers of its member have been told, it ends in the member. -/
def SilentLaunch (i : Nat) (c' : Core) : Prop :=
  ∀ (l : Launch) (round : Round), c.launches[i]? = some l → l.phase = .telling round →
    c.members[round.member]? = none ∨ round.left = [] ∧
      c'.launches[i]? = some { l with phase := .settled (.realized round.member round.failures) }

/-- A call that closes a member neither tells anybody nor has the process stopped. -/
def SilentClosing (j : Nat) (c' : Core) : Prop :=
  ∀ (k : Closing) (round : Round), c.closings[j]? = some k →
    (k.phase = .telling round → c.members[round.member]? = none) ∧
    (k.phase = .tellingClosed round → c.members[round.member]? = none ∨
      round.left = [] ∧ ∃ o, c'.closings[j]? = some { k with phase := .finished o })

/-- A run asks nothing and does not end. -/
def SilentRun (r : Nat) (c' : Core) : Prop :=
  ∀ run run' : Run, c.runs[r]? = some run → c'.runs[r]? = some run' →
    run'.evaluations = run.evaluations ∧ ∀ o, run'.phase ≠ .finished o

/-- What the core does not tell of a step of the world. -/
structure Setting where
  /-- Whether the predicate of a run holds when it is asked. -/
  holds : Run → Bool
  /-- Whether callers may close a member. -/
  closes : Nat → Prop
  /-- Whether somebody may announce an event. -/
  announces : Event → Prop

variable (s : Setting)

/-- What a step of the world enters in the record, and what it does to the core. -/
inductive Deed : List Beat → Core → Prop where
  /-- Nothing happens. -/
  | stay : Deed [] c
  /-- A launch goes on, and tells nobody. -/
  | launch {c' : Core} {i : Nat} (move : c.LaunchMove i c') (silent : c.SilentLaunch i c') : Deed [] c'
  /-- A launch goes on telling the observers of its member. -/
  | launchTells {c' : Core} {i : Nat} {l : Launch} {round : Round} {x : Member} {o : Observer}
    {rest : List Observer} {beats : List Beat} {told : Told} (move : c.LaunchMove i c')
    (hl : c.launches[i]? = some l) (hp : l.phase = .telling round) (left : round.left = o :: rest)
    (hx : c.members[round.member]? = some x) (goes : round.Goes x o rest beats told)
    (after : c'.launches[i]? = some { l with phase := told.launchPhase }) : Deed beats c'
  /-- A call that closes a member goes on in silence. -/
  | closing {c' : Core} {j : Nat} (move : c.ClosingMove j c') (silent : c.SilentClosing j c') : Deed [] c'
  /-- A call that closes a member goes on telling its observers. -/
  | closingTells {j : Nat} {k : Closing} {round : Round} {x : Member} {o : Observer}
    {rest : List Observer} {beats : List Beat} {told : Told} {phase : Round → Closing.Phase}
    (hk : c.closings[j]? = some k) (hp : k.phase = phase round)
    (which : phase = .telling ∨ phase = .tellingClosed) (left : round.left = o :: rest)
    (hx : c.members[round.member]? = some x) (goes : round.Goes x o rest beats told) :
    Deed beats (c.setClosing j { k with phase := told.closingPhase phase })
  /-- A call has the process of its member stopped. -/
  | stop {j : Nat} {k : Closing} {x : Member} {round : Round} (hk : c.closings[j]? = some k)
    (hx : c.members[k.member]? = some x) (hp : k.phase = .telling round) (done : round.left = [])
    (due : Nat) : Deed [.stop k.member]
      ((c.stop k.member).setClosing j { k with phase := .stopping due round.failures })
  /-- A run goes on in silence. -/
  | run {c' : Core} {r : Nat} (move : c.RunMove r c') (silent : c.SilentRun r c') : Deed [] c'
  /-- There was nothing to launch. -/
  | succeedEmpty {r : Nat} {run : Run} (hr : c.runs[r]? = some run) (hp : run.phase = .launching)
    (all : run.pending = []) (fine : run.failures = []) (none : run.members = [])
    (deadline elapsed : Nat) (time : Timestamp) :
    Deed (run.announces (.stable run.id run.members.length run.evaluations elapsed time))
      (c.succeed r { run with deadline })
  /-- The predicate is asked, and holds. -/
  | succeed {r : Nat} {run : Run} (hr : c.runs[r]? = some run) (hp : run.phase = .asking)
    (goes : run.cancelled = false) (holds : s.holds run = true) (elapsed : Nat) (time : Timestamp) :
    Deed (.ask run.predicate.id run.members ::
        run.announces (.stable run.id run.members.length (run.evaluations + 1) elapsed time))
      (c.succeed r { run with evaluations := run.evaluations + 1 })
  /-- The predicate is asked and does not hold, and the time is up. -/
  | degrade {r : Nat} {run : Run} (hr : c.runs[r]? = some run) (hp : run.phase = .asking)
    (goes : run.cancelled = false) (fails : s.holds run = false) (reason : String) (time : Timestamp)
    (seen : List Sighting) :
    Deed (.ask run.predicate.id run.members :: run.announces (.degraded run.id reason time))
      (c.rollBack r { run with evaluations := run.evaluations + 1 } (.unstable seen))
  /-- The predicate is asked, and does not hold yet. -/
  | rest {r : Nat} {run : Run} (hr : c.runs[r]? = some run) (hp : run.phase = .asking)
    (goes : run.cancelled = false) (fails : s.holds run = false) (due : Nat) :
    Deed [.ask run.predicate.id run.members]
      (c.setRun r { run with evaluations := run.evaluations + 1, phase := .resting due })
  /-- All members of a run that gave up are closed. -/
  | fail {r : Nat} {run : Run} {cause : Run.Cause} {places : List Nat}
    {outcomes : List (Except CloseFailure (List ObserverFailure))} {e : AssemblyError}
    (hr : c.runs[r]? = some run) (hp : run.phase = .rollingBack cause places)
    (ho : c.outcomes? places = some outcomes)
    (he : e = World.errorOf run ((Teardown.ofOutcomes outcomes).after run.observerFailures) cause)
    (time : Timestamp) :
    Deed (run.announces (.failed run.id e.message time))
      (c.setRun r { run with phase := .finished (.error e) })
  /-- The reaper of a run goes on. -/
  | reaper {c' : Core} {r : Nat} (move : c.ReaperMove r c') : Deed [] c'
  /-- A call that closes an assembly begins, or finds that somebody had begun before. -/
  | dissolution {c' : Core} {d : Nat} (move : c.DissolutionMove d c')
    (called : c.dissolutions[d]?.map (·.phase) = some .called) : Deed [] c'
  /-- All members of an assembly are closed. -/
  | dissolved {d : Nat} {y : Dissolution} {a : Assembly} {places : List Nat}
    {outcomes : List (Except CloseFailure (List ObserverFailure))} {o : Except Teardown Teardown}
    (hd : c.dissolutions[d]? = some y) (ha : c.assemblies[y.assembly]? = some a)
    (hp : y.phase = .closing places) (ho : c.outcomes? places = some outcomes)
    (he : o = if (Teardown.ofOutcomes outcomes).closeFailures.isEmpty
      then .ok (Teardown.ofOutcomes outcomes) else .error (Teardown.ofOutcomes outcomes))
    (time : Timestamp) :
    Deed (a.announces (.closed a.id time))
      ((c.setAssembly y.assembly { a with state := .closed }).setDissolution d
        { y with phase := .finished o })
  /-- Callers do something that begins no run and closes no member. -/
  | outside {c' : Core} (move : c.OutsideMove s.closes c') (runs : c'.runs.size = c.runs.size)
    (closings : c'.closings = c.closings) : Deed [] c'
  /-- Somebody closes a member. -/
  | close {m : Nat} (there : m < c.members.size) (may : s.closes m) : Deed [] (c.call [m])
  /-- A run of a plan begins. -/
  | begin (plan : Plan) (platform : Nat) (channel? : Option Nat) (id : Uuid) (now : Nat)
    (cancelled : Bool) (time : Timestamp) :
    Deed (channel?.toList.map fun ch => .announce ch (.assembly (.building id plan.members.length time)))
      (c.begin plan platform channel? id now cancelled)
  /-- Somebody asks whether an assembly is stable. -/
  | ask {a : Assembly} (ha : a ∈ c.assemblies) (some : a.members ≠ []) :
    Deed [.ask a.predicate.id a.members] c
  /-- Somebody announces an event. -/
  | announce (channel : Nat) (e : Event) (may : s.announces e) : Deed [.announce channel e] c

variable {c} {c' : Core} {s : Setting} {beats : List Beat}

theorem tell_closingMove {j : Nat} {k : Closing} {round : Round} {x : Member} {o : Observer}
    {rest : List Observer} {told : Told} {phase : Round → Closing.Phase} (hk : c.closings[j]? = some k)
    (hp : k.phase = phase round) (which : phase = .telling ∨ phase = .tellingClosed)
    (left : round.left = o :: rest) (goes : round.Goes x o rest beats told) :
    c.ClosingMove j (c.setClosing j { k with phase := told.closingPhase phase }) := by
  have leads := goes.leadsTo left
  cases told with
  | on round' =>
    rcases which with rfl | rfl
    · exact .tell hk hp leads.2
    · exact .tellClosed hk hp leads.2
  | dead message =>
    refine .fall hk ?_ (left ▸ List.mem_cons_self) leads
    rcases which with rfl | rfl
    · exact .inl hp
    · exact .inr hp

/-- **Deeds are moves.** What a deed does to the core is a move, in which callers close those members only that they
may. -/
theorem Deed.moves (deed : c.Deed s beats c') : c.Moves s.closes c' := by
  cases deed with
  | stay | ask | announce => exact .stay
  | launch move | launchTells move => exact .launch _ move
  | closing move => exact .closing _ move
  | closingTells hk hp which left hx goes => exact .closing _ (tell_closingMove hk hp which left goes)
  | stop hk hx hp done due => exact .closing _ (.stop hk hx hp done due)
  | run move => exact .run _ move
  | succeedEmpty hr hp all fine none deadline => exact .run _ (.succeedEmpty hr hp all fine none deadline)
  | succeed hr hp goes => exact .run _ (.succeed hr hp goes)
  | degrade hr hp goes _ _ _ seen => exact .run _ (.degrade hr hp goes seen)
  | rest hr hp goes _ due => exact .run _ (.rest hr hp goes due)
  | fail hr hp ho he => exact he ▸ .run _ (.fail hr hp ho)
  | reaper move => exact .reaper _ move
  | dissolution move => exact .dissolution _ move
  | dissolved hd ha hp ho he => exact .dissolution _ (.finish hd ha hp ho he)
  | outside move => exact .outside move
  | close there may => exact .outside (.close there may)
  | begin plan platform channel? id now cancelled =>
    exact .outside (.begin plan platform channel? id now cancelled)

theorem Deed.move (deed : c.Deed s beats c') : c.Move c' := deed.moves.move

end Core

end Muster
