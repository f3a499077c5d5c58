import Muster.Proofs.Assembly.Handed
import Muster.Proofs.Platform.Dealings
import Muster.Proofs.Run.Submission
import Muster.Proofs.World.Log
import Muster.Proofs.World.Paths

/-!
# What a platform counts

* `Accounts.Balanced`: what a platform counts is what there is of its doing. `Accounts.Balanced.enter`: this
  stays so with every dealing as long as no process is stopped twice.
* `World.Reachable.stopped_subperm`: no process is stopped twice, and none that was not handed out.
* `World.Logs.balanced`: a platform that comes along counts what there is of its doing ever after.
* `World.Accounted`: what this says of a scripted platform.
* **`World.Logs.platform_accounts`**: it holds of each in every world that comes about, with whatever goes on in it.
-/

namespace Muster

/-! ### Balanced accounts -/

/-- What a platform counts is what there is of its doing. -/
structure Accounts.Balanced (a : Accounts) (t : Trade) : Prop where
  requests : a.requests = t.asked
  inFlight : a.inFlight = t.inFlight
  realized : a.realized = t.served.map (·.1)
  stops : a.stops = t.stopped.length
  live : a.live + t.stopped.countP (·.2.isNone) = t.served.length
  inFlight_le : a.inFlight ≤ a.peak
  peak_le : a.peak ≤ a.requests

namespace Accounts.Balanced

variable {a : Accounts} {t t' : Trade} {behaviour : MemberSpec → Behaviour} {d : Dealing}

theorem empty : ({} : Accounts).Balanced {} := ⟨rfl, rfl, rfl, rfl, rfl, Nat.le_refl 0, Nat.le_refl 0⟩

/-- **Dealings.** Accounts stay balanced as long as no process is stopped twice. -/
theorem enter (h : a.Balanced t) (deal : t.Deals behaviour d t') (once : t'.stopped.Subperm t'.served) :
    (a.enter d).Balanced t' := by
  obtain ⟨requests, inFlight, realized, stops, live, inFlight_le, peak_le⟩ := h
  cases deal with
  | nothing => exact ⟨requests, inFlight, realized, stops, live, inFlight_le, peak_le⟩
  | request =>
    refine ⟨congrArg (· + 1) requests, congrArg (· + 1) inFlight, realized, stops, live, Nat.le_max_right .., ?_⟩
    exact Nat.max_le.mpr ⟨Nat.le_succ_of_le peak_le, Nat.succ_le_succ (Nat.le_trans inFlight_le peak_le)⟩
  | @refusal n busy =>
    have answered : a.inFlight - 1 = n := by omega
    exact ⟨requests, answered, realized, stops, live, Nat.le_trans (Nat.sub_le ..) inFlight_le, peak_le⟩
  | @handOut n busy spec =>
    have answered : a.inFlight - 1 = n := by omega
    refine ⟨requests, answered, ?_, stops, ?_, Nat.le_trans (Nat.sub_le ..) inFlight_le, peak_le⟩
    · show a.realized ++ [spec.name] = _
      rw [realized, List.map_append]
      rfl
    · show a.live + 1 + _ = _
      rw [List.length_append, ← live, Nat.add_right_comm]
      rfl
  | stop s =>
    -- the processes that were stopped with success are among those that were handed out
    have stoppable : (t.stopped ++ [s]).countP (·.2.isNone) ≤ t.served.length :=
      Nat.le_trans (once.countP_le _) List.countP_le_length
    refine ⟨requests, inFlight, realized, ?_, ?_, inFlight_le, peak_le⟩
    · show a.stops + 1 = _
      rw [stops, List.length_append]
      rfl
    · show (if s.2.isSome then a.live else a.live - 1) + (t.stopped ++ [s]).countP _ = t.served.length
      rw [List.countP_append, List.countP_singleton] at *
      obtain ⟨member, error?⟩ := s
      cases error? with
      | none =>
        have stoppable : t.stopped.countP (·.2.isNone) + 1 ≤ t.served.length := stoppable
        show a.live - 1 + (t.stopped.countP (·.2.isNone) + 1) = t.served.length
        omega
      | some e => exact live

/-- **The peak.** What is counted as a peak grows with the requests that are being worked on, and not
otherwise. -/
theorem peak_enter (h : a.Balanced t) (deal : t.Deals behaviour d t') :
    (a.enter d).peak = max a.peak t'.inFlight := by
  have below : t.inFlight ≤ a.peak := h.inFlight ▸ h.inFlight_le
  cases deal with
  | nothing | stop => exact (Nat.max_eq_left below).symm
  | request => exact congrArg (max a.peak <| · + 1) h.inFlight
  | @refusal n busy | @handOut n busy => exact (Nat.max_eq_left (show n ≤ a.peak by omega)).symm

end Accounts.Balanced

/-- The processes that were handed out can be stopped, or cannot, as the platform has it for a member of the name. -/
def Trade.Fair (behaviour : MemberSpec → Behaviour) (t : Trade) : Prop :=
  ∀ s ∈ t.served, ∃ spec : MemberSpec, s.1 = spec.name ∧ s.2 = (behaviour spec).stopError?

theorem Trade.Fair.deal {t t' : Trade} {behaviour : MemberSpec → Behaviour} {d : Dealing}
    (h : t.Fair behaviour) (deal : t.Deals behaviour d t') : t'.Fair behaviour := by
  cases deal with
  | nothing | request | refusal | stop => exact h
  | handOut _ spec =>
    intro s hs
    rcases List.mem_append.mp hs with hs | hs
    · exact h s hs
    · rw [List.mem_singleton.mp hs]
      exact ⟨spec, rfl, rfl⟩

/-! ### No process is stopped twice -/

theorem Closing.Phase.At.unstopped {round : Round} {state : MemberState} {count : Nat}
    (h : Closing.Phase.At (.telling round) state count) : count = 0 := by
  cases h
  rfl

namespace Members

variable {ms : Array Member} {p : Nat}

/-- Processes of members at different places are among those that were handed out. -/
theorem servedAt_subperm {is : List Nat} (nodup : is.Nodup) (there : ∀ m ∈ is, m < ms.size) :
    (servedAt ms p is).Subperm (served ms p) := by
  rw [served_eq]
  exact World.subperm_filterMap _ (nodup.subperm fun m hm => List.mem_range.mpr (there m hm))

end Members

namespace World

variable {w w₀ : World} {p : Nat}

theorem Reachable.nodup_stopped (h : Reachable w) : w.stopped.Nodup :=
  List.nodup_iff_count_le_one.mpr h.stops_le_one

/-- No process is stopped twice, and none that was not handed out. -/
theorem Reachable.stopped_subperm (h : Reachable w) (p : Nat) :
    (w.trade p).stopped.Subperm (w.trade p).served :=
  Members.servedAt_subperm h.nodup_stopped fun _ => h.sound.lives.stopped

/-! ### A platform that comes along -/

/-- How many requests the platform at a place works on after a step. -/
def flights (p : Nat) (_ w : World) : List Nat := [(w.trade p).inFlight]

/-- **Balance.** A platform that comes along counts what there is of its doing ever after, and its peak is the
largest number of requests that it has worked on at once. -/
theorem Logs.balanced {pf : Platform} {log : List Nat} (reachable : Reachable w₀) (blank : pf.accounts = {})
    (new : w₀.trade w₀.platforms.size = {})
    (h : Logs (flights w₀.platforms.size) { w₀ with platforms := w₀.platforms.push pf } w log) :
    ∃ a, w.platforms[w₀.platforms.size]? = some { pf with accounts := a } ∧
      a.Balanced (w.trade w₀.platforms.size) ∧ (w.trade w₀.platforms.size).Fair pf.behaviour ∧
      a.peak = log.foldl max 0 := by
  refine h.keeps (P := fun w log => ∃ a, w.platforms[w₀.platforms.size]? = some { pf with accounts := a } ∧
    a.Balanced (w.trade w₀.platforms.size) ∧ (w.trade w₀.platforms.size).Fair pf.behaviour ∧
      a.peak = log.foldl max 0) (reachable.tail (.platform pf)) ⟨{}, ?_, ?_, ?_, rfl⟩ ?_
  · rw [← blank]
    exact Array.getElem?_push_size
  · exact (new ▸ .empty : Accounts.Balanced {} (w₀.trade w₀.platforms.size))
  · exact (new ▸ fun s hs => absurd hs List.not_mem_nil : (w₀.trade w₀.platforms.size).Fair pf.behaviour)
  · rintro w w' log here - step ⟨a, there, balanced, fair, peak⟩
    obtain ⟨d, there', deal⟩ := step.deals here.sound (lt_of_getElem?_eq_some there) _ there
    refine ⟨_, there', balanced.enter deal (Reachable.stopped_subperm (here.tail step) _), fair.deal deal, ?_⟩
    unfold flights
    rw [List.foldl_append, ← peak]
    exact balanced.peak_enter deal

/-! ### Scripted platforms -/

/-- How often the platform at a place was asked to stop the process of a member whose name is of some sort. -/
def stopsOn (w : World) (p : Nat) (sort : String → Bool) : Nat :=
  w.stopped.countP fun m => w.members[m]?.any fun x => decide (x.process.platform = p) && sort x.spec.name

theorem stopsOn_eq (sort : String → Bool) {q : Served → Bool}
    (same : ∀ s ∈ (w.trade p).stopped, q s = sort s.1) : w.stopsOn p sort = (w.trade p).stopped.countP q := by
  have named : (w.trade p).stopped.countP q = (w.trade p).stopped.countP fun s => sort s.1 :=
    List.countP_congr fun s hs => by rw [same s hs]
  have each (m : Nat) : (w.members[m]?.any fun x => decide (x.process.platform = p) && sort x.spec.name) =
      ((w.members[m]?.bind (Member.servedBy? p)).map fun s => sort s.1).getD false := by
    cases w.members[m]? with
    | none => rfl
    | some x =>
      show (decide _ && _) = ((Member.servedBy? p x).map _).getD false
      unfold Member.servedBy?
      split <;> simp [*]
  rw [named]
  unfold stopsOn trade Members.servedAt
  rw [List.countP_filterMap, funext each]

/-- The process of a member that is going to be stopped was not stopped before. -/
theorem Reachable.cons_stopped_subperm (h : Reachable w) {j : Nat} {k : Closing} {x : Member} {round : Round}
    (hk : w.closings[j]? = some k) (hx : w.members[k.member]? = some x) (hp : k.phase = .telling round)
    {s : Served} (hs : x.servedBy? p = some s) : (s :: (w.trade p).stopped).Subperm (w.trade p).served := by
  have busy : ¬ k.Idle := by
    rintro (called | ended)
    · cases hp.symm.trans called
    · cases hp.symm.trans ended
  obtain ⟨k', hk', -, phase⟩ := (h.sound.lives.underway hk hx busy).works
  cases hk.symm.trans hk'
  rw [hp] at phase
  have unstopped : k.member ∉ w.stopped := List.count_eq_zero.mp phase.unstopped
  have at' : Members.servedAt w.members p (k.member :: w.stopped) = s :: (w.trade p).stopped := by
    unfold Members.servedAt
    rw [List.filterMap_cons_some (by rw [hx, Option.bind_some, hs])]
    rfl
  rw [← at']
  refine Members.servedAt_subperm (List.nodup_cons.mpr ⟨unstopped, h.nodup_stopped⟩) fun m hm => ?_
  rcases List.mem_cons.mp hm with rfl | hm
  · exact lt_of_getElem?_eq_some hx
  · exact h.sound.lives.stopped hm

/-- What a platform at a place counts, on which members of some names cannot be stopped, and which has worked on
so many requests after one step and another. -/
structure Accounted (w : World) (p : Nat) (stuck : List String) (log : List Nat) (a : Accounts) : Prop where
  /-- It was asked once for each launch that has got so far. -/
  requests : a.requests = Launches.on w.launches Launch.Phase.asked p
  /-- It handed out the processes of the members that there are. -/
  realized : a.realized = (Members.served w.members p).map (·.1)
  /-- Of these, those run that were not stopped with success. -/
  live : a.realized.length = a.live + w.stopsOn p fun name => decide (name ∉ stuck)
  /-- It was asked to stop processes that could be stopped, and others. -/
  stops : a.stops = w.stopsOn p (fun name => decide (name ∉ stuck)) + w.stopsOn p fun name => decide (name ∈ stuck)
  /-- It was asked to stop no other processes than these. -/
  stops_le : a.stops ≤ a.realized.length
  /-- It works on requests as long as launches wait for its answer. -/
  inFlight : a.inFlight = Launches.on w.launches Launch.Phase.inFlight p
  /-- It has worked on as many at once before. -/
  inFlight_le : a.inFlight ≤ a.peak
  /-- It was asked for all of them. -/
  peak_le : a.peak ≤ a.requests
  /-- It has never worked on more at once. -/
  peak : a.peak = log.foldl max 0
  /-- An answer is to a request that is being worked on. -/
  answers : ∀ l ∈ w.launches, l.platform = p → l.phase.inFlight = true → 0 < a.inFlight
  /-- A process that is going to be stopped runs. -/
  runs : ∀ {j : Nat} {k : Closing} {x : Member} {round : Round}, w.closings[j]? = some k →
    w.members[k.member]? = some x → x.process.platform = p → x.spec.name ∉ stuck → k.phase = .telling round →
      0 < a.live

/-- **Accounts.** Whatever runs, calls and reapers go on in a world in which a scripted platform has come along, and in
whatever order: it counts the processes that it handed out and those that run, the requests to stop them, and the
requests that it works on and has worked on at most; and it never counts down from nothing. -/
theorem Logs.platform_accounts {failing dying stuck : List String} {delays : List (String × Nat)} {usual : Nat}
    {log : List Nat} (reachable : Reachable w₀) (new : w₀.trade w₀.platforms.size = {})
    (h : Logs (flights w₀.platforms.size)
      { w₀ with platforms := w₀.platforms.push (.scripted failing dying stuck delays usual) } w log) :
    ∃ a, w.platforms[w₀.platforms.size]? =
        some { Platform.scripted failing dying stuck delays usual with accounts := a } ∧
      w.Accounted w₀.platforms.size stuck log a := by
  obtain ⟨a, there, balanced, fair, peak⟩ := h.balanced reachable rfl new
  have here : Reachable w := (reachable.tail (.platform _)).trans h.steps
  have once := here.stopped_subperm w₀.platforms.size
  have fails : ∀ s ∈ (w.trade w₀.platforms.size).served, s.2.isSome = decide (s.1 ∈ stuck) := by
    intro s hs
    obtain ⟨spec, name, stuck⟩ := fair s hs
    rw [name, stuck]
    unfold Platform.scripted
    dsimp only
    split <;> simp [*]
  have succeeds : ∀ s ∈ (w.trade w₀.platforms.size).served, s.2.isNone = decide (s.1 ∉ stuck) := by
    intro s hs
    rw [← Option.not_isSome, fails s hs, decide_not]
  have stuck_eq := stopsOn_eq (fun name => decide (name ∈ stuck)) fun s hs => fails s (once.subset hs)
  have clean_eq := stopsOn_eq (fun name => decide (name ∉ stuck)) fun s hs => succeeds s (once.subset hs)
  refine ⟨a, there, {
    requests := balanced.requests
    realized := balanced.realized
    live := ?live
    stops := ?stops
    stops_le := ?stops_le
    inFlight := balanced.inFlight
    inFlight_le := balanced.inFlight_le
    peak_le := balanced.peak_le
    peak := peak
    answers := ?answers
    runs := ?runs }⟩
  case live => rw [balanced.realized, List.length_map, clean_eq, balanced.live]
  case stops =>
    rw [balanced.stops, stuck_eq, clean_eq, List.length_eq_countP_add_countP (fun s : Served => s.2.isNone)]
    exact congrArg _ (List.countP_congr fun s _ => by cases s.2 <;> simp)
  case stops_le =>
    rw [balanced.stops, balanced.realized, List.length_map]
    exact once.length_le
  case answers =>
    intro l hl on busy
    rw [balanced.inFlight]
    exact Array.countP_pos_iff.mpr ⟨l, hl, by rw [decide_eq_true on, busy]; rfl⟩
  case runs =>
    intro j k x round hk hx on clean hp
    have process : x.servedBy? w₀.platforms.size = some (x.spec.name, x.process.stopError?) := if_pos on
    have more := here.cons_stopped_subperm hk hx hp process
    have ends : x.process.stopError?.isNone = true :=
      (succeeds _ (more.subset List.mem_cons_self)).trans (decide_eq_true clean)
    have counted := Nat.le_trans (more.countP_le (·.2.isNone)) List.countP_le_length
    rw [List.countP_cons_of_pos (p := fun s : Served => s.2.isNone) ends] at counted
    have := balanced.live
    omega

/-- A plan for a member that does well, one that cannot be stopped, one that fails, and one that takes down
whoever launches it. -/
def troupe : Plan where
  members := [⟨0, "steady", { executable := "worker" }, {}⟩, ⟨1, "stubborn", { executable := "worker" }, {}⟩,
    ⟨2, "broken", { executable := "worker" }, {}⟩, ⟨3, "fatal", { executable := "worker" }, {}⟩]

/-- A platform on which they do so; one of them takes its time. -/
def theatre : Platform := .scripted ["broken"] ["fatal"] ["stubborn"] [("stubborn", 5)] 0

/-- All of them were launched at once, and those that there are get closed. -/
def performed : World :=
  (({ stage theatre with
      identities := 1
      runs := #[troupe.plainRun (.random 0) 0 false [0, 1, 2, 3]]
      launches := (troupe.launches 0 0 troupe.observers).toArray } : World).goes
    [.launch 0, .launch 1, .launch 2, .launch 3, .launch 2, .launch 0, .launch 0, .launch 3]).later 5
      [.launch 1, .launch 1, .run 0, .run 0, .run 0, .run 0, .run 0, .closing 0, .closing 0, .closing 1, .closing 1]

theorem steps_performed : Steps (stage theatre) performed := by
  refine .head (.begin troupe 0 none false) ?_
  rw [begin_plain _ rfl]
  exact ((Steps.goes (by decide +kernel)).tail (.pass 5)).trans (Steps.goes (by decide +kernel))

/-- The platform worked on all four requests at once; of the two processes that it was asked to stop one runs on. -/
theorem platform_accounts_performed : ∃ log a, Logs (flights 0) (stage theatre) performed log ∧
    performed.platforms[0]? = some { theatre with accounts := a } ∧ performed.Accounted 0 ["stubborn"] log a ∧
    a = ⟨4, 0, 4, 1, 2, ["steady", "stubborn"]⟩ := by
  obtain ⟨log, logs⟩ := steps_performed.logs (flights 0)
  obtain ⟨a, there, accounted⟩ := Logs.platform_accounts (.refl : Reachable {}) rfl logs
  have counted : performed.platforms[0]?.map (·.accounts) = some ⟨4, 0, 4, 1, 2, ["steady", "stubborn"]⟩ := by
    decide +kernel
  refine ⟨log, a, logs, there, accounted, Option.some.inj ?_⟩
  rw [← counted, show performed.platforms[0]? = _ from there]
  rfl

end World

end Muster
