import Muster.Proofs.Launch.Requests
import Muster.Proofs.World.Aloof

/-!
# Dealings with a platform

* `Trade`: what there is in a world of one platform's doing: launches that asked it, and those for which it is
  still at work; members whose processes it handed out, and those of them that it was asked to stop.
* `Dealing`: what a step may have to do with the platform. `Trade.Deals` tells what becomes of the trade,
  `Accounts.enter` what the platform counts.
* `World.Deals.stepLaunch`, `World.Deals.stepClosing`: what the strands that deal with platforms do; all
  others stand aloof.
* **`World.Step.deals`**: every step is one dealing with the platform, or nothing to it.
-/

namespace Muster

/-! ### One platform's doing -/

/-- The platform is at work for a launch in this phase. -/
def Launch.Phase.inFlight : Launch.Phase → Bool
  | realizing _ => true
  | queued | waiting | granted | telling _ | settled _ => false

theorem Launch.Phase.asked_of_inFlight {p : Launch.Phase} (h : p.inFlight = true) : p.asked = true := by
  cases p with
  | realizing => rfl
  | queued | waiting | granted | telling | settled => cases h

/-- How many launches on the platform at a place are in a phase of some sort. -/
def Launches.on (ls : Array Launch) (sort : Launch.Phase → Bool) (p : Nat) : Nat :=
  ls.countP fun l => decide (l.platform = p) && sort l.phase

/-- A process that a platform handed out: the name of its member, and why stopping it fails, if it does. -/
abbrev Served : Type := String × Option PlatformError

/-- The process of a member, if the platform at a place handed it out. -/
def Member.servedBy? (p : Nat) (x : Member) : Option Served :=
  if x.process.platform = p then some (x.spec.name, x.process.stopError?) else none

/-- The processes of members that the platform at a place handed out, in order. -/
def Members.served (ms : Array Member) (p : Nat) : List Served := ms.toList.filterMap (Member.servedBy? p)

/-- The processes that it handed out for the members at some places. -/
def Members.servedAt (ms : Array Member) (p : Nat) (is : List Nat) : List Served :=
  is.filterMap fun m => ms[m]?.bind (Member.servedBy? p)

/-- What there is of one platform's doing. -/
@[ext]
structure Trade where
  /-- How many launches asked the platform. -/
  asked : Nat := 0
  /-- For how many of them it is still at work. -/
  inFlight : Nat := 0
  /-- The processes that it handed out, in order. -/
  served : List Served := []
  /-- Those that it was asked to stop, in order. -/
  stopped : List Served := []

/-- The doing of the platform at a place. -/
def World.trade (w : World) (p : Nat) : Trade where
  asked := Launches.on w.launches Launch.Phase.asked p
  inFlight := Launches.on w.launches Launch.Phase.inFlight p
  served := Members.served w.members p
  stopped := Members.servedAt w.members p w.stopped

/-- What a step has to do with a platform. -/
inductive Dealing where
  /-- Nothing. -/
  | nothing
  /-- A process is asked for. -/
  | request
  /-- The answer is not a process. -/
  | refusal
  /-- The answer is a process for the member of a name. -/
  | handOut (member : String)
  /-- A process is to be stopped, which fails or does not. -/
  | stop (fails : Bool)

/-- What becomes of a platform's doing, where `behaviour` tells what it does for a member. -/
inductive Trade.Deals (behaviour : MemberSpec → Behaviour) (t : Trade) : Dealing → Trade → Prop where
  | nothing : Deals behaviour t .nothing t
  | request : Deals behaviour t .request { t with asked := t.asked + 1, inFlight := t.inFlight + 1 }
  | refusal {n : Nat} (busy : t.inFlight = n + 1) : Deals behaviour t .refusal { t with inFlight := n }
  | handOut {n : Nat} (busy : t.inFlight = n + 1) (spec : MemberSpec) :
    Deals behaviour t (.handOut spec.name)
      { t with inFlight := n, served := t.served ++ [(spec.name, (behaviour spec).stopError?)] }
  | stop (s : Served) : Deals behaviour t (.stop s.2.isSome) { t with stopped := t.stopped ++ [s] }

/-- What a platform counts. -/
def Accounts.enter (a : Accounts) : Dealing → Accounts
  | .nothing => a
  | .request => a.request
  | .refusal => a.answer
  | .handOut member => a.answer.handOut member
  | .stop fails => a.stop fails

/-! ### Counting launches -/

namespace Launches

variable {ls : Array Launch} {sort : Launch.Phase → Bool} {i p : Nat} {l : Launch}

variable (p) in
/-- When a launch goes on, it counts as what it is now and no longer as what it was. -/
theorem on_setPhase (hl : ls[i]? = some l) {phase : Launch.Phase} {was is : Bool} (hwas : sort l.phase = was)
    (his : sort phase = is) :
    on (ls.setIfInBounds i { l with phase }) sort p + (decide (l.platform = p) && was).toNat =
      on ls sort p + (decide (l.platform = p) && is).toNat := by
  obtain ⟨h, here⟩ := Array.getElem?_eq_some_iff.mp hl
  subst hwas his
  unfold on
  rw [Array.setIfInBounds, dif_pos h, Array.countP_set, here]
  have counted : (decide (l.platform = p) && sort l.phase) = true →
      0 < ls.countP fun l => decide (l.platform = p) && sort l.phase :=
    fun counts => Array.countP_pos_iff.mpr ⟨l, Array.mem_of_getElem? hl, counts⟩
  cases was : decide (l.platform = p) && sort l.phase with
  | false => cases decide (l.platform = p) && sort phase <;> simp
  | true =>
    have := counted was
    cases decide (l.platform = p) && sort phase <;> simp <;> omega

/-- A launch that goes on to a phase of the same sort counts as before. -/
theorem on_setPhase_of_same (hl : ls[i]? = some l) {phase : Launch.Phase} (same : sort phase = sort l.phase) :
    on (ls.setIfInBounds i { l with phase }) sort p = on ls sort p :=
  Nat.add_right_cancel (on_setPhase p hl rfl same)

/-- Launches that are added do not count unless they are of the sort. -/
theorem on_append {new : Array Launch} (none : ∀ l ∈ new, sort l.phase = false) :
    on (ls ++ new) sort p = on ls sort p := by
  unfold on
  rw [Array.countP_append, Nat.add_eq_left, Array.countP_eq_zero]
  intro l hl
  rw [none l hl, Bool.and_false]
  exact Bool.false_ne_true

end Launches

/-! ### Counting processes -/

namespace Members

variable {ms : Array Member} {p : Nat}

/-- A platform handed out the processes of all members in order. -/
theorem served_eq (ms : Array Member) (p : Nat) : served ms p = servedAt ms p (List.range ms.size) := by
  have each : (List.range ms.size).map (fun m => ms[m]?) = ms.toList.map some := by
    refine List.ext_getElem (by simp) fun m h h' => ?_
    simp only [List.length_map, Array.length_toList] at h'
    simp [h']
  have mapped : servedAt ms p (List.range ms.size) =
      ((List.range ms.size).map fun m => ms[m]?).filterMap (Option.bind · (Member.servedBy? p)) := by
    rw [List.filterMap_map]
    rfl
  rw [mapped, each, List.filterMap_map]
  rfl

theorem servedAt_set {m : Nat} {x y : Member} (hx : ms[m]? = some x)
    (same : y.servedBy? p = x.servedBy? p) (is : List Nat) :
    servedAt (ms.setIfInBounds m y) p is = servedAt ms p is := by
  refine congrArg (List.filterMap · is) (funext fun j => ?_)
  rw [getElem?_replace hx]
  split
  · rename_i here
    rw [here, hx, Option.bind_some, Option.bind_some, same]
  · rfl

/-- What a platform handed out stays as long as members keep their processes. -/
theorem served_set {m : Nat} {x y : Member} (hx : ms[m]? = some x)
    (same : y.servedBy? p = x.servedBy? p) : served (ms.setIfInBounds m y) p = served ms p := by
  rw [served_eq, served_eq, servedAt_set hx same, Array.size_setIfInBounds]

/-- A member that is added is not one of those that are there. -/
theorem servedAt_push {is : List Nat} (there : ∀ m ∈ is, m < ms.size) (x : Member) :
    servedAt (ms.push x) p is = servedAt ms p is := by
  refine List.filterMap_congr fun m hm => ?_
  rw [Array.getElem?_push_lt (there m hm), Array.getElem?_eq_getElem (there m hm)]

theorem served_push (x : Member) : served (ms.push x) p = served ms p ++ (x.servedBy? p).toList := by
  unfold served
  rw [Array.toList_push, List.filterMap_append]
  cases h : x.servedBy? p <;> simp [h]

end Members

namespace World

variable {w w' : World} {p : Nat}

/-! ### What does not concern the platform -/

/-- What dealings with platforms may change. -/
def floor (w : World) : Array Platform × Array Launch × Array Member × List Nat :=
  (w.platforms, w.launches, w.members, w.stopped)

theorem floor_note_of {o : Occurrence} (h : o.stopped? = none) (w : World) : (w.note o).floor = w.floor := by
  unfold floor
  rw [stopped_note, h, Option.toList_none, List.append_nil]
  rfl

theorem aloof_floor (floor : Array Platform × Array Launch × Array Member × List Nat) :
    Aloof fun w => w.floor = floor where
  note _ unstopped _ here := (floor_note_of unstopped _).trans here
  announce _ _ here := (floor_note_of rfl _).trans here
  questions _ here := here
  runs _ here := here
  closings _ here := here
  assemblies _ here := here
  dissolutions _ here := here

theorem of_floor (same : w'.floor = w.floor) (p : Nat) :
    w'.platforms[p]? = w.platforms[p]? ∧ w'.trade p = w.trade p := by
  obtain ⟨platforms, launches, members, stopped⟩ : w'.platforms = w.platforms ∧ w'.launches = w.launches ∧
      w'.members = w.members ∧ w'.stopped = w.stopped := by
    simpa only [floor, Prod.mk.injEq] using same
  unfold trade
  rw [platforms, launches, members, stopped]
  exact ⟨rfl, rfl⟩

/-- Something happens that is a dealing with the platform at a place. -/
def Deals (w : World) (p : Nat) (w' : World) : Prop :=
  ∀ pf, w.platforms[p]? = some pf → ∃ d,
    w'.platforms[p]? = some { pf with accounts := pf.accounts.enter d } ∧
      (w.trade p).Deals pf.behaviour d (w'.trade p)

/-- What changes neither the platform nor its doing is no dealing. -/
theorem Deals.of_same (platforms : w'.platforms[p]? = w.platforms[p]?) (trade : w'.trade p = w.trade p) :
    w.Deals p w' :=
  fun _ hp => ⟨.nothing, platforms.trans hp, trade ▸ .nothing⟩

theorem Deals.of_floor (same : w'.floor = w.floor) : w.Deals p w' :=
  .of_same (World.of_floor same p).1 (World.of_floor same p).2

/-- What happens after something else that is no dealing. -/
theorem Deals.after {w₁ : World} (same : w₁.floor = w.floor) (h : w₁.Deals p w') : w.Deals p w' := by
  obtain ⟨platforms, trade⟩ := World.of_floor same p
  unfold Deals at h ⊢
  rw [platforms, trade] at h
  exact h

/-- What a platform counts changes where it is changed. -/
theorem platforms_modifyAccounts (w : World) (q : Nat) (f : Accounts → Accounts) (p : Nat) :
    (w.modifyAccounts q f).platforms[p]? =
      if q = p then w.platforms[p]?.map fun pf => { pf with accounts := f pf.accounts }
      else w.platforms[p]? :=
  Array.getElem?_modify

/-! ### Launches -/

section Launch

variable {i : Nat} {l : Launch}

/-- Only launches change when one ends. -/
theorem settle_others (w : World) (i : Nat) (l : Launch) (o : Launch.Outcome) :
    (w.settle i l o).platforms = w.platforms ∧ (w.settle i l o).members = w.members ∧
      (w.settle i l o).stopped = w.stopped := by
  unfold settle releasePermit
  dsimp only
  split
  · exact ⟨rfl, rfl, rfl⟩
  · split <;> exact ⟨rfl, rfl, rfl⟩

/-- A launch that ends counts as one that has ended; the one that gets its permit counts as before. -/
theorem on_settle (lined : Core.Lined w.launches w.runs) {o : Launch.Outcome} (hl : w.launches[i]? = some l)
    (ends : l.Ends o) (sort : Launch.Phase → Bool) (idle : sort .granted = sort .waiting) {was is : Bool}
    (hwas : sort l.phase = was) (his : sort (.settled o) = is) (p : Nat) :
    Launches.on (w.settle i l o).launches sort p + (decide (l.platform = p) && was).toNat =
      Launches.on w.launches sort p + (decide (l.platform = p) && is).toNat := by
  have ended := Launches.on_setPhase p hl hwas his
  rcases launches_settle lined hl ends with launches | ⟨n, next, hn, waits, launches⟩
  · rw [launches, ended]
  · rw [launches, Launches.on_setPhase_of_same hn (by rw [waits, idle]), ended]

/-- A launch goes on for which the platform was not at work and is not now. -/
theorem Deals.setLaunchPhase (hl : w.launches[i]? = some l) {phase : Launch.Phase}
    (asked : phase.asked = l.phase.asked) (inFlight : phase.inFlight = l.phase.inFlight) :
    w.Deals p (w.setLaunchPhase i phase) := by
  have launches : (w.setLaunchPhase i phase).launches = w.launches.setIfInBounds i { l with phase } :=
    congrArg Core.launches (core_setLaunchPhase hl phase)
  refine .of_same rfl (Trade.ext ?_ ?_ rfl rfl) <;> simp only [trade, launches]
  · exact Launches.on_setPhase_of_same hl asked
  · exact Launches.on_setPhase_of_same hl inFlight

/-- A launch that did not ask its platform before does so now. -/
theorem Deals.askPlatform (hl : w.launches[i]? = some l) (first : l.phase.asked = false) :
    w.Deals p (w.askPlatform i l) := by
  have idle : l.phase.inFlight = false :=
    Bool.eq_false_iff.mpr fun busy => Bool.noConfusion (first.symm.trans (Launch.Phase.asked_of_inFlight busy))
  obtain ⟨due, core⟩ := core_askPlatform hl l
  have trade : (w.askPlatform i l).trade p = { w.trade p with
      asked := (w.trade p).asked + (decide (l.platform = p)).toNat
      inFlight := (w.trade p).inFlight + (decide (l.platform = p)).toNat } := by
    have launches : (w.askPlatform i l).launches = w.launches.setIfInBounds i { l with phase := .realizing due } :=
      congrArg Core.launches core
    have stopped : (w.askPlatform i l).stopped = w.stopped := congrArg Core.stopped core
    have busy : Launch.Phase.asked (.realizing due) = true ∧ Launch.Phase.inFlight (.realizing due) = true :=
      ⟨rfl, rfl⟩
    refine Trade.ext ?_ ?_ rfl ?_ <;> simp only [World.trade, launches, stopped]
    · simpa only [Bool.and_false, Bool.and_true, Bool.toNat_false, Nat.add_zero] using
        Launches.on_setPhase p hl first busy.1
    · simpa only [Bool.and_false, Bool.and_true, Bool.toNat_false, Nat.add_zero] using
        Launches.on_setPhase p hl idle busy.2
    · rfl
  have platforms : (w.askPlatform i l).platforms[p]? = _ := platforms_modifyAccounts _ l.platform _ p
  by_cases here : l.platform = p
  · intro pf hpf
    rw [if_pos here, show (World.note _ _).platforms[p]? = some pf from hpf] at platforms
    rw [trade, decide_eq_true here]
    exact ⟨.request, platforms, .request⟩
  · refine .of_same (platforms.trans (if_neg here)) ?_
    rw [trade, decide_eq_false here]
    rfl

/-- A launch for which the platform was at work has ended. -/
theorem trade_settle (lined : Core.Lined w.launches w.runs) (hl : w.launches[i]? = some l) {due : Nat}
    (hp : l.phase = .realizing due) {o : Launch.Outcome} (ends : l.Ends o) (p : Nat) :
    ∃ n, (w.trade p).inFlight = n + (decide (l.platform = p)).toNat ∧
      (w.settle i l o).trade p = { w.trade p with inFlight := n } := by
  obtain ⟨-, members, stopped⟩ := settle_others w i l o
  have asked := on_settle lined hl ends Launch.Phase.asked rfl (congrArg _ hp)
    (rfl : _ = true) p
  have inFlight := on_settle lined hl ends Launch.Phase.inFlight rfl
    (congrArg _ hp : _ = true) (rfl : _ = false) p
  rw [Bool.and_false, Bool.and_true] at inFlight
  refine ⟨_, inFlight.symm, Trade.ext (Nat.add_right_cancel asked) rfl ?_ ?_⟩ <;>
    simp only [trade, members, stopped]

/-- The platform answers, and does not hand out a process. -/
theorem Deals.refuse (lined : Core.Lined w.launches w.runs) (hl : w.launches[i]? = some l) {due : Nat}
    (hp : l.phase = .realizing due) {o : Launch.Outcome} (ends : l.Ends o) :
    w.Deals p ((w.modifyAccounts l.platform Accounts.answer).settle i l o) := by
  obtain ⟨others, -, -⟩ := settle_others (w.modifyAccounts l.platform Accounts.answer) i l o
  have platforms := (congrArg (·[p]?) others).trans
    (platforms_modifyAccounts w l.platform Accounts.answer p)
  obtain ⟨n, busy, trade⟩ := trade_settle (w := w.modifyAccounts l.platform Accounts.answer) lined hl hp ends p
  by_cases here : l.platform = p
  · intro pf hpf
    rw [if_pos here, hpf] at platforms
    rw [decide_eq_true here] at busy
    rw [trade]
    exact ⟨.refusal, platforms, .refusal busy⟩
  · refine .of_same (platforms.trans (if_neg here)) ?_
    rw [decide_eq_false here] at busy
    rw [trade]
    exact Trade.ext rfl busy.symm rfl rfl

/-- There is one more member, whose process is the platform's. -/
theorem core_handOut (hl : w.launches[i]? = some l) (pf : Platform) (b : Behaviour) (given : Option Nat)
    (f : Accounts → Accounts) (phase : Launch.Phase) (p : Nat) :
    ∃ x, (((w.addMember i l pf b given).2.modifyAccounts l.platform f).setLaunchPhase i phase).core =
        (w.core.addMember x).setLaunch i { l with phase } ∧
      x.servedBy? p = if l.platform = p then some (l.spec.name, b.stopError?) else none :=
  ⟨_, core_setLaunchPhase (w := (w.addMember i l pf b given).2.modifyAccounts l.platform f) hl phase, rfl⟩

/-- What a platform counts changes once and again. -/
theorem platforms_modifyAccounts_twice (w₁ : World) {q : Nat} {f : Accounts → Accounts}
    (same : w₁.platforms = (w.modifyAccounts q f).platforms) (g : Accounts → Accounts) (p : Nat) :
    (w₁.modifyAccounts q g).platforms[p]? =
      if q = p then w.platforms[p]?.map fun pf => { pf with accounts := g (f pf.accounts) }
      else w.platforms[p]? := by
  rw [platforms_modifyAccounts, same, platforms_modifyAccounts]
  split
  · rw [Option.map_map]
    rfl
  · rfl

/-- The platform answers with a process: there is one more member. -/
theorem Deals.handOut (known : ∀ m ∈ w.stopped, m < w.members.size) (hl : w.launches[i]? = some l) {due : Nat}
    (hp : l.phase = .realizing due) {pf : Platform} (hpf : w.platforms[l.platform]? = some pf)
    (given : Option Nat) {phase : Launch.Phase} (asked : phase.asked = true) (idle : phase.inFlight = false) :
    w.Deals p ((((w.modifyAccounts l.platform Accounts.answer).addMember i l pf (pf.behaviour l.spec)
      given).2.modifyAccounts l.platform (·.handOut l.spec.name)).setLaunchPhase i phase) := by
  have platforms := platforms_modifyAccounts_twice (w := w) (q := l.platform) (f := Accounts.answer)
    ((w.modifyAccounts l.platform Accounts.answer).addMember i l pf (pf.behaviour l.spec) given).2
    rfl (·.handOut l.spec.name) p
  obtain ⟨x, core, process⟩ := core_handOut (w := w.modifyAccounts l.platform Accounts.answer) hl pf
    (pf.behaviour l.spec) given (·.handOut l.spec.name) phase p
  rw [core_modifyAccounts] at core
  generalize handed : World.modifyAccounts _ _ _ = w₁ at platforms core ⊢
  generalize done : w₁.setLaunchPhase i phase = w' at core ⊢
  rw [show w₁.platforms = w'.platforms by rw [← done]; rfl] at platforms
  have members : w'.members = w.members.push x := congrArg Core.members core
  have launches : w'.launches = w.launches.setIfInBounds i { l with phase } := congrArg Core.launches core
  have stopped : w'.stopped = w.stopped := congrArg Core.stopped core
  have trade : w'.trade p = { w.trade p with
      inFlight := (w'.trade p).inFlight
      served := (w.trade p).served ++ (x.servedBy? p).toList } := by
    refine Trade.ext ?_ rfl ?_ ?_ <;> simp only [World.trade, members, launches, stopped]
    · exact Launches.on_setPhase_of_same hl (asked.trans (by rw [hp]; rfl))
    · exact Members.served_push x
    · exact Members.servedAt_push known x
  have inFlight : (w'.trade p).inFlight + (decide (l.platform = p)).toNat = (w.trade p).inFlight := by
    have busy : l.phase.inFlight = true := by rw [hp]; rfl
    have counted := Launches.on_setPhase p hl busy idle
    rw [Bool.and_false, Bool.and_true] at counted
    simp only [World.trade, launches]
    exact counted
  by_cases here : l.platform = p
  · intro pf' hpf'
    subst here
    cases hpf'.symm.trans hpf
    rw [if_pos rfl, hpf'] at platforms
    rw [decide_eq_true rfl] at inFlight
    rw [trade, process, if_pos rfl]
    exact ⟨.handOut l.spec.name, platforms, .handOut inFlight.symm l.spec⟩
  · refine .of_same (platforms.trans (if_neg here)) ?_
    rw [decide_eq_false here] at inFlight
    rw [trade, process, if_neg here]
    exact Trade.ext rfl inFlight (List.append_nil _) rfl

/-- The platform answers. -/
theorem Deals.takeAnswer (lined : Core.Lined w.launches w.runs) (known : ∀ m ∈ w.stopped, m < w.members.size)
    (hl : w.launches[i]? = some l) {due : Nat} (hp : l.phase = .realizing due) :
    w.Deals p (w.takeAnswer i l) := by
  unfold World.takeAnswer
  split
  · rename_i none
    have nobody : w.modifyAccounts l.platform Accounts.answer = w := by
      unfold modifyAccounts modifyPlatform
      rw [modify_eq_self none]
    have refused := Deals.refuse (p := p) lined hl hp (.struck hp "")
    rw [nobody] at refused
    exact refused
  · rename_i pf hpf
    dsimp only
    split
    · exact .refuse lined hl hp (.refused hp _)
    · exact .refuse lined hl hp (.struck hp _)
    · rename_i given _
      exact .handOut known hl hp hpf given rfl rfl

/-- A launch ends for which the platform was not at work any more. -/
theorem Deals.settle (lined : Core.Lined w.launches w.runs) (hl : w.launches[i]? = some l) {round : Round}
    (hp : l.phase = .telling round) {o : Launch.Outcome} (ends : l.Ends o) :
    w.Deals p (w.settle i l o) := by
  obtain ⟨platforms, members, stopped⟩ := settle_others w i l o
  refine .of_same (by rw [platforms]) (Trade.ext ?_ ?_ ?_ ?_) <;> simp only [trade, members, stopped]
  · exact Nat.add_right_cancel (on_settle lined hl ends Launch.Phase.asked rfl (congrArg _ hp) rfl p)
  · exact Nat.add_right_cancel (on_settle lined hl ends Launch.Phase.inFlight rfl (congrArg _ hp) rfl p)

/-- A launch tells its observers, and that is no dealing with a platform. -/
theorem Deals.tellLaunch (lined : Core.Lined w.launches w.runs) {round : Round}
    (hl : w.launches[i]? = some l) (hp : l.phase = .telling round) (left : round.left ≠ []) :
    w.Deals p (match w.tell round with
      | (w, .on round) => w.setLaunchPhase i (.telling round)
      | (w, .dead message) => w.settle i l (.died message)) := by
  obtain ⟨o, rest, left⟩ := List.exists_cons_of_ne_nil left
  cases hx : w.members[round.member]? with
  | none =>
    rw [tell_nobody w hx]
    exact .setLaunchPhase hl (by rw [hp]; rfl) (by rw [hp]; rfl)
  | some x =>
    have core := core_tell w round
    have floor := (aloof_floor w.floor).tell round rfl
    obtain ⟨beats, -, goes⟩ := tell_goes w left hx
    generalize w.tell round = told at core floor goes ⊢
    obtain ⟨w', told⟩ := told
    have hl' : w'.launches[i]? = some l := (congrArg (·.launches[i]?) core).trans hl
    have lined' : Core.Lined w'.core.launches w'.core.runs := by rw [core]; exact lined
    have leads := goes.leadsTo left
    cases told with
    | on round' => exact .after floor (.setLaunchPhase hl' (by rw [hp]; rfl) (by rw [hp]; rfl))
    | dead message =>
      exact .after floor (.settle lined' hl' hp (.felled hp (left ▸ List.mem_cons_self) leads message))

/-- **One step of a launch.** -/
theorem Deals.stepLaunch (lined : Core.Lined w.launches w.runs) (known : ∀ m ∈ w.stopped, m < w.members.size)
    (i : Nat) : w.Deals p (w.stepLaunch i) := by
  unfold World.stepLaunch
  split
  · exact .of_floor rfl
  rename_i l hl
  split
  · rename_i queued
    split
    · exact .askPlatform hl (by rw [queued]; rfl)
    · split
      · exact Deals.askPlatform (w := w.modifyRun _ _) hl (by rw [queued]; rfl)
      · exact Deals.setLaunchPhase (w := w.modifyRun _ _) hl (by rw [queued]; rfl) (by rw [queued]; rfl)
  · rename_i granted
    exact .askPlatform hl (by rw [granted]; rfl)
  · rename_i due hp
    exact .takeAnswer lined known hl hp
  · rename_i round hp
    split
    · rename_i done
      exact .settle lined hl hp (.told hp (List.isEmpty_iff.mp done))
    · rename_i left
      exact .tellLaunch lined hl hp fun none => left (List.isEmpty_iff.mpr none)
  · exact .of_floor rfl
  · exact .of_floor rfl

/-- Launches that are added have not asked anybody. -/
theorem Deals.append (new : Array Launch) (queued : ∀ l ∈ new, l.phase = .queued)
    (platforms : w'.platforms = w.platforms) (core : w'.core.members = w.core.members ∧
      w'.core.launches = w.core.launches ++ new ∧ w'.core.stopped = w.core.stopped) : w.Deals p w' := by
  obtain ⟨members, launches, stopped⟩ := core
  have members : w'.members = w.members := members
  have launches : w'.launches = w.launches ++ new := launches
  have stopped : w'.stopped = w.stopped := stopped
  refine .of_same (by rw [platforms]) (Trade.ext ?_ ?_ ?_ ?_) <;> simp only [trade, members, launches, stopped]
  · exact Launches.on_append fun l hl => by rw [queued l hl]; rfl
  · exact Launches.on_append fun l hl => by rw [queued l hl]; rfl

end Launch

/-! ### Calls that close members -/

section Closing

/-- A member changes whose process stays. -/
theorem Deals.modifyMember {m : Nat} {x : Member} (hx : w.members[m]? = some x) {f : Member → Member}
    (process : (f x).process = x.process) (spec : (f x).spec = x.spec) : w.Deals p (w.modifyMember m f) := by
  have members : (w.modifyMember m f).members = w.members.setIfInBounds m (f x) :=
    congrArg Core.members (core_modifyMember hx f)
  have same : (f x).servedBy? p = x.servedBy? p := by
    unfold Member.servedBy?
    rw [process, spec]
  refine .of_same rfl (Trade.ext rfl rfl ?_ ?_) <;> simp only [trade, members]
  · exact Members.served_set hx same
  · exact Members.servedAt_set hx same _

/-- A platform is asked to stop the process of a member. -/
theorem Deals.stopProcess {m : Nat} {x : Member} (hx : w.members[m]? = some x) (j : Nat)
    (failures : List ObserverFailure) : w.Deals p (w.stopProcess j m x failures) := by
  have platforms := platforms_modifyAccounts w x.process.platform (·.stop x.process.stopError?.isSome) p
  have stopped : (w.stopProcess j m x failures).stopped = w.stopped ++ [m] := stopped_note w (.stopped m)
  have trade : (w.stopProcess j m x failures).trade p =
      { w.trade p with stopped := (w.trade p).stopped ++ (x.servedBy? p).toList } := by
    refine Trade.ext rfl rfl rfl ?_
    show Members.servedAt w.members p _ = Members.servedAt w.members p _ ++ _
    rw [stopped]
    unfold Members.servedAt
    rw [List.filterMap_append]
    cases h : x.servedBy? p <;> simp [hx, h]
  by_cases here : x.process.platform = p
  · intro pf hpf
    rw [if_pos here, hpf] at platforms
    have process : x.servedBy? p = some (x.spec.name, x.process.stopError?) := if_pos here
    rw [trade, process]
    exact ⟨.stop x.process.stopError?.isSome, platforms, .stop (x.spec.name, x.process.stopError?)⟩
  · refine .of_same (platforms.trans (if_neg here)) ?_
    have process : x.servedBy? p = none := if_neg here
    rw [trade, process]
    exact Trade.ext rfl rfl rfl (List.append_nil _)

/-- **One step of a call that closes a member.** -/
theorem Deals.stepClosing (j : Nat) : w.Deals p (w.stepClosing j) := by
  have goes (round : Round) (phase : Round → Closing.Phase) : w.Deals p (w.stepClosingRound j round phase) := by
    refine .of_floor ?_
    have told := (aloof_floor w.floor).tell round rfl
    unfold stepClosingRound
    split <;> rename_i same <;> rw [same] at told <;> exact told
  unfold World.stepClosing
  split
  · exact .of_floor rfl
  split
  · exact .of_floor rfl
  rename_i k _ x hx
  split
  · unfold beginClosing
    split
    · exact .of_floor rfl
    · exact Deals.modifyMember (f := fun m => { m with closeStarted := true, state := .closing }) hx rfl rfl
  · split
    · exact .stopProcess hx j _
    · exact goes _ _
  · exact Deals.modifyMember (f := fun m => { m with state := .closed }) hx rfl rfl
  · split
    · unfold finishClosing
      split
      · exact .of_floor rfl
      · exact .of_floor ((aloof_floor w.floor).log _ _ rfl)
    · exact goes _ _
  · exact .of_floor rfl
  · exact .of_floor rfl

end Closing

/-! ### Steps -/

theorem platforms_begin (w : World) (plan : Plan) (platform : Nat) (channel? : Option Nat)
    (cancelled : Bool) : (w.begin plan platform channel? cancelled).2.platforms = w.platforms := by
  unfold World.begin beginWith
  dsimp only
  generalize announced : World.announceRun _ _ _ = w'
  have same : w'.platforms = w.platforms := by
    rw [← announced]
    exact congrArg Prod.fst ((aloof_floor _).announceRun _ _ rfl)
  rw [queueLaunches_eq]
  exact same

/-- **Dealings.** Every step is one dealing with a platform that is there, or nothing to it. -/
theorem Step.deals (step : Step w w') (sound : w.core.Sound) (there : p < w.platforms.size) : w.Deals p w' := by
  cases step with
  | advance t =>
    cases t with
    | launch i => exact .stepLaunch sound.lined (fun m => sound.lives.stopped) i
    | closing j => exact .stepClosing j
    | run r => exact .of_floor ((aloof_floor w.floor).stepRun r rfl)
    | reaper r => exact .of_floor ((aloof_floor w.floor).stepReaper r rfl)
    | dissolution d => exact .of_floor ((aloof_floor w.floor).stepDissolution d rfl)
  | begin plan platform channel? cancelled =>
    have core := core_begin w plan platform channel? cancelled
    refine .append _ (fun l hl => ?_) (platforms_begin w plan platform channel? cancelled)
      ⟨by rw [core]; rfl, by rw [core]; rfl, by rw [core]; rfl⟩
    obtain ⟨spec, -, rfl⟩ := plan.mem_launches hl
    rfl
  | launch spec platform observers =>
    exact .append #[_] (fun l hl => by rw [Array.mem_singleton.mp hl]) rfl ⟨rfl, Array.push_eq_append, rfl⟩
  | ask a => exact .of_floor ((aloof_floor w.floor).isStable a rfl)
  | announce channel e => exact .of_floor ((aloof_floor w.floor).announce channel e rfl)
  | platform q =>
    exact .of_same ((Array.getElem?_push_lt there).trans (Array.getElem?_eq_getElem there).symm) rfl
  | pass | cancel | close | dissolve | channel => exact .of_floor rfl

end World

end Muster
