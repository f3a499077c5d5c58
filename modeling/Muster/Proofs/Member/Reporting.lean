import Muster.Proofs.Member.Doers
import Muster.Proofs.World.Log

/-!
# What there is to report

* `Launch.Phase.Reports`: what a launch has heard of its member is what the observers report that have responded.
* `Core.Faithful`: so it is with launches, and with the calls that close members, whoever closes them.
* **`Core.Faithful.deed`**: every deed keeps launches and calls to what there is to report.
* `World.OpenReachable.faithful`: so it is in every world to which open steps lead.
-/

namespace Muster

/-! ### Rounds -/

namespace Round

variable {round round' : Round} {m : Nat} {x x' : Member} {occasion : Occasion} {earlier : List ObserverFailure}
  {answered : List Observer}

theorem Stands.kept (h : round.Stands m x occasion earlier answered) (kept : x.Kept x') :
    round.Stands m x' occasion earlier answered where
  what := h.what
  whose := h.whose
  all := h.all.trans kept.observers.symm
  failures := by rw [kept.spec]; exact h.failures

/-- A round that goes on stands somewhere. -/
theorem Goes.stands {o : Observer} {rest : List Observer} {beats : List Beat} {told : Told}
    (goes : round.Goes x o rest beats told) (on : told = .on round')
    (h : round.Stands m x occasion earlier answered) (left : round.left = o :: rest) :
    ∃ answered, round'.Stands m x occasion earlier answered := by
  have answer (on : round.answer o rest x.spec.seat = .on round') :
      ∃ answered, round'.Stands m x occasion earlier answered := by
    unfold Round.answer at on
    split at on
    · cases on
    all_goals
      cases on
      exact ⟨_, h.respond left⟩
  cases goes with
  | lingers untold announces due =>
    cases on
    exact ⟨_, h.linger due⟩
  | atOnce | responds => exact answer on

end Round

theorem Member.Kept.reports {x x' : Member} (kept : x.Kept x') (occasion : Occasion) :
    x'.reports occasion = x.reports occasion := by
  unfold Member.reports
  rw [kept.observers, kept.spec]

/-! ### Launches -/

/-- What a launch has heard of its member is what the observers report that have responded. -/
def Launch.Phase.Reports (ms : Array Member) : Launch.Phase → Prop
  | telling round => ∃ x answered, ms[round.member]? = some x ∧ round.Stands round.member x .realized [] answered
  | settled (.realized m failures) => ∃ x, ms[m]? = some x ∧ failures = x.reports .realized
  | _ => True

namespace Launch

variable {ms ms' : Array Member}

theorem Phase.Reports.kept {p : Phase} (h : p.Reports ms) (kept : Grows Member.Kept ms ms') : p.Reports ms' := by
  unfold Phase.Reports at h ⊢
  split at h
  · obtain ⟨x, answered, hx, stands⟩ := h
    obtain ⟨x', hx', kept⟩ := kept hx
    exact ⟨x', answered, hx', stands.kept kept⟩
  · obtain ⟨x, hx, rfl⟩ := h
    obtain ⟨x', hx', kept⟩ := kept hx
    exact ⟨x', hx', (kept.reports .realized).symm⟩
  · trivial

/-- A launch that ends in its member has heard of all its observers. -/
theorem Ends.reports {l : Launch} {o : Outcome} (ends : l.Ends o) (h : l.phase.Reports ms) :
    (Phase.settled o).Reports ms := by
  cases ends with
  | told hp done =>
    rw [hp] at h
    obtain ⟨x, answered, hx, stands⟩ := h
    obtain ⟨rfl, -, failures⟩ := stands.done done
    exact ⟨x, hx, failures⟩
  | refused | struck | felled => trivial

end Launch

namespace Core

variable {c c' : Core} {i j m : Nat}

/-- Launches keep to what observers report if the one that goes on does when it tells them. -/
theorem LaunchMove.reports (move : c.LaunchMove i c')
    (h : ∀ {n : Nat} {l : Launch}, c.launches[n]? = some l → l.phase.Reports c.members)
    (tells : ∀ {l : Launch} {round round' : Round}, c.launches[i]? = some l → l.phase = .telling round →
      c'.launches[i]? = some { l with phase := .telling round' } → (Launch.Phase.telling round').Reports c.members)
    {n : Nat} {l' : Launch} (hl' : c'.launches[n]? = some l') : l'.phase.Reports c'.members := by
  have set {l : Launch} (p : Launch.Phase) (hl : c.launches[i]? = some l) (own : p.Reports c.members)
      (hl' : (c.launches.setIfInBounds i { l with phase := p })[n]? = some l') : l'.phase.Reports c.members := by
    rw [getElem?_replace hl] at hl'
    split at hl'
    · cases hl'
      exact own
    · exact h hl'
  cases move with
  | wait hl => exact set .waiting hl trivial hl'
  | pass hl _ _ _ _ due | ask hl _ due => exact set (.realizing due) hl trivial hl'
  | handOut hl _ id process since =>
    have hl' : (c.launches.setIfInBounds i _)[n]? = some l' := hl'
    rw [getElem?_replace hl] at hl'
    split at hl'
    · cases hl'
      exact ⟨_, [], Array.getElem?_push_size, rfl, rfl, rfl, rfl⟩
    · exact (h hl').kept (Grows.push .refl _ _)
  | tell hl hp => exact set _ hl (tells hl hp (getElem?_replace_self hl _)) hl'
  | settle hl ends | settleLast hl ends => exact set _ hl (ends.reports (h hl)) hl'
  | settleNext hl ends _ _ _ other hn =>
    have hl' : ((c.launches.setIfInBounds i _).setIfInBounds _ _)[n]? = some l' := hl'
    rw [getElem?_replace ((getElem?_replace_of_ne hl other _).trans hn)] at hl'
    split at hl'
    · cases hl'
      trivial
    · exact set _ hl (ends.reports (h hl)) hl'

/-! ### Calls that close members -/

/-- What the call that closes a member is at stays as it is when another call goes on. -/
theorem ClosingMove.elsewhere (move : c.ClosingMove i c') (works : c.Works j m) (sound : c.Sound)
    (other : j ≠ i) : c'.closings[j]? = c.closings[j]? ∧ c'.members[m]? = c.members[m]? := by
  cases move with
  | skip hk | tell hk | stop hk | tellClosed hk | finish hk | fall hk =>
    exact ⟨getElem?_replace_of_ne hk other _, rfl⟩
  | begin hk hx _ fresh =>
    refine ⟨getElem?_replace_of_ne hk other _, getElem?_replace_of_ne hx ?_ _⟩
    rintro rfl
    obtain ⟨y, hy, begun⟩ := works.begun sound
    cases hx.symm.trans hy
    cases fresh.symm.trans begun
  | mark hk hx hp =>
    refine ⟨getElem?_replace_of_ne hk other _, getElem?_replace_of_ne hx ?_ _⟩
    rintro rfl
    exact other (works.eq_of_busy hk rfl (by simp [Closing.Idle, hp]))

/-- A call that closes its member is at what observers report. -/
def Speaks (c : Core) (j : Nat) : Prop :=
  ∃ k x said, c.closings[j]? = some k ∧ c.members[k.member]? = some x ∧ k.phase.Says k.member x said

theorem Speaks.of_eq {k : Closing} {x : Member} {said : List Note} (hk : c.closings[j]? = some k)
    (hx : c.members[k.member]? = some x) (spoken : k.phase.Says k.member x said)
    (still : c'.closings[j]? = c.closings[j]? ∧ c'.members[k.member]? = c.members[k.member]?) : c'.Speaks j :=
  ⟨k, x, said, still.1.trans hk, still.2.trans hx, spoken⟩

/-- A call that goes on in silence is at what observers report. -/
theorem ClosingMove.speaks (move : c.ClosingMove j c') (silent : c.SilentClosing j c') {k : Closing} {x : Member}
    {said : List Note} (hk : c.closings[j]? = some k) (hx : c.members[k.member]? = some x)
    (spoken : k.phase.Says k.member x said) : c'.Speaks j := by
  cases move.quiet silent hk hx spoken.round_member with
  | skip hp | begin hp => exact absurd hp spoken.ne_called
  | @pass c₁ _ _ _ _ closings there _ _ goes =>
    exact ⟨_, _, said, getElem?_replace_self (closings ▸ hk) _, there, goes spoken⟩

/-- Launches and the calls of a log that close members keep to what observers report. -/
structure Faithful (c : Core) (log : List Errand) : Prop where
  launches : ∀ {i : Nat} {l : Launch}, c.launches[i]? = some l → l.phase.Reports c.members
  calls : ∀ {j : Nat}, .member j ∈ log → c.Speaks j

theorem Faithful.empty : Faithful ⟨#[], #[], #[], #[], #[], #[], []⟩ [] where
  launches hl := by simp at hl
  calls := nofun

variable {s : Setting} {beats : List Beat} {log : List Errand}

/-- Callers have launches begin that have told nobody. -/
theorem OutsideMove.launch_cases {closes : Nat → Prop} (move : c.OutsideMove closes c') {n : Nat} {l' : Launch}
    (hl' : c'.launches[n]? = some l') : c.launches[n]? = some l' ∨ l'.phase = .queued := by
  cases move with
  | cancel | close | dissolve => exact .inl hl'
  | begin plan =>
    have hl' : (c.launches ++ _)[n]? = some l' := hl'
    rw [Array.getElem?_append] at hl'
    split at hl'
    · exact .inl hl'
    · obtain ⟨spec, -, rfl⟩ := plan.mem_launches (Array.mem_of_getElem? hl')
      exact .inr rfl
  | launch =>
    have hl' : (c.launches.push _)[n]? = some l' := hl'
    rw [Array.getElem?_push] at hl'
    split at hl'
    · cases hl'
      exact .inr rfl
    · exact .inl hl'

/-- Every deed keeps launches to what observers report. -/
theorem Faithful.launches_deed (h : c.Faithful log) (deed : c.Deed s beats c') {n : Nat} {l' : Launch}
    (hl' : c'.launches[n]? = some l') : l'.phase.Reports c'.members := by
  have keeps := deed.move.keeps
  have old (hl : c.launches[n]? = some l') : l'.phase.Reports c'.members := (h.launches hl).kept keeps.members
  have outside (move : c.OutsideMove s.closes c') : l'.phase.Reports c'.members := by
    rcases move.launch_cases hl' with hl | queued
    · exact old hl
    · rw [queued]
      trivial
  -- a launch that tells its observers has told them of a member that is there
  have there {i : Nat} {l : Launch} {round : Round} (hl : c.launches[i]? = some l) (hp : l.phase = .telling round) :
      (Launch.Phase.telling round).Reports c.members := hp ▸ h.launches hl
  cases deed with
  | launch move silent =>
    refine move.reports h.launches (fun {l round round'} hl hp after => ?_) hl'
    obtain ⟨x, answered, hx, -⟩ := there hl hp
    rcases silent l round hl hp with none | ⟨-, ended⟩
    · cases hx.symm.trans none
    · cases after.symm.trans ended
  | @launchTells _ _ _ _ _ _ _ _ told move hl hp left hx goes after =>
    refine move.reports h.launches (fun {l₁ round₁ round'} hl₁ hp₁ after' => ?_) hl'
    cases hl.symm.trans hl₁
    cases hp.symm.trans hp₁
    obtain ⟨y, answered, hy, stands⟩ := there hl hp
    cases hx.symm.trans hy
    have same : told.launchPhase = .telling round' :=
      congrArg Launch.phase (Option.some.inj (after.symm.trans after'))
    cases told with
    | dead => cases same
    | on round₂ =>
      cases same
      obtain ⟨answered', stands'⟩ := goes.stands rfl stands left
      have whose := stands'.whose
      exact ⟨_, answered', whose ▸ hx, whose ▸ stands'⟩
  | begin plan platform channel? id now cancelled =>
    exact outside (.begin plan platform channel? id now cancelled)
  | outside move => exact outside move
  | closing move => exact old (by cases move <;> exact hl')
  | run move => exact old (by cases move <;> exact hl')
  | reaper move => exact old (by cases move <;> exact hl')
  | dissolution move => exact old (by cases move <;> exact hl')
  | stay | ask | announce | closingTells | stop | succeedEmpty | succeed | degrade | rest | fail | dissolved
  | close => exact old hl'

/-- Every deed keeps the call that closes a member to what observers report. -/
theorem Faithful.calls_deed (h : c.Faithful log) (doers : c.Doers log) (sound : c.Sound) (deed : c.Deed s beats c')
    (hj : .member j ∈ log) : c'.Speaks j := by
  obtain ⟨k, x, said, hk, hx, spoken⟩ := h.calls hj
  obtain ⟨m, works⟩ := doers.works hj
  cases works.closes.eq ⟨k, hk, rfl⟩
  have aside (away : c.Aside c' k.member) : c'.Speaks j :=
    ⟨k, x, said, away.closings hk rfl, away.member.trans hx, spoken⟩
  have elsewhere {i : Nat} (move : c.ClosingMove i c') (other : j ≠ i) : c'.Speaks j :=
    .of_eq hk hx spoken (move.elsewhere works sound other)
  cases deed with
  | stay | ask | announce => exact h.calls hj
  | launch move | launchTells move =>
    exact .of_eq hk hx spoken ⟨by cases move <;> rfl, move.member (sound.lives.calls hk)⟩
  | @closing _ i move silent =>
    by_cases own : j = i
    · subst own
      exact move.speaks silent hk hx spoken
    · exact elsewhere move own
  | @closingTells i k' round y o rest beats told phase hk' hp which left hy goes =>
    by_cases own : j = i
    · subst own
      cases hk.symm.trans hk'
      rw [hp] at spoken
      have member : round.member = k.member := spoken.round_member (by rcases which with rfl | rfl <;> simp)
      rw [member, hx] at hy
      cases hy
      exact ⟨_, x, _, getElem?_replace_self hk _, hx, spoken.tells which left goes⟩
    · exact elsewhere (tell_closingMove hk' hp which left goes) own
  | @stop i k' y round hk' hy hp done due =>
    by_cases own : j = i
    · subst own
      cases hk.symm.trans hk'
      rw [hp] at spoken
      exact ⟨_, x, _, getElem?_replace_self hk _, hx, spoken.stop done due⟩
    · exact elsewhere (.stop hk' hy hp done due) own
  | run move => exact aside move.aside
  | rest hr hp goes _ due => exact aside (RunMove.rest hr hp goes due).aside
  | succeedEmpty hr hp all fine none deadline => exact aside (RunMove.succeedEmpty hr hp all fine none deadline).aside
  | succeed hr hp goes => exact aside (RunMove.succeed hr hp goes).aside
  | degrade hr hp goes _ _ _ seen => exact aside (RunMove.degrade hr hp goes seen).aside
  | fail hr hp ho he => exact aside (.of_eq rfl rfl rfl)
  | reaper move => exact aside move.aside
  | dissolution move => exact aside move.aside
  | dissolved => exact aside (.of_eq rfl rfl rfl)
  | outside move => exact aside move.aside
  | close => exact aside (.call rfl rfl rfl)
  | begin plan platform channel? id now cancelled =>
    have move : c.OutsideMove s.closes _ := .begin plan platform channel? id now cancelled
    exact aside move.aside

/-- **Reports.** Every deed keeps launches and calls that close members to what there is to report. -/
theorem Faithful.deed (h : c.Faithful log) (doers : c.Doers log) (sound : c.Sound) (deed : c.Deed s beats c') :
    c'.Faithful (log ++ c.errands c') where
  launches := h.launches_deed deed
  calls {j} hj := by
    rcases List.mem_append.mp hj with old | new
    · exact h.calls_deed doers sound deed old
    · obtain ⟨k, k', round, hk, hk', called, telling⟩ := member_mem_errands.mp new
      rcases deed.move.closing_cases hk hk' with rfl | move
      · cases called.symm.trans telling
      · cases move with
        | begin hs hx =>
          cases hk.symm.trans hs
          exact ⟨_, _, [], getElem?_replace_self hs _, getElem?_replace_self hx _,
            .telling (Round.Stands.start _ _ .closing []) rfl⟩
        | skip hs =>
          cases (getElem?_replace_self hs _).symm.trans hk'
          cases telling
        | tell hs hp | stop hs _ hp | mark hs _ hp | tellClosed hs hp | finish hs _ hp =>
          cases hk.symm.trans hs
          cases hp.symm.trans called
        | fall hs hp =>
          cases hk.symm.trans hs
          rcases hp with hp | hp <;> cases hp.symm.trans called

/-- A call that closes a member ends in what its observers report, and in why its process could not be stopped. -/
theorem Faithful.ending (h : c.Faithful log) {k : Closing} {x : Member}
    {o : Except CloseFailure (List ObserverFailure)} (hj : .member j ∈ log) (hk : c.closings[j]? = some k)
    (ended : k.phase = .finished o) (hx : c.members[k.member]? = some x) : o = x.ending := by
  obtain ⟨k', x', said, hk', hx', spoken⟩ := h.calls hj
  cases hk.symm.trans hk'
  cases hx.symm.trans hx'
  rw [ended] at spoken
  cases spoken
  rfl

end Core

namespace World

variable {w w' : World} {log : List Errand}

/-- Every open step keeps to what there is to report. -/
theorem OpenStep.faithful (step : OpenStep w w') (sound : w.core.Sound)
    (h : w.core.Doers log ∧ w.core.Faithful log) :
    w'.core.Doers (log ++ w.errands w') ∧ w'.core.Faithful (log ++ w.errands w') := by
  obtain ⟨doers, faithful⟩ := h
  obtain ⟨beats, -, deed⟩ := step.deed sound
  exact ⟨doers.move sound deed.move, faithful.deed doers sound deed⟩

theorem OpenLogs.faithful (h : OpenLogs World.errands {} w log) : w.core.Doers log ∧ w.core.Faithful log :=
  h.keeps (P := fun w log => w.core.Doers log ∧ w.core.Faithful log) .refl ⟨.empty, .empty⟩
    fun reachable _ step h => step.faithful reachable.sound h

theorem OpenReachable.faithful (h : OpenReachable w) : ∃ log, w.core.Doers log ∧ w.core.Faithful log := by
  obtain ⟨log, logs⟩ := LogsOf.exists h World.errands
  exact ⟨log, OpenLogs.faithful logs⟩

end World

end Muster
