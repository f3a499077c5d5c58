import Mathlib.Tactic.Common
import Muster.Proofs.Chronicle.Deed

/-!
# Launches and closings are deeds

* `World.Enters`: what is entered in the record, and what is done to the core of a world, is a deed.
* `World.tell_goes`: telling the next observer, or hearing the one that was told, is how a round goes on.
* **`World.enters_stepLaunch`**, **`World.enters_stepClosing`**: what launches and calls that close members do
  is a deed.
-/

namespace Muster

namespace World

/-- What is entered in the record goes with what is done to the core. -/
def Enters (w : World) (s : Core.Setting) (w' : World) : Prop :=
  ∃ beats, w'.record = w.record ++ beats.flatMap Beat.entries ∧ w.core.Deed s beats w'.core

variable {w w' : World} {s : Core.Setting}

/-- Nothing is entered in the record. -/
theorem Enters.silent (same : w'.record = w.record) (deed : w.core.Deed s [] w'.core) : w.Enters s w' :=
  ⟨[], by rw [same]; exact (List.append_nil _).symm, deed⟩

theorem Enters.stay (w : World) : w.Enters s w := .silent rfl .stay

/-! ### Rounds -/

theorem leaveTrail_announces (w : World) (o : Observer) (occasion : Occasion) (x : Member) :
    ∃ events : List (Nat × Event), (w.leaveTrail o occasion x).record =
      w.record ++ (events.map fun e => .announced e.1 e.2) ∧ o.Announces x occasion events := by
  unfold leaveTrail Observer.Announces
  cases o.trail with
  | silent | records => exact ⟨[], (List.append_nil _).symm, rfl⟩
  | journals => exact ⟨[], (record_note_of rfl w).trans (List.append_nil _).symm, rfl⟩
  | announces channel assembly => exact ⟨[_], record_announce w channel _, w, rfl⟩

theorem respond_answer (w : World) (round : Round) (o : Observer) (rest : List Observer) (seat : Seat) :
    (w.respond round o rest seat).1.record = w.record ∧
      (w.respond round o rest seat).2 = round.answer o rest seat := by
  unfold respond Round.answer Observer.report?
  cases (o.reaction round.occasion seat).response with
  | fine => exact ⟨rfl, by simp⟩
  | fails causes => exact ⟨record_log w _ _, rfl⟩
  | dies message => exact ⟨rfl, rfl⟩

/-- **Telling.** Telling the next observer, or hearing the one that was told, is how a round goes on. -/
theorem tell_goes (w : World) {round : Round} {x : Member} {o : Observer} {rest : List Observer}
    (left : round.left = o :: rest) (hx : w.members[round.member]? = some x) :
    ∃ beats, (w.tell round).1.record = w.record ++ beats.flatMap Beat.entries ∧
      round.Goes x o rest beats (w.tell round).2 := by
  unfold tell
  rw [left, hx]
  dsimp only
  split
  · rename_i due told
    obtain ⟨record, answer⟩ := respond_answer w round o rest x.spec.seat
    rw [record, answer]
    exact ⟨[], (List.append_nil _).symm, .responds told⟩
  · rename_i untold
    obtain ⟨events, record, announces⟩ :=
      leaveTrail_announces (w.note (.told o.id round.occasion round.member x.state)) o round.occasion x
    have entered : ((w.note (.told o.id round.occasion round.member x.state)).leaveTrail o round.occasion
        x).record = w.record ++
          [Beat.tell round.member o round.occasion x.state events].flatMap Beat.entries := by
      rw [record, record_note, List.append_assoc, List.flatMap_singleton]
      rfl
    split
    · obtain ⟨same, answer⟩ := respond_answer ((w.note (.told o.id round.occasion round.member
        x.state)).leaveTrail o round.occasion x) round o rest x.spec.seat
      rw [same, answer]
      exact ⟨_, entered, .atOnce untold announces⟩
    · rename_i delay _
      have lingers : round.Goes x o rest _ _ := .lingers untold announces
        (((w.note (.told o.id round.occasion round.member x.state)).leaveTrail o round.occasion x).now +
          delay + 1)
      rw [left] at lingers
      exact ⟨_, entered, lingers⟩

/-- Nobody is told of a member that is not there. -/
theorem tell_nobody (w : World) {round : Round} (none : w.members[round.member]? = none) :
    w.tell round = (w, .on { round with left := [] }) := by
  unfold tell
  rw [none]
  split
  · rename_i some
    cases some
  · rfl

/-! ### Launches -/

section Launch

variable {i : Nat} {l : Launch}

theorem core_askPlatform (hl : w.launches[i]? = some l) (x : Launch) :
    ∃ due, (w.askPlatform i x).core = w.core.setLaunch i { l with phase := .realizing due } := by
  refine ⟨w.now + ((w.platforms[x.platform]?.map fun p => (p.behaviour x.spec).delay).getD 0), ?_⟩
  unfold askPlatform
  dsimp only
  rw [core_setLaunchPhase (w := (w.note _).modifyAccounts _ _) hl, core_modifyAccounts, core_note rfl]

theorem settle_eq_of_line {o : Launch.Outcome} {r : Nat} {run : Run} (hr : l.run? = some r)
    (hrun : w.runs[r]? = some run) :
    w.settle i l o = match run.line with
      | next :: line => ((((w.setLaunchPhase i (.settled o)).modifyRun r fun run =>
          { run with line }).setLaunchPhase next .granted).modifyRun r fun run =>
            { run with settled := run.settled ++ [i] })
      | [] => ((w.setLaunchPhase i (.settled o)).modifyRun r fun run =>
          { run with permits := run.permits + 1 }).modifyRun r fun run =>
            { run with settled := run.settled ++ [i] } := by
  have hline : (w.setLaunchPhase i (.settled o)).runs[r]?.map (·.line) = some run.line := by
    rw [show (w.setLaunchPhase i (.settled o)).runs[r]? = some run from hrun, Option.map_some]
  unfold settle releasePermit
  simp only [hr, hline]
  cases run.line <;> rfl

theorem core_settle_last {o : Launch.Outcome} {r : Nat} {run : Run} (hl : w.launches[i]? = some l)
    (hr : l.run? = some r) (hrun : w.runs[r]? = some run) (empty : run.line = []) :
    (w.settle i l o).core = (w.core.setLaunch i { l with phase := .settled o }).setRun r
      { run with permits := run.permits + 1, settled := run.settled ++ [i] } := by
  have h := settle_eq_of_line (i := i) (o := o) hr hrun
  rw [empty] at h
  rw [h]
  unfold modifyRun setLaunchPhase modifyLaunch core Core.setLaunch Core.setRun
  dsimp only
  rw [modify_modify_eq_setIfInBounds hrun, modify_eq_setIfInBounds hl]
  rfl

theorem core_settle_next {o : Launch.Outcome} {r n : Nat} {run : Run} {next : Launch} {line : List Nat}
    (hl : w.launches[i]? = some l) (hr : l.run? = some r) (hrun : w.runs[r]? = some run)
    (first : run.line = n :: line) (other : n ≠ i) (hn : w.launches[n]? = some next) :
    (w.settle i l o).core = ((w.core.setLaunch i { l with phase := .settled o }).setLaunch n
      { next with phase := .granted }).setRun r { run with line, settled := run.settled ++ [i] } := by
  have h := settle_eq_of_line (i := i) (o := o) hr hrun
  rw [first] at h
  rw [h]
  have hn' : (w.launches.setIfInBounds i { l with phase := .settled o })[n]? = some next := by
    rw [getElem?_replace_of_ne hl other, hn]
  unfold modifyRun setLaunchPhase modifyLaunch core Core.setLaunch Core.setRun
  dsimp only
  rw [modify_modify_eq_setIfInBounds hrun, modify_eq_setIfInBounds hl, modify_eq_setIfInBounds hn']
  rfl

/-- A launch that may end does so. -/
theorem launchMove_settle (lined : Core.Lined w.launches w.runs) {o : Launch.Outcome}
    (hl : w.launches[i]? = some l) (ends : l.Ends o) :
    w.core.LaunchMove i (w.settle i l o).core ∧
      (w.settle i l o).core.launches[i]? = some { l with phase := .settled o } := by
  have own := getElem?_replace_self hl { l with phase := .settled o }
  rcases Option.eq_none_or_eq_some l.run? with hr | ⟨r, hr⟩
  · have alone : w.settle i l o = w.setLaunchPhase i (.settled o) := by
      unfold settle
      simp only [hr]
    rw [alone, core_setLaunchPhase hl]
    exact ⟨.settle hl ends hr, own⟩
  · obtain ⟨run, hrun⟩ := lined.manned hl hr
    cases hline : run.line with
    | nil =>
      rw [core_settle_last hl hr hrun hline]
      exact ⟨.settleLast hl ends hr hrun hline, own⟩
    | cons next line =>
      obtain ⟨ln, hn, waits, -⟩ := lined.waits hrun (hline ▸ List.mem_cons_self)
      have other : next ≠ i := by
        intro same
        rw [same, hl] at hn
        cases hn
        exact ends.not_waiting waits
      rw [core_settle_next hl hr hrun hline other hn]
      refine ⟨.settleNext hl ends hr hrun hline other hn waits, ?_⟩
      exact (getElem?_replace_of_ne ((getElem?_replace_of_ne hl other _).trans hn) other.symm _).trans own

theorem launchMove_handOut {due : Nat} (hl : w.launches[i]? = some l) (hp : l.phase = .realizing due)
    (p : Platform) (b : Behaviour) (given : Option Nat) (f : Accounts → Accounts) :
    w.core.LaunchMove i
      (let (m, w) := w.addMember i l p b given
       let w := w.modifyAccounts l.platform f
       w.setLaunchPhase i (.telling (w.round .realized m []))).core := by
  dsimp only
  rw [core_setLaunchPhase (w := (w.addMember i l p b given).2.modifyAccounts l.platform f) hl]
  have round : ((w.addMember i l p b given).2.modifyAccounts l.platform f).round .realized
      (w.addMember i l p b given).1 [] = .start .realized w.core.members.size l.observers [] := by
    simp [World.round, addMember, freshId, modifyAccounts, modifyPlatform, Round.start, core]
  rw [round]
  exact .handOut hl hp _ _ _

theorem launchMove_takeAnswer (lined : Core.Lined w.launches w.runs) {due : Nat}
    (hl : w.launches[i]? = some l) (hp : l.phase = .realizing due) :
    w.core.LaunchMove i (w.takeAnswer i l).core := by
  unfold takeAnswer
  split
  · exact (launchMove_settle lined hl (.struck hp _)).1
  · dsimp only
    split
    · exact (launchMove_settle (w := w.modifyAccounts _ _) lined hl (.refused hp _)).1
    · exact (launchMove_settle (w := w.modifyAccounts _ _) lined hl (.struck hp _)).1
    · exact launchMove_handOut (w := w.modifyAccounts _ _) hl hp _ _ _ _

theorem enters_tellLaunch (lined : Core.Lined w.launches w.runs) {round : Round}
    (hl : w.launches[i]? = some l) (hp : l.phase = .telling round) (left : round.left ≠ []) :
    w.Enters s (match w.tell round with
      | (w, .on round) => w.setLaunchPhase i (.telling round)
      | (w, .dead message) => w.settle i l (.died message)) := by
  obtain ⟨o, rest, left⟩ := List.exists_cons_of_ne_nil left
  cases hx : w.members[round.member]? with
  | none =>
    rw [tell_nobody w hx]
    dsimp only
    refine .silent rfl ?_
    rw [core_setLaunchPhase hl]
    refine .launch (.tell hl hp rfl List.nil_suffix) fun l' round' hl' hp' => .inl ?_
    cases hl.symm.trans hl'
    cases hp.symm.trans hp'
    exact hx
  | some x =>
    have hcore := core_tell w round
    obtain ⟨beats, record, goes⟩ := tell_goes w left hx
    generalize w.tell round = told at hcore record goes ⊢
    obtain ⟨w', told⟩ := told
    dsimp only at hcore record goes
    have hl' : w'.launches[i]? = some l := (congrArg (·.launches[i]?) hcore).trans hl
    obtain ⟨move, after⟩ : w.core.LaunchMove i (match (w', told) with
        | (w, .on round) => w.setLaunchPhase i (.telling round)
        | (w, .dead message) => w.settle i l (.died message)).core ∧
        (match (w', told) with
        | (w, .on round) => w.setLaunchPhase i (.telling round)
        | (w, .dead message) => w.settle i l (.died message)).core.launches[i]? =
          some { l with phase := told.launchPhase } := by
      have leads := goes.leadsTo left
      cases told with
      | on round' =>
        dsimp only
        rw [core_setLaunchPhase hl', hcore]
        exact ⟨.tell hl hp leads.1 leads.2, getElem?_replace_self hl _⟩
      | dead message =>
        have lined' : Core.Lined w'.core.launches w'.core.runs := by rw [hcore]; exact lined
        rw [← hcore]
        exact launchMove_settle lined' hl' (.felled hp (left ▸ List.mem_cons_self) leads message)
    refine ⟨beats, ?_, .launchTells move hl hp left hx goes after⟩
    rw [← record]
    cases told with
    | on round' => rfl
    | dead message => exact record_settle w' i l _

theorem enters_stepLaunch (lined : Core.Lined w.launches w.runs) (i : Nat) : w.Enters s (w.stepLaunch i) := by
  -- a launch that does not tell observers yet is silent
  have silent {l : Launch} {w' : World} (hl : w.launches[i]? = some l)
      (hp : ∀ round, l.phase ≠ .telling round) (same : w'.record = w.record)
      (move : w.core.LaunchMove i w'.core) : w.Enters s w' := by
    refine .silent same (.launch move fun l' round hl' hp' => absurd hp' ?_)
    cases hl.symm.trans hl'
    exact hp round
  unfold stepLaunch
  split
  · exact .stay w
  rename_i l hl
  split
  · rename_i hp
    split
    · rename_i hr
      obtain ⟨due, h⟩ := core_askPlatform hl l
      exact silent hl (by simp [hp]) (record_askPlatform w i l) (h ▸ .ask hl (.inr ⟨hp, hr⟩) due)
    · rename_i r hr
      obtain ⟨run, hrun⟩ := lined.manned hl hr
      split
      · rename_i permits free
        have hrun' : w.runs[r]? = some run := hrun
        rw [hrun', Option.map_some] at free
        obtain ⟨due, h⟩ := core_askPlatform (w := w.modifyRun r fun run => { run with permits }) hl l
        refine silent hl (by simp [hp]) (record_askPlatform _ i l) ?_
        rw [h, core_modifyRun hrun]
        exact .pass hl hp hr hrun (Option.some.inj free) due
      · refine silent hl (by simp [hp]) rfl ?_
        rw [core_setLaunchPhase (w := w.modifyRun r _) hl, core_modifyRun hrun]
        exact .wait hl hp hr hrun
  · rename_i hp
    obtain ⟨due, h⟩ := core_askPlatform hl l
    exact silent hl (by simp [hp]) (record_askPlatform w i l) (h ▸ .ask hl (.inl hp) due)
  · rename_i due hp
    exact silent hl (by simp [hp]) (record_takeAnswer w i l) (launchMove_takeAnswer lined hl hp)
  · rename_i round hp
    split
    · rename_i done
      have done := List.isEmpty_iff.mp done
      obtain ⟨move, after⟩ := launchMove_settle lined hl (.told hp done)
      refine .silent (record_settle w i l _) (.launch move fun l' round' hl' hp' => .inr ?_)
      cases hl.symm.trans hl'
      cases hp.symm.trans hp'
      exact ⟨done, after⟩
    · rename_i left
      exact enters_tellLaunch lined hl hp fun h => left (List.isEmpty_iff.mpr h)
  · exact .stay w
  · exact .stay w

end Launch

/-! ### Calls that close members -/

section Closing

variable {j : Nat} {k : Closing}

theorem enters_tellClosing {round : Round} (hk : w.closings[j]? = some k)
    {phase : Round → Closing.Phase} (hp : k.phase = phase round)
    (which : phase = .telling ∨ phase = .tellingClosed) (left : round.left ≠ []) :
    w.Enters s (w.stepClosingRound j round phase) := by
  obtain ⟨o, rest, left⟩ := List.exists_cons_of_ne_nil left
  unfold stepClosingRound
  cases hx : w.members[round.member]? with
  | none =>
    rw [tell_nobody w hx]
    dsimp only
    refine .silent rfl ?_
    rw [core_setClosingPhase hk]
    refine .closing (j := j) ?_ fun k' round' hk' => ?_
    · rcases which with rfl | rfl
      · exact .tell hk hp List.nil_suffix
      · exact .tellClosed hk hp List.nil_suffix
    · cases hk.symm.trans hk'
      refine ⟨fun hp' => ?_, fun hp' => .inl ?_⟩
      all_goals
        rcases which with rfl | rfl <;> cases hp.symm.trans hp'
        exact hx
  | some x =>
    have hcore := core_tell w round
    obtain ⟨beats, record, goes⟩ := tell_goes w left hx
    generalize w.tell round = told at hcore record goes ⊢
    obtain ⟨w', told⟩ := told
    dsimp only at hcore record goes
    have hk' : w'.closings[j]? = some k := (congrArg (·.closings[j]?) hcore).trans hk
    have deed : w.core.Deed s beats _ := .closingTells hk hp which left hx goes
    cases told with
    | on round' =>
      refine ⟨beats, record, ?_⟩
      dsimp only
      rw [core_setClosingPhase hk', hcore]
      exact deed
    | dead message =>
      refine ⟨beats, record, ?_⟩
      dsimp only
      rw [core_setClosingPhase hk', hcore]
      exact deed

theorem closingMove_begin {x : Member} (hk : w.closings[j]? = some k)
    (hx : w.members[k.member]? = some x) (hp : k.phase = .called) :
    w.core.ClosingMove j (w.beginClosing j k.member x).core := by
  unfold beginClosing
  split
  · rename_i begun
    rw [core_setClosingPhase hk]
    exact .skip hk hx hp begun
  · rename_i fresh
    dsimp only
    rw [core_setClosingPhase (w := w.modifyMember k.member _) hk, core_modifyMember hx]
    have round : (w.modifyMember k.member fun m =>
        { m with closeStarted := true, state := .closing }).round .closing k.member [] =
        .start .closing k.member x.observers [] := by
      simp [World.round, modifyMember, Array.getElem?_modify, hx, Round.start]
    rw [round]
    exact .begin hk hx hp (Bool.eq_false_iff.mpr fresh)

theorem closingMove_mark {x : Member} {due : Nat} {failures : List ObserverFailure}
    (hk : w.closings[j]? = some k) (hx : w.members[k.member]? = some x)
    (hp : k.phase = .stopping due failures) :
    w.core.ClosingMove j (w.markClosed j k.member failures).core := by
  unfold markClosed
  dsimp only
  rw [core_setClosingPhase (w := w.modifyMember k.member _) hk, core_modifyMember hx]
  have round : (w.modifyMember k.member fun m => { m with state := .closed }).round .closed k.member
      failures = .start .closed k.member x.observers failures := by
    simp [World.round, modifyMember, Array.getElem?_modify, hx, Round.start]
  rw [round]
  exact .mark hk hx hp

theorem closingMove_finish {x : Member} {round : Round} (hk : w.closings[j]? = some k)
    (hx : w.members[k.member]? = some x) (hp : k.phase = .tellingClosed round)
    (done : round.left = []) :
    w.core.ClosingMove j (w.finishClosing j x round.failures).core := by
  unfold finishClosing
  split
  · rename_i fine
    rw [core_setClosingPhase hk]
    exact .finish hk hx hp done (by rw [fine])
  · rename_i cause fails
    rw [core_setClosingPhase (w := w.log _ _) hk, core_log]
    exact .finish hk hx hp done (by rw [fails])

/-- A call that ends has ended. -/
theorem closings_finish (hk : w.closings[j]? = some k) (x : Member) (failures : List ObserverFailure) :
    ∃ o, (w.finishClosing j x failures).core.closings[j]? = some { k with phase := .finished o } := by
  unfold finishClosing
  split
  · rw [core_setClosingPhase hk]
    exact ⟨_, getElem?_replace_self hk _⟩
  · rw [core_setClosingPhase (w := w.log _ _) hk, core_log]
    exact ⟨_, getElem?_replace_self hk _⟩

theorem record_finishClosing (w : World) (j : Nat) (x : Member) (failures : List ObserverFailure) :
    (w.finishClosing j x failures).record = w.record := by
  unfold finishClosing
  split
  · rfl
  · exact record_log w _ _

theorem enters_stepClosing (w : World) (j : Nat) : w.Enters s (w.stepClosing j) := by
  -- a call that tells nobody is silent
  have silent {k : Closing} {w' : World} (hk : w.closings[j]? = some k)
      (telling : ∀ round, k.phase ≠ .telling round) (closed : ∀ round, k.phase ≠ .tellingClosed round)
      (same : w'.record = w.record) (move : w.core.ClosingMove j w'.core) : w.Enters s w' := by
    refine .silent same (.closing move fun k' round hk' => ?_)
    cases hk.symm.trans hk'
    exact ⟨fun hp => absurd hp (telling round), fun hp => absurd hp (closed round)⟩
  unfold stepClosing
  split
  · exact .stay w
  rename_i k hk
  split
  · exact .stay w
  rename_i x hx
  split
  · rename_i hp
    refine silent hk (by simp [hp]) (by simp [hp]) ?_ (closingMove_begin hk hx hp)
    unfold beginClosing
    split <;> rfl
  · rename_i round hp
    split
    · rename_i done
      unfold stopProcess
      dsimp only
      refine ⟨[.stop k.member], record_note w _, ?_⟩
      rw [core_setClosingPhase (w := (w.note _).modifyAccounts _ _) hk, core_modifyAccounts,
        core_note_stopped]
      exact .stop hk hx hp (List.isEmpty_iff.mp done) _
    · rename_i left
      exact enters_tellClosing hk hp (.inl rfl) fun h => left (List.isEmpty_iff.mpr h)
  · rename_i due failures hp
    exact silent hk (by simp [hp]) (by simp [hp]) rfl (closingMove_mark hk hx hp)
  · rename_i round hp
    split
    · rename_i done
      have done := List.isEmpty_iff.mp done
      refine .silent (record_finishClosing w j x _)
        (.closing (closingMove_finish hk hx hp done) fun k' round' hk' => ?_)
      cases hk.symm.trans hk'
      refine ⟨fun hp' => (by cases hp.symm.trans hp'), fun hp' => .inr ?_⟩
      cases hp.symm.trans hp'
      exact ⟨done, closings_finish hk x _⟩
    · rename_i left
      exact enters_tellClosing hk hp (.inr rfl) fun h => left (List.isEmpty_iff.mpr h)
  · exact .stay w
  · exact .stay w

end Closing

end World

end Muster
