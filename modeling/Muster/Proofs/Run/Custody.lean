import Muster.Proofs.Assembly.Stock
import Muster.Proofs.Member.Life
import Muster.Proofs.Run.Books

/-!
# Who may close a member, and who must

* `Run.Allows`: when a run lets a call close a member that came of one of its launches.
* **`Core.Warranted.move`**: where callers close only what they have in their hands, a member that came of a
  launch of a run is closed by nobody until the run has handed it to its caller, but by the run itself once it
  gives up, and by its reaper if it came too late for the run.
* **`Core.Sound.called_move`**: a run that gives up has called for each of its members, and its reaper for
  each member that it was handed, whoever closes members besides.
-/

namespace Muster

/-- When a run lets a call close a member that came of its launch at a place. -/
inductive Run.Allows (run : Run) (i j : Nat) (k : Closing) : Prop where
  /-- The member was handed to the caller. -/
  | handed {a : Nat} (hp : run.phase = .finished (.ok a))
  /-- The run closes its members. -/
  | rolling {cause : Run.Cause} {places : List Nat} (hp : run.phase = .rollingBack cause places)
    (hm : k.member ∈ run.members) (hj : j ∈ places)
  /-- The run has closed its members. -/
  | rolled {e : AssemblyError} {o : Except CloseFailure (List ObserverFailure)}
    (hp : run.phase = .finished (.error e)) (hm : k.member ∈ run.members) (ended : k.phase = .finished o)
  /-- The reaper closes the member. -/
  | reaping (hp : run.reaper? = some ⟨some j⟩) (hm : k.member ∉ run.members) (hi : i ∉ run.pending)
  /-- The reaper has closed the member. -/
  | reaped {o : Except CloseFailure (List ObserverFailure)} (hp : run.reaper?.isSome)
    (hm : k.member ∉ run.members) (hi : i ∉ run.pending) (ended : k.phase = .finished o)

namespace Run.Allows

variable {run run' : Run} {i j : Nat} {k k' : Closing}

theorem kept (h : run.Allows i j k) (kept : k.Kept k') : run.Allows i j k' := by
  cases h with
  | handed hp => exact .handed hp
  | rolling hp hm hj => exact .rolling hp (kept.member ▸ hm) hj
  | rolled hp hm ended => exact .rolled hp (kept.member ▸ hm) (kept.finished ended)
  | reaping hp hm hi => exact .reaping hp (kept.member ▸ hm) hi
  | reaped hp hm hi ended => exact .reaped hp (kept.member ▸ hm) hi (kept.finished ended)

theorem same (h : run.Allows i j k) (same : run.Same run') : run'.Allows i j k := by
  cases h with
  | handed hp => exact .handed (same.phase.trans hp)
  | rolling hp hm hj => exact .rolling (same.phase.trans hp) (same.members ▸ hm) hj
  | rolled hp hm ended => exact .rolled (same.phase.trans hp) (same.members ▸ hm) ended
  | reaping hp hm hi => exact .reaping (same.reaper.trans hp) (same.members ▸ hm) (same.pending ▸ hi)
  | reaped hp hm hi ended =>
    exact .reaped (same.reaper ▸ hp) (same.members ▸ hm) (same.pending ▸ hi) ended

/-- A run that is still at work lets nobody close its members. -/
theorem not_of_working {left : List Nat} (stands : run.Stands left)
    (hp : run.phase = .launching ∨ run.phase = .asking ∨ ∃ due, run.phase = .resting due) :
    ¬ run.Allows i j k := by
  have reaper : run.reaper? = none := by
    rcases hp with hp | hp
    · exact (stands.launching hp).2
    · exact (stands.asking hp).2.2
  intro h
  cases h with
  | handed hp' | rolling hp' | rolled hp' => obtain hp | hp | ⟨due, hp⟩ := hp <;> simp [hp] at hp'
  | reaping hp' | reaped hp' => simp [reaper] at hp'

end Run.Allows

namespace Core

/-- Calls close the members that came of a run's launches only when the run allows it. -/
structure Warranted (c : Core) : Prop where
  allows : ∀ {j r : Nat} {k : Closing} {x : Member} {l : Launch} {run : Run}, c.closings[j]? = some k →
    c.members[k.member]? = some x → c.launches[x.launch]? = some l → l.run? = some r →
    c.runs[r]? = some run → run.Allows x.launch j k

/-- A call for a member has ended, or the reaper of a run is at it. -/
def Reaped (ks : Array Closing) (run : Run) (m : Nat) : Prop :=
  Ended ks m ∨ ∃ j, run.reaper? = some ⟨some j⟩ ∧ Closes ks j m

/-- Members of runs that give up are called for, and so are those that come too late. -/
structure Called (c : Core) : Prop where
  rolling : ∀ {r m : Nat} {run : Run} {cause : Run.Cause} {places : List Nat}, c.runs[r]? = some run →
    run.phase = .rollingBack cause places → m ∈ run.members → ∃ j ∈ places, Closes c.closings j m
  rolled : ∀ {r m : Nat} {run : Run} {e : AssemblyError}, c.runs[r]? = some run →
    run.phase = .finished (.error e) → m ∈ run.members → Ended c.closings m
  reaped : ∀ {i r m : Nat} {run : Run}, i ∈ Launches.ofRun c.launches r → c.runs[r]? = some run →
    Launches.memberOf? c.launches i = some m → i ∉ run.pending → m ∉ run.members →
    Reaped c.closings run m

/-- What holds of every core, however it came about. -/
structure Sound (c : Core) : Prop where
  lined : Lined c.launches c.runs
  born : Born c.members c.launches
  booked : Booked c.launches c.runs
  lives : Lives c.members c.closings c.stopped
  stocked : Stocked c.assemblies c.runs
  dissolved : Dissolved c.assemblies c.dissolutions c.closings
  called : Called c

namespace Sound

variable {c : Core}

/-- The members of a run came of launches of which it took note. -/
theorem launch_of_member (h : c.Sound) {r m : Nat} {run : Run} (hr : c.runs[r]? = some run)
    (hm : m ∈ run.members) : ∃ i l x failures, c.launches[i]? = some l ∧ l.run? = some r ∧
      l.phase = .settled (.realized m failures) ∧ c.members[m]? = some x ∧ x.launch = i ∧
      i ∉ run.pending := by
  obtain ⟨taken, left, ledger⟩ := h.booked r run hr
  obtain ⟨i, hi, him⟩ := List.mem_filterMap.mp (ledger.members.subset hm)
  obtain ⟨l, x, failures, hl, hp, hx, hlaunch, -⟩ := h.born.of_memberOf? him
  obtain ⟨l', hl', hlr⟩ := Launches.mem_ofRun.mp (ledger.mem_ofRun (.inl hi))
  cases hl.symm.trans hl'
  exact ⟨i, l, x, failures, hl, hlr, hp, hx, hlaunch,
    fun pending => ledger.not_left hi (ledger.pending.subset pending)⟩

theorem lt_of_run (h : c.Sound) {r m : Nat} {run : Run} (hr : c.runs[r]? = some run)
    (hm : m ∈ run.members) : m < c.members.size := by
  obtain ⟨_, _, x, _, -, -, -, hx, -⟩ := h.launch_of_member hr hm
  exact lt_of_getElem?_eq_some hx

theorem lt_of_assembly (h : c.Sound) {a m : Nat} {x : Assembly} (ha : c.assemblies[a]? = some x)
    (hm : m ∈ x.members) : m < c.members.size := by
  obtain ⟨r, run, hr, -, members⟩ := h.stocked a x ha
  exact h.lt_of_run hr (members ▸ hm)

theorem lt_of_held (h : c.Sound) {m : Nat} (held : c.Held m) : m < c.members.size :=
  held.lt h.born h.lt_of_assembly

/-- What came of a launch of no run is in its caller's hands, and of no run's launch. -/
theorem run_of_held (h : c.Sound) {r m : Nat} {x : Member} {l : Launch} (held : c.Held m)
    (hx : c.members[m]? = some x) (hl : c.launches[x.launch]? = some l) (hr : l.run? = some r) :
    ∃ run a, c.runs[r]? = some run ∧ run.phase = .finished (.ok a) := by
  rcases held with ⟨y, hy, hm⟩ | ⟨l', hl', none, failures, hp⟩
  · obtain ⟨a, ha⟩ := Array.mem_iff_getElem?.mp hy
    obtain ⟨s, run, hs, hp, members⟩ := h.stocked a y ha
    obtain ⟨i, l', x', _, hl', hlr, -, hx', rfl, -⟩ := h.launch_of_member hs (members ▸ hm)
    cases hx.symm.trans hx'
    cases hl.symm.trans hl'
    cases hr.symm.trans hlr
    exact ⟨run, a, hs, hp⟩
  · obtain ⟨i, hi⟩ := Array.mem_iff_getElem?.mp hl'
    obtain ⟨x', hx', rfl⟩ := h.born.launch hi (.realized hp)
    cases hx.symm.trans hx'
    cases hl.symm.trans hi
    rw [none] at hr
    cases hr

end Sound

variable {c c' : Core} {r i j : Nat} {run run' : Run} {k k' : Closing}

/-- While a run works nobody may close its members; once it closes them, its calls are its own. -/
theorem RunMove.allows (move : c.RunMove r c') {left : List Nat} (stands : run.Stands left)
    (hr : c.runs[r]? = some run) (hr' : c'.runs[r]? = some run') (hk : c.closings[j]? = some k)
    (h : run.Allows i j k) : run'.Allows i j k := by
  cases move with
  | fail hs hp ho =>
    obtain ⟨rfl, rfl⟩ := eq_of_replaced hr hs hr'
    cases h with
    | handed hp' => simp [hp] at hp'
    | rolling hp' hm hj =>
      cases hp.symm.trans hp'
      obtain ⟨k', o, hk', ended⟩ := (outcomes?_eq_some ho).2 j hj
      cases hk.symm.trans hk'
      exact .rolled rfl hm ended
    | rolled hp' => simp [hp] at hp'
    | reaping hp' hm hi => exact .reaping hp' hm hi
    | reaped hp' hm hi ended => exact .reaped hp' hm hi ended
  | take hs hp | giveUp hs hp | refuse hs hp | gather hs hp | succeedEmpty hs hp =>
    cases hr.symm.trans hs
    exact absurd h (Run.Allows.not_of_working stands (.inl hp))
  | dismiss hs hp | succeed hs hp | degrade hs hp | rest hs hp =>
    cases hr.symm.trans hs
    exact absurd h (Run.Allows.not_of_working stands (.inr (.inl hp)))
  | wake hs hp =>
    cases hr.symm.trans hs
    exact absurd h (Run.Allows.not_of_working stands (.inr (.inr ⟨_, hp⟩)))

/-- A reaper lets go of a member only when its call has ended. -/
theorem ReaperMove.allows (move : c.ReaperMove r c')
    (hr : c.runs[r]? = some run) (hr' : c'.runs[r]? = some run') (hk : c.closings[j]? = some k)
    (h : run.Allows i j k) : run'.Allows i j k := by
  cases move with
  | done hs hp hk' ho =>
    obtain ⟨rfl, rfl⟩ := eq_of_replaced hr hs hr'
    cases h with
    | handed hp' => exact .handed hp'
    | rolling hp' hm hj => exact .rolling hp' hm hj
    | rolled hp' hm ended => exact .rolled hp' hm ended
    | reaping hp' hm hi =>
      cases hp.symm.trans hp'
      cases hk.symm.trans hk'
      exact .reaped rfl hm hi ho
    | reaped hp' hm hi ended => exact .reaped rfl hm hi ended
  | drop hs hp | close hs hp =>
    obtain ⟨rfl, rfl⟩ := eq_of_replaced hr hs hr'
    cases h with
    | handed hp' => exact .handed hp'
    | rolling hp' hm hj => exact .rolling hp' hm hj
    | rolled hp' hm ended => exact .rolled hp' hm ended
    | reaping hp' hm hi => simp [hp] at hp'
    | reaped hp' hm hi ended =>
      exact .reaped (by simp [Run.hand, hp]) hm (fun h => hi (List.mem_of_mem_erase h)) ended

/-- A member that a reaper is about to close came too late for its run. -/
theorem Sound.late (h : c.Sound) {m : Nat} {rest : List Nat} (hr : c.runs[r]? = some run)
    (hs : run.settled = i :: rest) (hm : Launches.memberOf? c.launches i = some m) :
    ∃ l x, c.launches[i]? = some l ∧ l.run? = some r ∧ c.members[m]? = some x ∧ x.launch = i ∧
      m ∉ run.members ∧ i ∉ (run.hand i).pending := by
  obtain ⟨taken, left, ledger⟩ := h.booked r run hr
  have pending := ((ledger.settled i).mp (hs ▸ List.mem_cons_self)).1
  have hi := ledger.pending.subset pending
  obtain ⟨l, x, failures, hl, hp, hx, hlaunch, -⟩ := h.born.of_memberOf? hm
  obtain ⟨l', hl', hlr⟩ := Launches.mem_ofRun.mp (ledger.mem_ofRun (.inr hi))
  cases hl.symm.trans hl'
  refine ⟨l, x, hl, hlr, hx, hlaunch, fun member => ?_, fun again => ?_⟩
  · obtain ⟨_, _, y, _, -, -, -, hy, hylaunch, away⟩ := h.launch_of_member hr member
    cases hx.symm.trans hy
    exact away (hylaunch ▸ hlaunch ▸ pending)
  · exact ((ledger.left_nodup.sublist ledger.pending).mem_erase_iff.mp again).1 rfl

/-- Whose member it is was settled when it was born. -/
theorem Sound.owner (h : c.Sound) (keeps : c.Keeps c') {m : Nat} {x x' : Member} {l' : Launch}
    (hx' : c'.members[m]? = some x') (hl' : c'.launches[x'.launch]? = some l')
    (hlr' : l'.run? = some r) (hx : c.members[m]? = some x) :
    ∃ l run, c.launches[x.launch]? = some l ∧ l.run? = some r ∧ x'.launch = x.launch ∧
      c.runs[r]? = some run := by
  obtain ⟨x₁, hx₁, xkept⟩ := keeps.members hx
  cases hx'.symm.trans hx₁
  obtain ⟨l, hl, -⟩ := h.born.member hx
  obtain ⟨l₁, hl₁, lkept⟩ := keeps.launches hl
  rw [xkept.launch] at hl'
  cases hl'.symm.trans hl₁
  have hlr := lkept.run.symm.trans hlr'
  obtain ⟨run, hr⟩ := h.lined.manned hl hlr
  exact ⟨l, run, hl, hlr, xkept.launch, hr⟩

/-- **Warrants.** No move lets a call close a member without its run allowing it, where callers close only what they
have in their hands. -/
theorem Warranted.move (warranted : c.Warranted) (h : c.Sound) (moves : c.Moves c.Held c') : Warranted c' := by
  refine ⟨fun {j r k' x' l' run'} hk' hx' hl' hlr' hr' => ?_⟩
  have move := moves.move
  have keeps := move.keeps
  have owner {x : Member} := h.owner (x := x) keeps hx' hl' hlr'
  by_cases hj : j < c.closings.size
  · obtain ⟨k, hk, kkept⟩ := keeps.closings.of_lt hj hk'
    obtain ⟨x, hx⟩ := exists_getElem? (h.lives.calls hk)
    obtain ⟨l, run, hl, hlr, hlaunch, hr⟩ := owner (kkept.member ▸ hx)
    have allows := warranted.allows hk hx hl hlr hr
    rw [hlaunch]
    rcases move.run_cases hr hr' with same | move | move
    · exact (allows.same same).kept kkept
    · obtain ⟨taken, left, ledger⟩ := h.booked r run hr
      exact (move.allows ledger.stands hr hr' hk allows).kept kkept
    · exact (move.allows hr hr' hk allows).kept kkept
  · have handed (held : c.Held k'.member) : run'.Allows x'.launch j k' := by
      obtain ⟨x, hx⟩ := exists_getElem? (h.lt_of_held held)
      obtain ⟨l, run, hl, hlr, -, -⟩ := owner hx
      obtain ⟨run, a, hr, hp⟩ := h.run_of_held held hx hl hlr
      obtain ⟨run₁, hr₁, rkept⟩ := keeps.runs hr
      cases hr'.symm.trans hr₁
      exact .handed (rkept.finished hp)
    obtain ⟨-, caller⟩ := moves.new_call (Nat.le_of_not_lt hj) hk'
    cases caller with
    | run hs hm hs' hp places hm' =>
      obtain ⟨i, l₁, x, _, hl₁, hlr₁, -, hx, rfl, -⟩ := h.launch_of_member hs hm
      obtain ⟨l, run, hl, hlr, -, hr⟩ := owner hx
      cases hl.symm.trans hl₁
      cases hlr.symm.trans hlr₁
      cases hr'.symm.trans hs'
      exact .rolling hp hm' places
    | reaper hs hsettled hm hs' =>
      obtain ⟨l₁, x, hl₁, hlr₁, hx, rfl, away, late⟩ := h.late hs hsettled hm
      obtain ⟨l, run, hl, hlr, hlaunch, hr⟩ := owner hx
      cases hl.symm.trans hl₁
      cases hlr.symm.trans hlr₁
      cases hr'.symm.trans hs'
      exact .reaping rfl away (hlaunch ▸ late)
    | dissolution ha hm => exact handed (.inl ⟨_, Array.mem_of_getElem? ha, hm⟩)
    | outside _ held => exact handed held

/-! ### Calls that must be made -/

/-- A run that closes its members has called for each of them. -/
theorem Sound.rolling_move (h : c.Sound) (move : c.Move c') {m : Nat} {cause : Run.Cause}
    {places : List Nat} (hr' : c'.runs[r]? = some run') (hp : run'.phase = .rollingBack cause places)
    (hm : m ∈ run'.members) : ∃ j ∈ places, Closes c'.closings j m := by
  have keeps := move.keeps
  obtain ⟨run, hr⟩ := move.old_run hr' (by simp [hp])
  -- the calls that are there stay
  have stay (hp : run.phase = .rollingBack cause places) (hm : m ∈ run.members) :
      ∃ j ∈ places, Closes c'.closings j m := by
    obtain ⟨j, hj, closes⟩ := h.called.rolling hr hp hm
    exact ⟨j, hj, closes.kept keeps⟩
  rcases move.run_cases hr hr' with same | move | move
  · exact stay (same.phase.symm.trans hp) (same.members ▸ hm)
  · cases move with
    | giveUp hs | refuse hs | dismiss hs | degrade hs =>
      cases (getElem?_replace_self hs _).symm.trans hr'
      cases hp
      exact forall₂_right (call_closes c _) hm
    | take hs hq =>
      cases (getElem?_replace_self hs _).symm.trans hr'
      simp [Run.take, hq] at hp
    | gather hs | succeedEmpty hs | succeed hs | rest hs | wake hs | fail hs =>
      cases (getElem?_replace_self hs _).symm.trans hr'
      cases hp
  · obtain ⟨phase, members⟩ := move.stays hr hr'
    exact stay (phase.symm.trans hp) (members ▸ hm)

/-- A run that has closed its members had called for each of them, and the calls have ended. -/
theorem Sound.rolled_move (h : c.Sound) (move : c.Move c') {m : Nat} {e : AssemblyError}
    (hr' : c'.runs[r]? = some run') (hp : run'.phase = .finished (.error e)) (hm : m ∈ run'.members) :
    Ended c'.closings m := by
  have keeps := move.keeps
  obtain ⟨run, hr⟩ := move.old_run hr' (by simp [hp])
  have stay (hp : run.phase = .finished (.error e)) (hm : m ∈ run.members) : Ended c'.closings m :=
    (h.called.rolled hr hp hm).grow keeps.closings
  rcases move.run_cases hr hr' with same | move | move
  · exact stay (same.phase.symm.trans hp) (same.members ▸ hm)
  · cases move with
    | fail hs hq ho =>
      cases (getElem?_replace_self hs _).symm.trans hr'
      obtain ⟨j, hj, k, hk, hkm⟩ := h.called.rolling hs hq hm
      obtain ⟨k', o, hk', ended⟩ := (outcomes?_eq_some ho).2 j hj
      cases hk.symm.trans hk'
      exact Ended.grow ⟨j, k, o, hk, hkm, ended⟩ keeps.closings
    | take hs hq =>
      cases (getElem?_replace_self hs _).symm.trans hr'
      simp [Run.take, hq] at hp
    | giveUp hs | refuse hs | dismiss hs | degrade hs | gather hs | succeedEmpty hs | succeed hs | rest hs
    | wake hs =>
      cases (getElem?_replace_self hs _).symm.trans hr'
      cases hp
  · obtain ⟨phase, members⟩ := move.stays hr hr'
    exact stay (phase.symm.trans hp) (members ▸ hm)

/-- A reaper is at a call until the call has ended. -/
theorem Sound.reaped_kept (h : c.Sound) (move : c.Move c') (hr : c.runs[r]? = some run)
    (hr' : c'.runs[r]? = some run') {m : Nat} (reaped : Reaped c.closings run m) :
    Reaped c'.closings run' m := by
  have keeps := move.keeps
  rcases reaped with ended | ⟨j, busy, closes⟩
  · exact .inl (ended.grow keeps.closings)
  have closes' := closes.kept keeps
  rcases move.run_cases hr hr' with same | move | move
  · exact .inr ⟨j, same.reaper.trans busy, closes'⟩
  · cases move with
    | giveUp hs hp =>
      cases hr.symm.trans hs
      obtain ⟨taken, left, ledger⟩ := h.booked r run hr
      cases busy.symm.trans (ledger.stands.launching hp).2
    | take hs | refuse hs | gather hs | succeedEmpty hs | dismiss hs | succeed hs | degrade hs | rest hs | wake hs
    | fail hs =>
      obtain ⟨rfl, rfl⟩ := eq_of_replaced hr hs hr'
      exact .inr ⟨j, busy, closes'⟩
  · cases move with
    | done hs hp hk ho =>
      cases hr.symm.trans hs
      cases busy.symm.trans hp
      obtain ⟨k, hk', hkm⟩ := closes
      cases hk.symm.trans hk'
      exact .inl (Ended.grow ⟨j, _, _, hk, hkm, ho⟩ keeps.closings)
    | drop hs hp | close hs hp =>
      cases hr.symm.trans hs
      cases busy.symm.trans hp

/-- What had come too late for its run before a move was called for. -/
theorem Sound.reaped_before (h : c.Sound) (keeps : c.Keeps c') {m : Nat}
    (hi : i ∈ Launches.ofRun c.launches r) (hr : c.runs[r]? = some run)
    (him : Launches.memberOf? c'.launches i = some m) (late : i ∉ run.pending)
    (away : m ∉ run.members) : Reaped c.closings run m := by
  obtain ⟨taken, left, ledger⟩ := h.booked r _ hr
  obtain ⟨l, hl, -⟩ := Launches.mem_ofRun.mp hi
  obtain ⟨l', hl', kept⟩ := keeps.launches hl
  -- the launch had ended before, as it is not pending
  cases ended : l.outcome? with
  | none =>
    refine absurd (ledger.pending_of_unsettled hi ?_) late
    rw [Launches.outcome?_of_getElem? hl, ended]
  | some o =>
    have phase := Launch.outcome?_eq_some.mp ended
    obtain ⟨l'', failures, hl'', hp⟩ := Launches.memberOf?_eq_some.mp him
    cases hl'.symm.trans hl''
    cases (kept.settled phase).symm.trans hp
    exact h.called.reaped hi hr (Launches.memberOf?_eq_some.mpr ⟨l, failures, hl, phase⟩) late away

/-- A run takes a launch from those that are pending only together with its member. -/
theorem RunMove.late (move : c.RunMove r c') {m : Nat} (hr : c.runs[r]? = some run)
    (hr' : c'.runs[r]? = some run') (him : Launches.memberOf? c'.launches i = some m)
    (late : i ∉ run'.pending) (away : m ∉ run'.members) : i ∉ run.pending ∧ m ∉ run.members := by
  cases move with
  | @take _ n _ hs =>
    obtain ⟨rfl, rfl⟩ := eq_of_replaced hr hs hr'
    have away := fun hm => away (List.mem_append.mpr hm)
    refine ⟨fun pending => ?_, fun hm => away (.inl hm)⟩
    by_cases own : i = n
    · have him : Launches.memberOf? c.launches i = some m := him
      refine away (.inr ?_)
      rw [← own, him]
      exact List.mem_singleton_self m
    · exact late ((List.mem_erase_of_ne own).mpr pending)
  | gather hs =>
    obtain ⟨rfl, rfl⟩ := eq_of_replaced hr hs hr'
    exact ⟨late, fun hm => away (List.mem_mergeSort.mpr hm)⟩
  | giveUp hs | refuse hs | dismiss hs | degrade hs | succeedEmpty hs | succeed hs | rest hs | wake hs
  | fail hs =>
    obtain ⟨rfl, rfl⟩ := eq_of_replaced hr hs hr'
    exact ⟨late, away⟩

/-- A reaper takes a launch from those that are pending only when it calls for its member, or there is
none. -/
theorem ReaperMove.late (move : c.ReaperMove r c') {m : Nat} (hr : c.runs[r]? = some run)
    (hr' : c'.runs[r]? = some run') (him : Launches.memberOf? c'.launches i = some m)
    (late : i ∉ run'.pending) : i ∉ run.pending ∨ Reaped c'.closings run' m := by
  cases move with
  | done hs =>
    obtain ⟨rfl, rfl⟩ := eq_of_replaced hr hs hr'
    exact .inl late
  | @drop _ n _ hs _ _ none =>
    obtain ⟨rfl, rfl⟩ := eq_of_replaced hr hs hr'
    refine .inl fun pending => late ((List.mem_erase_of_ne ?_).mpr pending)
    rintro rfl
    cases none.symm.trans him
  | @close _ n _ _ hs _ _ some =>
    obtain ⟨rfl, rfl⟩ := eq_of_replaced hr hs hr'
    by_cases own : i = n
    · rw [own] at him
      cases some.symm.trans him
      obtain ⟨j, hj, closes⟩ := forall₂_right (call_closes c _) (List.mem_singleton_self m)
      cases List.mem_singleton.mp hj
      exact .inr (.inr ⟨_, rfl, closes⟩)
    · exact .inl fun pending => late ((List.mem_erase_of_ne own).mpr pending)

/-- A member that came too late for its run was called for once the reaper was handed its launch. -/
theorem Sound.reaped_move (h : c.Sound) (move : c.Move c') {m : Nat}
    (hi : i ∈ Launches.ofRun c'.launches r) (hr' : c'.runs[r]? = some run')
    (him : Launches.memberOf? c'.launches i = some m) (late : i ∉ run'.pending)
    (away : m ∉ run'.members) : Reaped c'.closings run' m := by
  by_cases hlt : r < c.runs.size
  · obtain ⟨run, hr⟩ := exists_getElem? hlt
    rw [move.ofRun_eq hlt] at hi
    have before := h.reaped_before move.keeps hi hr him
    have stay := h.reaped_kept move hr hr' (m := m)
    rcases move.run_cases hr hr' with same | move | move
    · exact stay (before (same.pending ▸ late) (same.members ▸ away))
    · obtain ⟨late, away⟩ := move.late hr hr' him late away
      exact stay (before late away)
    · rcases move.late hr hr' him late with late | reaped
      · exact stay (before late ((move.stays hr hr').2 ▸ away))
      · exact reaped
  · have hp := (move.new_run (Nat.le_of_not_lt hlt) hr').1
    obtain ⟨taken, left, ledger⟩ := h.booked.move h.lined move r run' hr'
    rcases List.mem_append.mp (ledger.all.mem_iff.mpr hi) with ht | hl
    · exact absurd (ledger.members.mem_iff.mpr (List.mem_filterMap.mpr ⟨i, ht, him⟩)) away
    · exact absurd ((ledger.stands.launching hp).1 ▸ hl) late

/-- **Calls.** No move leaves out a member that must be closed. -/
theorem Sound.called_move (h : c.Sound) (move : c.Move c') : Called c' where
  rolling := h.rolling_move move
  rolled := h.rolled_move move
  reaped := h.reaped_move move

end Core

end Muster
