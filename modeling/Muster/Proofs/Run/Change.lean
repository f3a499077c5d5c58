import Muster.Proofs.Core.Keeping

/-!
# How runs and calls change

* **`Core.Move.run_cases`**: a move leaves the account of a run alone, unless it is a move of the run
  itself or of its reaper.
* `Core.Move.run_lasts`: what a run keeps as long as it lasts.
* `Core.Move.dissolution_cases`, `Core.Move.closing_cases`: a call that closes an assembly or a member
  changes only in moves of its own.
* **`Core.Moves.new_call`**: a call that closes a member is added by a run that closes its members, by a
  reaper, by a call that closes an assembly, or by a caller.
-/

namespace Muster

theorem Run.outcome?_eq_some {run : Run} {o : Except AssemblyError Nat} :
    run.outcome? = some o ↔ run.phase = .finished o := by
  unfold outcome?
  split
  · rename_i o' hp
    rw [hp, Option.some.injEq, Run.Phase.finished.injEq]
  · rename_i unfinished
    refine ⟨fun h => ?_, fun hp => absurd hp (unfinished o)⟩
    cases h

/-- What a run keeps as long as it lasts; and once its caller has given up it is given up. -/
structure Run.Lasts (run run' : Run) : Prop where
  id : run'.id = run.id
  channel : run'.channel? = run.channel?
  predicate : run'.predicate = run.predicate
  cancelled : run.cancelled = true → run'.cancelled = true

theorem Run.Lasts.refl (run : Run) : run.Lasts run := ⟨rfl, rfl, rfl, fun h => h⟩

/-- The account of a run is left alone. -/
structure Run.Same (run run' : Run) : Prop where
  lasts : run.Lasts run'
  phase : run'.phase = run.phase
  members : run'.members = run.members
  pending : run'.pending = run.pending
  failures : run'.failures = run.failures
  outstanding : run'.outstanding = run.outstanding
  reaper : run'.reaper? = run.reaper?
  reports : run'.observerFailures = run.observerFailures
  evaluations : run'.evaluations = run.evaluations

theorem Run.Same.refl (run : Run) : run.Same run := ⟨.refl run, rfl, rfl, rfl, rfl, rfl, rfl, rfl, rfl⟩

theorem Run.Same.of_eq {run run' : Run} (h : run' = run) : run.Same run' := h ▸ .refl run'

namespace Core

variable {c c' : Core} {r : Nat} {run run' : Run}

/-- Of all runs only the one at a place may be changed, and its account is not. -/
theorem same_of_setRun {rs : Array Run} {s : Nat} {x x' : Run} (hx : rs[s]? = some x) (same : x.Same x')
    (hr : rs[r]? = some run) (hr' : (rs.setIfInBounds s x')[r]? = some run') : run.Same run' := by
  rw [getElem?_replace hx] at hr'
  split at hr'
  · rename_i own
    rw [own, hx] at hr
    cases hr
    cases hr'
    exact same
  · rw [hr] at hr'
    cases hr'
    exact .refl run

theorem run_eq (same : c'.runs = c.runs) (hr : c.runs[r]? = some run) (hr' : c'.runs[r]? = some run') :
    run' = run := by
  rw [same, hr] at hr'
  exact (Option.some.inj hr').symm

theorem run_eq_of_ne {s : Nat} {x x' : Run} (hx : c.runs[s]? = some x) (other : r ≠ s)
    (set : c'.runs = c.runs.setIfInBounds s x') (hr : c.runs[r]? = some run)
    (hr' : c'.runs[r]? = some run') : run' = run := by
  rw [set, getElem?_replace_of_ne hx other, hr] at hr'
  exact (Option.some.inj hr').symm

theorem LaunchMove.run_same {i : Nat} (move : c.LaunchMove i c') (hr : c.runs[r]? = some run)
    (hr' : c'.runs[r]? = some run') : run.Same run' := by
  cases move with
  | wait _ _ _ hrun | pass _ _ _ hrun | settleLast _ _ _ hrun | settleNext _ _ _ hrun =>
    refine same_of_setRun hrun ?_ hr hr'
    exact ⟨⟨rfl, rfl, rfl, fun h => h⟩, rfl, rfl, rfl, rfl, rfl, rfl, rfl, rfl⟩
  | ask | handOut | tell | settle => exact .of_eq (run_eq rfl hr hr')

theorem ClosingMove.runs_eq {j : Nat} (move : c.ClosingMove j c') : c'.runs = c.runs := by
  cases move <;> rfl

theorem DissolutionMove.runs_eq {d : Nat} (move : c.DissolutionMove d c') : c'.runs = c.runs := by
  cases move <;> rfl

theorem RunMove.run_eq {s : Nat} (move : c.RunMove s c') (other : r ≠ s)
    (hr : c.runs[r]? = some run) (hr' : c'.runs[r]? = some run') : run' = run := by
  cases move with
  | take hs | giveUp hs | refuse hs | gather hs | succeedEmpty hs | dismiss hs | succeed hs
  | degrade hs | rest hs | wake hs | fail hs => exact run_eq_of_ne hs other rfl hr hr'

theorem ReaperMove.run_eq {s : Nat} (move : c.ReaperMove s c') (other : r ≠ s)
    (hr : c.runs[r]? = some run) (hr' : c'.runs[r]? = some run') : run' = run := by
  cases move with
  | done hs | drop hs | close hs => exact run_eq_of_ne hs other rfl hr hr'

/-- Callers do nothing to a run but give it up. -/
theorem OutsideMove.run_cases {closes : Nat → Prop} (move : c.OutsideMove closes c') (hr : c.runs[r]? = some run)
    (hr' : c'.runs[r]? = some run') : run' = run ∨ run' = { run with cancelled := true } := by
  cases move with
  | @cancel s x hs =>
    by_cases other : r = s
    · subst other
      obtain ⟨rfl, rfl⟩ := eq_of_replaced hr hs hr'
      exact .inr rfl
    · exact .inl (run_eq_of_ne hs other rfl hr hr')
  | begin plan platform channel? id now cancelled =>
    have hr' : (c.runs.push _)[r]? = some run' := hr'
    rw [Array.getElem?_push_lt (lt_of_getElem?_eq_some hr)] at hr'
    rw [Array.getElem?_eq_getElem (lt_of_getElem?_eq_some hr)] at hr
    exact .inl (Option.some.inj (hr'.symm.trans hr))
  | launch | close | dissolve => exact .inl (run_eq rfl hr hr')

theorem OutsideMove.run_same {closes : Nat → Prop} (move : c.OutsideMove closes c') (hr : c.runs[r]? = some run)
    (hr' : c'.runs[r]? = some run') : run.Same run' := by
  rcases move.run_cases hr hr' with rfl | rfl
  · exact .refl _
  · exact ⟨⟨rfl, rfl, rfl, fun _ => rfl⟩, rfl, rfl, rfl, rfl, rfl, rfl, rfl, rfl⟩

/-- The account of a run changes only in its own moves and those of its reaper. -/
theorem Move.run_cases (move : c.Move c') (hr : c.runs[r]? = some run)
    (hr' : c'.runs[r]? = some run') : run.Same run' ∨ c.RunMove r c' ∨ c.ReaperMove r c' := by
  cases move with
  | stay => exact .inl (.of_eq (run_eq rfl hr hr'))
  | launch i move => exact .inl (move.run_same hr hr')
  | closing j move => exact .inl (.of_eq (run_eq move.runs_eq hr hr'))
  | run s move =>
    by_cases other : r = s
    · exact .inr (.inl (other ▸ move))
    · exact .inl (.of_eq (move.run_eq other hr hr'))
  | reaper s move =>
    by_cases other : r = s
    · exact .inr (.inr (other ▸ move))
    · exact .inl (.of_eq (move.run_eq other hr hr'))
  | dissolution d move => exact .inl (.of_eq (run_eq move.runs_eq hr hr'))
  | outside move => exact .inl (move.run_same hr hr')

/-- A reaper leaves the phase and the members of its run alone. -/
theorem ReaperMove.stays (move : c.ReaperMove r c') (hr : c.runs[r]? = some run)
    (hr' : c'.runs[r]? = some run') : run'.phase = run.phase ∧ run'.members = run.members := by
  cases move with
  | done hs | drop hs | close hs =>
    obtain ⟨rfl, rfl⟩ := eq_of_replaced hr hs hr'
    exact ⟨rfl, rfl⟩

/-- A reaper leaves alone what its run has heard. -/
theorem ReaperMove.heard (move : c.ReaperMove r c') (hr : c.runs[r]? = some run)
    (hr' : c'.runs[r]? = some run') : run.Lasts run' ∧
      run'.observerFailures = run.observerFailures ∧ run'.evaluations = run.evaluations := by
  cases move with
  | done hs | drop hs | close hs =>
    obtain ⟨rfl, rfl⟩ := eq_of_replaced hr hs hr'
    exact ⟨⟨rfl, rfl, rfl, fun h => h⟩, rfl, rfl⟩

/-- What a run keeps no move changes. -/
theorem Move.run_lasts (move : c.Move c') (hr : c.runs[r]? = some run) (hr' : c'.runs[r]? = some run') :
    run.Lasts run' := by
  rcases move.run_cases hr hr' with same | move | move
  · exact same.lasts
  · cases move with
    | take hs | giveUp hs | refuse hs | gather hs | succeedEmpty hs | dismiss hs | succeed hs
    | degrade hs | rest hs | wake hs | fail hs =>
      obtain ⟨rfl, rfl⟩ := eq_of_replaced hr hs hr'
      exact ⟨rfl, rfl, rfl, fun h => h⟩
  · exact (move.heard hr hr').1

/-- Once its members are launched, a run keeps them. -/
theorem Move.members_eq (move : c.Move c') (hr : c.runs[r]? = some run) (hr' : c'.runs[r]? = some run')
    (launched : run.phase ≠ .launching) : run'.members = run.members := by
  rcases move.run_cases hr hr' with same | move | move
  · exact same.members
  · cases move with
    | take hs hp | giveUp hs hp | refuse hs hp | gather hs hp | succeedEmpty hs hp =>
      cases hr.symm.trans hs
      exact absurd hp launched
    | dismiss hs | succeed hs | degrade hs | rest hs | wake hs | fail hs =>
      obtain ⟨rfl, rfl⟩ := eq_of_replaced hr hs hr'
      rfl
  · exact (move.stays hr hr').2

/-- A call that closes an assembly changes only in moves of its own. -/
theorem Move.dissolution_cases (move : c.Move c') {d : Nat} {y y' : Dissolution}
    (hd : c.dissolutions[d]? = some y) (hd' : c'.dissolutions[d]? = some y') :
    y' = y ∨ c.DissolutionMove d c' := by
  have still (h : c'.dissolutions = c.dissolutions) : y' = y := by
    rw [h, hd] at hd'
    exact (Option.some.inj hd').symm
  cases move with
  | stay => exact .inl (still rfl)
  | launch i move => exact .inl (still (by cases move <;> rfl))
  | closing j move => exact .inl (still (by cases move <;> rfl))
  | run s move => exact .inl (still (by cases move <;> rfl))
  | reaper s move => exact .inl (still (by cases move <;> rfl))
  | dissolution e move =>
    by_cases other : d = e
    · exact .inr (other ▸ move)
    · refine .inl ?_
      cases move with
      | skip he | begin he | finish he =>
        have same := (getElem?_replace_of_ne he other _).symm.trans hd'
        exact Option.some.inj (same.symm.trans hd)
  | outside move =>
    cases move with
    | cancel | begin | launch | close => exact .inl (still rfl)
    | dissolve known =>
      have hd' : (c.dissolutions.push _)[d]? = some y' := hd'
      rw [Array.getElem?_push_lt (lt_of_getElem?_eq_some hd), ← Array.getElem?_eq_getElem, hd] at hd'
      exact .inl (Option.some.inj hd').symm

theorem Move.dissolution_there (move : c.Move c') {d : Nat} {y : Dissolution}
    (hd : c.dissolutions[d]? = some y) : ∃ y', c'.dissolutions[d]? = some y' := by
  cases move with
  | stay => exact ⟨y, hd⟩
  | launch i move => exact ⟨y, by cases move <;> exact hd⟩
  | closing j move => exact ⟨y, by cases move <;> exact hd⟩
  | run r move => exact ⟨y, by cases move <;> exact hd⟩
  | reaper r move => exact ⟨y, by cases move <;> exact hd⟩
  | dissolution e move =>
    refine exists_getElem? ?_
    cases move with
    | skip | begin | finish =>
      exact Nat.lt_of_lt_of_eq (lt_of_getElem?_eq_some hd) Array.size_setIfInBounds.symm
  | outside move =>
    cases move with
    | cancel | begin | launch | close => exact ⟨y, hd⟩
    | dissolve =>
      refine exists_getElem? ?_
      exact Nat.lt_of_lt_of_le (lt_of_getElem?_eq_some hd) (by simp)

/-- A call that closes a member changes only in moves of its own. -/
theorem Move.closing_cases (move : c.Move c') {j : Nat} {k k' : Closing}
    (hk : c.closings[j]? = some k) (hk' : c'.closings[j]? = some k') : k' = k ∨ c.ClosingMove j c' := by
  have still (h : c'.closings = c.closings) : k' = k := by
    rw [h, hk] at hk'
    exact (Option.some.inj hk').symm
  have grown {ms : List Nat} (h : c'.closings = (c.call ms).closings) : k' = k := by
    rw [h] at hk'
    have same := (Array.getElem?_append_left (lt_of_getElem?_eq_some hk)).symm.trans hk'
    exact Option.some.inj (same.symm.trans hk)
  cases move with
  | stay => exact .inl (still rfl)
  | launch i move => exact .inl (still (by cases move <;> rfl))
  | closing i move =>
    by_cases other : j = i
    · exact .inr (other ▸ move)
    · refine .inl ?_
      cases move with
      | skip hi | begin hi | tell hi | stop hi | mark hi | tellClosed hi | finish hi | fall hi =>
        have same := (getElem?_replace_of_ne hi other _).symm.trans hk'
        exact Option.some.inj (same.symm.trans hk)
  | run r move =>
    cases move with
    | giveUp | refuse | dismiss | degrade => exact .inl (grown rfl)
    | take | gather | succeedEmpty | succeed | rest | wake | fail => exact .inl (still rfl)
  | reaper r move =>
    cases move with
    | close => exact .inl (grown rfl)
    | done | drop => exact .inl (still rfl)
  | dissolution d move =>
    cases move with
    | begin => exact .inl (grown rfl)
    | skip | finish => exact .inl (still rfl)
  | outside move =>
    cases move with
    | close => exact .inl (grown rfl)
    | cancel | begin | launch | dissolve => exact .inl (still rfl)

/-- A run that was not there before is launching its members, and has asked nothing. -/
theorem Move.new_run (move : c.Move c') (hr : c.runs.size ≤ r) (hr' : c'.runs[r]? = some run') :
    run'.phase = .launching ∧ run'.evaluations = 0 := by
  have old {P : Prop} (h : c'.runs.size ≤ c.runs.size) : P :=
    absurd (lt_of_getElem?_eq_some hr') (Nat.not_lt_of_le (Nat.le_trans h hr))
  cases move with
  | stay => exact old (Nat.le_refl _)
  | launch i move => exact old (by cases move <;> simp [setLaunch, setRun, addMember])
  | closing j move => exact old (by cases move <;> exact Nat.le_refl _)
  | run s move =>
    exact old (by cases move <;> simp [setRun, Core.rollBack, Core.succeed, call, addAssembly])
  | reaper s move => exact old (by cases move <;> simp [setRun, call])
  | dissolution d move => exact old (by cases move <;> exact Nat.le_refl _)
  | outside move =>
    cases move with
    | cancel => exact old (by simp [setRun])
    | launch | close | dissolve => exact old (Nat.le_refl _)
    | begin plan platform channel? id now cancelled =>
      have hr' : (c.runs.push _)[r]? = some run' := hr'
      rw [Array.getElem?_push] at hr'
      split at hr'
      · cases hr'
        exact ⟨rfl, rfl⟩
      · exact absurd (lt_of_getElem?_eq_some hr') (Nat.not_lt_of_le hr)

/-- A run that is not launching its members was there before. -/
theorem Move.old_run (move : c.Move c') (hr' : c'.runs[r]? = some run') (hp : run'.phase ≠ .launching) :
    ∃ run, c.runs[r]? = some run := by
  by_cases hlt : r < c.runs.size
  · exact exists_getElem? hlt
  · exact absurd (move.new_run (Nat.le_of_not_lt hlt) hr').1 hp

/-! ### New calls -/

/-- A call that is added for members closes one of them. -/
theorem call_new {ms : List Nat} {j : Nat} {k : Closing} (hj : c.closings.size ≤ j)
    (hk : (c.call ms).closings[j]? = some k) :
    k.phase = .called ∧ k.member ∈ ms ∧ j ∈ c.callPlaces ms := by
  unfold call at hk
  rw [Array.getElem?_append_right hj] at hk
  have hlt := lt_of_getElem?_eq_some hk
  have hmem := Array.mem_of_getElem? hk
  rw [List.mem_toArray, List.mem_map] at hmem
  obtain ⟨m, hm, rfl⟩ := hmem
  refine ⟨rfl, hm, List.mem_range'.mpr ⟨j - c.closings.size, ?_, by omega⟩⟩
  simpa using hlt

/-- Who adds a call that closes a member, where callers close certain members only. -/
inductive Caller (c c' : Core) (closes : Nat → Prop) (j m : Nat) : Prop where
  /-- A run that closes its members. -/
  | run {r : Nat} {run y : Run} {cause : Run.Cause} {places : List Nat} (hr : c.runs[r]? = some run)
    (hm : m ∈ run.members) (hr' : c'.runs[r]? = some y) (hp : y.phase = .rollingBack cause places)
    (hj : j ∈ places) (hm' : m ∈ y.members)
  /-- The reaper of a run. -/
  | reaper {r i : Nat} {run : Run} {rest : List Nat} (hr : c.runs[r]? = some run)
    (hs : run.settled = i :: rest) (hm : Launches.memberOf? c.launches i = some m)
    (hr' : c'.runs[r]? = some { run.hand i with reaper? := some ⟨some j⟩ })
  /-- A call that closes an assembly. -/
  | dissolution {a : Nat} {x : Assembly} (ha : c.assemblies[a]? = some x) (hm : m ∈ x.members)
  /-- Somebody else. -/
  | outside (there : m < c.members.size) (may : closes m)

section NewCall

variable {j : Nat} {k : Closing}

/-- A run adds calls only when it closes its members. -/
theorem RunMove.new_call (move : c.RunMove r c') (hj : c.closings.size ≤ j)
    (hk : c'.closings[j]? = some k) :
    k.phase = .called ∧ ∃ (run y : Run) (cause : Run.Cause) (places : List Nat),
      c.runs[r]? = some run ∧ k.member ∈ run.members ∧ c'.runs[r]? = some y ∧
      y.phase = .rollingBack cause places ∧ j ∈ places ∧ k.member ∈ y.members := by
  have rolls {run x : Run} (hr : c.runs[r]? = some run) (same : x.members = run.members)
      {cause : Run.Cause} (h : c' = c.rollBack r x cause) : k.phase = .called ∧
        ∃ (run y : Run) (cause : Run.Cause) (places : List Nat), c.runs[r]? = some run ∧
          k.member ∈ run.members ∧ c'.runs[r]? = some y ∧ y.phase = .rollingBack cause places ∧ j ∈ places ∧
          k.member ∈ y.members := by
    subst h
    obtain ⟨called, hm, hj⟩ := call_new hj hk
    exact ⟨called, run, { x with phase := .rollingBack cause (c.callPlaces x.members) }, cause, _, hr,
      same ▸ hm, getElem?_replace_self hr _, rfl, hj, hm⟩
  cases move with
  | giveUp hr | refuse hr | dismiss hr | degrade hr => exact rolls hr (by rfl) rfl
  | take | gather | succeedEmpty | succeed | rest | wake | fail =>
    exact absurd (lt_of_getElem?_eq_some hk) (Nat.not_lt_of_le hj)

/-- A reaper adds a call only for a member that it was handed. -/
theorem ReaperMove.new_call (move : c.ReaperMove r c') (hj : c.closings.size ≤ j)
    (hk : c'.closings[j]? = some k) : k.phase = .called ∧ ∃ (run : Run) (i : Nat) (rest : List Nat),
      c.runs[r]? = some run ∧ run.settled = i :: rest ∧ Launches.memberOf? c.launches i = some k.member ∧
      c'.runs[r]? = some { run.hand i with reaper? := some ⟨some j⟩ } := by
  cases move with
  | done | drop => exact absurd (lt_of_getElem?_eq_some hk) (Nat.not_lt_of_le hj)
  | close hr hp hs hm =>
    obtain ⟨called, hmem, hj⟩ := call_new hj hk
    rw [List.mem_singleton.mp hmem]
    obtain rfl : j = c.closings.size := List.mem_singleton.mp hj
    exact ⟨called, _, _, _, hr, hs, hm, getElem?_replace_self hr _⟩

/-- A call that closes an assembly adds calls only for the members of the assembly, when it begins. -/
theorem DissolutionMove.new_call {d : Nat} (move : c.DissolutionMove d c') (hj : c.closings.size ≤ j)
    (hk : c'.closings[j]? = some k) :
    k.phase = .called ∧ ∃ (y : Dissolution) (a : Assembly) (places : List Nat),
      c'.dissolutions[d]? = some y ∧ y.phase = .closing places ∧ j ∈ places ∧
      c.assemblies[y.assembly]? = some a ∧ k.member ∈ a.members := by
  cases move with
  | skip | finish => exact absurd (lt_of_getElem?_eq_some hk) (Nat.not_lt_of_le hj)
  | begin hd ha =>
    obtain ⟨called, hm, hj⟩ := call_new hj hk
    exact ⟨called, _, _, _, getElem?_replace_self hd _, rfl, hj, ha, hm⟩

/-- A new call has done nothing yet, and there is somebody who adds it. -/
theorem Moves.new_call {closes : Nat → Prop} (move : c.Moves closes c') (hj : c.closings.size ≤ j)
    (hk : c'.closings[j]? = some k) : k.phase = .called ∧ Caller c c' closes j k.member := by
  have old {P : Prop} (h : c'.closings.size ≤ c.closings.size) : P :=
    absurd (lt_of_getElem?_eq_some hk) (Nat.not_lt_of_le (Nat.le_trans h hj))
  cases move with
  | stay => exact old (Nat.le_refl _)
  | launch i move => exact old (by cases move <;> exact Nat.le_refl _)
  | closing j move => exact old (by cases move <;> simp [setClosing, setMember, stop])
  | run r move =>
    obtain ⟨called, run, y, cause, places, hr, hm, hr', hp, hj, hm'⟩ := move.new_call hj hk
    exact ⟨called, .run hr hm hr' hp hj hm'⟩
  | reaper r move =>
    obtain ⟨called, run, i, rest, hr, hs, hm, hr'⟩ := move.new_call hj hk
    exact ⟨called, .reaper hr hs hm hr'⟩
  | dissolution d move =>
    obtain ⟨called, y, a, places, -, -, -, ha, hm⟩ := move.new_call hj hk
    exact ⟨called, .dissolution ha hm⟩
  | outside move =>
    cases move with
    | cancel | begin | launch | dissolve => exact old (Nat.le_refl _)
    | close there may =>
      obtain ⟨called, hm, -⟩ := call_new hj hk
      rw [List.mem_singleton.mp hm]
      exact ⟨called, .outside there may⟩

end NewCall

end Core

end Muster
