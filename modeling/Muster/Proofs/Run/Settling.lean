import Muster.Proofs.Run.Order

/-!
# The order in which launches end

* `Core.settles`: the launches of a run that end in a move; `Core.LaunchMove.settled` and
  `Core.Move.settles_nil`: a launch that ends waits last in line to be taken note of, and nothing but a
  launch makes one end.
* `Run.Heard`: what a run has heard of the launches that it took note of, in the order in which they ended.
* **`Core.Heard.move`**: every move keeps runs to the order in which their launches have ended.
-/

namespace Muster

namespace Core

variable {c c' : Core} {r : Nat} {run run' : Run}

/-! ### Launches that end -/

/-- The launches of a run that end when one core becomes another. -/
def settles (c : Core) (r : Nat) (c' : Core) : List Nat :=
  (Launches.ofRun c.launches r).filter fun i =>
    (Launches.outcome? c.launches i).isNone && (Launches.outcome? c'.launches i).isSome

theorem mem_settles {i : Nat} : i ∈ c.settles r c' ↔ i ∈ Launches.ofRun c.launches r ∧
    Launches.outcome? c.launches i = none ∧ (Launches.outcome? c'.launches i).isSome := by
  unfold settles
  rw [List.mem_filter, Bool.and_eq_true, Option.isNone_iff_eq_none]

theorem settles_nil (same : ∀ i ∈ Launches.ofRun c.launches r,
    Launches.outcome? c'.launches i = Launches.outcome? c.launches i) : c.settles r c' = [] := by
  refine List.eq_nil_iff_forall_not_mem.mpr fun i hi => ?_
  obtain ⟨own, now, later⟩ := mem_settles.mp hi
  rw [same i own, now] at later
  exact Bool.false_ne_true later

theorem settles_one {i : Nat} (own : i ∈ Launches.ofRun c.launches r)
    (now : Launches.outcome? c.launches i = none) (later : (Launches.outcome? c'.launches i).isSome)
    (others : ∀ j ∈ Launches.ofRun c.launches r, j ≠ i →
      Launches.outcome? c'.launches j = Launches.outcome? c.launches j) : c.settles r c' = [i] := by
  have once := List.count_eq_one_of_mem (Launches.nodup_ofRun c.launches r) own
  have only : c.settles r c' = (Launches.ofRun c.launches r).filter (· == i) := by
    refine List.filter_congr fun j hj => ?_
    by_cases same : j = i
    · rw [same, now, later, beq_self_eq_true]
      rfl
    · rw [others j hj same, beq_eq_false_iff_ne.mpr same]
      cases Launches.outcome? c.launches j <;> rfl
  rw [only, List.filter_beq, once]
  rfl

/-- Of all runs only the one at a place may be changed, and what waits in line there does not. -/
theorem settled_of_setRun {rs : Array Run} {s : Nat} {x x' : Run} (hx : rs[s]? = some x)
    (same : x'.settled = x.settled) (hr : rs[r]? = some run)
    (hr' : (rs.setIfInBounds s x')[r]? = some run') : run'.settled = run.settled := by
  rw [getElem?_replace hx] at hr'
  split at hr'
  · rename_i own
    rw [own, hx] at hr
    cases hr
    cases hr'
    exact same
  · rw [hr] at hr'
    cases hr'
    rfl

/-- A launch of another run, or of none. -/
theorem ne_of_mem_ofRun {ls : Array Launch} {i j : Nat} {l : Launch} (hl : ls[i]? = some l)
    (other : l.run? ≠ some r) (hj : j ∈ Launches.ofRun ls r) : j ≠ i := by
  rintro rfl
  obtain ⟨l', hl', own⟩ := Launches.mem_ofRun.mp hj
  cases hl.symm.trans hl'
  exact other own

/-- A launch goes on that has not ended, and does not end now. -/
theorem settled_of_going {i : Nat} {l : Launch} {p : Launch.Phase} (hl : c.launches[i]? = some l)
    (unsettled : ∀ o, l.phase ≠ .settled o) (later : ∀ o, p ≠ .settled o)
    (same : c'.launches = c.launches.setIfInBounds i { l with phase := p })
    (settled : run'.settled = run.settled) : run'.settled = run.settled ++ c.settles r c' := by
  have now : l.outcome? = none := Launch.outcome?_eq_none unsettled
  have next : Launch.outcome? { l with phase := p } = none := Launch.outcome?_eq_none later
  rw [settles_nil, List.append_nil, settled]
  intro j _
  rw [same]
  exact (Launches.alike_set hl (by rfl) (next.trans now.symm) j).2

/-- A launch ends, and the others stand as they stood. -/
theorem settled_of_ending {i s : Nat} {l : Launch} {o : Launch.Outcome} {x x' : Run}
    (hr : c.runs[r]? = some run) (hr' : c'.runs[r]? = some run') (hl : c.launches[i]? = some l)
    (ends : l.Ends o) (self : Launches.outcome? c'.launches i = some o)
    (others : ∀ j, j ≠ i → Launches.outcome? c'.launches j = Launches.outcome? c.launches j)
    (own : l.run? = some s) (hs : c.runs[s]? = some x) (runs : c'.runs = c.runs.setIfInBounds s x')
    (settled : x'.settled = x.settled ++ [i]) : run'.settled = run.settled ++ c.settles r c' := by
  have now : Launches.outcome? c.launches i = none := by
    rw [Launches.outcome?_of_getElem? hl]
    exact Launch.outcome?_eq_none ends.unsettled
  rw [runs] at hr'
  by_cases same : r = s
  · subst same
    obtain ⟨rfl, rfl⟩ := eq_of_replaced hr hs hr'
    rw [settled, settles_one (Launches.mem_ofRun.mpr ⟨l, hl, own⟩) now (by rw [self]; rfl)
      fun j _ other => others j other]
  · rw [getElem?_replace_of_ne hs same, hr] at hr'
    cases hr'
    rw [settles_nil fun j hj => others j ?_, List.append_nil]
    refine ne_of_mem_ofRun hl ?_ hj
    rw [own]
    exact fun h => same (Option.some.inj h).symm

/-- **Ending.** A launch of the run that ends waits last in line to be taken note of. -/
theorem LaunchMove.settled {i : Nat} (move : c.LaunchMove i c') (hr : c.runs[r]? = some run)
    (hr' : c'.runs[r]? = some run') : run'.settled = run.settled ++ c.settles r c' := by
  cases move with
  | wait hl hp _ hs | pass hl hp _ hs =>
    exact settled_of_going hl (by simp [hp]) (by simp) rfl (settled_of_setRun hs (by rfl) hr hr')
  | ask hl hp due =>
    refine settled_of_going hl ?_ (by simp) rfl (congrArg Run.settled (run_eq rfl hr hr'))
    rcases hp with hp | ⟨hp, -⟩ <;> simp [hp]
  | handOut hl hp | tell hl hp =>
    exact settled_of_going hl (by simp [hp]) (by simp) rfl (congrArg Run.settled (run_eq rfl hr hr'))
  | settle hl ends alone =>
    rw [settles_nil, List.append_nil, run_eq rfl hr hr']
    intro j hj
    have other := ne_of_mem_ofRun hl (alone ▸ (Option.some_ne_none r).symm) hj
    exact (Launches.alike_of_getElem?_eq (getElem?_replace_of_ne hl other _)).2
  | settleLast hl ends own hs =>
    refine settled_of_ending hr hr' hl ends ?_ (fun j other => ?_) own hs rfl rfl
    · exact Launches.outcome?_of_getElem? (getElem?_replace_self hl _)
    · exact (Launches.alike_of_getElem?_eq (getElem?_replace_of_ne hl other _)).2
  | @settleNext l next o s n x line hl ends own hs first other hn waits =>
    -- the launch that gets the permit has not ended
    have granted (j : Nat) : Launches.outcome? ((c.launches.setIfInBounds i
        { l with phase := .settled o }).setIfInBounds n { next with phase := .granted }) j =
          Launches.outcome? (c.launches.setIfInBounds i { l with phase := .settled o }) j := by
      have hn' := (getElem?_replace_of_ne hl other { l with phase := .settled o }).trans hn
      refine (Launches.alike_set hn' (by rfl) ?_ j).2
      rw [Launch.outcome?_eq_none (l := next) (by simp [waits])]
      rfl
    refine settled_of_ending hr hr' hl ends ((granted i).trans ?_) (fun j other => (granted j).trans ?_) own hs
      rfl rfl
    · exact Launches.outcome?_of_getElem? (getElem?_replace_self hl _)
    · exact (Launches.alike_of_getElem?_eq (getElem?_replace_of_ne hl other _)).2

theorem settles_of_eq (same : ∀ i, i < c.launches.size → c'.launches[i]? = c.launches[i]?) :
    c.settles r c' = [] :=
  settles_nil fun _ hi => (Launches.alike_of_getElem?_eq (same _ (Launches.lt_of_mem_ofRun hi))).2

theorem OutsideMove.settles_nil {closes : Nat → Prop} (move : c.OutsideMove closes c') : c.settles r c' = [] := by
  refine settles_of_eq fun i hi => ?_
  cases move with
  | cancel | close | dissolve => rfl
  | begin => exact Array.getElem?_append_left hi
  | launch =>
    exact (Array.getElem?_push_lt hi).trans (Array.getElem?_eq_getElem hi).symm

/-! ### What a run has heard -/

end Core

/-- What a run has heard of the launches that it took note of, while others wait in line. -/
structure Run.Heard (ms : Array Member) (ls : Array Launch) (run : Run) (taken rest : List Nat) :
    Prop where
  waits : run.phase = .launching → run.settled = rest
  members : run.members.Perm (taken.filterMap (Launches.memberOf? ls))
  order : run.members = taken.filterMap (Launches.memberOf? ls) ∨ run.phase ≠ .launching ∧
    run.members.Pairwise fun m n => Members.ordinal ms m ≤ Members.ordinal ms n
  reports : run.observerFailures = taken.flatMap (Launches.reportsOf ls)

namespace Run.Heard

variable {ms ms' : Array Member} {ls ls' : Array Launch} {run run' : Run} {taken rest : List Nat}

/-- Launches that have ended show the same, and members keep their places. -/
theorem kept (h : run.Heard ms ls taken rest)
    (outcomes : ∀ i ∈ taken, Launches.outcome? ls' i = Launches.outcome? ls i)
    (ordinals : ∀ m ∈ run.members, Members.ordinal ms' m = Members.ordinal ms m) :
    run.Heard ms' ls' taken rest := by
  have of : taken.filterMap (Launches.memberOf? ls') = taken.filterMap (Launches.memberOf? ls) := by
    refine List.filterMap_congr fun i hi => ?_
    unfold Launches.memberOf?
    rw [outcomes i hi]
  have reports : taken.flatMap (Launches.reportsOf ls') = taken.flatMap (Launches.reportsOf ls) := by
    refine List.flatMap_congr fun i hi => ?_
    unfold Launches.reportsOf
    rw [outcomes i hi]
  refine ⟨h.waits, of ▸ h.members, ?_, reports ▸ h.reports⟩
  rw [of]
  refine h.order.imp_right fun ⟨later, sorted⟩ => ⟨later, sorted.imp_of_mem fun {m n} hm hn le => ?_⟩
  rw [ordinals m hm, ordinals n hn]
  exact le

theorem stay (h : run.Heard ms ls taken rest) (phase : run'.phase = run.phase)
    (settled : run'.settled = run.settled) (members : run'.members = run.members)
    (reports : run'.observerFailures = run.observerFailures) : run'.Heard ms ls taken rest :=
  ⟨fun hp => settled.trans (h.waits (phase ▸ hp)), members ▸ h.members,
    by rw [members, phase]; exact h.order, reports.trans h.reports⟩

theorem past (h : run.Heard ms ls taken rest) (later : run'.phase ≠ .launching)
    (members : run'.members = run.members) (reports : run'.observerFailures = run.observerFailures) :
    run'.Heard ms ls taken rest := by
  refine ⟨fun hp => absurd hp later, members ▸ h.members, ?_, reports.trans h.reports⟩
  rw [members]
  exact h.order.imp_right fun ⟨_, sorted⟩ => ⟨later, sorted⟩

theorem wait (h : run.Heard ms ls taken rest) {more : List Nat} (phase : run'.phase = run.phase)
    (settled : run'.settled = run.settled ++ more) (members : run'.members = run.members)
    (reports : run'.observerFailures = run.observerFailures) : run'.Heard ms ls taken (rest ++ more) :=
  ⟨fun hp => settled.trans (congrArg (· ++ more) (h.waits (phase ▸ hp))), members ▸ h.members,
    by rw [members, phase]; exact h.order, reports.trans h.reports⟩

theorem take (h : run.Heard ms ls taken rest) (hp : run.phase = .launching) {i : Nat} {others : List Nat}
    (hs : run.settled = i :: others) :
    rest = i :: others ∧ (run.take ls i).Heard ms ls (taken ++ [i]) others := by
  have waits : rest = i :: others := (h.waits hp).symm.trans hs
  have one : [i].filterMap (Launches.memberOf? ls) = (Launches.memberOf? ls i).toList := by
    cases hm : Launches.memberOf? ls i <;> simp [hm]
  refine ⟨waits, fun _ => ?_, ?_, ?_, ?_⟩
  · show run.settled.erase i = others
    rw [hs, List.erase_cons_head]
  · rw [List.filterMap_append, one]
    exact h.members.append_right _
  · refine .inl ?_
    rw [List.filterMap_append, one]
    exact congrArg (· ++ _) (h.order.resolve_right fun ⟨later, _⟩ => later hp)
  · rw [List.flatMap_append, List.flatMap_singleton]
    exact congrArg (· ++ _) h.reports

end Run.Heard

namespace Core

/-- A run keeps to the order in which its launches have ended. -/
structure Heard (c : Core) (r : Nat) (run : Run) (order : List Nat) : Prop where
  once : order.Nodup
  ended : ∀ i, i ∈ order ↔ i ∈ Launches.ofRun c.launches r ∧ (Launches.outcome? c.launches i).isSome
  heard : ∃ taken rest, order = taken ++ rest ∧ run.Heard c.members c.launches taken rest

variable {c c' : Core} {r : Nat} {run run' : Run} {order : List Nat}

/-- A launch that has ended keeps its outcome. -/
theorem Keeps.outcome?_eq (keeps : c.Keeps c') {i : Nat}
    (ended : (Launches.outcome? c.launches i).isSome) :
    Launches.outcome? c'.launches i = Launches.outcome? c.launches i := by
  obtain ⟨o, ho⟩ := Option.isSome_iff_exists.mp ended
  obtain ⟨l, hl, hlo⟩ := Option.bind_eq_some_iff.mp ho
  obtain ⟨l', hl', kept⟩ := keeps.launches hl
  rw [ho, Launches.outcome?_of_getElem? hl']
  exact Launch.outcome?_eq_some.mpr (kept.settled (Launch.outcome?_eq_some.mp hlo))

/-- What a run does itself when it no longer launches, or takes note of a launch. -/
theorem RunMove.heard (move : c.RunMove r c') (hr : c.runs[r]? = some run)
    (hr' : c'.runs[r]? = some run') {ms : Array Member} {taken rest : List Nat}
    (ordinals : ∀ m ∈ run.members, Members.ordinal ms m = Members.ordinal c.members m)
    (h : run.Heard ms c.launches taken rest) :
    ∃ taken' rest', taken' ++ rest' = taken ++ rest ∧ run'.Heard ms c.launches taken' rest' := by
  cases move with
  | @take _ i others hs hp waits goes settled =>
    obtain ⟨rfl, rfl⟩ := eq_of_replaced hr hs hr'
    obtain ⟨rfl, heard⟩ := h.take hp settled
    exact ⟨taken ++ [i], others, by rw [List.append_assoc]; rfl, heard⟩
  | gather hs =>
    obtain ⟨rfl, rfl⟩ := eq_of_replaced hr hs hr'
    refine ⟨taken, rest, rfl,
      ⟨(absurd · Run.Phase.noConfusion), ?_, .inr ⟨Run.Phase.noConfusion, ?_⟩, h.reports⟩⟩
    · exact (List.mergeSort_perm _ _).trans h.members
    · refine (pairwise_mergeSort_ordinal c.members _).imp_of_mem fun {m n} hm hn le => ?_
      rw [ordinals m (List.mem_mergeSort.mp hm), ordinals n (List.mem_mergeSort.mp hn)]
      exact le
  | giveUp hs | refuse hs | succeedEmpty hs | dismiss hs | succeed hs | degrade hs | rest hs | wake hs
  | fail hs =>
    obtain ⟨rfl, rfl⟩ := eq_of_replaced hr hs hr'
    exact ⟨taken, rest, rfl, h.past (fun hp => by cases hp) rfl rfl⟩

/-- A run has given up when its reaper goes on. -/
theorem ReaperMove.not_launching (move : c.ReaperMove r c') (sound : c.Sound) (hr : c.runs[r]? = some run)
    (hr' : c'.runs[r]? = some run') : run'.phase ≠ .launching := by
  obtain ⟨taken, left, ledger⟩ := sound.booked r run hr
  have reaper : run.reaper?.isSome := by
    cases move with
    | done hs hp | drop hs hp | close hs hp =>
      cases hr.symm.trans hs
      rw [hp]
      rfl
  rw [(move.stays hr hr').1]
  rcases ledger.stands.gaveUp reaper with ⟨cause, places, hp⟩ | ⟨e, hp⟩ <;> rw [hp] <;>
    exact fun h => Run.Phase.noConfusion h

namespace Heard

theorem once_settles (h : c.Heard r run order) : (order ++ c.settles r c').Nodup := by
  refine List.nodup_append.mpr ⟨h.once, (Launches.nodup_ofRun _ _).filter _, fun i hi j hj same => ?_⟩
  obtain ⟨-, now, -⟩ := mem_settles.mp hj
  rw [← same] at now
  simpa [now] using ((h.ended i).mp hi).2

/-- The launches that have ended are those that had, and those that end now. -/
theorem ended_settles (h : c.Heard r run order) (keeps : c.Keeps c')
    (hof : Launches.ofRun c'.launches r = Launches.ofRun c.launches r) (i : Nat) :
    i ∈ order ++ c.settles r c' ↔
      i ∈ Launches.ofRun c'.launches r ∧ (Launches.outcome? c'.launches i).isSome := by
  rw [List.mem_append, h.ended i, mem_settles, hof]
  constructor
  · rintro (⟨own, ended⟩ | ⟨own, -, ended⟩)
    · exact ⟨own, keeps.outcome?_eq ended ▸ ended⟩
    · exact ⟨own, ended⟩
  · rintro ⟨own, ended⟩
    cases now : Launches.outcome? c.launches i with
    | none => exact .inr ⟨own, rfl, ended⟩
    | some o => exact .inl ⟨own, rfl⟩

/-- **The order of endings.** Every move keeps runs to the order in which their launches have ended. -/
theorem move (h : c.Heard r run order) (sound : c.Sound) (move : c.Move c') (hr : c.runs[r]? = some run)
    (hr' : c'.runs[r]? = some run') : c'.Heard r run' (order ++ c.settles r c') := by
  have keeps := move.keeps
  refine ⟨h.once_settles, h.ended_settles keeps (move.ofRun_eq (lt_of_getElem?_eq_some hr)), ?_⟩
  obtain ⟨taken, rest, rfl, heard⟩ := h.heard
  have outcomes (i : Nat) (hi : i ∈ taken) :
      Launches.outcome? c'.launches i = Launches.outcome? c.launches i :=
    keeps.outcome?_eq ((h.ended i).mp (List.mem_append_left _ hi)).2
  have ordinals (m : Nat) (hm : m ∈ run.members) :
      Members.ordinal c'.members m = Members.ordinal c.members m :=
    keeps.ordinal_eq (sound.lt_of_run hr hm)
  -- nothing ends, and the run takes note of nothing
  have still (nothing : c.settles r c' = []) (phase : run'.phase = run.phase)
      (settled : run'.settled = run.settled) (members : run'.members = run.members)
      (reports : run'.observerFailures = run.observerFailures) : ∃ taken' rest',
        taken ++ rest ++ c.settles r c' = taken' ++ rest' ∧
          run'.Heard c'.members c'.launches taken' rest' := by
    rw [nothing, List.append_nil]
    exact ⟨taken, rest, rfl, (heard.kept outcomes ordinals).stay phase settled members reports⟩
  have same (nothing : c.settles r c' = []) (same : run' = run) := by
    exact still nothing (congrArg Run.phase same) (congrArg Run.settled same) (congrArg Run.members same)
      (congrArg Run.observerFailures same)
  cases move with
  | stay => exact same (settles_of_eq fun _ _ => rfl) (run_eq rfl hr hr')
  | launch i move =>
    have alike := move.run_same hr hr'
    refine ⟨taken, rest ++ c.settles r c', List.append_assoc _ _ _, ?_⟩
    exact (heard.kept outcomes ordinals).wait alike.phase (move.settled hr hr') alike.members alike.reports
  | closing j move =>
    exact same (settles_of_eq fun _ _ => by cases move <;> rfl) (run_eq move.runs_eq hr hr')
  | run s move =>
    have launches : c'.launches = c.launches := by cases move <;> rfl
    have nothing : c.settles r c' = [] := settles_of_eq fun _ _ => by rw [launches]
    by_cases own : r = s
    · subst own
      obtain ⟨taken', rest', split, heard'⟩ :=
        move.heard hr hr' ordinals (heard.kept (fun _ _ => rfl) ordinals)
      rw [nothing, List.append_nil, launches]
      exact ⟨taken', rest', split.symm, heard'⟩
    · exact same nothing (move.run_eq own hr hr')
  | reaper s move =>
    have launches : c'.launches = c.launches := by cases move <;> rfl
    have nothing : c.settles r c' = [] := settles_of_eq fun _ _ => by rw [launches]
    by_cases own : r = s
    · -- the reaper takes up what the run no longer does
      subst own
      have later := move.not_launching sound hr hr'
      rw [nothing, List.append_nil]
      exact ⟨taken, rest, rfl,
        (heard.kept outcomes ordinals).past later (move.stays hr hr').2 (move.heard hr hr').2.1⟩
    · exact same nothing (move.run_eq own hr hr')
  | dissolution d move =>
    exact same (settles_of_eq fun _ _ => by cases move <;> rfl) (run_eq move.runs_eq hr hr')
  | outside move =>
    have alike := move.run_same hr hr'
    refine still move.settles_nil alike.phase ?_ alike.members alike.reports
    rcases move.run_cases hr hr' with rfl | rfl <;> rfl

end Heard

end Core

end Muster
