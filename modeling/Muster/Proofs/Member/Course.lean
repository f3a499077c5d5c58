import Muster.Proofs.Member.Script
import Muster.Proofs.World.Reach

/-!
# The course of a member's life

* `Core.Returned`: calls close only members whose launches have ended in them.
* `Core.Course`: how far the life of a member has come, told from its launch and from the call that closes
  it, and what was said of it up to then.
* `Core.Aside`: what concerns a member is left alone; then its life stays where it was (`Core.Course.aside`).
* `Core.QuietClosing`: how the call that closes a member goes on where it tells nobody (`Core.ClosingMove.quiet`).
* **`Core.Chronicled.course_deed`**: every deed takes the life of a member along its course, and enters in
  the record what is to be said.
* **`Core.Course.isPrefix`**: what was said of a member is a beginning of its script.
-/

namespace Muster

namespace Core

/-! ### Members that were returned -/

/-- Calls close only members whose launches have ended in them. -/
def Returned (c : Core) : Prop :=
  ∀ {j : Nat} {k : Closing}, c.closings[j]? = some k →
    ∃ (i : Nat) (l : Launch) (failures : List ObserverFailure),
      c.launches[i]? = some l ∧ l.phase = .settled (.realized k.member failures)

variable {c c' : Core}

theorem Sound.returned_of_held (h : c.Sound) {m : Nat} (held : c.Held m) :
    ∃ (i : Nat) (l : Launch) (failures : List ObserverFailure),
      c.launches[i]? = some l ∧ l.phase = .settled (.realized m failures) := by
  rcases held with ⟨a, ha, hm⟩ | ⟨l, hl, -, failures, hp⟩
  · obtain ⟨n, ha⟩ := Array.mem_iff_getElem?.mp ha
    obtain ⟨r, run, hr, -, members⟩ := h.stocked n a ha
    obtain ⟨i, l, x, failures, hl, -, hp, -⟩ := h.launch_of_member hr (members ▸ hm)
    exact ⟨i, l, failures, hl, hp⟩
  · obtain ⟨i, hi⟩ := Array.mem_iff_getElem?.mp hl
    exact ⟨i, l, failures, hi, hp⟩

/-- Every call is for a member that was returned. -/
theorem Returned.move (returned : c.Returned) (h : c.Sound) (moves : c.Moves c.Held c') : c'.Returned := by
  intro j k' hk'
  have keeps := moves.move.keeps
  have later {i m : Nat} {l : Launch} {failures : List ObserverFailure} (hl : c.launches[i]? = some l)
      (hp : l.phase = .settled (.realized m failures)) :
      ∃ (i : Nat) (l : Launch) (failures : List ObserverFailure),
        c'.launches[i]? = some l ∧ l.phase = .settled (.realized m failures) := by
    obtain ⟨l', hl', kept⟩ := keeps.launches hl
    exact ⟨i, l', failures, hl', kept.settled hp⟩
  by_cases hj : j < c.closings.size
  · obtain ⟨k, hk, kept⟩ := keeps.closings.of_lt hj hk'
    obtain ⟨i, l, failures, hl, hp⟩ := returned hk
    rw [kept.member]
    exact later hl hp
  · have handed {m : Nat} (held : c.Held m) : ∃ (i : Nat) (l : Launch) (failures : List ObserverFailure),
        c'.launches[i]? = some l ∧ l.phase = .settled (.realized m failures) := by
      obtain ⟨i, l, failures, hl, hp⟩ := h.returned_of_held held
      exact later hl hp
    obtain ⟨-, caller⟩ := moves.new_call (Nat.le_of_not_lt hj) hk'
    cases caller with
    | run hr hm =>
      obtain ⟨i, l, x, failures, hl, -, hp, -⟩ := h.launch_of_member hr hm
      exact later hl hp
    | reaper hr hs hm =>
      obtain ⟨l, failures, hl, hp⟩ := Launches.memberOf?_eq_some.mp hm
      exact later hl hp
    | dissolution ha hm => exact handed (.inl ⟨_, Array.mem_of_getElem? ha, hm⟩)
    | outside _ held => exact handed held

/-! ### Courses -/

/-- How far the life of a member has come, and what was said of it up to then. -/
inductive Course (c : Core) (m : Nat) (x : Member) : List Note → Prop where
  /-- Its observers are told that there is a process. -/
  | launching {l : Launch} {round : Round} {answered : List Observer}
    (hl : c.launches[x.launch]? = some l) (hp : l.phase = .telling round)
    (stands : round.Stands m x .realized [] answered) (fresh : x.closeStarted = false)
    (state : x.state = .realized) : Course c m x (Note.tells .realized (answered ++ round.hearing))
  /-- One of them took the launch down. -/
  | felled {l : Launch} {message : String} {answered rest : List Observer} {o : Observer}
    (hl : c.launches[x.launch]? = some l) (hp : l.phase = .settled (.died message))
    (all : answered ++ o :: rest = x.observers) (dies : ¬ o.Responds) (fresh : x.closeStarted = false)
    (state : x.state = .realized) : Course c m x (Note.tells .realized (answered ++ [o]))
  /-- It was returned, and nobody has begun to close it. -/
  | returned {l : Launch} (hl : c.launches[x.launch]? = some l)
    (hp : l.phase = .settled (.realized m (x.reports .realized))) (fresh : x.closeStarted = false)
    (state : x.state = .realized) : Course c m x (Note.tells .realized x.observers)
  /-- One call closes it. -/
  | parting {l : Launch} {j : Nat} {k : Closing} {said : List Note}
    (hl : c.launches[x.launch]? = some l) (hp : l.phase = .settled (.realized m (x.reports .realized)))
    (hk : c.closings[j]? = some k) (member : k.member = m) (begun : x.closeStarted = true)
    (alone : ∀ {i : Nat} {k : Closing}, c.closings[i]? = some k → k.member = m → i ≠ j → k.Idle)
    (spoken : k.phase.Says m x said) : Course c m x (Note.tells .realized x.observers ++ said)

/-- What concerns a member is left alone. -/
structure Aside (c c' : Core) (m : Nat) : Prop where
  member : c'.members[m]? = c.members[m]?
  launches : ∀ {i : Nat} {l : Launch} {round : Round}, c.launches[i]? = some l → l.phase = .telling round →
    round.member = m → c'.launches[i]? = some l
  closings : ∀ {j : Nat} {k : Closing}, c.closings[j]? = some k → k.member = m → c'.closings[j]? = some k

namespace Course

variable {m : Nat} {x : Member} {said : List Note}

/-- **Scripts.** What was said of a member is a beginning of its script. -/
theorem isPrefix (course : c.Course m x said) : said <+: Note.script x.observers := by
  have early {os : List Observer} (h : os <+: x.observers) :
      Note.tells .realized os <+: Note.script x.observers :=
    (Note.tells_isPrefix h .realized).trans (List.prefix_append _ _)
  cases course with
  | launching hl hp stands => exact early stands.told_isPrefix
  | felled hl hp all => exact early ⟨_, by rw [List.append_assoc]; exact all⟩
  | returned => exact early (List.prefix_refl _)
  | parting hl hp hk member begun alone spoken => exact (List.prefix_append_right_inj _).mpr spoken.isPrefix

/-- A life stays where it was when what concerns the member is left alone. -/
theorem aside (course : c.Course m x said) (move : c.Move c') (aside : c.Aside c' m) : c'.Course m x said := by
  have keeps := move.keeps
  cases course with
  | launching hl hp stands fresh state =>
    exact .launching (aside.launches hl hp stands.whose) hp stands fresh state
  | felled hl hp all dies fresh state =>
    obtain ⟨l', hl', kept⟩ := keeps.launches hl
    exact .felled hl' (kept.settled hp) all dies fresh state
  | returned hl hp fresh state =>
    obtain ⟨l', hl', kept⟩ := keeps.launches hl
    exact .returned hl' (kept.settled hp) fresh state
  | @parting l j k said hl hp hk member begun alone spoken =>
    obtain ⟨l', hl', kept⟩ := keeps.launches hl
    refine .parting hl' (kept.settled hp) (aside.closings hk member) member begun ?_ spoken
    intro i k' hk' hm other
    by_cases hi : i < c.closings.size
    · obtain ⟨k₀, hk₀, kept⟩ := keeps.closings.of_lt hi hk'
      have same := aside.closings hk₀ (kept.member.symm.trans hm)
      cases same.symm.trans hk'
      exact alone hk₀ hm other
    · exact .inl (move.new_call (Nat.le_of_not_lt hi) hk').1

/-! ### Launches that tell of the member -/

/-- A launch that tells of a member is where its life has come to. -/
theorem of_telling (course : c.Course m x said) (born : Born c.members c.launches)
    (hx : c.members[m]? = some x) {i : Nat} {l : Launch} {round : Round} (hl : c.launches[i]? = some l)
    (hp : l.phase = .telling round) (own : round.member = m) :
    x.launch = i ∧ x.closeStarted = false ∧ x.state = .realized ∧
      ∃ answered, round.Stands m x .realized [] answered ∧
        said = Note.tells .realized (answered ++ round.hearing) := by
  obtain ⟨y, hy, launch⟩ := born.launch hl (.telling hp own)
  cases hx.symm.trans hy
  rw [← launch] at hl
  cases course with
  | launching hl' hp' stands fresh state =>
    cases hl.symm.trans hl'
    cases hp.symm.trans hp'
    exact ⟨launch, fresh, state, _, stands, rfl⟩
  | felled hl' hp' | returned hl' hp' | parting hl' hp' =>
    cases hl.symm.trans hl'
    cases hp.symm.trans hp'

theorem launchTells (course : c.Course m x said) (born : Born c.members c.launches)
    (hx : c.members[m]? = some x) {i : Nat} {l : Launch} {round : Round} {y : Member} {o : Observer}
    {rest : List Observer} {beats : List Beat} {told : Told} (hl : c.launches[i]? = some l)
    (hp : l.phase = .telling round) (own : round.member = m) (left : round.left = o :: rest)
    (hy : c.members[round.member]? = some y) (goes : round.Goes y o rest beats told)
    (after : c'.launches[i]? = some { l with phase := told.launchPhase }) :
    c'.Course m x (said ++ beats.filterMap (Beat.note? m)) := by
  obtain ⟨rfl, fresh, state, answered, stands, rfl⟩ := course.of_telling born hx hl hp own
  rw [own, hx] at hy
  cases hy
  cases goes.outcome stands left state with
  | on stands told =>
    rw [told]
    exact .launching after rfl stands fresh state
  | dead all dies told =>
    rw [told]
    exact .felled after rfl all dies fresh state

/-- A launch that has told everybody returns the member. -/
theorem returns (course : c.Course m x said) (born : Born c.members c.launches)
    (hx : c.members[m]? = some x) {i : Nat} {l : Launch} {round : Round} (hl : c.launches[i]? = some l)
    (hp : l.phase = .telling round) (own : round.member = m) (left : round.left = [])
    (after : c'.launches[i]? = some { l with phase := .settled (.realized round.member round.failures) }) :
    c'.Course m x said := by
  obtain ⟨rfl, fresh, state, answered, stands, rfl⟩ := course.of_telling born hx hl hp own
  obtain ⟨rfl, hearing, failures⟩ := stands.done left
  rw [hearing, List.append_nil]
  refine .returned after ?_ fresh state
  dsimp only
  rw [own, failures]
  rfl

/-! ### The call that closes the member -/

/-- A call that is busy with a member is where its life has come to. -/
theorem of_busy (course : c.Course m x said) (lives : Lives c.members c.closings c.stopped)
    (hx : c.members[m]? = some x) {j : Nat} {k : Closing} (hk : c.closings[j]? = some k)
    (own : k.member = m) (busy : ¬ k.Idle) :
    x.closeStarted = true ∧ (∃ l : Launch, c.launches[x.launch]? = some l ∧
      l.phase = .settled (.realized m (x.reports .realized))) ∧
      (∀ {i : Nat} {k : Closing}, c.closings[i]? = some k → k.member = m → i ≠ j → k.Idle) ∧
      ∃ parted, k.phase.Says m x parted ∧ said = Note.tells .realized x.observers ++ parted := by
  have way := lives.underway hk (own ▸ hx) busy
  cases course with
  | launching _ _ _ fresh | felled _ _ _ _ fresh | returned _ _ fresh =>
    rw [way.begun] at fresh
    cases fresh
  | @parting l i k' parted hl hp hk' member begun alone spoken =>
    have same : j = i := by
      by_contra other
      exact busy (alone hk own other)
    subst same
    cases hk.symm.trans hk'
    exact ⟨begun, ⟨l, hl, hp⟩, alone, parted, spoken, rfl⟩

/-- The call that closes a member goes on, and with it the member. -/
theorem go (course : c.Course m x said) (lives : Lives c.members c.closings c.stopped)
    (hx : c.members[m]? = some x) {j : Nat} {k : Closing} (hk : c.closings[j]? = some k)
    (own : k.member = m) (busy : ¬ k.Idle) {p : Closing.Phase} {new : List Note} (c₁ : Core)
    (launches : c₁.launches = c.launches) (closings : c₁.closings = c.closings) (x' : Member)
    (kept : x.Kept x') (begun : x'.closeStarted = x.closeStarted)
    (goes : ∀ {parted : List Note}, k.phase.Says m x parted → p.Says m x' (parted ++ new)) :
    (c₁.setClosing j { k with phase := p }).Course m x' (said ++ new) := by
  obtain ⟨started, ⟨l, hl, hp⟩, alone, parted, spoken, rfl⟩ := course.of_busy lives hx hk own busy
  have hk₁ : c₁.closings[j]? = some k := closings ▸ hk
  rw [List.append_assoc, ← kept.observers]
  refine .parting (l := l) (k := { k with phase := p }) ?_ ?_ (getElem?_replace_self hk₁ _) own
    (begun.trans started) (fun {i ki} hi him other => ?_) (goes spoken)
  · rw [kept.launch]
    exact (congrArg (·[x.launch]?) launches).trans hl
  · unfold Member.reports
    rw [kept.observers, kept.spec]
    exact hp
  · refine alone ?_ him other
    rw [← closings, ← getElem?_replace_of_ne hk₁ other]
    exact hi

theorem skip (course : c.Course m x said) {j : Nat} {k : Closing} (hk : c.closings[j]? = some k)
    (called : k.phase = .called) (begun : x.closeStarted = true) :
    (c.setClosing j { k with phase := .finished (.ok []) }).Course m x said := by
  cases course with
  | launching _ _ _ fresh | felled _ _ _ _ fresh | returned _ _ fresh =>
    rw [begun] at fresh
    cases fresh
  | @parting l i k' parted hl hp hk' member begun alone spoken =>
    have other : i ≠ j := by
      rintro rfl
      cases hk.symm.trans hk'
      exact spoken.ne_called called
    refine .parting hl hp ((getElem?_replace_of_ne hk other _).trans hk') member begun ?_ spoken
    intro n kn hn hm apart
    have hn : (c.closings.setIfInBounds j _)[n]? = some kn := hn
    rw [getElem?_replace hk] at hn
    split at hn
    · cases hn
      exact .inr rfl
    · exact alone hn hm apart

theorem begin (course : c.Course m x said) (h : c.Sound) (returned : c.Returned)
    (hx : c.members[m]? = some x) {j : Nat} {k : Closing} (hk : c.closings[j]? = some k)
    (own : k.member = m) (fresh : x.closeStarted = false) :
    ((c.setMember m { x with closeStarted := true, state := .closing }).setClosing j
      { k with phase := .telling (.start .closing m x.observers []) }).Course m
        { x with closeStarted := true, state := .closing } said := by
  -- its launch has ended in the member, as there is a call for it
  obtain ⟨i, l, failures, hl, hp⟩ := returned hk
  obtain ⟨y, hy, rfl⟩ := h.born.launch hl (.realized hp)
  rw [own, hx] at hy
  cases hy
  cases course with
  | launching hl' hp' | felled hl' hp' =>
    cases hl.symm.trans hl'
    cases hp.symm.trans hp'
  | parting _ _ _ _ begun =>
    rw [fresh] at begun
    cases begun
  | returned hl' hp' _ state =>
    have alone : ∀ {i : Nat} {k : Closing}, c.closings[i]? = some k → k.member = m → k.phase = .called := by
      rcases h.lives.life hx with new | ⟨i, way⟩
      · exact fun hi him => new.calls hi him
      · rw [way.begun] at fresh
        cases fresh
    have spoken : Closing.Phase.Says m { x with closeStarted := true, state := .closing }
        (.telling (.start .closing m x.observers [])) [] :=
      .telling (Round.Stands.start m { x with closeStarted := true, state := .closing } .closing []) rfl
    have := Course.parting (c := (c.setMember m { x with closeStarted := true, state := .closing }).setClosing
      j { k with phase := .telling (.start .closing m x.observers []) }) (m := m)
      (x := { x with closeStarted := true, state := .closing }) hl' hp'
      (getElem?_replace_self hk _) own rfl (fun {i ki} hi him other => ?_) spoken
    · rw [List.append_nil] at this
      exact this
    · have hi : (c.closings.setIfInBounds j _)[i]? = some ki := hi
      rw [getElem?_replace_of_ne hk other] at hi
      exact .inl (alone hi him)

end Course

/-! ### Moves that concern others -/

section Aside

variable {m : Nat}

theorem Aside.of_eq (members : c'.members = c.members) (launches : c'.launches = c.launches)
    (closings : c'.closings = c.closings) : c.Aside c' m :=
  ⟨by rw [members], fun hl _ _ => launches ▸ hl, fun hk _ => closings ▸ hk⟩

theorem Aside.call (members : c'.members = c.members) (launches : c'.launches = c.launches) {ms : List Nat}
    (closings : c'.closings = (c.call ms).closings) : c.Aside c' m :=
  ⟨by rw [members], fun hl _ _ => launches ▸ hl, fun hk _ => by
    rw [closings]
    exact (Array.getElem?_append_left (lt_of_getElem?_eq_some hk)).trans hk⟩

theorem LaunchMove.member {i : Nat} (move : c.LaunchMove i c') (there : m < c.members.size) :
    c'.members[m]? = c.members[m]? := by
  cases move with
  | handOut => exact Array.getElem?_push_lt there ▸ (Array.getElem?_eq_getElem there).symm
  | wait | pass | ask | tell | settle | settleLast | settleNext => rfl

theorem LaunchMove.aside {i : Nat} (move : c.LaunchMove i c') (there : m < c.members.size)
    (other : ∀ {l : Launch} {round : Round}, c.launches[i]? = some l → l.phase = .telling round →
      round.member ≠ m) : c.Aside c' m := by
  have away {l l' : Launch} (hl : c.launches[i]? = some l) {n : Nat} {ln : Launch} {round : Round}
      (hn : c.launches[n]? = some ln) (hp : ln.phase = .telling round) (own : round.member = m) :
      (c.launches.setIfInBounds i l')[n]? = some ln := by
    have apart : n ≠ i := by
      rintro rfl
      exact other hn hp own
    rw [getElem?_replace_of_ne hl apart, hn]
  have member := move.member there
  cases move with
  | wait hl | pass hl | ask hl | handOut hl | tell hl | settle hl | settleLast hl =>
    exact ⟨member, away hl, fun hk _ => hk⟩
  | @settleNext l next o r n' run line hl ends hr hrun first apart hn waits =>
    refine ⟨member, fun {n ln round} hln hp own => ?_, fun hk _ => hk⟩
    have next := fun l => (getElem?_replace_of_ne hl apart l).trans hn
    have waiting : n ≠ n' := by
      rintro rfl
      cases hln.symm.trans hn
      cases waits.symm.trans hp
    exact (getElem?_replace_of_ne (next _) waiting _).trans (away hl hln hp own)

theorem ClosingMove.aside {j : Nat} (move : c.ClosingMove j c')
    (other : ∀ {k : Closing}, c.closings[j]? = some k → k.member ≠ m) : c.Aside c' m := by
  have away {k k' : Closing} (hk : c.closings[j]? = some k) {n : Nat} {kn : Closing}
      (hn : c.closings[n]? = some kn) (own : kn.member = m) :
      (c.closings.setIfInBounds j k')[n]? = some kn := by
    have apart : n ≠ j := by
      rintro rfl
      exact other hn own
    rw [getElem?_replace_of_ne hk apart, hn]
  cases move with
  | skip hk | tell hk | stop hk | tellClosed hk | finish hk | fall hk =>
    exact ⟨rfl, fun hl _ _ => hl, away hk⟩
  | begin hk hx | mark hk hx =>
    exact ⟨getElem?_replace_of_ne hx (other hk).symm _, fun hl _ _ => hl, away hk⟩

theorem RunMove.aside {r : Nat} (move : c.RunMove r c') : c.Aside c' m := by
  cases move with
  | giveUp | refuse | dismiss | degrade => exact .call rfl rfl rfl
  | take | gather | succeedEmpty | succeed | rest | wake | fail => exact .of_eq rfl rfl rfl

theorem ReaperMove.aside {r : Nat} (move : c.ReaperMove r c') : c.Aside c' m := by
  cases move with
  | close => exact .call rfl rfl rfl
  | done | drop => exact .of_eq rfl rfl rfl

theorem DissolutionMove.aside {d : Nat} (move : c.DissolutionMove d c') : c.Aside c' m := by
  cases move with
  | begin => exact .call rfl rfl rfl
  | skip | finish => exact .of_eq rfl rfl rfl

theorem OutsideMove.aside {closes : Nat → Prop} (move : c.OutsideMove closes c') : c.Aside c' m := by
  cases move with
  | close => exact .call rfl rfl rfl
  | cancel | dissolve => exact .of_eq rfl rfl rfl
  | begin =>
    refine ⟨rfl, fun hl _ _ => ?_, fun hk _ => hk⟩
    exact (Array.getElem?_append_left (lt_of_getElem?_eq_some hl)).trans hl
  | launch =>
    refine ⟨rfl, fun hl _ _ => ?_, fun hk _ => hk⟩
    exact (Array.getElem?_push_lt (lt_of_getElem?_eq_some hl)).trans
      ((Array.getElem?_eq_getElem (lt_of_getElem?_eq_some hl)).symm.trans hl)

end Aside

/-! ### Deeds -/

/-- How the call that closes a member goes on in silence where the member is there. -/
inductive QuietClosing (c : Core) (j : Nat) (k : Closing) (x : Member) : Core → Prop where
  | skip (hp : k.phase = .called) (begun : x.closeStarted = true) :
    QuietClosing c j k x (c.setClosing j { k with phase := .finished (.ok []) })
  | begin (hp : k.phase = .called) (fresh : x.closeStarted = false) :
    QuietClosing c j k x ((c.setMember k.member { x with closeStarted := true, state := .closing }).setClosing j
      { k with phase := .telling (.start .closing k.member x.observers []) })
  /-- The process was stopped, or all observers have been told of that. -/
  | pass (c₁ : Core) {x' : Member} {p : Closing.Phase} (busy : ¬ k.Idle) (launches : c₁.launches = c.launches)
    (closings : c₁.closings = c.closings) (there : c₁.members[k.member]? = some x') (kept : x.Kept x')
    (begun : x'.closeStarted = x.closeStarted)
    (spoken : ∀ {parted : List Note}, k.phase.Says k.member x parted → p.Says k.member x' parted) :
    QuietClosing c j k x (c₁.setClosing j { k with phase := p })

/-- Observers are told of a member that is there, and so not in silence. -/
theorem ClosingMove.quiet {j : Nat} (move : c.ClosingMove j c') (silent : c.SilentClosing j c') {k : Closing}
    {x : Member} (hk : c.closings[j]? = some k) (hx : c.members[k.member]? = some x)
    (whose : ∀ {round : Round}, k.phase = .telling round ∨ k.phase = .tellingClosed round →
      round.member = k.member) : c.QuietClosing j k x c' := by
  have loud {round : Round} (hp : k.phase = .telling round ∨ k.phase = .tellingClosed round) :
      c.members[round.member]? ≠ none := by
    rw [whose hp, hx]
    exact Option.some_ne_none x
  cases move with
  | skip hk' hx' hp begun =>
    cases hk.symm.trans hk'
    cases hx.symm.trans hx'
    exact .skip hp begun
  | begin hk' hx' hp fresh =>
    cases hk.symm.trans hk'
    cases hx.symm.trans hx'
    exact .begin hp fresh
  | mark hk' hx' hp =>
    cases hk.symm.trans hk'
    cases hx.symm.trans hx'
    refine .pass (c.setMember k.member { x with state := .closed }) (by simp [Closing.Idle, hp]) rfl rfl
      (getElem?_replace_self hx _) ⟨rfl, rfl, rfl, rfl⟩ rfl fun spoken => ?_
    rw [hp] at spoken
    exact spoken.mark
  | finish hk' hx' hp done ho =>
    cases hk.symm.trans hk'
    cases hx.symm.trans hx'
    refine .pass c (by simp [Closing.Idle, hp]) rfl rfl hx (.refl x) rfl fun spoken => ?_
    rw [hp] at spoken
    exact spoken.finish done ho
  | tell hk' hp | stop hk' hx' hp =>
    cases hk.symm.trans hk'
    exact absurd ((silent k _ hk).1 hp) (loud (.inl hp))
  | tellClosed hk' hp =>
    cases hk.symm.trans hk'
    rcases (silent k _ hk).2 hp with none | ⟨-, o, ended⟩
    · exact absurd none (loud (.inr hp))
    · cases (getElem?_replace_self hk _).symm.trans ended
  | fall hk' hp ho =>
    cases hk.symm.trans hk'
    rcases hp with hp | hp
    · exact absurd ((silent k _ hk).1 hp) (loud (.inl hp))
    · rcases (silent k _ hk).2 hp with none | ⟨done, -⟩
      · exact absurd none (loud (.inr hp))
      · rw [done] at ho
        exact absurd ho List.not_mem_nil

/-- A member that was not there before has only just come to life. -/
theorem Move.newborn (move : c.Move c') {m : Nat} {x : Member} (old : c.members[m]? = none)
    (hx : c'.members[m]? = some x) : c'.Course m x [] := by
  have still {P : Prop} (same : c'.members.size = c.members.size) : P :=
    absurd (lt_of_getElem?_eq_some hx) (Nat.not_lt_of_le (same ▸ Array.getElem?_eq_none_iff.mp old))
  cases move with
  | stay => exact still rfl
  | launch i move =>
    cases move with
    | handOut hl =>
      have hx : (c.members.push _)[m]? = some x := hx
      rw [Array.getElem?_push] at hx
      split at hx
      · rename_i last
        cases hx
        rw [last]
        exact .launching (getElem?_replace_self hl _) rfl (Round.Stands.start _ _ .realized []) rfl rfl
      · rw [old] at hx
        cases hx
    | wait | pass | ask | tell | settle | settleLast | settleNext => exact still rfl
  | closing j move => exact still (by cases move <;> simp [setClosing, setMember, Core.stop])
  | run r move => exact still (by cases move <;> rfl)
  | reaper r move => exact still (by cases move <;> rfl)
  | dissolution d move => exact still (by cases move <;> rfl)
  | outside move => exact still (by cases move <;> rfl)

/-- The record tells the course of each member's life. -/
structure Chronicled (c : Core) (beats : List Beat) : Prop where
  returned : c.Returned
  course : ∀ {m : Nat} {x : Member}, c.members[m]? = some x → c.Course m x (beats.filterMap (Beat.note? m))
  nobody : ∀ {m : Nat}, c.members[m]? = none → beats.filterMap (Beat.note? m) = []

theorem Chronicled.empty : Chronicled ⟨#[], #[], #[], #[], #[], #[], []⟩ [] where
  returned hk := by simp at hk
  course hx := by simp at hx
  nobody _ := rfl

variable {s : Setting} {beats new : List Beat}

theorem Deed.notes_of_absent (deed : c.Deed s new c') {m : Nat} (absent : c.members[m]? = none) :
    new.filterMap (Beat.note? m) = [] := by
  have apart {n : Nat} {x : Member} (hx : c.members[n]? = some x) : n ≠ m := by
    rintro rfl
    cases absent.symm.trans hx
  cases deed with
  | launchTells _ _ _ _ hx goes => exact goes.notes_of_ne (apart hx)
  | closingTells _ _ _ _ hx goes => exact goes.notes_of_ne (apart hx)
  | stop hk hx => simp [Beat.note?, apart hx]
  | stay | launch | closing | run | rest | reaper | dissolution | outside | close | ask | announce => rfl
  | succeedEmpty | succeed | degrade | fail | dissolved | begin => exact Beat.notes_announce _ _ _ m

namespace Chronicled

variable {m : Nat} {x : Member}

/-- A call that tells observers tells them of the member that it closes. -/
theorem round_member (h : c.Chronicled beats) (sound : c.Sound) {j : Nat} {k : Closing} {round : Round}
    (hk : c.closings[j]? = some k) (hp : k.phase = .telling round ∨ k.phase = .tellingClosed round) :
    round.member = k.member := by
  obtain ⟨x, hx⟩ := exists_getElem? (sound.lives.calls hk)
  have busy : ¬ k.Idle := by
    rcases hp with hp | hp <;> simp [Closing.Idle, hp]
  obtain ⟨-, -, -, parted, spoken, -⟩ := (h.course hx).of_busy sound.lives hx hk rfl busy
  exact spoken.round_member hp

theorem closing (h : c.Chronicled beats) (sound : c.Sound) {j : Nat} (move : c.ClosingMove j c')
    (silent : c.SilentClosing j c') (hx : c.members[m]? = some x) :
    ∃ x', c'.members[m]? = some x' ∧ c'.Course m x' (beats.filterMap (Beat.note? m)) := by
  have course := h.course hx
  by_cases own : ∃ k : Closing, c.closings[j]? = some k ∧ k.member = m
  · obtain ⟨k, hk, rfl⟩ := own
    cases move.quiet silent hk hx (h.round_member sound hk) with
    | skip hp begun => exact ⟨x, hx, course.skip hk hp begun⟩
    | begin hp fresh => exact ⟨_, getElem?_replace_self hx _, course.begin sound h.returned hx hk rfl fresh⟩
    | @pass c₁ x' _ busy launches closings there kept begun goes =>
      refine ⟨x', there, ?_⟩
      rw [← List.append_nil (List.filterMap _ beats)]
      refine course.go sound.lives hx hk rfl busy c₁ launches closings x' kept begun fun spoken => ?_
      rw [List.append_nil]
      exact goes spoken
  · have away : c.Aside c' m := move.aside fun hk same => own ⟨_, hk, same⟩
    exact ⟨x, away.member.trans hx, course.aside (.closing j move) away⟩

theorem closingTells (h : c.Chronicled beats) (sound : c.Sound) {j : Nat} {k : Closing} {round : Round}
    {y : Member} {o : Observer} {rest : List Observer} {told : Told} {phase : Round → Closing.Phase}
    (hk : c.closings[j]? = some k) (hp : k.phase = phase round)
    (which : phase = .telling ∨ phase = .tellingClosed) (left : round.left = o :: rest)
    (hy : c.members[round.member]? = some y) (goes : round.Goes y o rest new told)
    (hx : c.members[m]? = some x) :
    (c.setClosing j { k with phase := told.closingPhase phase }).Course m x
      (beats.filterMap (Beat.note? m) ++ new.filterMap (Beat.note? m)) := by
  have round_member : round.member = k.member := by
    refine h.round_member sound hk ?_
    rcases which with rfl | rfl
    · exact .inl hp
    · exact .inr hp
  have move := tell_closingMove hk hp which left goes
  by_cases own : k.member = m
  · have busy : ¬ k.Idle := by
      rcases which with rfl | rfl <;> simp [Closing.Idle, hp]
    rw [round_member, own, hx] at hy
    cases hy
    refine (h.course hx).go sound.lives hx hk own busy c rfl rfl x (.refl x) rfl ?_
    intro parted spoken
    rw [hp] at spoken
    exact spoken.tells which left goes
  · have away : c.Aside _ m := move.aside fun hk' => by
      cases hk.symm.trans hk'
      exact own
    rw [goes.notes_of_ne (round_member ▸ own), List.append_nil]
    exact (h.course hx).aside (.closing j move) away

theorem stop (h : c.Chronicled beats) (sound : c.Sound) {j due : Nat} {k : Closing} {round : Round}
    {y : Member} (hk : c.closings[j]? = some k) (hy : c.members[k.member]? = some y)
    (hp : k.phase = .telling round) (done : round.left = []) (hx : c.members[m]? = some x) :
    ((c.stop k.member).setClosing j { k with phase := .stopping due round.failures }).Course m x
      (beats.filterMap (Beat.note? m) ++ [.stop k.member].filterMap (Beat.note? m)) := by
  have move : c.ClosingMove j _ := .stop hk hy hp done due
  by_cases own : k.member = m
  · refine (h.course hx).go sound.lives hx hk own (by simp [Closing.Idle, hp]) (c.stop k.member) rfl rfl
      x (.refl x) rfl ?_
    intro parted spoken
    rw [hp] at spoken
    rw [own]
    simp only [List.filterMap_cons, Beat.note?_stop, List.filterMap_nil]
    exact spoken.stop done due
  · have away : c.Aside _ m := move.aside fun hk' => by
      cases hk.symm.trans hk'
      exact own
    have none : [Beat.stop k.member].filterMap (Beat.note? m) = [] := by simp [Beat.note?, own]
    rw [none, List.append_nil]
    exact (h.course hx).aside (.closing j move) away

theorem launch (h : c.Chronicled beats) (sound : c.Sound) {i : Nat} (move : c.LaunchMove i c')
    (silent : c.SilentLaunch i c') (hx : c.members[m]? = some x) :
    c'.Course m x (beats.filterMap (Beat.note? m)) := by
  have course := h.course hx
  by_cases own : ∃ (l : Launch) (round : Round), c.launches[i]? = some l ∧ l.phase = .telling round ∧
      round.member = m
  · obtain ⟨l, round, hl, hp, rfl⟩ := own
    rcases silent l round hl hp with none | ⟨left, after⟩
    · cases hx.symm.trans none
    · exact course.returns sound.born hx hl hp rfl left after
  · exact course.aside (.launch i move) (move.aside (lt_of_getElem?_eq_some hx) fun hl hp same =>
      own ⟨_, _, hl, hp, same⟩)

theorem launchTells (h : c.Chronicled beats) (sound : c.Sound) {i : Nat} {l : Launch} {round : Round}
    {y : Member} {o : Observer} {rest : List Observer} {told : Told} (move : c.LaunchMove i c')
    (hl : c.launches[i]? = some l) (hp : l.phase = .telling round) (left : round.left = o :: rest)
    (hy : c.members[round.member]? = some y) (goes : round.Goes y o rest new told)
    (after : c'.launches[i]? = some { l with phase := told.launchPhase })
    (hx : c.members[m]? = some x) :
    c'.Course m x (beats.filterMap (Beat.note? m) ++ new.filterMap (Beat.note? m)) := by
  by_cases own : round.member = m
  · exact (h.course hx).launchTells sound.born hx hl hp own left hy goes after
  · rw [goes.notes_of_ne own, List.append_nil]
    refine (h.course hx).aside (.launch i move) (move.aside (lt_of_getElem?_eq_some hx) fun hl' hp' => ?_)
    cases hl.symm.trans hl'
    cases hp.symm.trans hp'
    exact own

/-- **Courses.** Every deed takes the life of a member along its course, and enters in the record what is to
be said. -/
theorem course_deed (h : c.Chronicled beats) (sound : c.Sound) (deed : c.Deed s new c')
    (hx : c.members[m]? = some x) : ∃ x', c'.members[m]? = some x' ∧
      c'.Course m x' (beats.filterMap (Beat.note? m) ++ new.filterMap (Beat.note? m)) := by
  have course := h.course hx
  have there := lt_of_getElem?_eq_some hx
  -- a deed that concerns others only
  have aside (away : c.Aside c' m) (none : new.filterMap (Beat.note? m) = []) : ∃ x',
      c'.members[m]? = some x' ∧
        c'.Course m x' (beats.filterMap (Beat.note? m) ++ new.filterMap (Beat.note? m)) := by
    rw [none, List.append_nil]
    exact ⟨x, away.member.trans hx, course.aside deed.move away⟩
  cases deed with
  | stay | ask | announce => exact aside (.of_eq rfl rfl rfl) rfl
  | launch move silent =>
    rw [List.filterMap_nil, List.append_nil]
    exact ⟨x, (move.member there).trans hx, h.launch sound move silent hx⟩
  | launchTells move hl hp left hy goes after =>
    exact ⟨x, (move.member there).trans hx, h.launchTells sound move hl hp left hy goes after hx⟩
  | closing move silent =>
    rw [List.filterMap_nil, List.append_nil]
    exact h.closing sound move silent hx
  | closingTells hk hp which left hy goes =>
    exact ⟨x, hx, h.closingTells sound hk hp which left hy goes hx⟩
  | stop hk hy hp done due => exact ⟨x, hx, h.stop sound hk hy hp done hx⟩
  | run move => exact aside move.aside rfl
  | rest hr hp goes fails due => exact aside (RunMove.rest hr hp goes due).aside rfl
  | succeedEmpty hr hp all fine none deadline =>
    exact aside (RunMove.succeedEmpty hr hp all fine none deadline).aside (Beat.notes_announce _ _ _ m)
  | succeed hr hp goes => exact aside (RunMove.succeed hr hp goes).aside (Beat.notes_announce _ _ _ m)
  | degrade hr hp goes fails reason time seen =>
    exact aside (RunMove.degrade hr hp goes seen).aside (Beat.notes_announce _ _ _ m)
  | fail hr hp ho he time =>
    subst he
    exact aside (RunMove.fail hr hp ho).aside (Beat.notes_announce _ _ _ m)
  | reaper move => exact aside move.aside rfl
  | dissolution move => exact aside move.aside rfl
  | dissolved hd ha hp ho he time =>
    exact aside (DissolutionMove.finish hd ha hp ho he).aside (Beat.notes_announce _ _ _ m)
  | outside move => exact aside move.aside rfl
  | close there may =>
    have move : c.OutsideMove s.closes _ := .close there may
    exact aside move.aside rfl
  | begin plan platform channel? id now cancelled time =>
    have move : c.OutsideMove s.closes _ := .begin plan platform channel? id now cancelled
    exact aside move.aside (Beat.notes_announce _ _ _ m)

theorem deed (h : c.Chronicled beats) (sound : c.Sound) (held : ∀ m, s.closes m → c.Held m)
    (deed : c.Deed s new c') : c'.Chronicled (beats ++ new) where
  returned := Returned.move h.returned sound (deed.moves.mono held)
  course {m x'} hx' := by
    rw [List.filterMap_append]
    cases hx : c.members[m]? with
    | none =>
      rw [h.nobody hx, deed.notes_of_absent hx]
      exact deed.move.newborn hx hx'
    | some x =>
      obtain ⟨y, hy, course⟩ := h.course_deed sound deed hx
      cases hy.symm.trans hx'
      exact course
  nobody {m} absent := by
    have old : c.members[m]? = none := by
      cases hx : c.members[m]? with
      | none => rfl
      | some x =>
        obtain ⟨y, hy, -⟩ := deed.move.keeps.members hx
        cases hy.symm.trans absent
    rw [List.filterMap_append, h.nobody old, deed.notes_of_absent old, List.append_nil]

/-- Once there is a call for a member and all calls for it have ended, all was said of the member. -/
theorem all_said (h : c.Chronicled beats) (sound : c.Sound) (hx : c.members[m]? = some x) {j : Nat}
    {k : Closing} (hk : c.closings[j]? = some k) (own : k.member = m)
    (ended : ∀ {i : Nat} {k : Closing}, c.closings[i]? = some k → k.member = m → ∃ o, k.phase = .finished o) :
    beats.filterMap (Beat.note? m) = Note.script x.observers := by
  have begun : x.closeStarted = true := by
    rcases sound.lives.life hx with fresh | ⟨i, way⟩
    · obtain ⟨o, ho⟩ := ended hk own
      cases ho.symm.trans (fresh.calls hk own)
    · exact way.begun
  have course := h.course hx
  generalize beats.filterMap (Beat.note? m) = said at course ⊢
  cases course with
  | launching _ _ _ fresh | felled _ _ _ _ fresh | returned _ _ fresh => cases begun.symm.trans fresh
  | parting _ _ hk' own' _ _ spoken =>
    obtain ⟨o, ho⟩ := ended hk' own'
    rw [ho] at spoken
    cases spoken
    rfl

end Chronicled

end Core

/-- **Chronicles.** The record of every reachable world tells the course of each member's life. -/
theorem World.Reachable.chronicled {w : World} (h : Reachable w) :
    ∃ beats, w.record = beats.flatMap Beat.entries ∧ w.core.Chronicled beats :=
  h.history (P := fun beats c => c.Chronicled beats) .empty
    fun sound held deed chronicled => chronicled.deed sound held deed

end Muster
