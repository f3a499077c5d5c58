import Muster.Proofs.Core.Simulation

/-!
# What moves keep

* `Grows`: one array holds the entries of another at the same places, each related to what it was.
* **`Core.Move.keeps`**: nothing is ever removed. A launch keeps what it launches, whom it tells and for
  which run, and its outcome once it has one; a member keeps its identifier, its launch and its
  specification; a call keeps its member and its outcome; a run that has ended keeps its outcome and its
  members; an assembly keeps everything but its state.
-/

namespace Muster

/-- One array holds the entries of another at the same places, each related to what it was. -/
def Grows {α : Type} (R : α → α → Prop) (xs ys : Array α) : Prop :=
  ∀ ⦃i : Nat⦄ ⦃a : α⦄, xs[i]? = some a → ∃ b, ys[i]? = some b ∧ R a b

namespace Grows

variable {α : Type} {R : α → α → Prop} {xs ys zs : Array α}

theorem refl (hR : ∀ a, R a a) (xs : Array α) : Grows R xs xs := fun _ a h => ⟨a, h, hR a⟩

theorem trans (hR : ∀ a b c, R a b → R b c → R a c) (h : Grows R xs ys) (h' : Grows R ys zs) :
    Grows R xs zs := by
  intro i a ha
  obtain ⟨b, hb, hab⟩ := h ha
  obtain ⟨c, hc, hbc⟩ := h' hb
  exact ⟨c, hc, hR a b c hab hbc⟩

theorem set (hR : ∀ a, R a a) {i : Nat} {a b : α} (h : xs[i]? = some a) (hab : R a b) :
    Grows R xs (xs.setIfInBounds i b) := by
  intro j x hx
  rw [getElem?_replace h]
  by_cases hj : j = i
  · subst hj
    rw [h] at hx
    cases hx
    exact ⟨b, if_pos rfl, hab⟩
  · exact ⟨x, by rw [if_neg hj, hx], hR x⟩

theorem append (hR : ∀ a, R a a) (xs ys : Array α) : Grows R xs (xs ++ ys) := by
  intro i a ha
  refine ⟨a, ?_, hR a⟩
  rw [Array.getElem?_append_left (lt_of_getElem?_eq_some ha), ha]

theorem push (hR : ∀ a, R a a) (xs : Array α) (a : α) : Grows R xs (xs.push a) := append hR xs #[a]

theorem size_le (h : Grows R xs ys) : xs.size ≤ ys.size := by
  by_contra hlt
  have hlt : ys.size < xs.size := Nat.lt_of_not_le hlt
  obtain ⟨b, hb, -⟩ := h (Array.getElem?_eq_getElem hlt)
  exact absurd (lt_of_getElem?_eq_some hb) (Nat.lt_irrefl _)

/-- An entry at an old place was there before. -/
theorem of_lt (h : Grows R xs ys) {i : Nat} {b : α} (hi : i < xs.size) (hb : ys[i]? = some b) :
    ∃ a, xs[i]? = some a ∧ R a b := by
  obtain ⟨b', hb', hR⟩ := h (Array.getElem?_eq_getElem hi)
  rw [hb] at hb'
  cases hb'
  exact ⟨_, Array.getElem?_eq_getElem hi, hR⟩

end Grows

/-! ### What the parts keep -/

/-- A launch goes on. -/
structure Launch.Kept (l l' : Launch) : Prop where
  spec : l'.spec = l.spec
  observers : l'.observers = l.observers
  run : l'.run? = l.run?
  settled : ∀ {o : Launch.Outcome}, l.phase = .settled o → l'.phase = .settled o

/-- A member lives on. -/
structure Member.Kept (x x' : Member) : Prop where
  id : x'.id = x.id
  launch : x'.launch = x.launch
  spec : x'.spec = x.spec
  observers : x'.observers = x.observers

/-- A call that closes a member goes on. -/
structure Closing.Kept (k k' : Closing) : Prop where
  member : k'.member = k.member
  finished : ∀ {o : Except CloseFailure (List ObserverFailure)}, k.phase = .finished o →
    k'.phase = .finished o

/-- A run goes on. -/
structure Run.Kept (run run' : Run) : Prop where
  finished : ∀ {o : Except AssemblyError Nat}, run.phase = .finished o → run'.phase = .finished o
  members : ∀ {o : Except AssemblyError Nat}, run.phase = .finished o → run'.members = run.members

/-- An assembly goes on. -/
structure Assembly.Kept (a a' : Assembly) : Prop where
  id : a'.id = a.id
  channel : a'.channel? = a.channel?
  members : a'.members = a.members
  evaluations : a'.evaluations = a.evaluations
  reports : a'.observerFailures = a.observerFailures
  closed : a.state = .closed → a'.state = .closed

theorem Launch.Kept.trans {l₁ l₂ l₃ : Launch} (h : l₁.Kept l₂) (h' : l₂.Kept l₃) : l₁.Kept l₃ :=
  ⟨h'.spec.trans h.spec, h'.observers.trans h.observers, h'.run.trans h.run,
    fun ho => h'.settled (h.settled ho)⟩

theorem Member.Kept.trans {x₁ x₂ x₃ : Member} (h : x₁.Kept x₂) (h' : x₂.Kept x₃) : x₁.Kept x₃ :=
  ⟨h'.id.trans h.id, h'.launch.trans h.launch, h'.spec.trans h.spec, h'.observers.trans h.observers⟩

theorem Closing.Kept.trans {k₁ k₂ k₃ : Closing} (h : k₁.Kept k₂) (h' : k₂.Kept k₃) : k₁.Kept k₃ :=
  ⟨h'.member.trans h.member, fun ho => h'.finished (h.finished ho)⟩

theorem Run.Kept.trans {r₁ r₂ r₃ : Run} (h : r₁.Kept r₂) (h' : r₂.Kept r₃) : r₁.Kept r₃ :=
  ⟨fun ho => h'.finished (h.finished ho),
    fun ho => (h'.members (h.finished ho)).trans (h.members ho)⟩

theorem Assembly.Kept.trans {a₁ a₂ a₃ : Assembly} (h : a₁.Kept a₂) (h' : a₂.Kept a₃) : a₁.Kept a₃ :=
  ⟨h'.id.trans h.id, h'.channel.trans h.channel, h'.members.trans h.members,
    h'.evaluations.trans h.evaluations, h'.reports.trans h.reports, fun ho => h'.closed (h.closed ho)⟩

theorem Launch.Kept.refl (l : Launch) : l.Kept l := ⟨rfl, rfl, rfl, id⟩

theorem Member.Kept.refl (x : Member) : x.Kept x := ⟨rfl, rfl, rfl, rfl⟩

theorem Closing.Kept.refl (k : Closing) : k.Kept k := ⟨rfl, id⟩

theorem Run.Kept.refl (run : Run) : run.Kept run := ⟨fun h => h, fun _ => rfl⟩

theorem Assembly.Kept.refl (a : Assembly) : a.Kept a := ⟨rfl, rfl, rfl, rfl, rfl, fun h => h⟩

/-- A launch that has not ended keeps nothing but what it is. -/
theorem Launch.Kept.of_unsettled {l : Launch} (h : ∀ o, l.phase ≠ .settled o) (p : Launch.Phase) :
    l.Kept { l with phase := p } :=
  ⟨rfl, rfl, rfl, fun ho => absurd ho (h _)⟩

theorem Closing.Kept.of_unfinished {k : Closing} (h : ∀ o, k.phase ≠ .finished o) (p : Closing.Phase) :
    k.Kept { k with phase := p } :=
  ⟨rfl, fun ho => absurd ho (h _)⟩

theorem Run.Kept.of_unfinished {run : Run} (h : ∀ o, run.phase ≠ .finished o) (run' : Run) :
    run.Kept run' :=
  ⟨fun ho => absurd ho (h _), fun ho => absurd ho (h _)⟩

/-- The fields of a run that tell how it ended are left alone. -/
theorem Run.Kept.of_eq {run run' : Run} (phase : run'.phase = run.phase)
    (members : run'.members = run.members) : run.Kept run' :=
  ⟨fun ho => phase.trans ho, fun _ => members⟩

theorem Launch.Ends.unsettled {l : Launch} {o : Launch.Outcome} (ends : l.Ends o) :
    ∀ o', l.phase ≠ .settled o' := by
  cases ends with
  | refused hp | struck hp | told hp | felled hp => simp [hp]

namespace Core

/-- Nothing is removed, and what is there goes on. -/
structure Keeps (c c' : Core) : Prop where
  launches : Grows Launch.Kept c.launches c'.launches
  members : Grows Member.Kept c.members c'.members
  closings : Grows Closing.Kept c.closings c'.closings
  runs : Grows Run.Kept c.runs c'.runs
  assemblies : Grows Assembly.Kept c.assemblies c'.assemblies

variable {c c' c₁ : Core}

namespace Keeps

theorem refl (c : Core) : c.Keeps c :=
  ⟨.refl .refl _, .refl .refl _, .refl .refl _, .refl .refl _, .refl .refl _⟩

theorem trans (h : c.Keeps c₁) (h' : c₁.Keeps c') : c.Keeps c' where
  launches := h.launches.trans (fun _ _ _ => .trans) h'.launches
  members := h.members.trans (fun _ _ _ => .trans) h'.members
  closings := h.closings.trans (fun _ _ _ => .trans) h'.closings
  runs := h.runs.trans (fun _ _ _ => .trans) h'.runs
  assemblies := h.assemblies.trans (fun _ _ _ => .trans) h'.assemblies

theorem setLaunch (h : c.Keeps c₁) {i : Nat} {l l' : Launch} (hl : c₁.launches[i]? = some l)
    (kept : l.Kept l') : c.Keeps (c₁.setLaunch i l') :=
  h.trans { refl c₁ with launches := .set .refl hl kept }

theorem setMember (h : c.Keeps c₁) {m : Nat} {x x' : Member} (hx : c₁.members[m]? = some x)
    (kept : x.Kept x') : c.Keeps (c₁.setMember m x') :=
  h.trans { refl c₁ with members := .set .refl hx kept }

theorem setClosing (h : c.Keeps c₁) {j : Nat} {k k' : Closing} (hk : c₁.closings[j]? = some k)
    (kept : k.Kept k') : c.Keeps (c₁.setClosing j k') :=
  h.trans { refl c₁ with closings := .set .refl hk kept }

theorem setRun (h : c.Keeps c₁) {r : Nat} {run run' : Run} (hr : c₁.runs[r]? = some run)
    (kept : run.Kept run') : c.Keeps (c₁.setRun r run') :=
  h.trans { refl c₁ with runs := .set .refl hr kept }

theorem setAssembly (h : c.Keeps c₁) {a : Nat} {x x' : Assembly} (ha : c₁.assemblies[a]? = some x)
    (kept : x.Kept x') : c.Keeps (c₁.setAssembly a x') :=
  h.trans { refl c₁ with assemblies := .set .refl ha kept }

theorem setDissolution (h : c.Keeps c₁) (d : Nat) (x : Dissolution) :
    c.Keeps (c₁.setDissolution d x) :=
  h.trans { refl c₁ with }

theorem call (h : c.Keeps c₁) (ms : List Nat) : c.Keeps (c₁.call ms) :=
  h.trans { refl c₁ with closings := .append .refl _ _ }

theorem addAssembly (h : c.Keeps c₁) (a : Assembly) : c.Keeps (c₁.addAssembly a) :=
  h.trans { refl c₁ with assemblies := .push .refl _ _ }

theorem addMember (h : c.Keeps c₁) (x : Member) : c.Keeps (c₁.addMember x) :=
  h.trans { refl c₁ with members := .push .refl _ _ }

theorem stop (h : c.Keeps c₁) (m : Nat) : c.Keeps (c₁.stop m) := h.trans { refl c₁ with }

theorem rollBack {r : Nat} {run : Run} (hr : c.runs[r]? = some run)
    (h : ∀ o, run.phase ≠ .finished o) (x : Run) (cause : Run.Cause) : c.Keeps (c.rollBack r x cause) :=
  ((refl c).call _).setRun hr (.of_unfinished h _)

theorem succeed {r : Nat} {run : Run} (hr : c.runs[r]? = some run)
    (h : ∀ o, run.phase ≠ .finished o) (x : Run) : c.Keeps (c.succeed r x) :=
  ((refl c).addAssembly _).setRun hr (.of_unfinished h _)

end Keeps

theorem LaunchMove.keeps {i : Nat} (h : c.LaunchMove i c') : c.Keeps c' := by
  cases h with
  | wait hl hp hr hrun =>
    refine ((Keeps.refl c).setRun hrun ?_).setLaunch hl ?_
    · exact .of_eq rfl rfl
    · exact .of_unsettled (by simp [hp]) _
  | pass hl hp hr hrun free due =>
    refine ((Keeps.refl c).setRun hrun ?_).setLaunch hl ?_
    · exact .of_eq rfl rfl
    · exact .of_unsettled (by simp [hp]) _
  | ask hl hp due =>
    refine (Keeps.refl c).setLaunch hl (.of_unsettled ?_ _)
    rcases hp with hp | ⟨hp, -⟩ <;> simp [hp]
  | handOut hl hp id process since =>
    exact ((Keeps.refl c).addMember _).setLaunch hl (.of_unsettled (by simp [hp]) _)
  | tell hl hp same fewer => exact (Keeps.refl c).setLaunch hl (.of_unsettled (by simp [hp]) _)
  | settle hl ends hr => exact (Keeps.refl c).setLaunch hl (.of_unsettled ends.unsettled _)
  | settleLast hl ends hr hrun empty =>
    refine ((Keeps.refl c).setLaunch hl ?_).setRun hrun ?_
    · exact .of_unsettled ends.unsettled _
    · exact .of_eq rfl rfl
  | settleNext hl ends hr hrun first other hn waits =>
    have hn' := fun l => (getElem?_replace_of_ne hl other l).trans hn
    refine (((Keeps.refl c).setLaunch hl ?_).setLaunch (hn' _) ?_).setRun hrun ?_
    · exact .of_unsettled ends.unsettled _
    · exact .of_unsettled (by simp [waits]) _
    · exact .of_eq rfl rfl

theorem ClosingMove.keeps {j : Nat} (h : c.ClosingMove j c') : c.Keeps c' := by
  cases h with
  | skip hk hx hp begun => exact (Keeps.refl c).setClosing hk (.of_unfinished (by simp [hp]) _)
  | begin hk hx hp fresh =>
    refine ((Keeps.refl c).setMember hx ?_).setClosing hk ?_
    · exact ⟨rfl, rfl, rfl, rfl⟩
    · exact .of_unfinished (by simp [hp]) _
  | tell hk hp fewer => exact (Keeps.refl c).setClosing hk (.of_unfinished (by simp [hp]) _)
  | stop hk hx hp done due =>
    exact ((Keeps.refl c).stop _).setClosing hk (.of_unfinished (by simp [hp]) _)
  | mark hk hx hp =>
    refine ((Keeps.refl c).setMember hx ?_).setClosing hk ?_
    · exact ⟨rfl, rfl, rfl, rfl⟩
    · exact .of_unfinished (by simp [hp]) _
  | tellClosed hk hp fewer => exact (Keeps.refl c).setClosing hk (.of_unfinished (by simp [hp]) _)
  | finish hk hx hp done ho => exact (Keeps.refl c).setClosing hk (.of_unfinished (by simp [hp]) _)
  | fall hk hp ho dies =>
    refine (Keeps.refl c).setClosing hk (.of_unfinished ?_ _)
    rcases hp with hp | hp <;> simp [hp]

theorem RunMove.keeps {r : Nat} (h : c.RunMove r c') : c.Keeps c' := by
  cases h with
  | take hr hp waits goes hs hi => exact (Keeps.refl c).setRun hr (.of_unfinished (by simp [hp]) _)
  | giveUp hr hp waits why => exact Keeps.rollBack hr (by simp [hp]) _ _
  | refuse hr hp all failed => exact Keeps.rollBack hr (by simp [hp]) _ _
  | gather hr hp all fine some deadline =>
    exact (Keeps.refl c).setRun hr (.of_unfinished (by simp [hp]) _)
  | succeedEmpty hr hp all fine none deadline => exact Keeps.succeed hr (by simp [hp]) _
  | dismiss hr hp gone => exact Keeps.rollBack hr (by simp [hp]) _ _
  | succeed hr hp goes => exact Keeps.succeed hr (by simp [hp]) _
  | degrade hr hp goes seen => exact Keeps.rollBack hr (by simp [hp]) _ _
  | rest hr hp goes due => exact (Keeps.refl c).setRun hr (.of_unfinished (by simp [hp]) _)
  | wake hr hp => exact (Keeps.refl c).setRun hr (.of_unfinished (by simp [hp]) _)
  | fail hr hp ho => exact (Keeps.refl c).setRun hr (.of_unfinished (by simp [hp]) _)

theorem ReaperMove.keeps {r : Nat} (h : c.ReaperMove r c') : c.Keeps c' := by
  cases h with
  | done hr hp hk ho => exact (Keeps.refl c).setRun hr (.of_eq rfl rfl)
  | drop hr hp hs hm => exact (Keeps.refl c).setRun hr (.of_eq rfl rfl)
  | close hr hp hs hm =>
    refine ((Keeps.refl c).call _).setRun hr ?_
    exact .of_eq rfl rfl

theorem DissolutionMove.keeps {d : Nat} (h : c.DissolutionMove d c') : c.Keeps c' := by
  cases h with
  | skip hd ha hp begun => exact (Keeps.refl c).setDissolution _ _
  | begin hd ha hp fresh =>
    refine (((Keeps.refl c).setAssembly ha ?_).call _).setDissolution _ _
    exact ⟨rfl, rfl, rfl, rfl, rfl, fun h => h⟩
  | finish hd ha hp ho he =>
    refine ((Keeps.refl c).setAssembly ha ?_).setDissolution _ _
    exact ⟨rfl, rfl, rfl, rfl, rfl, fun _ => rfl⟩

theorem OutsideMove.keeps {closes : Nat → Prop} (h : c.OutsideMove closes c') : c.Keeps c' := by
  cases h with
  | cancel hr => exact (Keeps.refl c).setRun hr (.of_eq rfl rfl)
  | begin plan platform channel? id now cancelled =>
    exact { Keeps.refl c with launches := .append .refl _ _, runs := .push .refl _ _ }
  | launch spec platform observers => exact { Keeps.refl c with launches := .push .refl _ _ }
  | close => exact (Keeps.refl c).call _
  | dissolve known => exact { Keeps.refl c with }

/-- **Nothing is removed.** What there is goes on, whatever move is made. -/
theorem Move.keeps (h : c.Move c') : c.Keeps c' := by
  cases h with
  | stay => exact .refl c
  | launch i h => exact h.keeps
  | closing j h => exact h.keeps
  | run r h => exact h.keeps
  | reaper r h => exact h.keeps
  | dissolution d h => exact h.keeps
  | outside h => exact h.keeps

end Core

end Muster
