import Muster.Proofs.Run.Reports

/-!
# Who has closed what

* **`Core.Closers.move`**: each assembly is closed by one call at most, which waits for calls of its own, one
  for each member, and reports what these have ended in; all others end with nothing to report.
-/

namespace Muster

/-- How a call ends that has closed an assembly. -/
def Teardown.report (t : Teardown) : Except Teardown Teardown :=
  if t.closeFailures.isEmpty then .ok t else .error t

namespace Core

variable {c c' : Core} {log : List Errand}

/-! ### Who closes assemblies -/

/-- A call waits for the calls at some places, or has ended in a report of what these have ended in. -/
inductive Awaits (ks : Array Closing) (places : List Nat) : Dissolution.Phase → Prop where
  | closing : Awaits ks places (.closing places)
  | finished {outcomes : List (Except CloseFailure (List ObserverFailure))}
    (ended : List.Forall₂ (Returns ks) places outcomes) :
    Awaits ks places (.finished (Teardown.ofOutcomes outcomes).report)

/-- A call has begun to close an assembly, and has called for each of its members. -/
structure Closer (c : Core) (d : Nat) (places : List Nat) (y : Dissolution) (a : Assembly) : Prop where
  there : c.dissolutions[d]? = some y
  assembly : c.assemblies[y.assembly]? = some a
  started : a.closeStarted = true
  calls : List.Forall₂ (Closes c.closings) places a.members
  once : places.Nodup
  waits : Awaits c.closings places y.phase

/-- Each assembly is closed by one call at most, which waits for calls of its own; all others end with nothing
to report. -/
structure Closers (c : Core) (log : List Errand) : Prop where
  begun : ∀ {d : Nat} {places : List Nat}, .assembly d places ∈ log → ∃ y a, c.Closer d places y a
  one : ∀ {d e : Nat} {ps qs : List Nat} {y z : Dissolution}, .assembly d ps ∈ log →
    .assembly e qs ∈ log → c.dissolutions[d]? = some y → c.dissolutions[e]? = some z →
    y.assembly = z.assembly → d = e ∧ ps = qs
  apart : ∀ {d e j : Nat} {ps qs : List Nat}, .assembly d ps ∈ log → .assembly e qs ∈ log →
    j ∈ ps → j ∈ qs → d = e ∧ ps = qs
  skipped : ∀ {d : Nat} {y : Dissolution}, c.dissolutions[d]? = some y →
    (∀ places, .assembly d places ∉ log) → y.phase = .called ∨ y.phase = .finished (.ok {})

theorem Closers.empty : Closers ⟨#[], #[], #[], #[], #[], #[], []⟩ [] where
  begun := nofun
  one := nofun
  apart := nofun
  skipped hy := by simp at hy

/-- A call that closes an assembly closes it for good. -/
theorem Move.dissolution_assembly (move : c.Move c') {d : Nat} {y y' : Dissolution}
    (hd : c.dissolutions[d]? = some y) (hd' : c'.dissolutions[d]? = some y') : y'.assembly = y.assembly := by
  rcases move.dissolution_cases hd hd' with rfl | move
  · rfl
  · cases move with
    | skip hs | begin hs | finish hs =>
      cases hd.symm.trans hs
      cases (getElem?_replace_self hd _).symm.trans hd'
      rfl

/-- A call that was not there before has done nothing yet. -/
theorem Move.new_dissolution (move : c.Move c') {d : Nat} {y' : Dissolution} (hd : c.dissolutions.size ≤ d)
    (hd' : c'.dissolutions[d]? = some y') : y'.phase = .called := by
  have old {P : Prop} (h : c'.dissolutions.size ≤ c.dissolutions.size) : P :=
    absurd (lt_of_getElem?_eq_some hd') (Nat.not_lt_of_le (Nat.le_trans h hd))
  cases move with
  | stay => exact old (Nat.le_refl _)
  | launch i move => exact old (by cases move <;> exact Nat.le_refl _)
  | closing j move => exact old (by cases move <;> exact Nat.le_refl _)
  | run r move => exact old (by cases move <;> exact Nat.le_refl _)
  | reaper r move => exact old (by cases move <;> exact Nat.le_refl _)
  | dissolution e move => exact old (by cases move <;> simp [setDissolution, setAssembly, call])
  | outside move =>
    cases move with
    | dissolve =>
      have hd' : (c.dissolutions.push _)[d]? = some y' := hd'
      rw [Array.getElem?_push] at hd'
      split at hd'
      · cases hd'
        rfl
      · exact absurd (lt_of_getElem?_eq_some hd') (Nat.not_lt_of_le hd)
    | cancel | begin | launch | close => exact old (Nat.le_refl _)

/-- Nobody takes back that a call has begun to close an assembly. -/
theorem Move.started (move : c.Move c') {a : Nat} {x x' : Assembly} (ha : c.assemblies[a]? = some x)
    (ha' : c'.assemblies[a]? = some x') (started : x.closeStarted = true) : x'.closeStarted = true := by
  have still (same : c'.assemblies[a]? = c.assemblies[a]?) : x'.closeStarted = true := by
    cases ha.symm.trans (same.symm.trans ha')
    exact started
  have pushed {y : Assembly} (grown : c'.assemblies = c.assemblies.push y) : x'.closeStarted = true := by
    refine still ?_
    rw [grown, Array.getElem?_push_lt (lt_of_getElem?_eq_some ha)]
    exact (Array.getElem?_eq_getElem _).symm
  have replaced {b : Nat} {y y' : Assembly} (hb : c.assemblies[b]? = some y)
      (set : c'.assemblies = c.assemblies.setIfInBounds b y')
      (keeps : y.closeStarted = true → y'.closeStarted = true) : x'.closeStarted = true := by
    rw [set, getElem?_replace hb] at ha'
    split at ha'
    · rename_i same
      cases ha'
      cases hb.symm.trans (same ▸ ha)
      exact keeps started
    · cases ha.symm.trans ha'
      exact started
  cases move with
  | stay => exact still rfl
  | launch i move => exact still (by cases move <;> rfl)
  | closing j move => exact still (by cases move <;> rfl)
  | run r move =>
    cases move with
    | succeedEmpty | succeed => exact pushed rfl
    | take | giveUp | refuse | gather | dismiss | degrade | rest | wake | fail => exact still rfl
  | reaper r move => exact still (by cases move <;> rfl)
  | dissolution d move =>
    cases move with
    | skip => exact still rfl
    | begin hd hb => exact replaced hb rfl fun _ => rfl
    | finish hd hb => exact replaced hb rfl fun h => h
  | outside move => exact still (by cases move <;> rfl)

/-- A call begins to close an assembly that nobody has begun to close, and calls for each member anew. -/
theorem Move.begin_cases (move : c.Move c') {d : Nat} {y y' : Dissolution} {places : List Nat}
    (hd : c.dissolutions[d]? = some y) (hd' : c'.dissolutions[d]? = some y') (called : y.phase = .called)
    (closing : y'.phase = .closing places) : ∃ a, c.assemblies[y.assembly]? = some a ∧
      a.closeStarted = false ∧ places = c.callPlaces a.members ∧
      c'.dissolutions = c.dissolutions.setIfInBounds d y' ∧
      c'.Closer d places y' { a with closeStarted := true } := by
  rcases move.dissolution_cases hd hd' with rfl | move
  · cases called.symm.trans closing
  · cases move with
    | skip hs =>
      cases (getElem?_replace_self hs _).symm.trans hd'
      cases closing
    | finish hs =>
      cases (getElem?_replace_self hs _).symm.trans hd'
      cases closing
    | @begin _ a hs ha _ fresh =>
      cases hd.symm.trans hs
      cases (getElem?_replace_self hs _).symm.trans hd'
      cases closing
      exact ⟨a, ha, fresh, rfl, rfl, hd', getElem?_replace_self ha _, rfl, call_closes c a.members,
        List.nodup_range', .closing⟩

/-- A call that closes an assembly goes on. -/
theorem Closer.move {d : Nat} {places : List Nat} {y : Dissolution} {a : Assembly}
    (h : c.Closer d places y a) (move : c.Move c') : ∃ y' a', c'.Closer d places y' a' ∧
      y'.assembly = y.assembly := by
  have keeps := move.keeps
  obtain ⟨y', hd'⟩ := move.dissolution_there h.there
  obtain ⟨a', ha', kept⟩ := keeps.assemblies h.assembly
  have same := move.dissolution_assembly h.there hd'
  refine ⟨y', a', ⟨hd', same ▸ ha', move.started h.assembly ha' h.started, ?_, h.once, ?_⟩, same⟩
  · rw [kept.members]
    exact h.calls.imp fun j m closes => closes.kept keeps
  · have still : Awaits c'.closings places y.phase := by
      have waits := h.waits
      generalize y.phase = p at waits
      cases waits with
      | closing => exact .closing
      | finished ended => exact .finished (ended.imp fun j o returns => returns.kept keeps)
    rcases move.dissolution_cases h.there hd' with rfl | move
    · exact still
    · have waits := h.waits
      cases move with
      | skip hs _ hp | begin hs _ hp =>
        cases h.there.symm.trans hs
        rw [hp] at waits
        cases waits
      | finish hs ha hp ho he =>
        cases h.there.symm.trans hs
        cases (getElem?_replace_self hs _).symm.trans hd'
        rw [hp] at waits
        cases waits
        rw [he]
        exact .finished (outcomes?_forall₂ ho)

/-- The calls for which a call waits are there. -/
theorem Closer.lt {d j : Nat} {places : List Nat} {y : Dissolution} {a : Assembly}
    (h : c.Closer d places y a) (hj : j ∈ places) : j < c.closings.size := by
  obtain ⟨m, -, k, hk, -⟩ := forall₂_right h.calls.flip hj
  exact lt_of_getElem?_eq_some hk

/-- Two calls that begin to close assemblies in the same step are the same. -/
theorem Move.begin_once (move : c.Move c') {d e : Nat} {ps qs : List Nat}
    (hd : .assembly d ps ∈ c.errands c') (he : .assembly e qs ∈ c.errands c') : d = e ∧ ps = qs := by
  obtain ⟨y, y', hy, hy', called, closing⟩ := assembly_mem_errands.mp hd
  obtain ⟨z, z', hz, hz', called', closing'⟩ := assembly_mem_errands.mp he
  obtain ⟨a, -, -, -, set, -⟩ := move.begin_cases hy hy' called closing
  have same : d = e := by
    by_contra other
    rw [set, getElem?_replace_of_ne hy (Ne.symm other)] at hz'
    cases hz.symm.trans hz'
    cases called'.symm.trans closing'
  subst same
  cases hy'.symm.trans hz'
  cases closing.symm.trans closing'
  exact ⟨rfl, rfl⟩

/-- Who begins to close an assembly does so before anybody else, and calls for each member anew. -/
theorem Move.begins (move : c.Move c') {d : Nat} {places : List Nat} (hd : .assembly d places ∈ c.errands c') :
    ∃ (y y' : Dissolution) (a : Assembly), c.assemblies[y.assembly]? = some a ∧ a.closeStarted = false ∧
      places = c.callPlaces a.members ∧ y'.assembly = y.assembly ∧
      c'.Closer d places y' { a with closeStarted := true } := by
  obtain ⟨y, y', hy, hy', called, closing⟩ := assembly_mem_errands.mp hd
  obtain ⟨a, ha, fresh, own, -, closer⟩ := move.begin_cases hy hy' called closing
  exact ⟨y, y', a, ha, fresh, own, move.dissolution_assembly hy hy', closer⟩

/-- Somebody who had begun before has begun to close another assembly, and waits for older calls. -/
theorem Closers.older (h : c.Closers log) (move : c.Move c') {d e : Nat} {ps qs : List Nat}
    (hd : .assembly d ps ∈ log) (he : .assembly e qs ∈ c.errands c') :
    (∀ y z, c'.dissolutions[d]? = some y → c'.dissolutions[e]? = some z → y.assembly ≠ z.assembly) ∧
      ∀ j ∈ ps, j ∉ qs := by
  obtain ⟨y₀, a, closer⟩ := h.begun hd
  obtain ⟨y₁, a₁, closer', same⟩ := closer.move move
  obtain ⟨z₀, z₁, b, hb, fresh, own, same', closerE⟩ := move.begins he
  refine ⟨fun y z hy hz heq => ?_, fun j hj hj' => ?_⟩
  · cases hy.symm.trans closer'.there
    cases hz.symm.trans closerE.there
    rw [same, same'] at heq
    cases (heq ▸ closer.assembly).symm.trans hb
    cases closer.started.symm.trans fresh
  · have old := closer.lt hj
    rw [own, callPlaces, List.mem_range'_1] at hj'
    omega

/-- Who has not begun to close an assembly has not been at work, or found somebody else at it. -/
theorem Closers.skipped_move (h : c.Closers log) (move : c.Move c') {d : Nat} {y' : Dissolution}
    (hy' : c'.dissolutions[d]? = some y') (hd : ∀ places, .assembly d places ∉ log ++ c.errands c') :
    y'.phase = .called ∨ y'.phase = .finished (.ok {}) := by
  by_cases hlt : d < c.dissolutions.size
  · obtain ⟨y, hy⟩ := exists_getElem? hlt
    have idle := h.skipped hy fun places hmem => hd places (List.mem_append_left _ hmem)
    rcases move.dissolution_cases hy hy' with rfl | step
    · exact idle
    · cases step with
      | skip hs =>
        cases (getElem?_replace_self hs _).symm.trans hy'
        exact .inr rfl
      | begin hs _ called =>
        cases hy.symm.trans hs
        have set := getElem?_replace_self hs
        cases (set _).symm.trans hy'
        have now := assembly_mem_errands.mpr ⟨_, _, hy, hy', called, rfl⟩
        exact absurd (List.mem_append_right _ now) (hd _)
      | finish hs _ hp =>
        cases hy.symm.trans hs
        rcases idle with idle | idle <;> cases hp.symm.trans idle
  · exact .inl (move.new_dissolution (Nat.le_of_not_lt hlt) hy')

/-- **One call for each assembly.** -/
theorem Closers.move (h : c.Closers log) (move : c.Move c') : c'.Closers (log ++ c.errands c') := by
  refine ⟨fun {d places} hd => ?_, fun {d e ps qs y z} hd he hy hz same => ?_,
    fun {d e j ps qs} hd he hj hj' => ?_, h.skipped_move move⟩
  · rcases List.mem_append.mp hd with hd | hd
    · obtain ⟨y, a, closer⟩ := h.begun hd
      obtain ⟨y', a', closer', -⟩ := closer.move move
      exact ⟨y', a', closer'⟩
    · obtain ⟨-, y', a, -, -, -, -, closer⟩ := move.begins hd
      exact ⟨y', _, closer⟩
  · rcases List.mem_append.mp hd with hd | hd <;> rcases List.mem_append.mp he with he | he
    · obtain ⟨y₀, a, closer⟩ := h.begun hd
      obtain ⟨z₀, b, closerE⟩ := h.begun he
      have sameD := move.dissolution_assembly closer.there hy
      have sameE := move.dissolution_assembly closerE.there hz
      exact h.one hd he closer.there closerE.there (sameD.symm.trans (same.trans sameE))
    · exact absurd same ((h.older move hd he).1 y z hy hz)
    · exact absurd same.symm ((h.older move he hd).1 z y hz hy)
    · exact move.begin_once hd he
  · rcases List.mem_append.mp hd with hd | hd <;> rcases List.mem_append.mp he with he | he
    · exact h.apart hd he hj hj'
    · exact absurd hj' ((h.older move hd he).2 j hj)
    · exact absurd hj ((h.older move he hd).2 j hj')
    · exact move.begin_once hd he

end Core

end Muster
