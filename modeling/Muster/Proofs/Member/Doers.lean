import Muster.Proofs.Member.Protocol

/-!
# Who closes members

* `Errand`, `Core.errands`: what begins in a step: a call closes its member, or a call closes an assembly.
* **`Core.Doers.move`**: each member that somebody has begun to close is closed by one call, and all other
  calls for it are idle.
-/

namespace Muster

/-- Something that somebody has begun, and nobody had begun before. -/
inductive Errand where
  /-- A call closes its member. -/
  | member (j : Nat)
  /-- A call closes its assembly, and waits for the calls at some places. -/
  | assembly (d : Nat) (places : List Nat)
deriving DecidableEq, Repr

/-- Whether a call begins to close its member between two times. -/
def Closing.begins? (k k' : Closing) : Bool :=
  match k.phase, k'.phase with
  | .called, .telling _ => true
  | _, _ => false

theorem Closing.begins?_eq_true {k k' : Closing} :
    k.begins? k' = true ↔ k.phase = .called ∧ ∃ round, k'.phase = .telling round := by
  unfold begins?
  cases k.phase <;> cases k'.phase <;> simp

/-- The calls for which a call that closes an assembly begins to wait between two times. -/
def Dissolution.begins? (y y' : Dissolution) : Option (List Nat) :=
  match y.phase, y'.phase with
  | .called, .closing places => some places
  | _, _ => none

theorem Dissolution.begins?_eq_some {y y' : Dissolution} {places : List Nat} :
    y.begins? y' = some places ↔ y.phase = .called ∧ y'.phase = .closing places := by
  unfold begins?
  cases y.phase <;> cases y'.phase <;> simp

namespace Core

/-- What begins in a step. -/
def errands (c c' : Core) : List Errand :=
  ((List.range c.closings.size).filterMap fun j => do
      let k ← c.closings[j]?
      let k' ← c'.closings[j]?
      if k.begins? k' then some (.member j) else none) ++
    (List.range c.dissolutions.size).filterMap fun d => do
      let y ← c.dissolutions[d]?
      let y' ← c'.dissolutions[d]?
      (y.begins? y').map (.assembly d)

variable {c c' : Core}

theorem member_mem_errands {j : Nat} : .member j ∈ c.errands c' ↔ ∃ k k' round, c.closings[j]? = some k ∧
    c'.closings[j]? = some k' ∧ k.phase = .called ∧ k'.phase = .telling round := by
  simp only [errands, List.mem_append, List.mem_filterMap, List.mem_range, bind, Option.bind_eq_some_iff,
    Option.map_eq_some_iff, reduceCtorEq, and_false, exists_false, or_false, Option.ite_none_right_eq_some,
    Option.some.injEq, Errand.member.injEq, Closing.begins?_eq_true]
  constructor
  · rintro ⟨j', -, k, hk, k', hk', ⟨called, round, telling⟩, rfl⟩
    exact ⟨k, k', round, hk, hk', called, telling⟩
  · rintro ⟨k, k', round, hk, hk', called, telling⟩
    exact ⟨j, lt_of_getElem?_eq_some hk, k, hk, k', hk', ⟨called, round, telling⟩, rfl⟩

theorem assembly_mem_errands {d : Nat} {places : List Nat} : .assembly d places ∈ c.errands c' ↔ ∃ y y',
    c.dissolutions[d]? = some y ∧ c'.dissolutions[d]? = some y' ∧ y.phase = .called ∧
      y'.phase = .closing places := by
  simp only [errands, List.mem_append, List.mem_filterMap, List.mem_range, bind, Option.bind_eq_some_iff,
    Option.map_eq_some_iff, reduceCtorEq, and_false, exists_false, false_or, Option.ite_none_right_eq_some,
    Option.some.injEq, Errand.assembly.injEq, Dissolution.begins?_eq_some]
  constructor
  · rintro ⟨d', -, y, hy, y', hy', places', ⟨called, closing⟩, rfl, rfl⟩
    exact ⟨y, y', hy, hy', called, closing⟩
  · rintro ⟨y, y', hy, hy', called, closing⟩
    exact ⟨d, lt_of_getElem?_eq_some hy, y, hy, y', hy', places, ⟨called, closing⟩, rfl, rfl⟩

/-! ### Who closes members -/

/-- Each member that somebody has begun to close is closed by one call, and all other calls for it are idle. -/
structure Doers (c : Core) (log : List Errand) : Prop where
  begun : ∀ {m : Nat} {x : Member}, c.members[m]? = some x → x.closeStarted = true →
    ∃ j, .member j ∈ log ∧ Closes c.closings j m
  works : ∀ {j : Nat}, .member j ∈ log → ∃ m, c.Works j m
  one : ∀ {i j m : Nat}, .member i ∈ log → .member j ∈ log → Closes c.closings i m →
    Closes c.closings j m → i = j
  idle : ∀ {j : Nat} {k : Closing}, c.closings[j]? = some k → .member j ∉ log → k.Idle

theorem Closes.eq {ks : Array Closing} {j m n : Nat} (h : Closes ks j m) (h' : Closes ks j n) : m = n := by
  obtain ⟨k, hk, rfl⟩ := h
  obtain ⟨k', hk', rfl⟩ := h'
  cases hk.symm.trans hk'
  rfl

theorem Works.closes {j m : Nat} (h : c.Works j m) : Closes c.closings j m := by
  obtain ⟨k, hk, own, -⟩ := h.call
  exact ⟨k, hk, own⟩

/-- The call that closes a member is the only one that is busy with it. -/
theorem Works.eq_of_busy {i j m : Nat} (h : c.Works i m) {k : Closing} (hk : c.closings[j]? = some k)
    (own : k.member = m) (busy : ¬ k.Idle) : i = j := by
  by_contra other
  exact busy (h.alone hk own (Ne.symm other))

variable {log : List Errand}

theorem Doers.empty : Doers ⟨#[], #[], #[], #[], #[], #[], []⟩ [] where
  begun hx := by simp at hx
  works := nofun
  one := nofun
  idle hk := by simp at hk

/-- An idle call goes on idly, or begins to close its member. -/
theorem Move.idle_cases (move : c.Move c') {j : Nat} {k k' : Closing} (hk : c.closings[j]? = some k)
    (hk' : c'.closings[j]? = some k') (idle : k.Idle) :
    k'.Idle ∨ k.phase = .called ∧ ∃ round, k'.phase = .telling round := by
  rcases move.closing_cases hk hk' with rfl | move
  · exact .inl idle
  · cases move with
    | skip hj =>
      cases (getElem?_replace_self hj _).symm.trans hk'
      exact .inl (.inr rfl)
    | begin hj _ called =>
      cases hk.symm.trans hj
      cases (getElem?_replace_self hj _).symm.trans hk'
      exact .inr ⟨called, _, rfl⟩
    | tell hj hp | stop hj _ hp | mark hj _ hp | tellClosed hj hp | finish hj _ hp =>
      cases hk.symm.trans hj
      rcases idle with idle | idle <;> cases hp.symm.trans idle
    | fall hj hp =>
      cases hk.symm.trans hj
      rcases hp with hp | hp <;> rcases idle with idle | idle <;> cases hp.symm.trans idle

/-- When nobody had begun to close a member before, a call begins now. -/
theorem Sound.begins (h : c.Sound) (move : c.Move c') {m : Nat} {x' : Member} (hx' : c'.members[m]? = some x')
    (begun : x'.closeStarted = true) : (∃ x, c.members[m]? = some x ∧ x.closeStarted = true) ∨
      ∃ j, .member j ∈ c.errands c' ∧ Closes c'.closings j m := by
  obtain ⟨j, k', hk', own, uncalled⟩ : ∃ (j : Nat) (k' : Closing), c'.closings[j]? = some k' ∧
      k'.member = m ∧ k'.phase ≠ .called := by
    rcases (h.move move).lives.life hx' with fresh | ⟨j, way⟩
    · cases fresh.begun.symm.trans begun
    · obtain ⟨k', hk', own, phase⟩ := way.works
      refine ⟨j, k', hk', own, fun called => ?_⟩
      rw [called] at phase
      cases phase
  by_cases hj : j < c.closings.size
  · obtain ⟨k, hk, kept⟩ := move.keeps.closings.of_lt hj hk'
    have same : k.member = m := kept.member.symm.trans own
    obtain ⟨x, hx⟩ := exists_getElem? (h.lives.calls hk)
    rw [same] at hx
    rcases h.lives.life hx with fresh | ⟨i, way⟩
    · have called := fresh.calls hk same
      rcases move.closing_cases hk hk' with rfl | move
      · exact absurd called uncalled
      · cases move with
        | skip hs hy _ started =>
          cases hk.symm.trans hs
          rw [same, hx] at hy
          cases hy
          cases fresh.begun.symm.trans started
        | begin hs =>
          cases hk.symm.trans hs
          cases (getElem?_replace_self hs _).symm.trans hk'
          exact .inr ⟨j, member_mem_errands.mpr ⟨k, _, _, hk, getElem?_replace_self hs _, called, rfl⟩,
            _, getElem?_replace_self hs _, same⟩
        | tell hs hp | stop hs _ hp | mark hs _ hp | tellClosed hs hp | finish hs _ hp =>
          cases hk.symm.trans hs
          cases hp.symm.trans called
        | fall hs hp =>
          cases hk.symm.trans hs
          rcases hp with hp | hp <;> cases hp.symm.trans called
    · exact .inl ⟨x, hx, way.begun⟩
  · exact absurd (move.new_call (Nat.le_of_not_lt hj) hk').1 uncalled

/-- **One call for each member.** -/
theorem Doers.move (h : c.Doers log) (sound : c.Sound) (move : c.Move c') :
    c'.Doers (log ++ c.errands c') := by
  have sound' := sound.move move
  -- who begins now is busy, and so the only one
  have new {j : Nat} (hj : .member j ∈ c.errands c') : ∃ k', c'.closings[j]? = some k' ∧ ¬ k'.Idle := by
    obtain ⟨k, k', round, -, hk', -, telling⟩ := member_mem_errands.mp hj
    exact ⟨k', hk', by simp [Closing.Idle, telling]⟩
  have works {j : Nat} (hj : .member j ∈ log ++ c.errands c') : ∃ m, c'.Works j m := by
    rcases List.mem_append.mp hj with hj | hj
    · obtain ⟨m, works⟩ := h.works hj
      exact ⟨m, works.move sound move⟩
    · obtain ⟨k', hk', busy⟩ := new hj
      exact ⟨k'.member, sound'.works hk' busy⟩
  have alone {i j m : Nat} (hi : .member i ∈ log ++ c.errands c') (hj : .member j ∈ c.errands c')
      (him : Closes c'.closings i m) (hjm : Closes c'.closings j m) : i = j := by
    obtain ⟨m', worksI⟩ := works hi
    cases worksI.closes.eq him
    obtain ⟨k', hk', busy⟩ := new hj
    exact worksI.eq_of_busy hk' (Closes.eq ⟨k', hk', rfl⟩ hjm) busy
  refine ⟨fun {m x'} hx' begun => ?_, works, fun {i j m} hi hj him hjm => ?_, fun {j k'} hk' hj => ?_⟩
  · rcases sound.begins move hx' begun with ⟨x, hx, begun⟩ | ⟨j, hj, closes⟩
    · obtain ⟨j, hj, closes⟩ := h.begun hx begun
      exact ⟨j, List.mem_append_left _ hj, closes.kept move.keeps⟩
    · exact ⟨j, List.mem_append_right _ hj, closes⟩
  · rcases List.mem_append.mp hj with old | hj'
    · rcases List.mem_append.mp hi with old' | hi'
      · obtain ⟨n, worksI⟩ := h.works old'
        obtain ⟨n', worksJ⟩ := h.works old
        cases (worksI.closes.kept move.keeps).eq him
        cases (worksJ.closes.kept move.keeps).eq hjm
        exact h.one old' old worksI.closes worksJ.closes
      · exact (alone hj hi' hjm him).symm
    · exact alone hi hj' him hjm
  · rw [List.mem_append, not_or] at hj
    by_cases hlt : j < c.closings.size
    · obtain ⟨k, hk, -⟩ := move.keeps.closings.of_lt hlt hk'
      rcases move.idle_cases hk hk' (h.idle hk hj.1) with idle | ⟨called, round, telling⟩
      · exact idle
      · exact absurd (member_mem_errands.mpr ⟨k, k', round, hk, hk', called, telling⟩) hj.2
    · exact .inl (move.new_call (Nat.le_of_not_lt hlt) hk').1

end Core

/-- What begins in a step. -/
def World.errands (w w' : World) : List Errand := w.core.errands w'.core

end Muster
