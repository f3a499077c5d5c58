import Muster.Proofs.Run.Asking
import Muster.Proofs.Run.Success

/-!
# Who closes the members of an assembly

* **`Core.Alone.move`**: at most one call closes an assembly, and the assembly is not closed before that call
  ends.
* `Core.Guarded`: until the assembly of a run is closed, all calls for its members are those of the call that
  closes it.
* **`Core.Guarded.deed`**: every deed keeps a run guarded, unless a caller closes one of its members.
-/

namespace Muster

namespace Core

variable {c c' : Core}

/-! ### One call for each assembly -/

/-- At most one call closes an assembly, and the assembly is not closed before that call ends. -/
structure Alone (as : Array Assembly) (ds : Array Dissolution) : Prop where
  started : ∀ {a : Nat} {x : Assembly}, as[a]? = some x → x.state = .closed → x.closeStarted = true
  begun : ∀ {d : Nat} {y : Dissolution} {places : List Nat} {x : Assembly}, ds[d]? = some y →
    y.phase = .closing places → as[y.assembly]? = some x → x.closeStarted = true ∧ x.state ≠ .closed
  one : ∀ {d e : Nat} {y z : Dissolution} {ps qs : List Nat}, ds[d]? = some y → ds[e]? = some z →
    y.phase = .closing ps → z.phase = .closing qs → y.assembly = z.assembly → d = e

namespace Alone

variable {as : Array Assembly} {ds : Array Dissolution}

theorem empty : Alone #[] #[] where
  started hx := by simp at hx
  begun hd := by simp at hd
  one hd := by simp at hd

theorem pushAssembly (h : Alone as ds) (known : ∀ {d : Nat} {y : Dissolution}, ds[d]? = some y →
    y.assembly < as.size) {x : Assembly} (unclosed : x.state ≠ .closed) : Alone (as.push x) ds where
  started hx closed := by
    rw [Array.getElem?_push] at hx
    split at hx
    · cases hx
      exact absurd closed unclosed
    · exact h.started hx closed
  begun hd hp hx := by
    rw [Array.getElem?_push_lt (known hd), ← Array.getElem?_eq_getElem] at hx
    exact h.begun hd hp hx
  one hd he hp hq same := h.one hd he hp hq same

theorem pushDissolution (h : Alone as ds) (a : Nat) : Alone as (ds.push { assembly := a }) := by
  have old {d : Nat} {y : Dissolution} {places : List Nat} (hd : (ds.push { assembly := a })[d]? = some y)
      (hp : y.phase = .closing places) : ds[d]? = some y := by
    rw [Array.getElem?_push] at hd
    split at hd
    · cases hd
      cases hp
    · exact hd
  exact ⟨h.started, fun hd hp hx => h.begun (old hd hp) hp hx,
    fun hd he hp hq same => h.one (old hd hp) (old he hq) hp hq same⟩

variable {d : Nat} {y : Dissolution} {a : Assembly}

theorem finish (h : Alone as ds) (hd : ds[d]? = some y) (o : Except Teardown Teardown) :
    Alone as (ds.setIfInBounds d { y with phase := .finished o }) := by
  have old {e : Nat} {z : Dissolution} {places : List Nat}
      (he : (ds.setIfInBounds d { y with phase := .finished o })[e]? = some z)
      (hp : z.phase = .closing places) : ds[e]? = some z := by
    rw [getElem?_replace hd] at he
    split at he
    · cases he
      cases hp
    · exact he
  exact ⟨h.started, fun he hp hx => h.begun (old he hp) hp hx,
    fun he hf hp hq same => h.one (old he hp) (old hf hq) hp hq same⟩

/-- A call begins to close an assembly that nobody has begun to close. -/
theorem begin (h : Alone as ds) (hd : ds[d]? = some y) (ha : as[y.assembly]? = some a)
    (fresh : a.closeStarted = false) (places : List Nat) :
    Alone (as.setIfInBounds y.assembly { a with closeStarted := true })
      (ds.setIfInBounds d { y with phase := .closing places }) := by
  -- another call that closes an assembly closes another one
  have old {e : Nat} {z : Dissolution} {places' : List Nat}
      (he : (ds.setIfInBounds d { y with phase := .closing places })[e]? = some z)
      (hp : z.phase = .closing places') :
      e = d ∧ z = { y with phase := .closing places } ∨ ds[e]? = some z ∧ z.assembly ≠ y.assembly := by
    rw [getElem?_replace hd] at he
    split at he
    · rename_i own
      cases he
      exact .inl ⟨own, rfl⟩
    · refine .inr ⟨he, fun same => ?_⟩
      have begun := (h.begun he hp (same ▸ ha)).1
      rw [fresh] at begun
      cases begun
  refine ⟨fun {b x} hx closed => ?_, fun {e z _ x} he hp hx => ?_, fun {e f z u _ _} he hf hp hq same => ?_⟩
  · rw [getElem?_replace ha] at hx
    split at hx
    · cases hx
      rfl
    · exact h.started hx closed
  · rcases old he hp with ⟨-, rfl⟩ | ⟨he, other⟩
    · cases (getElem?_replace_self ha _).symm.trans hx
      refine ⟨rfl, fun closed => ?_⟩
      have begun := h.started ha closed
      rw [fresh] at begun
      cases begun
    · exact h.begun he hp ((getElem?_replace_of_ne ha other _).symm.trans hx)
  · rcases old he hp with ⟨rfl, rfl⟩ | ⟨he, other⟩ <;> rcases old hf hq with ⟨rfl, rfl⟩ | ⟨hf, other'⟩
    · rfl
    · exact absurd same.symm other'
    · exact absurd same other
    · exact h.one he hf hp hq same

/-- The call that closes an assembly has closed it, and ends. -/
theorem close (h : Alone as ds) (hd : ds[d]? = some y) (ha : as[y.assembly]? = some a) {places : List Nat}
    (hp : y.phase = .closing places) (o : Except Teardown Teardown) :
    Alone (as.setIfInBounds y.assembly { a with state := .closed })
      (ds.setIfInBounds d { y with phase := .finished o }) := by
  have ended := h.finish hd o
  refine ⟨fun {b x} hx closed => ?_, fun {e z _ x} he hq hx => ?_, ended.one⟩
  · rw [getElem?_replace ha] at hx
    split at hx
    · cases hx
      exact (h.begun hd hp ha).1
    · exact h.started hx closed
  · -- another call that closes the assembly would be the same
    by_cases own : z.assembly = y.assembly
    · rw [getElem?_replace hd] at he
      split at he
      · cases he
        cases hq
      · rename_i other
        exact absurd (h.one he hd hq hp own) other
    · exact ended.begun he hq ((getElem?_replace_of_ne ha own _).symm.trans hx)

end Alone

/-- **One call for each assembly.** Every move keeps calls that close the same assembly to one. -/
theorem Alone.move (h : Alone c.assemblies c.dissolutions)
    (dissolved : Dissolved c.assemblies c.dissolutions c.closings) (move : c.Move c') :
    Alone c'.assemblies c'.dissolutions := by
  cases move with
  | stay => exact h
  | launch i move => cases move <;> exact h
  | closing j move => cases move <;> exact h
  | run r move =>
    cases move with
    | succeedEmpty | succeed => exact h.pushAssembly dissolved.known fun closed => by cases closed
    | take | gather | rest | wake | fail | giveUp | refuse | dismiss | degrade => exact h
  | reaper r move => cases move <;> exact h
  | dissolution d move =>
    cases move with
    | skip hd => exact h.finish hd (.ok {})
    | begin hd ha _ fresh => exact h.begin hd ha fresh _
    | finish hd ha hp ho => exact h.close hd ha hp _
  | outside move =>
    cases move with
    | dissolve => exact h.pushDissolution _
    | cancel | begin | launch | close => exact h

/-! ### Calls for the members of an assembly -/

variable {s : Setting} {new : List Beat} {r a j : Nat} {run run' : Run} {k : Closing}

/-- Only runs, reapers, calls that close assemblies and callers add calls. -/
theorem Deed.new_call (deed : c.Deed s new c') (hj : c.closings.size ≤ j) (hk : c'.closings[j]? = some k) :
    (∃ r, c.RunMove r c') ∨ (∃ r, c.ReaperMove r c') ∨ (∃ d, c.DissolutionMove d c') ∨
      s.closes k.member := by
  have old {P : Prop} (h : c'.closings = c.closings) : P :=
    absurd (lt_of_getElem?_eq_some hk) (Nat.not_lt_of_le (h ▸ hj))
  cases deed with
  | stay | ask | announce | begin => exact old rfl
  | launch move | launchTells move => exact old (by cases move <;> rfl)
  | closing move =>
    have same : c'.closings.size = c.closings.size := by
      cases move <;> simp [setClosing, setMember, Core.stop]
    exact absurd (lt_of_getElem?_eq_some hk) (Nat.not_lt_of_le (same ▸ hj))
  | closingTells hk' | stop hk' =>
    refine absurd (lt_of_getElem?_eq_some hk) (Nat.not_lt_of_le ?_)
    exact Nat.le_trans (Nat.le_of_eq Array.size_setIfInBounds) hj
  | run move => exact .inl ⟨_, move⟩
  | succeedEmpty hr hp all fine none deadline => exact .inl ⟨_, .succeedEmpty hr hp all fine none deadline⟩
  | succeed hr hp goes => exact .inl ⟨_, .succeed hr hp goes⟩
  | degrade hr hp goes _ _ _ seen => exact .inl ⟨_, .degrade hr hp goes seen⟩
  | rest hr hp goes _ due => exact .inl ⟨_, .rest hr hp goes due⟩
  | fail hr hp ho => exact old rfl
  | reaper move => exact .inr (.inl ⟨_, move⟩)
  | dissolution move => exact .inr (.inr (.inl ⟨_, move⟩))
  | dissolved hd ha hp ho he => exact .inr (.inr (.inl ⟨_, .finish hd ha hp ho he⟩))
  | outside _ _ closings => exact old closings
  | close held may =>
    obtain ⟨-, hm, -⟩ := call_new hj hk
    exact .inr (.inr (.inr (List.mem_singleton.mp hm ▸ may)))

/-- Once a run has ended in an assembly, calls for its members are added only by a call that closes the
assembly, unless a caller closes one of them. -/
theorem Deed.calls_guarded (deed : c.Deed s new c') (h : c.Sound)
    (nobody : ∀ m, s.closes m → c.runOf? m ≠ some r) (hr : c.runs[r]? = some run)
    (hr' : c'.runs[r]? = some run') (hp' : run'.phase = .finished (.ok a)) (hj : c.closings.size ≤ j)
    (hk : c'.closings[j]? = some k) (hm : k.member ∈ run.members) :
    ∃ (d : Nat) (y : Dissolution) (places : List Nat), c'.dissolutions[d]? = some y ∧
      y.phase = .closing places ∧ j ∈ places ∧ run.phase = .finished (.ok y.assembly) := by
  have own := h.runOf?_eq hr hm
  -- whose members are called for is the run itself
  have same {q : Nat} (other : c.runOf? k.member = some q) : q = r := Option.some.inj (other.symm.trans own)
  rcases deed.new_call hj hk with ⟨q, move⟩ | ⟨q, move⟩ | ⟨d, move⟩ | may
  · obtain ⟨-, x, y, cause, places, hq, hmx, hq', hp, -⟩ := move.new_call hj hk
    cases same (h.runOf?_eq hq hmx)
    cases hr'.symm.trans hq'
    cases hp.symm.trans hp'
  · obtain ⟨-, x, i, rest, hq, hs, him, -⟩ := move.new_call hj hk
    obtain ⟨l, z, hl, hlr, hz, hlaunch, away, -⟩ := h.late hq hs him
    have other : c.runOf? k.member = some q := by
      unfold runOf?
      rw [hz, Option.bind_some, hlaunch, hl, Option.bind_some, hlr]
    cases same other
    cases hr.symm.trans hq
    exact absurd hm away
  · obtain ⟨-, y, x, places, hd, hq, hjp, hx, hmx⟩ := move.new_call hj hk
    obtain ⟨q, z, hq', hpz, members⟩ := h.stocked _ x hx
    cases same (h.runOf?_eq hq' (members ▸ hmx))
    cases hr.symm.trans hq'
    exact ⟨d, y, places, hd, hq, hjp, hpz⟩
  · exact absurd own (nobody _ may)

/-- Until the assembly of a run is closed, all calls for its members are those of the call that closes it. -/
def Guarded (c : Core) (r : Nat) : Prop :=
  ∀ {a j : Nat} {run : Run} {x : Assembly} {k : Closing}, c.runs[r]? = some run →
    run.phase = .finished (.ok a) → c.assemblies[a]? = some x → c.closings[j]? = some k →
    k.member ∈ run.members → x.state = .closed ∨ ∃ (d : Nat) (y : Dissolution) (places : List Nat),
      c.dissolutions[d]? = some y ∧ y.assembly = a ∧ y.phase = .closing places ∧ j ∈ places

/-- While a run is at work there is no call for its members. -/
theorem Warranted.uncalled (warranted : c.Warranted) (h : c.Sound) (hr : c.runs[r]? = some run)
    (hp : run.phase = .launching ∨ run.phase = .asking ∨ ∃ due, run.phase = .resting due)
    (hk : c.closings[j]? = some k) : k.member ∉ run.members := by
  intro hm
  obtain ⟨i, l, x, -, hl, hlr, -, hx, rfl, -⟩ := h.launch_of_member hr hm
  obtain ⟨taken, left, ledger⟩ := h.booked r run hr
  exact Run.Allows.not_of_working ledger.stands hp (warranted.allows hk hx hl hlr hr)

/-- **Guards.** A run stays guarded, unless a caller closes one of its members. -/
theorem Guarded.deed (guarded : c.Guarded r) (h : c.Sound) (warranted : c.Warranted) (delivered : c.Delivered)
    (deed : c.Deed s new c') (nobody : ∀ m, s.closes m → c.runOf? m ≠ some r) : c'.Guarded r := by
  intro a j run' x' k' hr' hp' hx' hk' hm'
  have move := deed.move
  have keeps := move.keeps
  obtain ⟨run, hr⟩ := move.old_run hr' (by simp [hp'])
  by_cases finished : ∃ o, run.phase = .finished o
  · obtain ⟨o, hp⟩ := finished
    obtain ⟨run₁, hr₁, kept⟩ := keeps.runs hr
    cases hr'.symm.trans hr₁
    cases hp'.symm.trans (kept.finished hp)
    rw [kept.members hp] at hm'
    by_cases hj : j < c.closings.size
    · obtain ⟨k, hk, kkept⟩ := keeps.closings.of_lt hj hk'
      obtain ⟨x, hx, -⟩ := delivered hr hp
      obtain ⟨x₁, hx₁, xkept⟩ := keeps.assemblies hx
      cases hx'.symm.trans hx₁
      rcases guarded hr hp hx hk (kkept.member ▸ hm') with closed | ⟨d, y, places, hd, own, hq, hjp⟩
      · exact .inl (xkept.closed closed)
      · obtain ⟨y', hd'⟩ := move.dissolution_there hd
        rcases move.dissolution_cases hd hd' with rfl | move
        · exact .inr ⟨d, y', places, hd', own, hq, hjp⟩
        · cases move with
          | skip hs _ called | begin hs _ called =>
            cases hd.symm.trans hs
            cases hq.symm.trans called
          | finish hs ha =>
            cases hd.symm.trans hs
            subst own
            cases (getElem?_replace_self ha _).symm.trans hx'
            exact .inl rfl
    · obtain ⟨d, y, places, hd, hq, hjp, here⟩ := deed.calls_guarded h nobody hr hr' hp' (Nat.le_of_not_lt hj)
        hk' hm'
      cases hp.symm.trans here
      exact .inr ⟨d, y, places, hd, rfl, hq, hjp⟩
  · -- a run that ends in an assembly now was at work, and nobody calls for its members
    have unfinished : ∀ o, run.phase ≠ .finished o := fun o hp => finished ⟨o, hp⟩
    obtain ⟨working, members, -⟩ := move.succeed_cases hr hr' unfinished hp'
    rw [members] at hm'
    by_cases hj : j < c.closings.size
    · obtain ⟨k, hk, kkept⟩ := keeps.closings.of_lt hj hk'
      exact absurd (kkept.member ▸ hm') (warranted.uncalled h hr (working.imp_right .inl) hk)
    · obtain ⟨d, y, places, -, -, -, here⟩ := deed.calls_guarded h nobody hr hr' hp' (Nat.le_of_not_lt hj)
        hk' hm'
      exact absurd here (unfinished _)

end Core

end Muster
