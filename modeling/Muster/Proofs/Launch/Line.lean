import Muster.Proofs.Core.Keeping

/-!
# Waiting for a permit

* **`Core.Lined.move`**: every move keeps the launches that wait for a permit in the line of their run,
  each of them once.
-/

namespace Muster

namespace Core

namespace Lined

variable {ls : Array Launch} {rs : Array Run}

theorem empty : Lined #[] #[] where
  manned hl := by simp at hl
  waits hr := by simp at hr
  once hr := by simp at hr

/-- A launch that is in line goes on waiting. -/
theorem setLaunch (h : Lined ls rs) {i : Nat} {l l' : Launch} (hl : ls[i]? = some l)
    (same : l'.run? = l.run?)
    (waits : ∀ (r : Nat) (run : Run), rs[r]? = some run → i ∈ run.line → l'.phase = .waiting) :
    Lined (ls.setIfInBounds i l') rs where
  manned {j x r} hx hr := by
    rw [getElem?_replace hl] at hx
    split at hx
    · cases hx
      exact h.manned hl (same ▸ hr)
    · exact h.manned hx hr
  waits {r run j} hr hj := by
    obtain ⟨y, hy, phase, yrun⟩ := h.waits hr hj
    rw [getElem?_replace hl]
    by_cases hji : j = i
    · rw [hji, hl] at hy
      cases hy
      exact ⟨l', if_pos hji, waits r run hr (hji ▸ hj), same.trans yrun⟩
    · exact ⟨y, by rw [if_neg hji, hy], phase, yrun⟩
  once hr := h.once hr

/-- Those in the new line wait, and each of them once. -/
theorem setRun (h : Lined ls rs) {r : Nat} {run run' : Run} (hr : rs[r]? = some run)
    (waits : ∀ i ∈ run'.line, ∃ l, ls[i]? = some l ∧ l.phase = .waiting ∧ l.run? = some r)
    (once : run'.line.Nodup) : Lined ls (rs.setIfInBounds r run') where
  manned {i l r'} hl hr' := by
    rw [getElem?_replace hr]
    split
    · exact ⟨run', rfl⟩
    · exact h.manned hl hr'
  waits {r' x i} hx hi := by
    rw [getElem?_replace hr] at hx
    split at hx
    · rename_i same
      cases hx
      rw [same]
      exact waits i hi
    · exact h.waits hx hi
  once {r' x} hx := by
    rw [getElem?_replace hr] at hx
    split at hx
    · cases hx
      exact once
    · exact h.once hx

theorem setRun_same (h : Lined ls rs) {r : Nat} {run run' : Run} (hr : rs[r]? = some run)
    (line : run'.line = run.line) : Lined ls (rs.setIfInBounds r run') :=
  h.setRun hr (fun _ hi => h.waits hr (line ▸ hi)) (line ▸ h.once hr)

/-- A launch that does not wait may go on as it likes. -/
theorem setLaunch_of_not_waiting (h : Lined ls rs) {i : Nat} {l l' : Launch} (hl : ls[i]? = some l)
    (phase : l.phase ≠ .waiting) (same : l'.run? = l.run?) : Lined (ls.setIfInBounds i l') rs := by
  refine h.setLaunch hl same fun r run hr hi => ?_
  obtain ⟨y, hy, waits, -⟩ := h.waits hr hi
  rw [hl] at hy
  cases hy
  exact absurd waits phase

/-- A launch gets in line. -/
theorem join (h : Lined ls rs) {i r : Nat} {l l' : Launch} {run run' : Run} (hl : ls[i]? = some l)
    (phase : l.phase ≠ .waiting) (hr : l.run? = some r) (hrun : rs[r]? = some run)
    (same : l'.run? = l.run?) (waits : l'.phase = .waiting) (line : run'.line = run.line ++ [i]) :
    Lined (ls.setIfInBounds i l') (rs.setIfInBounds r run') := by
  have hl' := h.setLaunch_of_not_waiting hl phase same
  have hself : (ls.setIfInBounds i l')[i]? = some l' := getElem?_replace_self hl l'
  refine hl'.setRun hrun (fun j hj => ?_) ?_
  · rw [line, List.mem_append, List.mem_singleton] at hj
    rcases hj with hj | rfl
    · exact hl'.waits hrun hj
    · exact ⟨l', hself, waits, same.trans hr⟩
  · rw [line]
    refine List.nodup_append.mpr ⟨h.once hrun, List.pairwise_singleton _ i, fun j hj k hk hjk => ?_⟩
    obtain ⟨y, hy, hwaits, -⟩ := h.waits hrun hj
    rw [hjk, List.mem_singleton.mp hk, hl] at hy
    cases hy
    exact phase hwaits

/-- The first in line leaves it. -/
theorem leave (h : Lined ls rs) {n r : Nat} {next next' : Launch} {run run' : Run} {line : List Nat}
    (hn : ls[n]? = some next) (hrun : rs[r]? = some run) (first : run.line = n :: line)
    (same : next'.run? = next.run?) (rest : run'.line = line) :
    Lined (ls.setIfInBounds n next') (rs.setIfInBounds r run') := by
  have once := h.once hrun
  rw [first, List.nodup_cons, ← rest] at once
  have hrest := h.setRun hrun (fun i hi => h.waits hrun (first ▸ List.mem_cons_of_mem n (rest ▸ hi)))
    once.2
  refine hrest.setLaunch hn same fun r' x hx hmem => ?_
  -- nobody else has the launch in line: it belongs to this run, and stood there once
  rw [getElem?_replace hrun] at hx
  split at hx
  · cases hx
    exact absurd hmem once.1
  · rename_i other
    obtain ⟨y, hy, -, hr⟩ := h.waits hrun (first ▸ List.mem_cons_self)
    obtain ⟨z, hz, -, hr'⟩ := h.waits hx hmem
    rw [hy] at hz
    cases hz
    rw [hr] at hr'
    exact absurd (Option.some.inj hr').symm other

/-- A run begins without a line. -/
theorem pushRun (h : Lined ls rs) {run : Run} (line : run.line = []) : Lined ls (rs.push run) where
  manned {i l r} hl hr := by
    obtain ⟨x, hx⟩ := h.manned hl hr
    exact ⟨x, by rw [Array.getElem?_push_lt (lt_of_getElem?_eq_some hx), ← hx]; simp⟩
  waits {r x i} hx hi := by
    rw [Array.getElem?_push] at hx
    split at hx
    · cases hx
      rw [line] at hi
      exact absurd hi List.not_mem_nil
    · exact h.waits hx hi
  once {r x} hx := by
    rw [Array.getElem?_push] at hx
    split at hx
    · cases hx
      rw [line]
      exact List.nodup_nil
    · exact h.once hx

/-- Launches are added for runs that are there. -/
theorem appendLaunches (h : Lined ls rs) (new : Array Launch)
    (manned : ∀ l ∈ new, ∀ r, l.run? = some r → ∃ run, rs[r]? = some run) : Lined (ls ++ new) rs where
  manned {i l r} hl hr := by
    rw [Array.getElem?_append] at hl
    split at hl
    · exact h.manned hl hr
    · exact manned l (Array.mem_of_getElem? hl) r hr
  waits {r x i} hx hi := by
    obtain ⟨l, hl, hw⟩ := h.waits hx hi
    exact ⟨l, by rw [Array.getElem?_append_left (lt_of_getElem?_eq_some hl), hl], hw⟩
  once hx := h.once hx

end Lined

variable {c c' : Core}

theorem LaunchMove.lined {i : Nat} (move : c.LaunchMove i c') (h : Lined c.launches c.runs) :
    Lined c'.launches c'.runs := by
  cases move with
  | wait hl hp hr hrun => exact h.join hl (by simp [hp]) hr hrun rfl rfl rfl
  | pass hl hp hr hrun free due =>
    exact (h.setLaunch_of_not_waiting hl (by simp [hp]) (by rfl)).setRun_same hrun rfl
  | ask hl hp due =>
    refine h.setLaunch_of_not_waiting hl ?_ rfl
    rcases hp with hp | ⟨hp, -⟩ <;> simp [hp]
  | handOut hl hp id process since => exact h.setLaunch_of_not_waiting hl (by simp [hp]) rfl
  | tell hl hp same fewer => exact h.setLaunch_of_not_waiting hl (by simp [hp]) rfl
  | settle hl ends hr => exact h.setLaunch_of_not_waiting hl ends.not_waiting rfl
  | settleLast hl ends hr hrun empty =>
    exact (h.setLaunch_of_not_waiting hl ends.not_waiting (by rfl)).setRun_same hrun rfl
  | settleNext hl ends hr hrun first other hn waits =>
    exact (h.setLaunch_of_not_waiting hl ends.not_waiting (by rfl)).leave
      ((getElem?_replace_of_ne hl other _).trans hn) hrun first rfl rfl

theorem RunMove.lined {r : Nat} (move : c.RunMove r c') (h : Lined c.launches c.runs) :
    Lined c'.launches c'.runs := by
  cases move with
  | take hr | giveUp hr | refuse hr | gather hr | succeedEmpty hr | dismiss hr | succeed hr | degrade hr
  | rest hr | wake hr | fail hr => exact h.setRun_same hr rfl

theorem ReaperMove.lined {r : Nat} (move : c.ReaperMove r c') (h : Lined c.launches c.runs) :
    Lined c'.launches c'.runs := by
  cases move with
  | done hr | drop hr | close hr => exact h.setRun_same hr rfl

theorem OutsideMove.lined {closes : Nat → Prop} (move : c.OutsideMove closes c') (h : Lined c.launches c.runs) :
    Lined c'.launches c'.runs := by
  cases move with
  | cancel hr => exact h.setRun_same hr rfl
  | begin plan platform channel? id now cancelled =>
    refine Lined.appendLaunches (h.pushRun rfl) _ fun l hl r hr => ?_
    obtain ⟨spec, -, rfl⟩ := plan.mem_launches hl
    cases hr
    exact ⟨_, Array.getElem?_push_size⟩
  | launch spec platform observers =>
    refine Lined.appendLaunches h #[_] fun l hl r hr => ?_
    rw [Array.mem_singleton.mp hl] at hr
    cases hr
  | close held => exact h
  | dissolve known => exact h

/-- **The line.** Every move keeps the launches that wait in the line of their run. -/
theorem Lined.move (h : Lined c.launches c.runs) (move : c.Move c') : Lined c'.launches c'.runs := by
  cases move with
  | stay => exact h
  | launch i move => exact move.lined h
  | closing j move => cases move <;> exact h
  | run r move => exact move.lined h
  | reaper r move => exact move.lined h
  | dissolution d move => cases move <;> exact h
  | outside move => exact move.lined h

end Core

end Muster
