import Muster.Proofs.Source.Holder

/-!
# Sharing sequences

* `Sharing`: sequences, who holds them, and the calls that draw from them.
* `Sharing.Step`, `Sharing.Path`: sequences and holders are made and calls go on, in any order; between two
  draws of a call others may draw.
* `Sharing.Path.whole`: among the paths are those on which a call is not interrupted.
* **`Sharing.Path.lawful`**: what one sequence gave, to whomever and under whatever name, are its first
  values; once it has run out everyone who asks is told so.
-/

namespace Muster

/-- A call, and what is left of it. -/
structure Ongoing where
  /-- The call. -/
  call : Call
  /-- What it still has to ask, or its answer. -/
  rest : Drawer Answer

/-- Sequences, who holds them, and who draws from them. -/
structure Sharing where
  /-- The sequences. -/
  sequences : Sequences := {}
  /-- Everything that holds sources, or held them once. -/
  held : List Holder := []
  /-- The calls so far. -/
  calls : Array Ongoing := #[]

namespace Sharing

open Drawer

/-- One step, and the draw that it makes, if any, with the place of the call that makes it. -/
inductive Step : Sharing → List (Nat × Draw) → Sharing → Prop where
  /-- A sequence is made. -/
  | add {w : Sharing} (s : Sequence) :
    Step w [] { w with
      sequences := (w.sequences.add s).2
      held := .source (.shared (w.sequences.add s).1 s.word) :: w.held }
  /-- A holder is made from others. -/
  | make {w : Sharing} {h : Holder} (made : h.MadeFrom w.held) : Step w [] { w with held := h :: w.held }
  /-- A call begins. -/
  | call {w : Sharing} {c : Call} (there : c.holder ∈ w.held) :
    Step w [] { w with calls := w.calls.push ⟨c, c.drawer⟩ }
  /-- A call goes on by one draw. -/
  | draw {w : Sharing} {k : Nat} {c : Call} {name : String} {src : Source}
    {next : Option String → Drawer Answer} (going : w.calls[k]? = some ⟨c, .draw name src next⟩) :
    Step w [(k, ⟨name, src, (src.draw w.sequences).1⟩)] { w with
      sequences := (src.draw w.sequences).2
      calls := w.calls.setIfInBounds k ⟨c, next (src.draw w.sequences).1⟩ }

/-- One step after another, from nothing on, with the draws in the order of time. -/
inductive Path : Sharing → List (Nat × Draw) → Prop where
  /-- There is nothing yet. -/
  | start : Path {} []
  /-- Something happens next. -/
  | go {w w' : Sharing} {log draws : List (Nat × Draw)} (before : Path w log) (step : Step w draws w') :
    Path w' (log ++ draws)

/-- The draws of one call. -/
def drawsOf (k : Nat) (log : List (Nat × Draw)) : List Draw :=
  log.filterMap fun e => if e.1 = k then some e.2 else none

/-- The draws from one sequence. -/
def drawsFrom (id : SequenceId) (log : List (Nat × Draw)) : List Draw :=
  log.filterMap fun e => if e.2.source.id? = some id then some e.2 else none

theorem drawsOf_snoc (k : Nat) (log : List (Nat × Draw)) (e : Nat × Draw) :
    drawsOf k (log ++ [e]) = drawsOf k log ++ if e.1 = k then [e.2] else [] := by
  rw [drawsOf, List.filterMap_append]
  by_cases h : e.1 = k <;> simp [drawsOf, h]

theorem drawsFrom_snoc (id : SequenceId) (log : List (Nat × Draw)) (e : Nat × Draw) :
    drawsFrom id (log ++ [e]) = drawsFrom id log ++ if e.2.source.id? = some id then [e.2] else [] := by
  rw [drawsFrom, List.filterMap_append]
  by_cases h : e.2.source.id? = some id <;> simp [drawsFrom, h]

variable {w w' : Sharing} {log draws : List (Nat × Draw)}

/-! ## Whole calls -/

/-- A call may go on to its end before anything else happens. -/
theorem Path.finish {k : Nat} {c : Call} {rest : Drawer Answer} (path : Path w log)
    (going : w.calls[k]? = some ⟨c, rest⟩) :
    ∃ w' log', Path w' log' ∧ w'.sequences = (rest.run w.sequences).2 ∧
      w'.calls[k]? = some ⟨c, done (rest.run w.sequences).1⟩ ∧ w'.held = w.held := by
  induction rest generalizing w log with
  | done a => exact ⟨w, log, path, rfl, going, rfl⟩
  | draw name src next ih =>
    obtain ⟨hlt, -⟩ := Array.getElem?_eq_some_iff.mp going
    exact ih _ (path.go (.draw going)) (Array.getElem?_setIfInBounds_self_of_lt hlt)

/-- **Whole calls.** Among the paths are those on which a call is not interrupted. -/
theorem Path.whole (path : Path w log) {c : Call} (there : c.holder ∈ w.held) :
    ∃ w' log', Path w' log' ∧ w'.sequences = (c.answer w.sequences).2 ∧
      w'.calls[w.calls.size]? = some ⟨c, done (c.answer w.sequences).1⟩ ∧ w'.held = w.held := by
  rw [← c.run_drawer]
  exact (path.go (.call there)).finish Array.getElem?_push_size

/-! ## What stays so -/

/-- What holds after every step. -/
structure Sound (w : Sharing) (log : List (Nat × Draw)) : Prop where
  /-- What is held are sequences that exist. -/
  held : ∀ h ∈ w.held, ∀ src ∈ h.sources, src.Within w.sequences.cells.size
  /-- So is what calls still ask. -/
  asks : ∀ {k : Nat} {c : Call} {rest : Drawer Answer}, w.calls[k]? = some ⟨c, rest⟩ →
    rest.Asks (Source.Within w.sequences.cells.size)
  /-- So is what was drawn from, by calls that exist. -/
  drawn : ∀ e ∈ log, e.1 < w.calls.size ∧ e.2.source.Within w.sequences.cells.size
  /-- A fixed source gives its value. -/
  fixed : ∀ e ∈ log, ∀ v, e.2.source = .fixed v → e.2.value = some v
  /-- Every sequence gave its first values. -/
  follow : ∀ {id : SequenceId} {s : Sequence}, w.sequences.sequence? id = some s →
    Draw.Follow s (drawsFrom id log) (w.sequences.drawn id)
  /-- Every call stands where its draws have brought it. -/
  leads : ∀ {k : Nat} {c : Call} {rest : Drawer Answer}, w.calls[k]? = some ⟨c, rest⟩ →
    c.drawer.Leads (drawsOf k log) rest

theorem Sound.start : Sound {} [] where
  held := nofun
  asks h := by simp at h
  drawn := nofun
  fixed := nofun
  follow {id s} h := by simp [Sequences.sequence?] at h
  leads h := by simp at h

/-- Nothing is drawn from a sequence before it is there. -/
theorem Sound.drawsFrom_eq_nil (sound : Sound w log) {id : SequenceId}
    (h : w.sequences.cells.size ≤ id.index) : drawsFrom id log = [] := by
  refine List.filterMap_eq_nil_iff.mpr fun e he => if_neg fun hid => ?_
  exact absurd ((sound.drawn e he).2 id hid) (Nat.not_lt.mpr h)

theorem Sound.drawsOf_eq_nil (sound : Sound w log) {k : Nat} (h : w.calls.size ≤ k) :
    drawsOf k log = [] := by
  refine List.filterMap_eq_nil_iff.mpr fun e he => if_neg fun hk => ?_
  exact absurd (hk ▸ (sound.drawn e he).1) (Nat.not_lt.mpr h)

theorem Sound.add (sound : Sound w log) (s : Sequence) :
    Sound { w with
      sequences := (w.sequences.add s).2
      held := .source (.shared (w.sequences.add s).1 s.word) :: w.held } log := by
  have grown : w.sequences.cells.size ≤ (w.sequences.add s).2.cells.size := by
    simp [Sequences.add]
  refine ⟨?_, fun h => (sound.asks h).mono fun src hsrc => hsrc.mono grown,
    fun e he => ⟨(sound.drawn e he).1, (sound.drawn e he).2.mono grown⟩, sound.fixed, ?_, sound.leads⟩
  · rintro h hh src hsrc
    rcases List.mem_cons.mp hh with rfl | hh
    · rw [List.mem_singleton.mp hsrc]
      rintro id hid
      cases hid
      simp [Sequences.add]
    · exact (sound.held h hh src hsrc).mono grown
  · intro id s' hs'
    rw [Sequences.drawn_add]
    rw [Sequences.sequence?_add] at hs'
    split at hs'
    case isTrue hnew =>
      cases hs'
      rw [sound.drawsFrom_eq_nil (Nat.le_of_eq hnew.symm), Sequences.drawn_eq_zero (Nat.le_of_eq hnew.symm)]
      exact .nil s
    case isFalse => exact sound.follow hs'

theorem Sound.make (sound : Sound w log) {h : Holder} (made : h.MadeFrom w.held) :
    Sound { w with held := h :: w.held } log := by
  refine ⟨?_, sound.asks, sound.drawn, sound.fixed, sound.follow, sound.leads⟩
  intro h' hh src hsrc
  rcases List.mem_cons.mp hh with rfl | hh
  · rcases made.sources hsrc with ⟨v, rfl⟩ | ⟨h'', hh'', hsrc⟩
    · exact Source.within_fixed _ v
    · exact sound.held h'' hh'' src hsrc
  · exact sound.held h' hh src hsrc

theorem Sound.call (sound : Sound w log) {c : Call} (there : c.holder ∈ w.held) :
    Sound { w with calls := w.calls.push ⟨c, c.drawer⟩ } log := by
  have asked : c.drawer.Asks (Source.Within w.sequences.cells.size) :=
    c.asks_drawer.mono fun src hsrc => sound.held _ there src hsrc
  refine ⟨sound.held, ?_, fun e he => ⟨?_, (sound.drawn e he).2⟩, sound.fixed, sound.follow, ?_⟩
  · intro k c' rest h
    rw [Array.getElem?_push] at h
    split at h
    · cases h
      exact asked
    · exact sound.asks h
  · rw [Array.size_push]
    exact Nat.lt_succ_of_lt (sound.drawn e he).1
  · intro k c' rest h
    rw [Array.getElem?_push] at h
    split at h
    case isTrue hk =>
      cases h
      rw [sound.drawsOf_eq_nil (Nat.le_of_eq hk.symm)]
      exact leads_nil.mpr rfl
    case isFalse => exact sound.leads h

/-- A sequence from which something is drawn gives its next value, and the others stay as they are. -/
theorem Sound.follow_draw (sound : Sound w log) (k : Nat) (name : String) (src : Source) {id : SequenceId}
    {s : Sequence} (hs : (src.draw w.sequences).2.sequence? id = some s) :
    Draw.Follow s (drawsFrom id (log ++ [(k, ⟨name, src, (src.draw w.sequences).1⟩)]))
      ((src.draw w.sequences).2.drawn id) := by
  rw [Source.sequence?_draw] at hs
  have follow := sound.follow hs
  rw [drawsFrom_snoc]
  by_cases hid : src.id? = some id
  · cases src with
    | fixed v => cases hid
    | shared other word =>
      cases hid
      have value : (w.sequences.draw id).1 = s.at? (w.sequences.drawn id) := by
        rw [Sequences.draw_fst, hs]
        rfl
      have asked : (Source.shared id word).id? = some id := rfl
      rw [if_pos asked]
      simpa [Source.draw, Sequences.drawn_draw] using follow.snoc
        (x := ⟨name, .shared id word, (w.sequences.draw id).1⟩) value
  · rw [Source.drawn_draw_of_ne hid, if_neg hid, List.append_nil]
    exact follow

theorem Sound.draw (sound : Sound w log) {k : Nat} {c : Call} {name : String} {src : Source}
    {next : Option String → Drawer Answer} (going : w.calls[k]? = some ⟨c, .draw name src next⟩) :
    Sound { w with
      sequences := (src.draw w.sequences).2
      calls := w.calls.setIfInBounds k ⟨c, next (src.draw w.sequences).1⟩ }
      (log ++ [(k, ⟨name, src, (src.draw w.sequences).1⟩)]) := by
  have asks := sound.asks going
  obtain ⟨hlt, -⟩ := Array.getElem?_eq_some_iff.mp going
  -- what the calls are after the draw: this one has gone on, the others stand where they stood
  have after {j : Nat} {c' : Call} {rest : Drawer Answer}
      (h : (w.calls.setIfInBounds k ⟨c, next (src.draw w.sequences).1⟩)[j]? = some ⟨c', rest⟩) :
      (j = k ∧ c' = c ∧ rest = next (src.draw w.sequences).1) ∨
        (j ≠ k ∧ w.calls[j]? = some ⟨c', rest⟩) := by
    by_cases hj : j = k
    · rw [hj, Array.getElem?_setIfInBounds_self_of_lt hlt] at h
      cases h
      exact .inl ⟨hj, rfl, rfl⟩
    · rw [Array.getElem?_setIfInBounds_ne (Ne.symm hj)] at h
      exact .inr ⟨hj, h⟩
  refine ⟨?_, ?_, ?_, ?_, ?_, ?_⟩
  · simpa only [Source.size_draw] using sound.held
  · intro j c' rest h
    rw [Source.size_draw]
    rcases after h with ⟨-, -, rfl⟩ | ⟨-, h⟩
    · exact asks.2 _
    · exact sound.asks h
  · intro e he
    rw [Source.size_draw, Array.size_setIfInBounds]
    rcases List.mem_append.mp he with he | he
    · exact sound.drawn e he
    · cases List.mem_singleton.mp he
      exact ⟨hlt, asks.1⟩
  · intro e he v hv
    rcases List.mem_append.mp he with he | he
    · exact sound.fixed e he v hv
    · cases List.mem_singleton.mp he
      cases hv
      rfl
  · exact sound.follow_draw k name src
  · intro j c' rest h
    rw [drawsOf_snoc]
    rcases after h with ⟨rfl, rfl, rfl⟩ | ⟨hj, h⟩
    · rw [if_pos rfl]
      exact (sound.leads going).snoc (src.draw w.sequences).1
    · rw [if_neg (Ne.symm hj), List.append_nil]
      exact sound.leads h

theorem Path.sound (path : Path w log) : Sound w log := by
  induction path with
  | start => exact .start
  | go before step ih =>
    cases step with
    | add s => rw [List.append_nil]; exact ih.add s
    | make made => rw [List.append_nil]; exact ih.make made
    | call there => rw [List.append_nil]; exact ih.call there
    | draw going => exact ih.draw going

/-- A step without a draw leaves how much is drawn of every sequence. -/
theorem Step.drawn_eq (step : Step w draws w') (quiet : draws = []) (id : SequenceId) :
    w'.sequences.drawn id = w.sequences.drawn id := by
  cases step with
  | add s => exact Sequences.drawn_add _ s id
  | make made => rfl
  | call there => rfl
  | draw going => cases quiet

/-! ## The law of shared sequences -/

/-- A sequence stays what it is. -/
theorem Step.sequence?_eq (step : Step w draws w') {id : SequenceId} {s : Sequence}
    (h : w.sequences.sequence? id = some s) : w'.sequences.sequence? id = some s := by
  cases step with
  | add s' =>
    rw [Sequences.sequence?_add, if_neg, h]
    intro hnew
    rw [Sequences.sequence?, Array.getElem?_eq_none (Nat.le_of_eq hnew.symm)] at h
    cases h
  | make made => exact h
  | call there => exact h
  | draw going => exact (Source.sequence?_draw _ _ id).trans h

/-- What is handed out, and to whom. -/
structure Lawful (w : Sharing) (log : List (Nat × Draw)) : Prop where
  /-- A sequence is what it was made as. -/
  made : ∀ s, (w.sequences.add s).2.sequence? (w.sequences.add s).1 = some s
  /-- It stays so, whatever happens. -/
  stays : ∀ {w' : Sharing} {draws : List (Nat × Draw)} {id : SequenceId} {s : Sequence}, Step w draws w' →
    w.sequences.sequence? id = some s → w'.sequences.sequence? id = some s
  /-- What was drawn from a sequence are its first values, in the order of time; nothing was found only
  when there was no further value, and never anything after that. -/
  follow : ∀ {id : SequenceId} {s : Sequence}, w.sequences.sequence? id = some s →
    Draw.Follow s (drawsFrom id log) (w.sequences.drawn id)
  /-- A fixed source gives its value. -/
  fixed : ∀ e ∈ log, ∀ v, e.2.source = .fixed v → e.2.value = some v
  /-- A call that goes on has found a value by each of its draws. -/
  going : ∀ {k : Nat} {c : Call} {name : String} {src : Source} {next : Option String → Drawer Answer},
    w.calls[k]? = some ⟨c, .draw name src next⟩ → ∀ x ∈ drawsOf k log, x.value.isSome
  /-- A call that has come to an end answers with the values that it drew, or names the name for which
  nothing was left. -/
  told : ∀ {k : Nat} {c : Call} {a : Answer}, w.calls[k]? = some ⟨c, .done a⟩ → c.Told (drawsOf k log) a
  /-- Making holders and beginning calls draw nothing. -/
  quiet : ∀ {w' : Sharing}, Step w [] w' → ∀ id, w'.sequences.drawn id = w.sequences.drawn id
  /-- A call that nobody comes between is the whole call. -/
  whole : ∀ (c : Call) (q : Sequences), c.drawer.run q = c.answer q

/-- **The law of shared sequences.** Whatever is copied, merged, built and included, and however calls
come between each other, the values drawn from one sequence are its first values, each once, in the order
of time; once it has run out every draw from it fails, and the call that asked says so for the name that
it asked. -/
theorem Path.lawful (path : Path w log) : Lawful w log where
  made s := (w.sequences.sequence?_add s _).trans (if_pos rfl)
  stays step h := step.sequence?_eq h
  follow := path.sound.follow
  fixed := path.sound.fixed
  going {k c name src next} h x hx := by
    -- some answer would be given, and before it only the last draw may find nothing
    have leads := path.sound.leads h
    obtain ⟨ys, a, rest⟩ := (next none).exists_done
    have next : (Drawer.draw name src next).Leads (⟨name, src, none⟩ :: ys) (.done a) := ⟨⟨rfl, rfl⟩, rest⟩
    have all := leads.trans next
    refine (Call.told_of_leads all).dropLast ?_
    rw [List.dropLast_append_cons]
    exact List.mem_append_left _ hx
  told h := Call.told_of_leads (path.sound.leads h)
  quiet step := step.drawn_eq rfl
  whole := Call.run_drawer

/-- Two names of one generator share a sequence of two values. A snapshot takes the first one, another
call takes the second one, and the snapshot finds nothing under its second name. -/
theorem lawful_interrupted : ∃ w log, Path w log ∧ Lawful w log ∧
    w.sequences.sequence? ⟨0⟩ = some (.once ["a", "b"]) ∧
    drawsFrom ⟨0⟩ log = [⟨"x", .shared ⟨0⟩ "sequence", some "a"⟩, ⟨"y", .shared ⟨0⟩ "sequence", some "b"⟩,
      ⟨"y", .shared ⟨0⟩ "sequence", none⟩] ∧
    (w.calls[0]?.map (·.rest)) = some (.done (.environment (.error (.exhausted "y")))) ∧
    (w.calls[1]?.map (·.rest)) = some (.done (.value (.ok "b"))) := by
  have source := Path.start.go (.add (.once ["a", "b"]))
  have empty := source.go (.make .generator)
  have one := empty.go (.make (.set (.head _) (.tail _ (.head _)) "x"))
  have two := one.go (.make (.set (.head _) (.tail _ (.tail _ (.head _))) "y"))
  have calls := (two.go (.call (c := .snapshot _) (.head _))).go (.call (c := .resolve _ "y") (.head _))
  have path := ((calls.go (.draw (k := 0) rfl)).go (.draw (k := 1) rfl)).go (.draw (k := 0) rfl)
  exact ⟨_, _, path, path.lawful, rfl, rfl, rfl, rfl⟩

end Sharing

end Muster
