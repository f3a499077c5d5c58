import Mathlib.Data.ENat.Lattice
import Muster.Proofs.Source.Follow

/-!
# When snapshots run out

* `Sequence.left`, `Source.left`: how many values are left; `Source.ahead`: the values that are left.
* `Generator.left`: how many snapshots a generator has left, the least of what its sources have left.
* `Generator.Stands`: where the sources stand when a snapshot was asked for a number of times: the later ones were
  asked only as often as all before them had a value.
* `Generator.Answered`: a snapshot gives every name the value at one position, or fails for the first source that has
  no value at that position.
* **`Generator.Serves.exhausts`**: so it is for each of any number of snapshots, with its number as the position.
-/

namespace Muster

/-! ## What is left -/

/-- How many values a sequence has left after some draws. -/
def Sequence.left : Sequence → Nat → ℕ∞
  | once values, drawn => (values.length - drawn : Nat)
  | span _ count, drawn => (count - drawn : Nat)
  | cycle [], _ => 0
  | cycle (_ :: _), _ => ⊤
  | counter _, _ => ⊤

/-- There is a value at a position as long as that many are left. -/
theorem Sequence.isSome_at? (s : Sequence) (drawn i : Nat) : (s.at? (drawn + i)).isSome ↔ (i : ℕ∞) < s.left drawn := by
  cases s with
  | once values =>
    rw [at?, left, Nat.cast_lt, Option.isSome_iff_ne_none, ne_eq, List.getElem?_eq_none_iff]
    omega
  | span first count =>
    rw [at?, left, Nat.cast_lt]
    split <;> simp <;> omega
  | cycle values =>
    cases values with
    | nil => simp [at?, left]
    | cons v values =>
      have inside : (drawn + i) % (v :: values).length < (v :: values).length := Nat.mod_lt _ (Nat.succ_pos _)
      simp only [at?, left, List.getElem?_eq_getElem inside, Option.isSome_some, ENat.natCast_lt_top]
  | counter start => simp [at?, left]

namespace Source

/-- How many values a source has left. -/
def left (src : Source) (q : Sequences) : ℕ∞ :=
  match src with
  | fixed _ => ⊤
  | shared id _ => ((q.sequence? id).map (·.left (q.drawn id))).getD 0

/-- The value of a source at a position, counted from the next one. -/
def ahead (src : Source) (q : Sequences) (i : Nat) : Option String :=
  match src with
  | fixed v => some v
  | shared id _ => (q.sequence? id).bind fun s => s.at? (q.drawn id + i)

/-- Two sources do not share a sequence. -/
def Apart (src other : Source) : Prop := ∀ id, src.id? = some id → other.id? ≠ some id

variable {src other : Source} {q : Sequences}

theorem Apart.symm (h : src.Apart other) : other.Apart src := fun id own same => h id same own

theorem isSome_ahead (src : Source) (q : Sequences) (i : Nat) : (src.ahead q i).isSome ↔ (i : ℕ∞) < src.left q := by
  cases src with
  | fixed v => simp [ahead, left]
  | shared id word =>
    simp only [ahead, left]
    cases q.sequence? id with
    | none => simp
    | some s => exact s.isSome_at? _ _

theorem ahead_eq_none (i : Nat) : src.ahead q i = none ↔ src.left q ≤ i := by
  rw [← not_lt, ← isSome_ahead, Option.not_isSome_iff_eq_none]

/-- A draw gives the value that is next. -/
theorem draw_fst (src : Source) (q : Sequences) : (src.draw q).1 = src.ahead q 0 := by
  cases src with
  | fixed v => rfl
  | shared id word => exact q.draw_fst id

/-- A draw that finds something leaves the values behind it. -/
theorem ahead_draw {v : String} (found : (src.draw q).1 = some v) (i : Nat) :
    src.ahead (src.draw q).2 i = src.ahead q (1 + i) := by
  cases src with
  | fixed v => rfl
  | shared id word =>
    have there : (q.draw id).1.isSome := Option.isSome_iff_exists.mpr ⟨v, found⟩
    simp only [ahead, draw, Sequences.sequence?_draw, Sequences.drawn_draw, there, and_self, if_true, Nat.add_assoc]

/-- A draw that finds nothing changes nothing, -/
theorem draw_snd_of_none (missed : (src.draw q).1 = none) : (src.draw q).2 = q := by
  cases src with
  | fixed v => cases missed
  | shared id word =>
    unfold draw Sequences.draw at missed ⊢
    dsimp only at missed ⊢
    split
    · rfl
    · split
      · rfl
      · simp_all

/-- and no draw changes what another source has. -/
theorem ahead_draw_of_apart (apart : other.Apart src) (i : Nat) :
    other.ahead (src.draw q).2 i = other.ahead q i := by
  cases other with
  | fixed v => rfl
  | shared id word =>
    have differ : src.id? ≠ some id := apart id rfl
    simp only [ahead, sequence?_draw, drawn_draw_of_ne differ]

end Source

namespace Generator

variable {q q' q'' : Sequences} {es : List (String × Source)} {n : Nat} {src : Source} {g : Generator}

/-- How many snapshots a generator has left: as many as each of its sources has values. -/
noncomputable def left (g : Generator) (q : Sequences) : ℕ∞ := (g.entries.map (·.2.left q)).foldr min ⊤

theorem lt_left_iff : (n : ℕ∞) < g.left q ↔ ∀ e ∈ g.entries, (n : ℕ∞) < e.2.left q := by
  unfold left
  induction g.entries with
  | nil => simp
  | cons e es ih => simp [ih]

/-! ## One snapshot -/

/-- A source without a value ends a snapshot. -/
theorem drawAll_cons_of_none {e : String × Source} (next : (e.2.draw q).1 = none) (es : List (String × Source)) :
    drawAll q (e :: es) = (.error (.exhausted e.1), q) := by
  have same := Source.draw_snd_of_none next
  unfold drawAll
  rcases hd : e.2.draw q with ⟨_ | v, q₁⟩
  · rw [hd] at same
    exact congrArg _ same
  · rw [hd] at next
    cases next

/-- A source with a value gives it, and the sources behind it are asked. -/
theorem drawAll_cons_of_some {e : String × Source} {v : String} (next : (e.2.draw q).1 = some v)
    (es : List (String × Source)) : drawAll q (e :: es) =
      ((drawAll (e.2.draw q).2 es).1.map ((e.1, v) :: ·), (drawAll (e.2.draw q).2 es).2) := by
  rw [drawAll]
  rcases hd : e.2.draw q with ⟨_ | w, q₁⟩
  · rw [hd] at next
    cases next
  · rw [hd] at next
    cases next
    dsimp only
    rcases drawAll q₁ es with ⟨_ | ps, q₂⟩ <;> rfl

/-- Draws for some entries leave what another source has. -/
theorem ahead_drawAll_of_apart (apart : ∀ e ∈ es, src.Apart e.2) (i : Nat) :
    src.ahead (drawAll q es).2 i = src.ahead q i := by
  induction es generalizing q with
  | nil => rfl
  | cons e es ih =>
    cases next : (e.2.draw q).1 with
    | none => rw [drawAll_cons_of_none next]
    | some v =>
      rw [drawAll_cons_of_some next, ih fun e' he' => apart e' (List.mem_cons_of_mem e he')]
      exact Source.ahead_draw_of_apart (apart e List.mem_cons_self) i

/-- Each name gets the value of its source at a position, or the first source that has none there is named. -/
inductive Answered (q : Sequences) (n : Nat) (es : List (String × Source)) :
    Except DrawError (List (String × String)) → Prop where
  /-- Every source has a value at the position. -/
  | found {ps : List (String × String)} (enough : ∀ e ∈ es, (n : ℕ∞) < e.2.left q)
    (given : ps.map (fun p => (p.1, some p.2)) = es.map fun e => (e.1, e.2.ahead q n)) :
    Answered q n es (.ok ps)
  /-- A source has none, and those before it do. -/
  | missed {front : List (String × Source)} {e : String × Source} {back : List (String × Source)}
    (cut : es = front ++ e :: back) (before : ∀ e' ∈ front, (n : ℕ∞) < e'.2.left q) (out : e.2.left q ≤ n) :
    Answered q n es (.error (.exhausted e.1))

/-- Where the sources of some entries stand in `q'`, when since `q` a snapshot reached the entries `n` times: each
source was asked that often, had a value as long as it had one, and the others after it were asked only then. -/
def Stands (q q' : Sequences) : List (String × Source) → Nat → Prop
  | [], _ => True
  | e :: es, n => ∃ m : Nat, (m : ℕ∞) = min (n : ℕ∞) (e.2.left q) ∧
      (∀ i, e.2.ahead q' i = e.2.ahead q (m + i)) ∧ Stands q q' es m

theorem Stands.congr (h : Stands q q' es n) (same : ∀ e ∈ es, ∀ i, e.2.ahead q'' i = e.2.ahead q' i) :
    Stands q q'' es n := by
  induction es generalizing n with
  | nil => trivial
  | cons e es ih =>
    obtain ⟨m, count, stands, rest⟩ := h
    refine ⟨m, count, fun i => (same e List.mem_cons_self i).trans (stands i), ?_⟩
    exact ih rest fun e' he' => same e' (List.mem_cons_of_mem e he')

theorem stands_refl (q : Sequences) (es : List (String × Source)) : Stands q q es 0 := by
  induction es with
  | nil => trivial
  | cons e es ih => exact ⟨0, by simp, fun i => by rw [Nat.zero_add], ih⟩

theorem Answered.cons {e : String × Source} {r : Except DrawError (List (String × String))} {v : String}
    (next : e.2.ahead q n = some v) (h : Answered q n es r) : Answered q n (e :: es) (r.map ((e.1, v) :: ·)) := by
  have more : (n : ℕ∞) < e.2.left q := (e.2.isSome_ahead q n).mp (by rw [next]; rfl)
  cases h with
  | found enough given =>
    refine .found (List.forall_mem_cons.mpr ⟨more, enough⟩) ?_
    rw [List.map_cons, List.map_cons, given, next]
  | missed cut before out =>
    exact .missed (by rw [cut, List.cons_append]) (List.forall_mem_cons.mpr ⟨more, before⟩) out

/-- One more snapshot: it is answered, and the sources stand where they stand after it. -/
theorem Stands.drawAll (apart : es.Pairwise fun e e' => e.2.Apart e'.2) (h : Stands q q' es n) :
    Answered q n es (drawAll q' es).1 ∧ Stands q (drawAll q' es).2 es (n + 1) := by
  induction es generalizing q' n with
  | nil => exact ⟨.found (fun e he => absurd he List.not_mem_nil) rfl, trivial⟩
  | cons e es ih =>
    obtain ⟨m, count, stands, rest⟩ := h
    obtain ⟨alone, apart⟩ := List.pairwise_cons.mp apart
    have drawn : (e.2.draw q').1 = e.2.ahead q m := (e.2.draw_fst q').trans (stands 0)
    cases next : e.2.ahead q m with
    | none =>
      -- the source has run out, so it was not asked in vain for the first time, or it is now
      have out : e.2.left q ≤ m := (Source.ahead_eq_none m).mp next
      have least : e.2.left q = m := le_antisymm out (count ▸ min_le_right _ _)
      have reached : e.2.left q ≤ n := least ▸ count ▸ min_le_left _ _
      rw [drawAll_cons_of_none (drawn.trans next)]
      have first : e :: es = [] ++ e :: es := rfl
      refine ⟨.missed first (fun _ h => absurd h List.not_mem_nil) reached, m, ?_, stands, rest⟩
      rw [← least, min_eq_right (reached.trans (Nat.cast_le.mpr n.le_succ))]
    | some v =>
      have more : (m : ℕ∞) < e.2.left q := (e.2.isSome_ahead q m).mp (by rw [next]; rfl)
      -- the source still has a value, so it was asked every time
      have every : m = n := by
        rcases min_choice (n : ℕ∞) (e.2.left q) with all | some
        · exact Nat.cast_inj.mp (count.trans all)
        · exact absurd (count.trans some) more.ne
      subst every
      have found := drawn.trans next
      have rest : Stands q (e.2.draw q').2 es m :=
        rest.congr fun e' he' i => Source.ahead_draw_of_apart (alone e' he').symm i
      obtain ⟨answered, after⟩ := ih apart rest
      rw [drawAll_cons_of_some found]
      refine ⟨answered.cons next, m + 1, ?_, fun i => ?_, after⟩
      · rw [min_eq_left]
        exact_mod_cast Order.add_one_le_of_lt more
      · rw [ahead_drawAll_of_apart alone, Source.ahead_draw found, stands, Nat.add_assoc]

theorem snapshot_eq (g : Generator) (q : Sequences) :
    g.snapshot q = ((Generator.drawAll q g.entries).1.map Environment.mk, (Generator.drawAll q g.entries).2) := by
  unfold snapshot
  rcases Generator.drawAll q g.entries with ⟨_ | ps, q'⟩ <;> rfl

/-- The first source that has no value at the position is the first that has run out. -/
theorem Stands.left_eq_zero {front : List (String × Source)} {e : String × Source} {back : List (String × Source)}
    (h : Stands q q' (front ++ e :: back) n) (before : ∀ e' ∈ front, (n : ℕ∞) < e'.2.left q)
    (out : e.2.left q ≤ n) : e.2.left q' = 0 ∧ ∀ e' ∈ front, e'.2.left q' ≠ 0 := by
  induction front with
  | nil =>
    obtain ⟨m, count, stands, -⟩ := h
    have none : e.2.ahead q' 0 = none := by
      rw [stands, Source.ahead_eq_none, Nat.add_zero, count]
      exact le_min out le_rfl
    exact ⟨nonpos_iff_eq_zero.mp ((Source.ahead_eq_none 0).mp none), fun _ h => absurd h List.not_mem_nil⟩
  | cons e' front ih =>
    obtain ⟨m, count, stands, rest⟩ := h
    obtain ⟨more, before⟩ := List.forall_mem_cons.mp before
    have every : m = n := Nat.cast_inj.mp (count.trans (min_eq_left more.le))
    subst every
    have some : (e'.2.ahead q' 0).isSome := by
      rw [stands, Nat.add_zero]
      exact (e'.2.isSome_ahead q m).mpr more
    obtain ⟨zero, others⟩ := ih rest before
    exact ⟨zero, List.forall_mem_cons.mpr ⟨((e'.2.isSome_ahead q' 0).mp some).ne', others⟩⟩

/-! ## Any number of snapshots -/

/-- The names of a generator have different sources. -/
def Apart (g : Generator) : Prop := g.entries.Pairwise fun e e' => e.2.Apart e'.2

/-- Snapshots of a generator, one after another, each with what the sequences were before it. Between them anything
may be done that leaves the sequences of the generator alone. -/
inductive Serves (g : Generator) (q : Sequences) :
    List (Sequences × Except DrawError Environment) → Sequences → Prop where
  /-- No snapshot was asked for. -/
  | start : Serves g q [] q
  /-- One more snapshot is asked for. -/
  | snapshot {log : List (Sequences × Except DrawError Environment)} {q' : Sequences} (before : Serves g q log q') :
    Serves g q (log ++ [(q', (g.snapshot q').1)]) (g.snapshot q').2
  /-- Something else is done. -/
  | elsewhere {log : List (Sequences × Except DrawError Environment)} {q' q'' : Sequences}
    (before : Serves g q log q') (kept : ∀ e ∈ g.entries, ∀ id, e.2.id? = some id →
      q''.cells[id.index]? = q'.cells[id.index]?) : Serves g q log q''

variable {log : List (Sequences × Except DrawError Environment)}

/-- After any number of snapshots the sources stand as that many snapshots left them, -/
theorem Serves.stands (serves : g.Serves q log q') (apart : g.Apart) : Stands q q' g.entries log.length := by
  induction serves with
  | start => exact stands_refl q g.entries
  | snapshot before ih =>
    rw [snapshot_eq, List.length_append, List.length_singleton]
    exact (ih.drawAll apart).2
  | elsewhere before kept ih =>
    refine ih.congr fun e he i => ?_
    cases hsrc : e.2 with
    | fixed v => rfl
    | shared id word =>
      have same := kept e he id (by rw [hsrc]; rfl)
      simp only [Source.ahead, Sequences.sequence?, Sequences.drawn, same]

/-- and each of them was asked for where its number left them. -/
theorem Serves.met (serves : g.Serves q log q') (apart : g.Apart) {i : Nat} {met : Sequences}
    {answer : Except DrawError Environment} (asked : log[i]? = some (met, answer)) :
    Stands q met g.entries i ∧ answer = (g.snapshot met).1 := by
  induction serves with
  | start => cases asked
  | @snapshot log q' before ih =>
    rw [List.getElem?_append] at asked
    split at asked
    · exact ih asked
    · rename_i behind
      rw [List.getElem?_singleton] at asked
      split at asked
      · have last : i = log.length := by omega
        cases asked
        exact ⟨last ▸ before.stands apart, rfl⟩
      · cases asked
  | elsewhere before kept ih => exact ih asked

/-- **Snapshots run out together.** Let the names of a generator have different sources from which nothing else draws.
However many snapshots are asked for, those whose number is below what the generator has left give every name, in
order, the value of its source at that position. All others fail, each for the first source that has no value at that
position, which is the first that has run out by then. -/
theorem Serves.exhausts (serves : g.Serves q log q') (apart : g.Apart) {i : Nat} {met : Sequences}
    {answer : Except DrawError Environment} (asked : log[i]? = some (met, answer)) :
    ((i : ℕ∞) < g.left q → ∃ env, answer = .ok env ∧
      env.pairs.map (fun p => (p.1, some p.2)) = g.entries.map fun e => (e.1, e.2.ahead q i)) ∧
    (g.left q ≤ i → ∃ front e back, g.entries = front ++ e :: back ∧ answer = .error (.exhausted e.1) ∧
      (e.2.left q ≤ (i : ℕ∞) ∧ ∀ e' ∈ front, (i : ℕ∞) < e'.2.left q) ∧
      (e.2.left met = 0 ∧ ∀ e' ∈ front, e'.2.left met ≠ 0)) := by
  obtain ⟨stands, told⟩ := serves.met apart asked
  rw [snapshot_eq] at told
  have answered := (stands.drawAll apart).1
  generalize (Generator.drawAll met g.entries).1 = r at told answered
  cases answered with
  | found enough given =>
    refine ⟨fun _ => ⟨_, told, given⟩, fun spent => ?_⟩
    exact absurd (lt_left_iff.mpr enough) spent.not_gt
  | @missed front e back cut before out =>
    refine ⟨fun more => ?_, fun _ => ⟨front, e, back, cut, told, ⟨out, before⟩, ?_⟩⟩
    · exact absurd (lt_left_iff.mp more e (by simp [cut])) out.not_gt
    · exact (cut ▸ stands).left_eq_zero before out

theorem Serves.next (before : g.Serves q log q') {answer : Except DrawError Environment}
    (told : g.snapshot q' = (answer, q'')) : g.Serves q (log ++ [(q', answer)]) q'' := by
  have after := before.snapshot
  rwa [told] at after

/-- Of three values and one value the one runs out first, and the three go on and run out in its place. -/
theorem exhausts_ahead :
    let g : Generator := ⟨[("X", .shared ⟨0⟩ "sequence"), ("Y", .shared ⟨1⟩ "sequence")]⟩
    let at_ : Nat → Nat → Sequences := fun x y => ⟨#[⟨.once ["a", "b", "c"], x⟩, ⟨.once ["y"], y⟩]⟩
    let log : List (Sequences × Except DrawError Environment) :=
      [(at_ 0 0, .ok ⟨[("X", "a"), ("Y", "y")]⟩), (at_ 1 1, .error (.exhausted "Y")),
        (at_ 2 1, .error (.exhausted "Y")), (at_ 3 1, .error (.exhausted "X"))]
    g.Apart ∧ g.Serves (at_ 0 0) log (at_ 3 1) ∧
      ∃ front e back, g.entries = front ++ e :: back ∧ e.1 = "X" ∧ e.2.left (at_ 3 1) = 0 := by
  intro g at_ log
  have apart : g.Apart := by
    refine List.pairwise_pair.mpr ?_
    rintro id ⟨⟩
    exact nofun
  have one : g.Serves (at_ 0 0) _ (at_ 1 1) := Serves.start.next rfl
  have two : g.Serves (at_ 0 0) _ (at_ 2 1) := one.next rfl
  have three : g.Serves (at_ 0 0) _ (at_ 3 1) := two.next rfl
  have serves : g.Serves (at_ 0 0) log (at_ 3 1) := three.next rfl
  have spent : g.left (at_ 0 0) ≤ (3 : Nat) := by
    refine (min_le_right _ _).trans ((min_le_left _ _).trans ?_)
    exact Nat.cast_le.mpr (by decide)
  obtain ⟨front, e, back, cut, told, -, zero, -⟩ := (serves.exhausts apart (i := 3) rfl).2 spent
  have named : "X" = e.1 := DrawError.exhausted.inj (Except.error.inj told)
  exact ⟨apart, serves, front, e, back, cut, named.symm, zero⟩

end Generator

end Muster
