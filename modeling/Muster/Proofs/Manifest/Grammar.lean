import Muster.Proofs.Json.Text
import Muster.Proofs.Manifest.Codec

/-!
# The grammar of variables

* `Variable.Written`: the trees that stand for variables: a scalar, or a map with one entry that tells a generator.
* `Json.record_of_parse?`: the keys of a map in a JSON text are texts.
* `Variable.Offers`: an entry of a map tells a generator, and no other entry has its key. `Variable.Takes`: this
  generator is the first of those that entries offer.
* **`Variable.ofTree?_record`**: what is read of a map is the generator that it takes, whatever else is in the map.
* **`Variable.reads_grammar_iff`**: a JSON text is read as the grammar has it unless it is overfull.
-/

namespace Muster

/-! ### Keys in JSON texts -/

namespace Json

/-- The keys of a map are texts. -/
def Keyed (t : Tree) : Prop := ∀ es, t = .fields es → ∃ l, t = .record l

theorem exists_record {es : List (Option String × Tree)} {entries : List (Key × Tree)}
    (h : es.mapM (fun e => e.1.map fun k => (Key.text k, e.2)) = some entries) :
    ∃ l, Tree.fields entries = .record l := by
  induction es generalizing entries with
  | nil =>
    cases h
    exact ⟨[], rfl⟩
  | cons e es ih =>
    rw [List.mapM_cons] at h
    obtain ⟨x, hx, h⟩ := Option.bind_eq_some_iff.mp h
    obtain ⟨xs, hxs, h⟩ := Option.bind_eq_some_iff.mp h
    obtain ⟨k, -, rfl⟩ := Option.map_eq_some_iff.mp hx
    obtain ⟨l, same⟩ := ih hxs
    cases h
    cases same
    exact ⟨(k, e.2) :: l, rfl⟩

theorem keyed_fieldsAt (depth : Nat) (es : List (Option String × Tree)) : Keyed (fieldsAt depth es) := by
  unfold fieldsAt
  split
  · exact fun _ => Tree.noConfusion
  split
  · rename_i made
    exact fun _ _ => exists_record made
  · exact fun _ => Tree.noConfusion

theorem keyed_readNumber {negative : Bool} {cs rest : List Char} {t : Tree}
    (h : readNumber negative cs = some (t, rest)) : Keyed t := by
  have keyed (n : Numeral) : Keyed n.tree := by
    intro es same
    unfold Numeral.tree at same
    dsimp only at same
    split at same
    · split at same <;> cases same
    split at same
    · cases same
    split at same
    · cases same
    · split at same <;> cases same
  unfold readNumber at h
  dsimp only at h
  split at h
  · cases h
  obtain ⟨f, -, h⟩ := Option.bind_eq_some_iff.mp h
  obtain ⟨e, -, h⟩ := Option.bind_eq_some_iff.mp h
  cases h
  exact keyed _

theorem keyed_readValue {depth fuel : Nat} {cs rest : List Char} {t : Tree}
    (h : readValue depth fuel cs = some (t, rest)) : Keyed t := by
  have keyed_text (s? : Option String) : Keyed (s?.elim .flawed .text) := by
    cases s? <;> exact fun _ => Tree.noConfusion
  have keyed_list (ts : List Tree) : Keyed (listAt depth ts) := by
    unfold listAt
    split <;> exact fun _ => Tree.noConfusion
  cases fuel with
  | zero => rw [readValue] at h; cases h
  | succ fuel =>
    unfold readValue at h
    split at h
    · obtain ⟨p, -, h⟩ := Option.map_eq_some_iff.mp h
      cases h
      exact keyed_text _
    · split at h
      · cases h
        exact keyed_list _
      · obtain ⟨p, -, h⟩ := Option.map_eq_some_iff.mp h
        cases h
        exact keyed_list _
    · split at h
      · cases h
        exact keyed_fieldsAt depth []
      · obtain ⟨p, -, h⟩ := Option.map_eq_some_iff.mp h
        cases h
        exact keyed_fieldsAt depth _
    · obtain ⟨p, -, h⟩ := Option.map_eq_some_iff.mp h
      cases h
      exact fun _ => Tree.noConfusion
    · obtain ⟨p, -, h⟩ := Option.map_eq_some_iff.mp h
      cases h
      exact fun _ => Tree.noConfusion
    · obtain ⟨p, -, h⟩ := Option.map_eq_some_iff.mp h
      cases h
      exact fun _ => Tree.noConfusion
    · exact keyed_readNumber h
    · exact keyed_readNumber h

/-- A JSON text stands for a map whose keys are texts, if it stands for a map. -/
theorem record_of_parse? {s : String} {es : List (Key × Tree)} (h : parse? s = some (.fields es)) :
    ∃ l, Tree.fields es = .record l := by
  unfold parse? at h
  dsimp only at h
  split at h
  · rename_i t rest read
    split at h
    · cases h
      exact keyed_readValue read es rfl
    · cases h
  · cases h

end Json

theorem Tree.record_injective : Function.Injective Tree.record := by
  intro l l' same
  refine List.map_injective_iff.mpr (fun e e' h => ?_) (Tree.fields.inj same)
  obtain ⟨key, value⟩ := Prod.mk.inj h
  exact Prod.ext (Key.text.inj key) value

namespace Variable

/-! ### The grammar -/

/-- The trees that stand for variables. -/
inductive Written : Tree → Variable → Prop where
  /-- A scalar stands for itself. -/
  | fixed {t : Tree} {s : Scalar} (scalar : Scalar.ofTree? t = some s) : Written t (.fixed s)
  /-- A list of scalars, to be drawn once. -/
  | sequence {ts : List Tree} {vs : List Scalar} (scalars : ts.map Scalar.ofTree? = vs.map some) :
    Written (.record [("sequence", .list ts)]) (.sequence vs)
  /-- A list of scalars, to be drawn over and over. -/
  | cycle {ts : List Tree} {vs : List Scalar} (scalars : ts.map Scalar.ofTree? = vs.map some) :
    Written (.record [("cycle", .list ts)]) (.cycle vs)
  /-- The first of numbers that count up. -/
  | counter {n : Nat} (small : n < Readable.limit) : Written (.record [("counter", .int n)]) (.counter n)

/-- The generators, in the order in which they are tried. -/
def generators : List String := ["sequence", "cycle", "counter"]

/-- What is read of the value of a generator. -/
def ofValue? (name : String) (t : Tree) : Option Variable :=
  match name with
  | "sequence" => (scalarsOfTree? t).map sequence
  | "cycle" => (scalarsOfTree? t).map cycle
  | "counter" => (Readable.nat? t).map counter
  | _ => none

/-- An entry tells a generator, and no other entry of the map has its key. -/
structure Offers (l : List (String × Tree)) (e : String × Tree) (v : Variable) : Prop where
  sole : l.filter (·.1 = e.1) = [e]
  written : Written (.record [e]) v

/-- Of the generators that entries of a map tell, the first. -/
def Takes (l : List (String × Tree)) (v : Variable) : Prop :=
  ∃ before name after, generators = before ++ name :: after ∧ (∃ t, Offers l (name, t) v) ∧
    ∀ other ∈ before, ∀ t u, ¬ Offers l (other, t) u

theorem nat?_eq_some {t : Tree} {n : Nat} : Readable.nat? t = some n ↔ t = .int n ∧ n < Readable.limit := by
  cases t with
  | int i =>
    show (if 0 ≤ i ∧ i < Readable.limit then some i.toNat else none) = _ ↔ _
    rw [Option.ite_none_right_eq_some, Tree.int.injEq, Option.some.injEq]
    omega
  | null | bool | float | text | list | fields | flawed =>
    constructor
    · exact fun none => absurd none.symm (Option.some_ne_none n)
    · exact fun other => absurd other.1 Tree.noConfusion

/-- What the grammar has of one entry is what is read of its value. -/
theorem written_entry {name : String} {t : Tree} {v : Variable} :
    Written (.record [(name, t)]) v ↔ ofValue? name t = some v := by
  constructor
  · intro h
    cases h with
    | fixed scalar => cases scalar
    | sequence scalars => exact Option.map_eq_some_iff.mpr ⟨_, scalarsOfTree?_eq_some.mpr ⟨_, rfl, scalars⟩, rfl⟩
    | cycle scalars => exact Option.map_eq_some_iff.mpr ⟨_, scalarsOfTree?_eq_some.mpr ⟨_, rfl, scalars⟩, rfl⟩
    | @counter n small =>
      have read : Readable.nat? (Tree.int n) = some n := nat?_eq_some.mpr ⟨rfl, small⟩
      show (Readable.nat? (Tree.int n)).map counter = _
      rw [read]
      rfl
  · intro h
    unfold ofValue? at h
    split at h
    · obtain ⟨vs, read, rfl⟩ := Option.map_eq_some_iff.mp h
      obtain ⟨ts, rfl, scalars⟩ := scalarsOfTree?_eq_some.mp read
      exact .sequence scalars
    · obtain ⟨vs, read, rfl⟩ := Option.map_eq_some_iff.mp h
      obtain ⟨ts, rfl, scalars⟩ := scalarsOfTree?_eq_some.mp read
      exact .cycle scalars
    · obtain ⟨n, read, rfl⟩ := Option.map_eq_some_iff.mp h
      obtain ⟨rfl, small⟩ := nat?_eq_some.mp read
      exact .counter small
    · cases h

/-! ### What is read of a map -/

/-- The value of the only entry with a key. -/
def sole? (name : String) (l : List (String × Tree)) : Option Tree :=
  match l.filter (·.1 = name) with
  | [e] => some e.2
  | _ => none

theorem sole?_eq_some {name : String} {l : List (String × Tree)} {t : Tree} :
    sole? name l = some t ↔ l.filter (·.1 = name) = [(name, t)] := by
  unfold sole?
  split
  · rename_i e only
    have named : e.1 = name := by
      have there : e ∈ l.filter (·.1 = name) := only ▸ List.mem_singleton_self e
      exact of_decide_eq_true (List.mem_filter.mp there).2
    rw [only, Option.some.injEq, List.singleton_inj, Prod.ext_iff]
    exact ⟨fun same => ⟨named, same⟩, fun same => same.2⟩
  · rename_i other
    exact ⟨nofun, fun same => absurd same (other _)⟩

/-- In a map whose keys are texts, a generator is named by its key. -/
theorem generatorField?_record (name : String) (l : List (String × Tree)) :
    generatorField? name (l.map fun e => (.text e.1, e.2)) = sole? name l := by
  have filtered : (l.map fun e => ((.text e.1, e.2) : Key × Tree)).filter
      (fun e => e.1 = .text name ∨ e.1 = .index 0) =
        (l.filter (·.1 = name)).map fun e => (.text e.1, e.2) := by
    rw [List.filter_map]
    congr 1
    refine List.filter_congr fun e _ => ?_
    simp
  unfold generatorField? sole?
  rw [if_neg (by simp), filtered]
  cases l.filter (·.1 = name) with
  | nil => rfl
  | cons e es => cases es <;> rfl

/-- What the only entry with a key tells. -/
def offer? (l : List (String × Tree)) (name : String) : Option Variable :=
  (sole? name l).bind (ofValue? name)

theorem offer?_eq_some {name : String} {l : List (String × Tree)} {v : Variable} :
    offer? l name = some v ↔ ∃ t, Offers l (name, t) v := by
  unfold offer?
  rw [Option.bind_eq_some_iff]
  refine exists_congr fun t => ?_
  rw [sole?_eq_some, ← written_entry]
  exact ⟨fun ⟨sole, written⟩ => ⟨sole, written⟩, fun ⟨sole, written⟩ => ⟨sole, written⟩⟩

theorem generatorOf?_record (l : List (String × Tree)) :
    generatorOf? (l.map fun e => (.text e.1, e.2)) = generators.findSome? (offer? l) := by
  have offers : offer? l "sequence" = ((sole? "sequence" l).bind scalarsOfTree?).map sequence ∧
      offer? l "cycle" = ((sole? "cycle" l).bind scalarsOfTree?).map cycle ∧
      offer? l "counter" = ((sole? "counter" l).bind fun t => Readable.nat? t).map counter := by
    simp only [offer?, Option.map_bind]
    exact ⟨rfl, rfl, rfl⟩
  unfold generatorOf? generators
  simp only [generatorField?_record, ← offers.1, ← offers.2.1, ← offers.2.2, List.findSome?_cons]
  cases offer? l "sequence" <;> cases offer? l "cycle" <;> cases offer? l "counter" <;> rfl

theorem takes_iff {l : List (String × Tree)} {v : Variable} :
    Takes l v ↔ generators.findSome? (offer? l) = some v := by
  have silent {name : String} : offer? l name = none ↔ ∀ t u, ¬ Offers l (name, t) u := by
    rw [Option.eq_none_iff_forall_ne_some, forall_comm]
    exact forall_congr' fun u => by rw [ne_eq, offer?_eq_some, not_exists]
  rw [List.findSome?_eq_some_iff]
  unfold Takes
  simp only [offer?_eq_some, silent]

/-- **Maps.** What is read of a map is the generator that it takes, whatever else is in the map. -/
theorem ofTree?_record {l : List (String × Tree)} {v : Variable} :
    ofTree? (.record l) = some v ↔ (Tree.record l).sound = true ∧ Takes l v := by
  have read : ofTree? (.record l) = if (Tree.record l).sound then generators.findSome? (offer? l) else none := by
    rw [← generatorOf?_record]
    rfl
  rw [read, Option.ite_none_right_eq_some, takes_iff]

/-! ### Maps that the grammar has, and others -/

variable {l : List (String × Tree)} {e : String × Tree} {v : Variable} {t : Tree}

theorem Written.mem_generators (h : Written (.record [e]) v) : e.1 ∈ generators := by
  have read := written_entry.mp h
  unfold ofValue? at read
  split at read
  · rename_i named
    exact named ▸ by decide
  · rename_i named
    exact named ▸ by decide
  · rename_i named
    exact named ▸ by decide
  · cases read

/-- Some generator is taken if any is offered. -/
theorem Offers.takes (h : Offers l e v) : ∃ u, Takes l u := by
  have offered : offer? l e.1 = some v := offer?_eq_some.mpr ⟨e.2, h⟩
  have some : (generators.findSome? (offer? l)).isSome = true :=
    List.findSome?_isSome_iff.mpr ⟨e.1, h.written.mem_generators, by rw [offered]; rfl⟩
  obtain ⟨u, taken⟩ := Option.isSome_iff_exists.mp some
  exact ⟨u, takes_iff.mpr taken⟩

theorem offers_singleton {e' : String × Tree} : Offers [e] e' v ↔ e' = e ∧ Written (.record [e]) v := by
  constructor
  · intro h
    have there : e' ∈ [e].filter (·.1 = e'.1) := h.sole ▸ List.mem_singleton_self e'
    obtain rfl := List.mem_singleton.mp (List.mem_of_mem_filter there)
    exact ⟨rfl, h.written⟩
  · rintro ⟨rfl, written⟩
    exact ⟨List.filter_singleton.trans (by simp), written⟩

/-- The only entry of a map is taken if the grammar has it. -/
theorem takes_singleton : Takes [e] v ↔ Written (.record [e]) v := by
  constructor
  · rintro ⟨before, name, after, -, ⟨t, offers⟩, -⟩
    exact (offers_singleton.mp offers).2
  · intro written
    obtain ⟨before, after, split⟩ := List.append_of_mem written.mem_generators
    have distinct : generators.Nodup := by decide
    refine ⟨before, e.1, after, split, ⟨e.2, offers_singleton.mpr ⟨rfl, written⟩⟩, fun other ho t u offers => ?_⟩
    have same : other = e.1 := congrArg Prod.fst (offers_singleton.mp offers).1
    rw [split] at distinct
    exact (List.nodup_append.mp distinct).2.2 other ho e.1 List.mem_cons_self same

theorem not_takes_nil : ¬ Takes [] v := by
  rintro ⟨before, name, after, -, ⟨t, offers⟩, -⟩
  cases offers.sole

/-- No map has more than one entry in the grammar. -/
theorem Written.singleton (h : Written (.record l) v) : ∃ e, l = [e] := by
  have length {r : Tree} (h : Written r v) (es : List (Key × Tree)) (same : r = .fields es) : es.length = 1 := by
    cases h with
    | fixed scalar => rw [same] at scalar; cases scalar
    | sequence | cycle | counter => cases same; rfl
  refine List.length_eq_one_iff.mp ?_
  rw [← length h _ rfl, List.length_map]

theorem Written.sound (h : Written t v) : t.sound = true := by
  have scalar {t : Tree} {s : Scalar} (h : Scalar.ofTree? t = some s) : t.sound = true := by
    unfold Scalar.ofTree? at h
    split at h
    all_goals first | rfl | cases h
  have scalars {ts : List Tree} {vs : List Scalar} (h : ts.map Scalar.ofTree? = vs.map some) :
      Tree.soundItems ts = true := by
    induction ts generalizing vs with
    | nil => rfl
    | cons t ts ih =>
      obtain _ | ⟨s, vs⟩ := vs
      · cases h
      rw [List.map_cons, List.map_cons, List.cons.injEq] at h
      unfold Tree.soundItems
      rw [scalar h.1, ih h.2]
      rfl
  cases h with
  | fixed h => exact scalar h
  | sequence h | cycle h =>
    show (Tree.soundItems _ && true) = true
    rw [scalars h]
    rfl
  | counter => rfl

/-- A map has more than one entry, and one of them tells a generator. -/
def Overfull (t : Tree) : Prop :=
  ∃ l e v, t = .record l ∧ t.sound = true ∧ 2 ≤ l.length ∧ Offers l e v

/-- What is read of the tree of a JSON text: what the grammar has, and of a map with more entries than one the
generator that it takes. -/
theorem ofTree?_iff {s : String} (h : Json.parse? s = some t) :
    ofTree? t = some v ↔ Written t v ∨ ∃ l, t = .record l ∧ t.sound = true ∧ 2 ≤ l.length ∧ Takes l v := by
  by_cases map : ∃ l, t = .record l
  · obtain ⟨l, rfl⟩ := map
    rw [ofTree?_record]
    constructor
    · rintro ⟨sound, takes⟩
      match l, takes with
      | [], takes => exact absurd takes not_takes_nil
      | [e], takes => exact .inl (takes_singleton.mp takes)
      | e :: e' :: l, takes => exact .inr ⟨_, rfl, sound, Nat.le_add_left 2 l.length, takes⟩
    · rintro (written | ⟨l', same, sound, -, takes⟩)
      · obtain ⟨e, rfl⟩ := written.singleton
        exact ⟨written.sound, takes_singleton.mpr written⟩
      · exact ⟨sound, Tree.record_injective same ▸ takes⟩
  · have other (es : List (Key × Tree)) : t ≠ .fields es := by
      rintro rfl
      exact map (Json.record_of_parse? h)
    have read : ofTree? t = (Scalar.ofTree? t).map fixed := by
      cases t with
      | fields es => exact absurd rfl (other es)
      | null | bool | int | float | text | list | flawed => rfl
    rw [read, Option.map_eq_some_iff]
    constructor
    · rintro ⟨s, scalar, rfl⟩
      exact .inl (.fixed scalar)
    · rintro (written | ⟨l, same, -⟩)
      · cases written with
        | fixed scalar => exact ⟨_, scalar, rfl⟩
        | sequence | cycle | counter => exact absurd ⟨_, rfl⟩ map
      · exact absurd ⟨l, same⟩ map

/-- **The grammar.** What is read of a JSON text is what the grammar has, or, of a map with more entries than one, the
generator that it takes, whatever else it has. So the text is read just as the grammar has it if and only if
it is not overfull. -/
theorem reads_grammar_iff {s : String} (h : Json.parse? s = some t) :
    (∀ v, ofTree? t = some v ↔
      Written t v ∨ ∃ l, t = .record l ∧ t.sound = true ∧ 2 ≤ l.length ∧ Takes l v) ∧
    ((∀ v, ofTree? t = some v ↔ Written t v) ↔ ¬ Overfull t) := by
  refine ⟨fun v => ofTree?_iff h, fun grammar overfull => ?_, fun single v => ?_⟩
  · obtain ⟨l, e, v, rfl, sound, more, offers⟩ := overfull
    obtain ⟨u, takes⟩ := offers.takes
    obtain ⟨e', rfl⟩ := ((grammar u).mp (ofTree?_record.mpr ⟨sound, takes⟩)).singleton
    exact Nat.not_succ_le_self 1 more
  · rw [ofTree?_iff h, or_iff_left_iff_imp]
    rintro ⟨l, same, sound, more, before, name, after, -, ⟨x, offers⟩, -⟩
    exact absurd ⟨l, (name, x), v, same, sound, more, offers⟩ single

/-- A map that tells two generators. -/
def doubled : Tree := .record [("sequence", .list [.text "a"]), ("cycle", .list [.text "b"])]

theorem write_doubled : Json.write doubled = "\x7b\"sequence\":[\"a\"],\"cycle\":[\"b\"]\x7d" := by
  decide +kernel

theorem parse?_doubled : Json.parse? "\x7b\"sequence\":[\"a\"],\"cycle\":[\"b\"]\x7d" = some doubled := by
  have item (s : String) : Json.Kept 2 (.list [.text s]) :=
    .list (by decide) fun t ht => List.mem_singleton.mp ht ▸ .text s
  rw [← write_doubled]
  refine Json.parse?_write (.record (by decide) fun e he => ?_)
  rw [List.mem_cons, List.mem_singleton] at he
  rcases he with rfl | rfl
  · exact item "a"
  · exact item "b"

/-- One of them is read, where the grammar has nothing. -/
theorem reads_doubled : ¬ ∀ {s : String} {t : Tree}, Json.parse? s = some t →
    ∀ v, ofTree? t = some v ↔ Written t v := by
  intro grammar
  obtain ⟨e, same⟩ := ((grammar parse?_doubled (.sequence [.text "a"])).mp (by rfl)).singleton
  cases (List.cons.inj same).2

/-- It is the one that is tried first; the map is overfull. -/
theorem reads_grammar_doubled :
    Json.parse? "\x7b\"sequence\":[\"a\"],\"cycle\":[\"b\"]\x7d" = some doubled ∧
      ofTree? doubled = some (.sequence [.text "a"]) ∧ ¬ ∀ v, ofTree? doubled = some v ↔ Written doubled v := by
  obtain ⟨reads, grammar⟩ := reads_grammar_iff parse?_doubled
  have offers : Offers [("sequence", .list [.text "a"]), ("cycle", .list [.text "b"])]
      ("sequence", .list [.text "a"]) (.sequence [.text "a"]) := ⟨rfl, .sequence rfl⟩
  refine ⟨parse?_doubled, (reads _).mpr (.inr ⟨_, rfl, rfl, Nat.le_refl 2, ?_⟩), fun all => grammar.mp all ?_⟩
  · exact ⟨[], "sequence", ["cycle", "counter"], rfl, ⟨_, offers⟩, fun _ none => absurd none List.not_mem_nil⟩
  · exact ⟨_, _, _, rfl, rfl, Nat.le_refl 2, offers⟩

end Variable

end Muster
