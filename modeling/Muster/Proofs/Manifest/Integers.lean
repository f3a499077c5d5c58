import Muster.Proofs.Decimal.Survival
import Muster.Proofs.Manifest.Declared

/-!
# Whole numbers in manifests

* `Variable.Holds`: a value tree has a whole number for the draw at a place.
* `Scalar.shown_eq_iff`: a whole number is shown as itself if it has 63 bits or survives as a double.
* **`Manifest.draws_integer_iff`**: so is the value that the source of a variable, in the draft of a manifest, gives
  to the draw at this place.
-/

namespace Muster

/-! ### What is shown of a whole number -/

namespace Scalar

variable {n : Int} {s : Scalar}

theorem ofTree?_int (n : Int) :
    ofTree? (.int n) = some (if -2 ^ 63 ≤ n ∧ n < 2 ^ 63 then .integer n else .float (Float.ofInt n)) := rfl

/-- **Scalars.** A whole number of 64 bits is shown as itself if and only if it is below `2 ^ 63` or survives as a
double. -/
theorem shown_eq_iff (read : ofTree? (.int n) = some s) (low : -2 ^ 63 ≤ n) (high : n < 2 ^ 64) :
    s.shown = toString n ↔ n < 2 ^ 63 ∨ Decimal.Survives n.toNat := by
  rw [ofTree?_int, Option.some.injEq] at read
  subst read
  by_cases small : n < 2 ^ 63
  · rw [if_pos ⟨low, small⟩]
    exact iff_of_true rfl (.inl small)
  · obtain ⟨k, rfl⟩ := Int.eq_ofNat_of_zero_le (by omega : 0 ≤ n)
    obtain ⟨d, written, survives⟩ := Float.write_ofNat (n := k) (by omega) (by omega)
    rw [if_neg fun both => small both.2, or_iff_right small, Int.toNat_natCast, ← survives]
    show Float.plain.write (Float.ofNat k) = toString k ↔ _
    rw [written]
    refine ⟨fun same => ?_, congrArg toString⟩
    have digits := congrArg String.toList same
    rw [Nat.toString_eq_repr, Nat.toString_eq_repr, Nat.toList_repr, Nat.toList_repr] at digits
    rw [← Nat.ofDigitChars_ten_toDigits (n := d), digits, Nat.ofDigitChars_ten_toDigits]

end Scalar

/-! ### Where a whole number is written -/

namespace Variable

variable {w t : Tree} {i : Nat} {n : Int} {v : Variable} {es : List (Key × Tree)}

/-- A value tree has a whole number for the draw at a place: it is this number, or the number is an item of the list
that is read of it; the items of a cycle are drawn over and over. -/
inductive Holds : Tree → Nat → Int → Prop where
  /-- It has the number for every draw. -/
  | fixed (i : Nat) (n : Int) : Holds (.int n) i n
  /-- An item of a sequence. -/
  | sequence {es : List (Key × Tree)} {ts : List Tree} {vs : List Scalar} {i : Nat} {n : Int}
    (entry : (.text "sequence", .list ts) ∈ es) (reads : ofTree? (.fields es) = some (.sequence vs))
    (item : ts[i]? = some (.int n)) : Holds (.fields es) i n
  /-- An item of a cycle. -/
  | cycle {es : List (Key × Tree)} {ts : List Tree} {vs : List Scalar} {i : Nat} {n : Int}
    (entry : (.text "cycle", .list ts) ∈ es) (reads : ofTree? (.fields es) = some (.cycle vs))
    (item : ts[i % ts.length]? = some (.int n)) : Holds (.fields es) i n

/-- The value of a generator is that of its entry. -/
theorem generatorField?_eq_of_mem {name : String} {u : Tree} (entry : (.text name, t) ∈ es)
    (field : generatorField? name es = some u) : u = t := by
  have there : (.text name, t) ∈ es.filter (fun e => e.1 = .text name ∨ e.1 = .index 0) :=
    List.mem_filter.mpr ⟨entry, decide_eq_true (.inl rfl)⟩
  unfold generatorField? at field
  split at field
  · cases field
  split at field
  · rename_i only
    rw [only, List.mem_singleton] at there
    rw [← Option.some.inj field, ← there]
  · cases field

/-- What a map is read as: the values of its generator, or a counter. -/
theorem of_ofTree?_fields (h : ofTree? (.fields es) = some v) :
    (∃ ts vs, generatorField? "sequence" es = some (.list ts) ∧ ts.map Scalar.ofTree? = vs.map some ∧
      v = .sequence vs) ∨
    (∃ ts vs, generatorField? "cycle" es = some (.list ts) ∧ ts.map Scalar.ofTree? = vs.map some ∧ v = .cycle vs) ∨
    ∃ start, v = .counter start := by
  have list {name : String} {vs : List Scalar} (h : (generatorField? name es).bind scalarsOfTree? = some vs) :
      ∃ ts, generatorField? name es = some (.list ts) ∧ ts.map Scalar.ofTree? = vs.map some := by
    obtain ⟨t, field, scalars⟩ := Option.bind_eq_some_iff.mp h
    obtain ⟨ts, rfl, each⟩ := scalarsOfTree?_eq_some.mp scalars
    exact ⟨ts, field, each⟩
  have generator : generatorOf? es = some v := (Option.ite_none_right_eq_some.mp h).2
  unfold generatorOf? at generator
  cases first : (generatorField? "sequence" es).bind scalarsOfTree? with
  | some vs =>
    rw [first] at generator
    cases generator
    obtain ⟨ts, field, each⟩ := list first
    exact .inl ⟨ts, vs, field, each, rfl⟩
  | none =>
    rw [first] at generator
    cases second : (generatorField? "cycle" es).bind scalarsOfTree? with
    | some vs =>
      rw [second] at generator
      cases generator
      obtain ⟨ts, field, each⟩ := list second
      exact .inr (.inl ⟨ts, vs, field, each, rfl⟩)
    | none =>
      rw [second] at generator
      obtain ⟨start, -, rfl⟩ := Option.map_eq_some_iff.mp
        (show ((generatorField? "counter" es).bind fun t => Readable.nat? t).map counter = some v from generator)
      exact .inr (.inr ⟨start, rfl⟩)

/-- The value for a place is what is shown of the number there. -/
theorem Holds.value? (holds : Holds w i n) (read : ofTree? w = some v) :
    ∃ s, v.value? i = some s.shown ∧ Scalar.ofTree? (.int n) = some s := by
  have item {ts : List Tree} {vs : List Scalar} (each : ts.map Scalar.ofTree? = vs.map some) {j : Nat}
      (item : ts[j]? = some (.int n)) : ∃ s, vs[j]? = some s ∧ Scalar.ofTree? (.int n) = some s := by
    have same := congrArg (·[j]?) each
    simp only [List.getElem?_map, item, Option.map_some] at same
    obtain ⟨s, there, same⟩ := Option.map_eq_some_iff.mp same.symm
    exact ⟨s, there, same.symm⟩
  cases holds with
  | fixed =>
    cases read
    exact ⟨_, rfl, rfl⟩
  | @sequence es ts _ _ _ entry reads at_ =>
    cases reads.symm.trans read
    obtain ⟨us, _, field, each, same⟩ | ⟨_, _, _, _, same⟩ | ⟨_, same⟩ := of_ofTree?_fields reads <;> cases same
    cases generatorField?_eq_of_mem entry field
    obtain ⟨s, there, shown⟩ := item each at_
    exact ⟨s, congrArg (Option.map Scalar.shown) there, shown⟩
  | @cycle es ts vs _ _ entry reads at_ =>
    cases reads.symm.trans read
    obtain ⟨_, _, _, _, same⟩ | ⟨us, _, field, each, same⟩ | ⟨_, same⟩ := of_ofTree?_fields reads <;> cases same
    cases generatorField?_eq_of_mem entry field
    have length : vs.length = ts.length := by
      rw [← List.length_map (f := some), ← each, List.length_map]
    obtain ⟨s, there, shown⟩ := item each at_
    rw [← length] at there
    exact ⟨s, congrArg (Option.map Scalar.shown) there, shown⟩

end Variable

/-! ### What is drawn for it -/

namespace Manifest

/-- A whole number of 64 bits that a document declares for a draw is drawn as it is shown as a scalar. -/
theorem draws_integer {α : Type} [Readable α] {a : α} {m : Manifest} (read : Manifest.ofDocument? a = some m)
    {k i : Nat} {name : String} {w : Tree} {n : Int} (declares : Declares a k name w) (holds : Variable.Holds w i n)
    (q : Sequences) :
    ∃ g src s, (m.draft q).1.groups[k]? = some g ∧ g.schema.environment.source? name = some src ∧
      Scalar.ofTree? (.int n) = some s ∧ src.drawAt (m.draft q).2 i = some s.shown := by
  obtain ⟨g, src, v, group, source, tree, drawn⟩ := draws_declared read declares q
  obtain ⟨s, value, shown⟩ := holds.value? tree
  refine ⟨g, src, s, group, source, shown, ?_⟩
  rw [drawn i (by rw [value]; rfl), value]

/-- **Whole numbers in manifests.** Let a manifest be read from a document, and let a whole number of 64 bits stand in
the document, in some template, as the value of a variable or as an item of its sequence or cycle. In the draft of the
manifest, the source of the variable gives a text to the draw at this place. It is the decimal representation of
the number if and only if the number is below `2 ^ 63`, or no number with fewer digits has the same double. -/
theorem draws_integer_iff {α : Type} [Readable α] {a : α} {m : Manifest} (read : Manifest.ofDocument? a = some m)
    {k i : Nat} {name : String} {w : Tree} {n : Int} (declares : Declares a k name w) (holds : Variable.Holds w i n)
    (low : -2 ^ 63 ≤ n) (high : n < 2 ^ 64) (q : Sequences) :
    ∃ g src s, (m.draft q).1.groups[k]? = some g ∧ g.schema.environment.source? name = some src ∧
      src.drawAt (m.draft q).2 i = some s ∧ (s = toString n ↔ n < 2 ^ 63 ∨ Decimal.Survives n.toNat) := by
  obtain ⟨g, src, s, group, source, shown, drawn⟩ := draws_integer read declares holds q
  exact ⟨g, src, s.shown, group, source, drawn, Scalar.shown_eq_iff shown low high⟩

/-- The least number of 64 bits with a sign, and a large one, in turn. -/
def steps : Tree := .record [("cycle", .list [.int (-9223372036854775808), .int 18446744073709550000])]

/-- A manifest of one template, with the greatest number of 64 bits, and with the steps. -/
def largest : Tree := .record
  [("apiVersion", .text manifestVersion), ("kind", .text manifestKind),
   ("metadata", .record [("name", .text "largest")]),
   ("spec", .record [("members", .list [.record
     [("executable", .text "server"),
      ("environment", .record [("LIMIT", .int 18446744073709551615), ("STEP", steps)])]])])]

theorem declares_limit : Declares largest 0 "LIMIT" (.int 18446744073709551615) :=
  ⟨_, _, _, _, _, _, rfl, rfl, rfl, rfl, rfl, rfl, _, _, [], _, _, rfl, rfl, rfl, by decide, rfl⟩

/-- The greatest number is drawn as another one, which is larger by 385. -/
theorem draws_larger : ¬ ∀ {m : Manifest} {k i : Nat} {name : String} {w : Tree} {n : Int},
    Manifest.ofDocument? largest = some m → Declares largest k name w → Variable.Holds w i n →
      -2 ^ 63 ≤ n → n < 2 ^ 64 → ∀ q : Sequences,
        ∃ g src, (m.draft q).1.groups[k]? = some g ∧ g.schema.environment.source? name = some src ∧
          src.drawAt (m.draft q).2 i = some (toString n) := by
  intro kept
  have ⟨m, read⟩ : ∃ m, Manifest.ofDocument? largest = some m := ⟨_, rfl⟩
  have holds := Variable.Holds.fixed 0 18446744073709551615
  have ⟨g, src, s, group, source, scalar, drawn⟩ := draws_integer read declares_limit holds {}
  have ⟨g', src', group', source', drawn'⟩ := kept read declares_limit holds (by decide) (by decide) {}
  cases group.symm.trans group'
  cases source.symm.trans source'
  cases scalar
  have same : Float.plain.write (Float.ofNat 18446744073709551615) = "18446744073709551615" :=
    Option.some.inj (drawn.symm.trans drawn')
  have written : Float.plain.write (Float.ofNat 18446744073709551615) = "18446744073709552000" := by
    rw [Float.write_eq_layout (by decide) (by decide)]
    decide +kernel
  exact absurd (written.symm.trans same) (by decide)

/-- A number from the cycle survives. -/
theorem draws_integer_step : ∃ (m : Manifest) (g : Group) (src : Source),
    Manifest.ofDocument? largest = some m ∧ (m.draft {}).1.groups[0]? = some g ∧
      g.schema.environment.source? "STEP" = some src ∧
      src.drawAt (m.draft {}).2 3 = some "18446744073709550000" := by
  have ⟨m, read⟩ : ∃ m, Manifest.ofDocument? largest = some m := ⟨_, rfl⟩
  have declares : Declares largest 0 "STEP" steps :=
    ⟨_, _, _, _, _, _, rfl, rfl, rfl, rfl, rfl, rfl, _, _, [_], _, _, rfl, rfl, rfl, by decide, rfl⟩
  have holds : Variable.Holds steps 3 18446744073709550000 := .cycle List.mem_cons_self rfl rfl
  have ⟨g, src, s, group, source, drawn, survives⟩ :=
    draws_integer_iff read declares holds (by decide) (by decide) {}
  have kept := survives.mpr (.inr (.inl (by decide)))
  exact ⟨m, g, src, read, group, source, drawn.trans (congrArg some kept)⟩

end Manifest

end Muster
