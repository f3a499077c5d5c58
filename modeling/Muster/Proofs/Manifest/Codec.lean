import Muster.Manifest.Text
import Muster.Proofs.Duration.Words
import Muster.Proofs.Tree.Carried

/-!
# Manifests, read back

* `Scalar.Proper`, `Variable.Proper`, `Template.Proper`, `Manifest.Proper`: numbers have as many bits as they may
  have, and every name is there once.
* `Variable.ofTree?_toTree`: no variable is taken for one of another kind.
* `Template.ofDocument?_carried`, `Manifest.ofDocument?_carried`: what is read from a document that carries what
  was written.
* **`Manifest.ofDocument?_toTree`**: a manifest is read back as it was written.
* `Manifest.ofYaml?_toYaml`: so it is from its text, as far as the text carries what was written.
-/

namespace Muster

/-! ### What manifests hold -/

/-- The number of a scalar has 64 bits and a sign. -/
def Scalar.Proper : Scalar → Prop
  | integer i => -(twoTo 63 : Int) ≤ i ∧ i < twoTo 63
  | text _ | float _ | boolean _ => True

/-- The numbers of a variable have 64 bits. -/
def Variable.Proper : Variable → Prop
  | fixed s => s.Proper
  | sequence vs | cycle vs => ∀ s ∈ vs, s.Proper
  | counter n => n < Readable.limit

instance (s : Scalar) : Decidable s.Proper :=
  match s with
  | .integer _ => inferInstanceAs (Decidable (_ ∧ _))
  | .text _ | .float _ | .boolean _ => inferInstanceAs (Decidable True)

instance (v : Variable) : Decidable v.Proper :=
  match v with
  | .fixed s => inferInstanceAs (Decidable s.Proper)
  | .sequence vs | .cycle vs => inferInstanceAs (Decidable (∀ s ∈ vs, s.Proper))
  | .counter n => inferInstanceAs (Decidable (n < Readable.limit))

/-- The numbers of a template have 64 bits, and no variable is there twice. -/
structure Template.Proper (t : Template) : Prop where
  count : t.count < Readable.limit
  once : (t.environment.map (·.1)).Nodup
  values : ∀ e ∈ t.environment, e.2.Proper

/-- The numbers of a manifest have 64 bits, its bound is not zero, and labels are sorted by name. -/
structure Manifest.Proper (m : Manifest) : Prop where
  labels : ∀ l ∈ m.labels, (l.map (·.1)).Pairwise (· < ·)
  timeout : ∀ d ∈ m.timeout, d.seconds < Duration.wordLimit
  pollInterval : ∀ d ∈ m.pollInterval, d.seconds < Duration.wordLimit
  parallelism : ∀ n ∈ m.parallelism, n ≠ 0 ∧ n < Readable.limit
  members : ∀ t ∈ m.members, t.Proper

/-! ### Scalars and variables -/

namespace Scalar

theorem ofTree?_toTree {s : Scalar} (proper : s.Proper) : ofTree? s.toTree = some s := by
  cases s with
  | text | float | boolean => rfl
  | integer i => exact congrArg some (if_pos proper)

theorem carries_toTree (s : Scalar) : Carries s.toTree s.toTree := by
  cases s with
  | text s => exact Tree.carries_text s
  | integer i => exact Tree.carries_int i
  | float x => exact Tree.carries_float x
  | boolean b => exact Tree.carries_bool b

/-- Scalars are read back one by one. -/
theorem mapM_ofTree? {vs : List Scalar} (proper : ∀ s ∈ vs, s.Proper) :
    (vs.map toTree).mapM ofTree? = some vs := by
  induction vs with
  | nil => rfl
  | cons s vs ih =>
    rw [List.map_cons, List.mapM_cons, ofTree?_toTree (proper s List.mem_cons_self),
      ih fun t ht => proper t (List.mem_cons_of_mem s ht)]
    rfl

end Scalar

namespace Variable

theorem scalarsOfTree?_eq_some {t : Tree} {vs : List Scalar} :
    scalarsOfTree? t = some vs ↔ ∃ ts, t = .list ts ∧ ts.map Scalar.ofTree? = vs.map some := by
  unfold scalarsOfTree?
  split
  · rw [mapM_eq_some]
    simp
  · rename_i other
    exact ⟨nofun, fun ⟨ts, same, _⟩ => absurd same (other ts)⟩

/-- The field of another generator is not there. -/
theorem generatorField?_of_ne {name other : String} (h : other ≠ name) (t : Tree) :
    generatorField? name [(.text other, t)] = none := by
  unfold generatorField?
  simp [h]

theorem generatorField?_self (name : String) (t : Tree) :
    generatorField? name [(.text name, t)] = some t := by
  unfold generatorField?
  simp

theorem carries_toTree (v : Variable) : Carries v.toTree v.toTree := by
  have list (vs : List Scalar) : Carries (Tree.list (vs.map Scalar.toTree)) (.list (vs.map Scalar.toTree)) := by
    refine Tree.carries_list fun t ht => ?_
    obtain ⟨s, -, rfl⟩ := List.mem_map.mp ht
    exact s.carries_toTree
  have record (name : String) {t : Tree} (h : Carries t t) :
      Carries (Tree.record [(name, t)]) (.record [(name, t)]) :=
    Tree.carries_record fun e he => by rw [List.mem_singleton.mp he]; exact h
  cases v with
  | fixed s => exact s.carries_toTree
  | sequence vs => exact record "sequence" (list vs)
  | cycle vs => exact record "cycle" (list vs)
  | counter n => exact record "counter" (Tree.carries_int n)

/-- What is read of a map that can be represented. -/
theorem ofTree?_fields {entries : List (Key × Tree)} (sound : (Tree.fields entries).sound = true) :
    ofTree? (.fields entries) = generatorOf? entries :=
  if_pos sound

/-- **Variables.** No variable is taken for one of another kind. -/
theorem ofTree?_toTree {v : Variable} (proper : v.Proper) : ofTree? v.toTree = some v := by
  have sound := Tree.sound_of_carries v.carries_toTree
  cases v with
  | fixed s =>
    have read : Scalar.ofTree? s.toTree = some s := Scalar.ofTree?_toTree proper
    unfold ofTree? toTree
    rw [read]
  | sequence vs =>
    have read : scalarsOfTree? (.list (vs.map Scalar.toTree)) = some vs := Scalar.mapM_ofTree? proper
    refine (ofTree?_fields sound).trans ?_
    show generatorOf? [(.text "sequence", .list (vs.map Scalar.toTree))] = _
    unfold generatorOf?
    rw [generatorField?_self, Option.bind_some, read]
    rfl
  | cycle vs =>
    have read : scalarsOfTree? (.list (vs.map Scalar.toTree)) = some vs := Scalar.mapM_ofTree? proper
    refine (ofTree?_fields sound).trans ?_
    show generatorOf? [(.text "cycle", .list (vs.map Scalar.toTree))] = _
    unfold generatorOf?
    rw [generatorField?_of_ne (by decide), generatorField?_self, Option.bind_some, read]
    rfl
  | counter n =>
    have read : Readable.nat? (Tree.int n) = some n := (Tree.carries_int n).nat? proper
    refine (ofTree?_fields sound).trans ?_
    show generatorOf? [(.text "counter", .int n)] = _
    unfold generatorOf?
    rw [generatorField?_of_ne (by decide), generatorField?_of_ne (by decide), generatorField?_self,
      Option.bind_some, read]
    rfl

end Variable

/-! ### Names -/

section Names

variable {β : Type} {name : String} {b : β} {l ps : List (String × β)}

/-- A name that is not there comes last, -/
theorem setEntry_of_not_mem (h : name ∉ l.map (·.1)) : setEntry name b l = l ++ [(name, b)] := by
  induction l with
  | nil => rfl
  | cons e l ih =>
    rw [List.map_cons, List.mem_cons, not_or] at h
    rw [setEntry, if_neg (Ne.symm h.1), ih h.2]
    rfl

/-- so that names of which none is there twice keep their order. -/
theorem foldl_setEntry (once : ((l ++ ps).map (·.1)).Nodup) :
    ps.foldl (fun l p => setEntry p.1 p.2 l) l = l ++ ps := by
  induction ps generalizing l with
  | nil => exact (List.append_nil l).symm
  | cons p ps ih =>
    rw [List.append_cons] at once
    have fresh : p.1 ∉ l.map (·.1) := by
      rw [List.map_append, List.map_append, List.nodup_append, List.nodup_append] at once
      exact fun there => once.1.2.2 _ there _ (List.mem_singleton_self _) rfl
    rw [List.foldl_cons, setEntry_of_not_mem fresh, ih once, ← List.append_cons]

/-- A name behind all others comes last, -/
theorem setSorted_of_lt (h : ∀ e ∈ l, e.1 < name) : setSorted name b l = l ++ [(name, b)] := by
  induction l with
  | nil => rfl
  | cons e l ih =>
    have before := h e List.mem_cons_self
    have other : e.1 ≠ name := fun same => String.lt_irrefl name (same ▸ before)
    rw [setSorted, if_neg (String.lt_asymm before), if_neg other,
      ih fun e he => h e (List.mem_cons_of_mem _ he)]
    rfl

/-- so that names that are sorted keep their order. -/
theorem foldl_setSorted (sorted : ((l ++ ps).map (·.1)).Pairwise (· < ·)) :
    ps.foldl (fun l p => setSorted p.1 p.2 l) l = l ++ ps := by
  induction ps generalizing l with
  | nil => exact (List.append_nil l).symm
  | cons p ps ih =>
    have before : ∀ e ∈ l, e.1 < p.1 := by
      rw [List.map_append, List.pairwise_append] at sorted
      exact fun e he => sorted.2.2 _ (List.mem_map_of_mem he) _ List.mem_cons_self
    rw [List.append_cons] at sorted
    rw [List.foldl_cons, setSorted_of_lt before, ih sorted, ← List.append_cons]

end Names

/-! ### Reading what was written -/

section Reading

variable {α : Type} [Readable α] {a : α}

theorem Duration.ofDocument?_carried {d : Duration} (h : Carries a (.text d.words))
    (fits : d.seconds < Duration.wordLimit) : Duration.ofDocument? a = some d := by
  unfold Duration.ofDocument?
  rw [h.text?, Option.bind_some, Duration.ofWords?_words fits]

theorem positiveOfDocument?_carried {n : Nat} (h : Carries a (.nat n)) (some : n ≠ 0)
    (small : n < Readable.limit) : positiveOfDocument? a = .some n := by
  unfold positiveOfDocument?
  rw [h.nat? small, Option.bind_some, if_neg some]

theorem textsOfDocument?_carried {l : List String} (h : Carries a (.list (l.map .text))) :
    textsOfDocument? a = some l :=
  h.items fun _ _ _ carried => carried.text?

theorem labelsOfDocument?_carried {l : List (String × String)} (h : Carries a (Manifest.labelsTree l))
    (sorted : (l.map (·.1)).Pairwise (· < ·)) : labelsOfDocument? a = some l := by
  obtain ⟨es, table, read⟩ := h.table Readable.text? fun _ _ _ carried => carried.text?
  unfold labelsOfDocument?
  rw [table, Option.bind_eq_bind, Option.bind_some, read]
  exact congrArg some (foldl_setSorted (l := []) sorted)

theorem variablesOfDocument?_carried {l : List (String × Variable)}
    (h : Carries a (.record (l.map fun e => (e.1, e.2.toTree)))) (once : (l.map (·.1)).Nodup)
    (proper : ∀ e ∈ l, e.2.Proper) : variablesOfDocument? a = some l := by
  obtain ⟨es, table, read⟩ := h.table (fun x => (Readable.content? x).bind Variable.ofTree?)
    fun e he x carried => by rw [carried.content, Option.bind_some, Variable.ofTree?_toTree (proper e he)]
  unfold variablesOfDocument?
  rw [table, Option.bind_eq_bind, Option.bind_some, read]
  exact congrArg some (foldl_setEntry (l := []) once)

end Reading

/-! ### Templates -/

namespace Template

/-- What is written of a template, field by field. -/
def values (t : Template) : List (Option Tree) :=
  [t.displayName.map .text, some (.nat t.count), some (.text t.executable), t.workingDirectory.map .text,
   some (.bool t.errorsRedirected), some (.list (t.arguments.map .text)),
   some (.record (t.environment.map fun e => (e.1, e.2.toTree)))]

theorem toTree_eq (t : Template) : t.toTree = .record (Field.written fieldList t.values) := by
  unfold toTree values
  cases t.displayName <;> cases t.workingDirectory <;> rfl

theorem given_values (t : Template) : Field.Given fieldList t.values := by
  unfold Field.Given fieldList values
  simp

/-- **Templates.** A template is read from a document that carries it. -/
theorem ofDocument?_carried {α : Type} [Readable α] {a : α} {t : Template} (proper : t.Proper)
    (h : Carries a t.toTree) : Template.ofDocument? a = some t := by
  rw [toTree_eq] at h
  obtain ⟨as, record, each⟩ := h.parts (by decide) t.given_values
  unfold values at each
  obtain _ | ⟨carriedName, _ | ⟨⟨carriedCount⟩, _ | ⟨⟨carriedExecutable⟩, _ | ⟨carriedDirectory, _ |
    ⟨⟨carriedRedirected⟩, _ | ⟨⟨carriedArguments⟩, _ | ⟨⟨carriedEnvironment⟩, _ | _⟩⟩⟩⟩⟩⟩⟩ := each
  have readName : readOptional Readable.text? _ = some t.displayName :=
    readOptional_carried carriedName (fun _ => Tree.noConfusion) fun _ _ _ carried => carried.text?
  have readDirectory : readOptional Readable.text? _ = some t.workingDirectory :=
    readOptional_carried carriedDirectory (fun _ => Tree.noConfusion) fun _ _ _ carried => carried.text?
  unfold Template.ofDocument?
  simp only [record, Option.bind_eq_bind, Option.bind_some, readDefaulted, readName, readDirectory,
    carriedCount.nat? proper.count, carriedExecutable.text?, carriedRedirected.bool?,
    textsOfDocument?_carried carriedArguments,
    variablesOfDocument?_carried carriedEnvironment proper.once proper.values]

theorem carries_toTree (t : Template) : Carries t.toTree t.toTree := by
  rw [toTree_eq]
  refine Tree.carries_written fun x hx => ?_
  unfold values at hx
  simp only [List.mem_cons, List.not_mem_nil, or_false, Option.some.injEq] at hx
  rcases hx with hx | rfl | rfl | hx | rfl | rfl | rfl
  · obtain ⟨s, -, rfl⟩ := Option.map_eq_some_iff.mp hx.symm
    exact Tree.carries_text s
  · exact Tree.carries_int _
  · exact Tree.carries_text _
  · obtain ⟨s, -, rfl⟩ := Option.map_eq_some_iff.mp hx.symm
    exact Tree.carries_text s
  · exact Tree.carries_bool _
  · refine Tree.carries_list fun x hx => ?_
    obtain ⟨s, -, rfl⟩ := List.mem_map.mp hx
    exact Tree.carries_text s
  · refine Tree.carries_record fun e he => ?_
    obtain ⟨v, -, rfl⟩ := List.mem_map.mp he
    exact v.2.carries_toTree

end Template

/-! ### Manifests -/

namespace Manifest

/-- The fields of a manifest. -/
abbrev fieldList : List Field :=
  [⟨"apiVersion", .required⟩, ⟨"kind", .required⟩, ⟨"metadata", .required⟩, ⟨"spec", .required⟩]

/-- The fields of a manifest's envelope. -/
abbrev metadataFields : List Field := [⟨"name", .required⟩, ⟨"labels", .defaulted⟩]

/-- The fields of a manifest's timing and members. -/
abbrev specFields : List Field :=
  [⟨"timeout", .defaulted⟩, ⟨"pollInterval", .defaulted⟩, ⟨"parallelism", .defaulted⟩, ⟨"members", .defaulted⟩]

/-- What is written of a manifest's envelope, field by field. -/
def metadataValues (m : Manifest) : List (Option Tree) := [some (.text m.name), m.labels.map labelsTree]

/-- What is written of a manifest's timing and members, field by field. -/
def specValues (m : Manifest) : List (Option Tree) :=
  [m.timeout.map fun d => .text d.words, m.pollInterval.map fun d => .text d.words, m.parallelism.map .nat,
   some (.list (m.members.map Template.toTree))]

theorem toTree_eq (m : Manifest) : m.toTree =
    .record (Field.written fieldList
      [some (.text m.apiVersion), some (.text m.kind),
       some (.record (Field.written metadataFields m.metadataValues)),
       some (.record (Field.written specFields m.specValues))]) := by
  unfold toTree metadataValues specValues
  cases m.labels <;> cases m.timeout <;> cases m.pollInterval <;> cases m.parallelism <;> rfl

/-- **Documents.** A manifest is read from every document that carries it. -/
theorem ofDocument?_carried {α : Type} [Readable α] {a : α} {m : Manifest} (proper : m.Proper)
    (h : Carries a m.toTree) : Manifest.ofDocument? a = some m := by
  rw [toTree_eq] at h
  obtain ⟨as, record, each⟩ := h.parts (by decide) (by simp [Field.Given])
  obtain _ | ⟨⟨carriedVersion⟩, _ | ⟨⟨carriedKind⟩, _ | ⟨⟨carriedMetadata⟩, _ | ⟨⟨carriedSpec⟩, _ | _⟩⟩⟩⟩ := each
  obtain ⟨as, recordMetadata, each⟩ :=
    carriedMetadata.parts (by decide) (by simp [Field.Given, metadataValues])
  unfold metadataValues at each
  obtain _ | ⟨⟨carriedName⟩, _ | ⟨carriedLabels, _ | _⟩⟩ := each
  obtain ⟨as, recordSpec, each⟩ := carriedSpec.parts (by decide) (by simp [Field.Given, specValues])
  unfold specValues at each
  obtain _ | ⟨carriedTimeout, _ | ⟨carriedPollInterval, _ | ⟨carriedParallelism, _ |
    ⟨⟨carriedMembers⟩, _ | _⟩⟩⟩⟩ := each
  have readLabels : readOptional labelsOfDocument? _ = some m.labels :=
    readOptional_carried carriedLabels (fun _ => Tree.noConfusion) fun l hl _ carried =>
      labelsOfDocument?_carried carried (proper.labels l hl)
  have readTimeout : readOptional Duration.ofDocument? _ = some m.timeout :=
    readOptional_carried carriedTimeout (fun _ => Tree.noConfusion) fun d hd _ carried =>
      Duration.ofDocument?_carried carried (proper.timeout d hd)
  have readPollInterval : readOptional Duration.ofDocument? _ = some m.pollInterval :=
    readOptional_carried carriedPollInterval (fun _ => Tree.noConfusion) fun d hd _ carried =>
      Duration.ofDocument?_carried carried (proper.pollInterval d hd)
  have readParallelism : readOptional positiveOfDocument? _ = some m.parallelism :=
    readOptional_carried carriedParallelism (fun _ => Tree.noConfusion) fun n hn _ carried =>
      positiveOfDocument?_carried carried (proper.parallelism n hn).1 (proper.parallelism n hn).2
  have readMembers : templatesOfDocument? _ = some m.members :=
    carriedMembers.items fun t ht _ carried => Template.ofDocument?_carried (proper.members t ht) carried
  unfold Manifest.ofDocument?
  simp only [record, recordMetadata, recordSpec, Option.bind_eq_bind, Option.bind_some, readDefaulted,
    carriedVersion.text?, carriedKind.text?, carriedName.text?, readLabels, readTimeout, readPollInterval,
    readParallelism, readMembers]

theorem carries_toTree (m : Manifest) : Carries m.toTree m.toTree := by
  have metadata : Carries (Tree.record (Field.written metadataFields m.metadataValues))
      (.record (Field.written metadataFields m.metadataValues)) := by
    refine Tree.carries_written fun x hx => ?_
    simp only [metadataValues, List.mem_cons, List.not_mem_nil, or_false, Option.some.injEq] at hx
    rcases hx with rfl | hx
    · exact Tree.carries_text _
    · obtain ⟨l, -, rfl⟩ := Option.map_eq_some_iff.mp hx.symm
      refine Tree.carries_record fun e he => ?_
      obtain ⟨s, -, rfl⟩ := List.mem_map.mp he
      exact Tree.carries_text _
  have spec : Carries (Tree.record (Field.written specFields m.specValues))
      (.record (Field.written specFields m.specValues)) := by
    refine Tree.carries_written fun x hx => ?_
    simp only [specValues, List.mem_cons, List.not_mem_nil, or_false, Option.some.injEq] at hx
    rcases hx with hx | hx | hx | rfl
    · obtain ⟨d, -, rfl⟩ := Option.map_eq_some_iff.mp hx.symm
      exact Tree.carries_text _
    · obtain ⟨d, -, rfl⟩ := Option.map_eq_some_iff.mp hx.symm
      exact Tree.carries_text _
    · obtain ⟨n, -, rfl⟩ := Option.map_eq_some_iff.mp hx.symm
      exact Tree.carries_int _
    · refine Tree.carries_list fun x hx => ?_
      obtain ⟨t, -, rfl⟩ := List.mem_map.mp hx
      exact t.carries_toTree
  rw [toTree_eq]
  refine Tree.carries_written fun x hx => ?_
  simp only [List.mem_cons, List.not_mem_nil, or_false, Option.some.injEq] at hx
  rcases hx with rfl | rfl | rfl | rfl
  · exact Tree.carries_text _
  · exact Tree.carries_text _
  · exact metadata
  · exact spec

/-- **Manifests.** A manifest is read back as it was written, from the value tree that was written and from
every document that carries it; so validation finds the same in both. -/
theorem ofDocument?_toTree (m : Manifest) (proper : m.Proper) :
    Manifest.ofDocument? m.toTree = some m ∧
    (∀ {α : Type} [Readable α] {a : α}, Carries a m.toTree → Manifest.ofDocument? a = some m) ∧
    (Manifest.ofDocument? m.toTree).map validated = some m.validated := by
  have read := ofDocument?_carried proper m.carries_toTree
  exact ⟨read, fun carried => ofDocument?_carried proper carried, by rw [read, Option.map_some]⟩

/-- A manifest with something in every place. -/
def sample : Manifest where
  apiVersion := manifestVersion
  kind := manifestKind
  name := "cluster"
  labels := some [("stage", "test"), ("tier", "1")]
  timeout := some (.ofMillis 90500)
  pollInterval := some ⟨1⟩
  parallelism := some 4
  members :=
    [{ executable := "proxy" },
     { displayName := some "storage"
       count := 3
       executable := "java"
       workingDirectory := some "/opt/app"
       errorsRedirected := true
       arguments := ["-server", ""]
       environment :=
        [("ROLE", .fixed (.text "true")), ("HEAP", .fixed (.integer (-512))), ("LOAD", .fixed (.float 0.5)),
         ("DEBUG", .fixed (.boolean false)), ("PORT", .counter 9000), ("ZONE", .cycle [.text "a", .integer 1]),
         ("SEED", .sequence [.float 1, .boolean true])] }]

theorem sample_proper : sample.Proper where
  labels l hl := by
    cases hl
    decide
  timeout d hd := by
    cases hd
    decide
  pollInterval d hd := by
    cases hd
    decide
  parallelism n hn := by
    cases hn
    decide
  members t ht := by
    simp only [sample, List.mem_cons, List.not_mem_nil, or_false] at ht
    rcases ht with rfl | rfl
    · exact ⟨by decide, by decide, by decide⟩
    · exact ⟨by decide, by decide, by decide⟩

/-- A manifest with something in every place is read back. -/
theorem ofDocument?_toTree_sample : Manifest.ofDocument? sample.toTree = some sample ∧
    (Manifest.ofDocument? sample.toTree).map validated = some sample.validated := by
  obtain ⟨read, -, validated⟩ := ofDocument?_toTree sample sample_proper
  exact ⟨read, validated⟩

/-- From its text, a manifest is read back and validated, as far as the text carries what was written. -/
theorem ofYaml?_toYaml {m : Manifest} (proper : m.Proper) {d : Yaml.Document}
    (read : Yaml.Document.ofText? m.toYaml = some d) (carried : Carries (Yaml.Place.root d) m.toTree) :
    ofYaml? m.toYaml = m.validated.mapError .invalid := by
  unfold ofYaml?
  rw [read, Option.bind_some, ofDocument?_carried proper carried]

end Manifest

end Muster
