import Muster.Proofs.Manifest.Codec
import Muster.Proofs.Manifest.Planned
import Muster.Proofs.Source.Overlay

/-!
# Variables that a document declares

* `Template.Declares`, `Manifest.Declares`: a document has a value tree for a name in one of its templates.
* `Manifest.Declares.read`: a manifest that is read from the document has the variable that is read of the tree,
  and no name twice (`Manifest.once_of_ofDocument?`).
* `Source.drawAt`: the value that a source gives to the draw at a place.
* **`Manifest.draws_declared`**: the source of the name, in the draft of the manifest, gives the values of this
  variable.
-/

namespace Muster

/-! ### Names -/

section Names

variable {β : Type} {name : String} {b : β} {l ps before after : List (String × β)}

theorem map_fst_setEntry (there : name ∈ l.map (·.1)) : (setEntry name b l).map (·.1) = l.map (·.1) := by
  induction l with
  | nil => cases there
  | cons e l ih =>
    unfold setEntry
    split
    · rename_i same
      rw [List.map_cons, List.map_cons, same]
    · rename_i differ
      have later := (List.mem_cons.mp there).resolve_left (Ne.symm differ)
      rw [List.map_cons, List.map_cons, ih later]

theorem mem_setEntry (name : String) (b : β) (l : List (String × β)) : (name, b) ∈ setEntry name b l := by
  induction l with
  | nil => exact List.mem_singleton_self _
  | cons e l ih =>
    unfold setEntry
    split
    · exact List.mem_cons_self
    · exact List.mem_cons_of_mem e ih

/-- The value of another name stays. -/
theorem mem_setEntry_of_ne {e : String × β} (he : e ∈ l) (differ : e.1 ≠ name) : e ∈ setEntry name b l := by
  induction l with
  | nil => cases he
  | cons e' l ih =>
    unfold setEntry
    split
    · rename_i same
      have later : e ∈ l := (List.mem_cons.mp he).resolve_left fun first => differ (first ▸ same)
      exact List.mem_cons_of_mem _ later
    · rcases List.mem_cons.mp he with rfl | later
      · exact List.mem_cons_self
      · exact List.mem_cons_of_mem _ (ih later)

/-- No name is there twice after any number of entries, -/
theorem nodup_foldl_setEntry (once : (l.map (·.1)).Nodup) :
    ((ps.foldl (fun l p => setEntry p.1 p.2 l) l).map (·.1)).Nodup := by
  induction ps generalizing l with
  | nil => exact once
  | cons p ps ih =>
    refine ih ?_
    show ((setEntry p.1 p.2 l).map (·.1)).Nodup
    by_cases there : p.1 ∈ l.map (·.1)
    · rw [map_fst_setEntry there]
      exact once
    · rw [setEntry_of_not_mem there, List.map_append, List.nodup_append]
      refine ⟨once, List.nodup_singleton _, fun n hn m hm same => there ?_⟩
      rw [List.map_singleton, List.mem_singleton] at hm
      exact hm ▸ same ▸ hn

theorem mem_foldl_setEntry {e : String × β} (he : e ∈ l) (last : e.1 ∉ ps.map (·.1)) :
    e ∈ ps.foldl (fun l p => setEntry p.1 p.2 l) l := by
  induction ps generalizing l with
  | nil => exact he
  | cons p ps ih =>
    rw [List.map_cons, List.mem_cons, not_or] at last
    exact ih (mem_setEntry_of_ne he last.1) last.2

/-- and a name has the value of its last entry. -/
theorem mem_foldl_setEntry_last (last : name ∉ after.map (·.1)) :
    (name, b) ∈ (before ++ (name, b) :: after).foldl (fun l p => setEntry p.1 p.2 l) l := by
  rw [List.foldl_append, List.foldl_cons]
  exact mem_foldl_setEntry (mem_setEntry name b _) last

end Names

/-! ### Documents -/

section Documents

variable {α : Type} [Readable α] {a : α} {name : String} {w : Tree}

/-- A document of a template has a value tree for the name of a variable: that of the last entry of the name. -/
def Template.Declares (a : α) (name : String) (w : Tree) : Prop :=
  ∃ fields environment before entry after,
    Readable.record? Template.fieldList a = some fields ∧ fields[6]? = some (some environment) ∧
      Readable.table? environment = some (before ++ (name, entry) :: after) ∧ name ∉ after.map (·.1) ∧
      Readable.content? entry = some w

/-- A document of a manifest has a value tree for the name of a variable in the template at a place. -/
def Manifest.Declares (a : α) (k : Nat) (name : String) (w : Tree) : Prop :=
  ∃ fields spec parts members templates template,
    Readable.record? Manifest.fieldList a = some fields ∧ fields[3]? = some (some spec) ∧
      Readable.record? Manifest.specFields spec = some parts ∧ parts[3]? = some (some members) ∧
      Readable.list? members = some templates ∧ templates[k]? = some template ∧
      Template.Declares template name w

/-- What the environment of a template is read of. -/
theorem Template.environment_of_ofDocument? {t : Template} (h : Template.ofDocument? a = some t) :
    ∃ fields environment, Readable.record? fieldList a = some fields ∧ fields[6]? = some environment ∧
      readDefaulted [] variablesOfDocument? environment = some t.environment := by
  unfold Template.ofDocument? at h
  obtain ⟨fields, record, h⟩ := Option.bind_eq_some_iff.mp h
  split at h
  · rename_i environment
    refine ⟨_, environment, record, rfl, ?_⟩
    obtain ⟨name, -, h⟩ := Option.bind_eq_some_iff.mp h
    obtain ⟨count, -, h⟩ := Option.bind_eq_some_iff.mp h
    obtain ⟨executable, -, h⟩ := Option.bind_eq_some_iff.mp h
    obtain ⟨directory, -, h⟩ := Option.bind_eq_some_iff.mp h
    obtain ⟨redirected, -, h⟩ := Option.bind_eq_some_iff.mp h
    obtain ⟨arguments, -, h⟩ := Option.bind_eq_some_iff.mp h
    obtain ⟨made, read, h⟩ := Option.bind_eq_some_iff.mp h
    cases h
    exact read
  · cases h

/-- What the templates of a manifest are read of. -/
theorem Manifest.members_of_ofDocument? {m : Manifest} (h : Manifest.ofDocument? a = some m) :
    ∃ fields spec parts members, Readable.record? fieldList a = some fields ∧ fields[3]? = some (some spec) ∧
      Readable.record? specFields spec = some parts ∧ parts[3]? = some members ∧
      readDefaulted [] templatesOfDocument? members = some m.members := by
  unfold Manifest.ofDocument? at h
  obtain ⟨fields, record, h⟩ := Option.bind_eq_some_iff.mp h
  split at h
  · rename_i spec
    obtain ⟨metadata, -, h⟩ := Option.bind_eq_some_iff.mp h
    obtain ⟨parts, recordSpec, h⟩ := Option.bind_eq_some_iff.mp h
    split at h
    · rename_i members _
      refine ⟨_, spec, _, members, record, rfl, recordSpec, rfl, ?_⟩
      obtain ⟨version, -, h⟩ := Option.bind_eq_some_iff.mp h
      obtain ⟨kind, -, h⟩ := Option.bind_eq_some_iff.mp h
      obtain ⟨name, -, h⟩ := Option.bind_eq_some_iff.mp h
      obtain ⟨labels, -, h⟩ := Option.bind_eq_some_iff.mp h
      obtain ⟨timeout, -, h⟩ := Option.bind_eq_some_iff.mp h
      obtain ⟨pollInterval, -, h⟩ := Option.bind_eq_some_iff.mp h
      obtain ⟨parallelism, -, h⟩ := Option.bind_eq_some_iff.mp h
      obtain ⟨made, read, h⟩ := Option.bind_eq_some_iff.mp h
      cases h
      exact read
    · cases h
  · cases h

/-- No name is there twice in a template that is read from a document. -/
theorem Template.once_of_ofDocument? {t : Template} (h : Template.ofDocument? a = some t) :
    (t.environment.map (·.1)).Nodup := by
  obtain ⟨fields, environment, -, -, read⟩ := environment_of_ofDocument? h
  cases environment with
  | none =>
    rw [show t.environment = [] from (Option.some.inj read).symm]
    exact .nil
  | some environment =>
    obtain ⟨entries, -, read⟩ := Option.bind_eq_some_iff.mp (show variablesOfDocument? environment = _ from read)
    obtain ⟨pairs, -, read⟩ := Option.bind_eq_some_iff.mp read
    rw [← Option.some.inj read]
    exact nodup_foldl_setEntry .nil

theorem Manifest.once_of_ofDocument? {m : Manifest} (h : Manifest.ofDocument? a = some m) :
    ∀ t ∈ m.members, (t.environment.map (·.1)).Nodup := by
  obtain ⟨-, -, -, members, -, -, -, -, read⟩ := members_of_ofDocument? h
  intro t ht
  cases members with
  | none =>
    rw [show m.members = [] from (Option.some.inj read).symm] at ht
    cases ht
  | some members =>
    obtain ⟨templates, -, read⟩ := Option.bind_eq_some_iff.mp (show templatesOfDocument? members = _ from read)
    have there : some t ∈ m.members.map some := List.mem_map_of_mem ht
    rw [← mapM_eq_some.mp read] at there
    obtain ⟨a, -, read⟩ := List.mem_map.mp there
    exact Template.once_of_ofDocument? read

/-- The variable that is read of a declared tree is in the template, -/
theorem Template.Declares.read {t : Template} (declares : Template.Declares a name w)
    (h : Template.ofDocument? a = some t) :
    ∃ v, (name, v) ∈ t.environment ∧ Variable.ofTree? w = some v := by
  obtain ⟨fields, environment, before, entry, after, record, field, table, last, content⟩ := declares
  obtain ⟨fields', environment', record', field', read⟩ := environment_of_ofDocument? h
  cases record.symm.trans record'
  cases field.symm.trans field'
  obtain ⟨entries, table', read⟩ := Option.bind_eq_some_iff.mp (show variablesOfDocument? environment = _ from read)
  cases table.symm.trans table'
  obtain ⟨pairs, each, read⟩ := Option.bind_eq_some_iff.mp read
  have each := (mapM_eq_some.mp each).symm
  rw [List.map_append, List.map_cons] at each
  obtain ⟨front, rest, rfl, frontRead, restRead⟩ := List.map_eq_append_iff.mp each
  obtain ⟨p, back, rfl, pRead, backRead⟩ := List.map_eq_cons_iff.mp restRead
  rw [content, Option.bind_some] at pRead
  obtain ⟨v, tree, same⟩ := Option.map_eq_some_iff.mp pRead.symm
  cases same
  refine ⟨v, ?_, tree⟩
  rw [← Option.some.inj read]
  refine mem_foldl_setEntry_last fun later => last ?_
  obtain ⟨q, hq, named⟩ := List.mem_map.mp later
  have there : some q ∈ back.map some := List.mem_map_of_mem hq
  rw [backRead] at there
  obtain ⟨e, he, eRead⟩ := List.mem_map.mp there
  obtain ⟨u, -, same⟩ := Option.map_eq_some_iff.mp eRead
  exact List.mem_map.mpr ⟨e, he, (congrArg Prod.fst same).trans named⟩

/-- so that it is in the manifest. -/
theorem Manifest.Declares.read {m : Manifest} {k : Nat} (declares : Manifest.Declares a k name w)
    (h : Manifest.ofDocument? a = some m) :
    ∃ t v, m.members[k]? = some t ∧ (name, v) ∈ t.environment ∧ Variable.ofTree? w = some v := by
  obtain ⟨fields, spec, parts, members, templates, template, record, field, recordSpec, part, list, at_, declares⟩ :=
    declares
  obtain ⟨fields', spec', parts', members', record', field', recordSpec', part', read⟩ := members_of_ofDocument? h
  cases record.symm.trans record'
  cases field.symm.trans field'
  cases recordSpec.symm.trans recordSpec'
  cases part.symm.trans part'
  obtain ⟨templates', list', read⟩ := Option.bind_eq_some_iff.mp (show templatesOfDocument? members = _ from read)
  cases list.symm.trans list'
  obtain ⟨t, there, made⟩ := getElem?_of_mapM read at_
  obtain ⟨v, mem, tree⟩ := declares.read made
  exact ⟨t, v, there, mem, tree⟩

end Documents

/-! ### Draws -/

/-- What the draw at a place finds, when values are drawn from a source again and again. -/
def Source.drawAt (src : Source) (q : Sequences) : Nat → Option String
  | 0 => (src.draw q).1
  | i + 1 => src.drawAt (src.draw q).2 i

/-- There is no value behind a place without one. -/
theorem Variable.isSome_value?_of_le {v : Variable} {i j : Nat} (le : j ≤ i) (h : (v.value? i).isSome) :
    (v.value? j).isSome := by
  cases v with
  | fixed | counter => rfl
  | sequence vs =>
    have value (k : Nat) : ((sequence vs).value? k).isSome ↔ k < vs.length := by simp [value?]
    exact (value j).mpr (Nat.lt_of_le_of_lt le ((value i).mp h))
  | cycle vs =>
    have value (k : Nat) : ((cycle vs).value? k).isSome ↔ k % vs.length < vs.length := by simp [value?]
    exact (value j).mpr (Nat.mod_lt _ (Nat.zero_lt_of_lt ((value i).mp h)))

/-- A source that serves a variable gives its values one after the other. -/
theorem Source.Serves.drawAt {src : Source} {q : Sequences} {k : Nat} {v : Variable} (serves : src.Serves q k v)
    (i : Nat) (some_ : (v.value? (k + i)).isSome) : src.drawAt q i = v.value? (k + i) := by
  induction i generalizing q k with
  | zero => exact serves.draw.1
  | succ i ih =>
    rw [← Nat.add_assoc, Nat.add_right_comm] at some_ ⊢
    exact ih (serves.draw.2 (Variable.isSome_value?_of_le (Nat.le_trans (Nat.le_succ k) (Nat.le_add_right _ i)) some_))
      some_

theorem Generator.Serve.source? {q : Sequences} {i : Nat} {es : List (String × Source)}
    {vs : List (String × Variable)} (serve : Serve q i es vs) (once : (vs.map (·.1)).Nodup) {name : String}
    {v : Variable} (there : (name, v) ∈ vs) :
    ∃ src, Generator.source? ⟨es⟩ name = some src ∧ src.Serves q i v := by
  induction serve with
  | nil => cases there
  | @cons e u es vs head _ ih =>
    rw [List.map_cons, List.nodup_cons] at once
    rw [source?_cons, head.1]
    rcases List.mem_cons.mp there with rfl | later
    · exact ⟨e.2, if_pos rfl, head.2⟩
    · have differ : u.1 ≠ name := fun same => once.1 (same ▸ List.mem_map_of_mem later)
      rw [if_neg differ]
      exact ih once.2 later

/-- **Declared variables.** In the draft of a manifest that is read from a document, the source of a declared name
gives the values of the variable that is read of the tree, draw after draw. -/
theorem Manifest.draws_declared {α : Type} [Readable α] {a : α} {m : Manifest} (read : Manifest.ofDocument? a = some m)
    {k : Nat} {name : String} {w : Tree} (declares : Declares a k name w) (q : Sequences) :
    ∃ g src v, (m.draft q).1.groups[k]? = some g ∧ g.schema.environment.source? name = some src ∧
      Variable.ofTree? w = some v ∧
      ∀ i, (v.value? i).isSome → src.drawAt (m.draft q).2 i = v.value? i := by
  have once := once_of_ofDocument? read
  obtain ⟨t, v, there, mem, tree⟩ := declares.read read
  obtain ⟨length, each⟩ := List.forall₂_iff_get.mp (draft_serves once q).1
  obtain ⟨inside, rfl⟩ := List.getElem?_eq_some_iff.mp there
  have serves := each k (length ▸ inside) inside
  obtain ⟨src, source, serve⟩ := serves.environment.source? (once _ (List.getElem_mem inside)) mem
  rw [Nat.zero_mul] at serve
  refine ⟨_, src, v, List.getElem?_eq_getElem (length ▸ inside), source, tree, fun i some_ => ?_⟩
  have drawn := serve.drawAt i
  rw [Nat.zero_add] at drawn
  exact drawn some_

end Muster
