import Mathlib.Logic.Function.Basic
import Muster.Config.Standard
import Muster.Proofs.Config.Listing

/-!
# Registries side by side

* `Registries`: a registry at every place, and how many defaults of each type were made for them.
* `Registries.Act`: what may be done with them. Reading is among it, for it leaves defaults behind.
* `Registries.after`, `Listings.after`: where acts lead, for registries and for listings.
* `Registry.Reads`: a registry is tidy, and answers as a listing says.
* **`Registries.after_listed`**: after any acts every registry reads like its listing; appending is
  associative and has the empty registry as its neutral element; and a registry changes only by what is
  done at its own place, whatever becomes of its copies.
-/

namespace Muster

open Std

/-- A registry at every place, and how many defaults of each type were made for them. -/
structure Registries (F : OptionFamily) where
  /-- The registry at each place. -/
  held : Nat → Registry F := fun _ => ∅
  /-- How many defaults of each type were made. -/
  made : F.Ty → Nat := fun _ => 0

namespace Registries

variable {F : OptionFamily}

/-- What may be done with registries at places. -/
inductive Act (F : OptionFamily) where
  /-- An empty registry comes to the place. -/
  | start (i : Nat)
  /-- A copy of the registry at `j` comes to the place. -/
  | copy (i j : Nat)
  /-- A value is added. -/
  | add (i : Nat) (v : F.Value)
  /-- A value is added unless one that agrees with it is there. -/
  | addIfAbsent (i : Nat) (v : F.Value)
  /-- The values that agree with one are removed. -/
  | remove (i : Nat) (v : F.Value)
  /-- The kind of a type is cleared. -/
  | clear (i : Nat) (t : F.Ty)
  /-- The values of the registry at `j` are appended. -/
  | merge (i j : Nat)
  /-- The last value of a type is asked for. -/
  | get (i : Nat) (t : F.Ty)
  /-- Every value of a type is asked for. -/
  | getAll (i : Nat) (t : F.Ty)

/-- The place at which something is done. -/
def Act.place : Act F → Nat
  | start i | copy i _ | add i _ | addIfAbsent i _ | remove i _ | clear i _ | merge i _ | get i _
  | getAll i _ => i

/-- Puts a registry at a place. -/
def put (s : Registries F) (i : Nat) (r : Registry F) : Registries F :=
  { s with held := Function.update s.held i r }

/-- Keeps the registry with which a question leaves its asker, and counts the default that was made. -/
def keep {α : Type} (s : Registries F) (i : Nat) (t : F.Ty) (a : Registry.Answer F α) : Registries F :=
  { held := Function.update s.held i a.registry
    made := if a.made then Function.update s.made t (s.made t + 1) else s.made }

@[simp] theorem held_put (s : Registries F) (i : Nat) (r : Registry F) : (s.put i r).held i = r := by
  simp [put]

@[simp] theorem held_keep {α : Type} (s : Registries F) (i : Nat) (t : F.Ty) (answer : Registry.Answer F α) :
    (s.keep i t answer).held i = answer.registry := by
  simp [keep]

/-- Does something with registries. -/
def act (s : Registries F) : Act F → Registries F
  | .start i => s.put i ∅
  | .copy i j => s.put i (s.held j).copy
  | .add i v => s.put i ((s.held i).add v)
  | .addIfAbsent i v => s.put i ((s.held i).addIfAbsent v)
  | .remove i v => s.put i ((s.held i).remove v)
  | .clear i t => s.put i ((s.held i).clear t)
  | .merge i j => s.put i ((s.held i).merge (s.held j))
  | .get i t => s.keep i t ((s.held i).get t (s.made t))
  | .getAll i t => s.keep i t ((s.held i).getAll t (s.made t))

/-- Where acts lead, one after another. -/
def after (acts : List (Act F)) : Registries F := acts.foldl act {}

end Registries

namespace Listings

variable {F : OptionFamily}

/-- Does with listings what an act does with registries. -/
def act (s : Nat → Listing F) : Registries.Act F → Nat → Listing F
  | .start i => Function.update s i []
  | .copy i j => Function.update s i (s j)
  | .add i v => Function.update s i ((s i).add v)
  | .addIfAbsent i v => Function.update s i ((s i).addIfAbsent v)
  | .remove i v => Function.update s i ((s i).remove v)
  | .clear i t => Function.update s i ((s i).clear t)
  | .merge i j => Function.update s i ((s i).merge (s j))
  | .get _ _ | .getAll _ _ => s

/-- Where acts lead, one after another. -/
def after (acts : List (Registries.Act F)) : Nat → Listing F := acts.foldl act fun _ => []

end Listings

namespace Registry

variable {F : OptionFamily} {r : Registry F}

/-! ### Reading -/

/-- Defaults that were made are kept beside the values. -/
theorem Tidy.withDefaults (h : r.Tidy) (d : HashMap F.Kind (Option F.Value)) :
    { r with defaults := d }.Tidy :=
  ⟨h.once, h.keys, h.filled, h.own⟩

theorem registry_default (r : Registry F) (t : F.Ty) (calls : Nat) :
    ∃ d, (r.default t calls).registry = { r with defaults := d } := by
  unfold default
  dsimp only
  split
  · exact ⟨r.defaults, rfl⟩
  · exact ⟨_, rfl⟩

theorem registry_get (r : Registry F) (t : F.Ty) (calls : Nat) :
    ∃ d, (r.get t calls).registry = { r with defaults := d } := by
  unfold get
  split
  · exact ⟨r.defaults, rfl⟩
  · exact registry_default r t calls

theorem registry_getAll (r : Registry F) (t : F.Ty) (calls : Nat) :
    ∃ d, (r.getAll t calls).registry = { r with defaults := d } := by
  unfold getAll
  split
  · exact registry_default r t calls
  · exact ⟨r.defaults, rfl⟩

/-- A registry is tidy, and answers as a listing says. -/
structure Reads (r : Registry F) (l : Listing F) : Prop where
  /-- The order and the map hold the same kinds, each once and with values of its own. -/
  tidy : r.Tidy
  /-- Kinds and values are those of the listing, in its order. -/
  entries : r.toList = l
  /-- The size is the number of values in the map, -/
  sum : r.size = (r.values.toList.map fun e => e.2.length).sum
  /-- which is the number of values in the listing. -/
  size : r.size = l.values.length
  /-- A registry without values is empty, -/
  empty : r.size = 0 ↔ r.isEmpty = true
  /-- and a registry without kinds. -/
  kinds : r.isEmpty = true ↔ r.kinds = []
  /-- A type is there when its kind is. -/
  contains : ∀ t, r.contains t = true ↔ F.kindOf t ∈ r.kinds
  /-- Something is removed when the listing holds something that agrees, -/
  removes : ∀ v, r.removes v = l.holds v
  /-- and then there is less afterwards. -/
  fewer : ∀ v, r.removes v = true ↔ (r.remove v).size < r.size

theorem Tidy.reads (h : r.Tidy) : r.Reads r.toList where
  tidy := h
  entries := rfl
  sum := h.size_eq_sum
  size := (Listing.length_values r.toList).symm
  empty := h.size_eq_zero_iff.trans h.isEmpty_iff.symm
  kinds := h.isEmpty_iff
  contains := h.contains_iff
  removes v := (h.holds_toList v).symm
  fewer := h.removes_iff

end Registry

namespace Registries

variable {F : OptionFamily} {s : Registries F} {l : Nat → Listing F}

/-- Every registry is tidy and shows its listing. -/
def Listed (s : Registries F) (l : Nat → Listing F) : Prop :=
  ∀ i, (s.held i).Tidy ∧ (s.held i).toList = l i

theorem Listed.start : Listed ({} : Registries F) fun _ => [] := fun _ => ⟨Registry.tidy_empty, rfl⟩

theorem Listed.put (h : s.Listed l) (i : Nat) {r : Registry F} {m : Listing F} (tidy : r.Tidy)
    (shows : r.toList = m) : (s.put i r).Listed (Function.update l i m) := by
  intro j
  unfold Registries.put
  by_cases same : j = i
  · subst same
    simp only [Function.update_self]
    exact ⟨tidy, shows⟩
  · simp only [Function.update_of_ne same]
    exact h j

/-- A question leaves every registry as it reads. -/
theorem Listed.keep {α : Type} (h : s.Listed l) (i : Nat) (t : F.Ty) {a : Registry.Answer F α}
    (same : ∃ d, a.registry = { s.held i with defaults := d }) : (s.keep i t a).Listed l := by
  obtain ⟨d, same⟩ := same
  have put := h.put i ((h i).1.withDefaults d) (h i).2
  rw [Function.update_eq_self, ← same] at put
  exact put

/-- What is done with registries is done with their listings. -/
theorem Listed.act (h : s.Listed l) (a : Act F) : (s.act a).Listed (Listings.act l a) := by
  have shows (i : Nat) : (s.held i).toList = l i := (h i).2
  have tidy (i : Nat) : (s.held i).Tidy := (h i).1
  cases a with
  | start i => exact h.put i Registry.tidy_empty rfl
  | copy i j => exact h.put i ((tidy j).withDefaults ∅) (shows j)
  | add i v => exact h.put i ((tidy i).add v) (shows i ▸ (tidy i).toList_add v)
  | addIfAbsent i v => exact h.put i ((tidy i).addIfAbsent v) (shows i ▸ (tidy i).toList_addIfAbsent v)
  | remove i v => exact h.put i ((tidy i).remove v) (shows i ▸ (tidy i).toList_remove v)
  | clear i t => exact h.put i ((tidy i).close _) (shows i ▸ Registry.Tidy.toList_clear (s.held i) t)
  | merge i j =>
    exact h.put i ((tidy i).merge (tidy j)) (shows i ▸ shows j ▸ (tidy i).toList_merge (tidy j))
  | get i t => exact h.keep i t (Registry.registry_get (s.held i) t _)
  | getAll i t => exact h.keep i t (Registry.registry_getAll (s.held i) t _)

theorem Listed.foldl_act (h : s.Listed l) (acts : List (Act F)) :
    (acts.foldl Registries.act s).Listed (acts.foldl Listings.act l) := by
  induction acts generalizing s l with
  | nil => exact h
  | cons a acts ih => exact ih (h.act a)

theorem listed_after (acts : List (Act F)) : (after acts).Listed (Listings.after acts) :=
  Listed.start.foldl_act acts

/-- An act changes nothing but the registry at its place. -/
theorem held_act_of_ne {a : Act F} {i : Nat} (elsewhere : a.place ≠ i) (s : Registries F) :
    (s.act a).held i = s.held i := by
  cases a <;> exact Function.update_of_ne (Ne.symm elsewhere) _ _

theorem held_foldl_act {i : Nat} {later : List (Act F)} (elsewhere : ∀ a ∈ later, a.place ≠ i)
    (s : Registries F) : (later.foldl act s).held i = s.held i := by
  induction later generalizing s with
  | nil => rfl
  | cons a later ih =>
    rw [List.foldl_cons, ih fun b hb => elsewhere b (List.mem_cons_of_mem a hb)]
    exact held_act_of_ne (elsewhere a List.mem_cons_self) s

/-- **Registries read like listings.** Whatever was done, every registry is tidy and answers as the listing
says with which the same was done. Appending is associative, and appending nothing, or appending to
nothing, changes nothing. Later acts at other places, those of copies among them, leave a registry alone. -/
theorem after_listed (acts : List (Act F)) :
    (∀ i, ((after acts).held i).Reads (Listings.after acts i)) ∧
    (∀ i j k, ((((after acts).held i).merge ((after acts).held j)).merge ((after acts).held k)).toList =
      (((after acts).held i).merge (((after acts).held j).merge ((after acts).held k))).toList) ∧
    (∀ i, ((after acts).held i).merge ∅ = (after acts).held i ∧
      ((∅ : Registry F).merge ((after acts).held i)).toList = ((after acts).held i).toList) ∧
    ∀ (i : Nat) (later : List (Act F)), (∀ a ∈ later, a.place ≠ i) →
      (after (acts ++ later)).held i = (after acts).held i := by
  have tidy (i : Nat) : ((after acts).held i).Tidy := (listed_after acts i).1
  refine ⟨fun i => ?_, fun i j k => (tidy i).merge_assoc (tidy j) (tidy k),
    fun i => ⟨rfl, (tidy i).empty_merge⟩, fun i later elsewhere => ?_⟩
  · rw [← (listed_after acts i).2]
    exact (tidy i).reads
  · unfold after
    rw [List.foldl_append]
    exact held_foldl_act elsewhere _

/-- A label, and what is done with a copy of it. -/
theorem after_listed_copied :
    let acts : List (Act standardOptions) := [.add 0 (.label "a"), .copy 1 0]
    let later : List (Act standardOptions) := [.add 1 (.clash 3), .remove 1 (.label "a")]
    (∀ a ∈ later, a.place ≠ 0) ∧
    ((after (acts ++ later)).held 0).toList = [("label", [.label "a"])] ∧
    ((after (acts ++ later)).held 1).toList = [("label", [.clash 3])] := by
  intro acts later
  have elsewhere : ∀ a ∈ later, a.place ≠ 0 := by decide
  refine ⟨elsewhere, ?_, ?_⟩
  · rw [(after_listed acts).2.2.2 0 later elsewhere, ((after_listed acts).1 0).entries]
    rfl
  · rw [((after_listed (acts ++ later)).1 1).entries]
    rfl

end Registries

end Muster
