import Mathlib.Algebra.Ring.Nat
import Mathlib.Data.List.Basic
import Mathlib.Data.List.Nodup
import Muster.Config.Registry

/-!
# Registries as listings

* `Listing`: kinds in order, each with its values, and what may be done with them.
* `Registry.Tidy`: the order of a registry and its map hold the same kinds, each kind once and with a value
  of its own.
* **`Registry.Tidy.toList_add`**, **`toList_remove`**, **`toList_merge`**, …: what may be done with a tidy
  registry leaves it tidy, and does to its listing what the listing's own operation does.
* **`Registry.Tidy.merge_assoc`**: appending registries to each other is associative.
-/

namespace Muster

open Std

/-- Values that agree are of one kind. -/
theorem OptionFamily.kind_eq_of_agrees {F : OptionFamily} {v w : F.Value} (agrees : F.agrees v w = true) :
    F.kindOfValue v = F.kindOfValue w := by
  unfold OptionFamily.agrees at agrees
  rw [Bool.and_eq_true, decide_eq_true_eq] at agrees
  exact congrArg F.kindOf agrees.1

/-- Kinds in order, each with its values. -/
abbrev Listing (F : OptionFamily) := List (F.Kind × List F.Value)

namespace Listing

variable {F : OptionFamily}

/-- The kinds of a listing, in order. -/
def kinds (l : Listing F) : List F.Kind := l.map Prod.fst

/-- The values of a listing, kind by kind. -/
def values (l : Listing F) : List F.Value := l.flatMap Prod.snd

/-- Whether some value of the same type is equal to `v`. -/
def holds (l : Listing F) (v : F.Value) : Bool := l.values.any (F.agrees v)

/-- Appends values to their kind, which is opened at the end if it is not there. -/
def append (l : Listing F) (k : F.Kind) (vs : List F.Value) : Listing F :=
  if k ∈ l.kinds then l.map fun e => if e.1 = k then (e.1, e.2 ++ vs) else e else l ++ [(k, vs)]

/-- Appends a value to its kind. -/
def add (l : Listing F) (v : F.Value) : Listing F := l.append (F.kindOfValue v) [v]

/-- Appends a value to its kind unless one of the same type is equal to it. -/
def addIfAbsent (l : Listing F) (v : F.Value) : Listing F := if l.holds v then l else l.add v

/-- Deletes the values of the same type that are equal to `v`, and closes a kind of which nothing is left. -/
def remove (l : Listing F) (v : F.Value) : Listing F :=
  (l.map fun e => (e.1, e.2.filter fun w => !F.agrees v w)).filter fun e => !e.2.isEmpty

/-- Closes the kind of a type. -/
def clear (l : Listing F) (t : F.Ty) : Listing F := l.filter fun e => e.1 ≠ F.kindOf t

/-- Appends the values of `m` kind by kind, in the order of `m`. -/
def merge (l m : Listing F) : Listing F := m.foldl (fun l e => l.append e.1 e.2) l

/-- Exactly the values of the same type that are equal to `v` are deleted. -/
theorem values_remove (l : Listing F) (v : F.Value) :
    (l.remove v).values = l.values.filter fun w => !F.agrees v w := by
  unfold values remove
  induction l with
  | nil => rfl
  | cons e l ih =>
    rw [List.map_cons, List.filter_cons, List.flatMap_cons, List.filter_append, ← ih]
    cases h : e.2.filter fun w => !F.agrees v w with
    | nil => simp
    | cons w ws => simp

theorem length_values (l : Listing F) : l.values.length = l.foldr (fun e n => e.2.length + n) 0 := by
  induction l with
  | nil => rfl
  | cons e l ih => rw [values, List.flatMap_cons, List.length_append, List.foldr_cons, ← ih, values]

end Listing

namespace Registry

variable {F : OptionFamily} {r s : Registry F} {k : F.Kind} {v : F.Value} {vs : List F.Value}

/-! ### What registries hold -/

theorem ofKind_of_not_mem (h : k ∉ r.values) : r.ofKind k = [] := HashMap.getD_eq_fallback h

theorem getElem?_of_mem (h : k ∈ r.values) : r.values[k]? = some (r.ofKind k) :=
  HashMap.getElem?_eq_some_getD h

theorem ofKind_extend (r : Registry F) (k j : F.Kind) (vs : List F.Value) :
    (r.extend k vs).ofKind j = if k = j then r.ofKind j ++ vs else r.ofKind j := by
  unfold extend ofKind
  rw [HashMap.getD_insert]
  by_cases same : k = j
  · subst same
    simp
  · simp [same]

theorem ofKind_close (r : Registry F) (k j : F.Kind) :
    (r.close k).ofKind j = if k = j then [] else r.ofKind j := by
  unfold close ofKind
  rw [HashMap.getD_erase]
  simp only [beq_iff_eq]

theorem mem_values_extend {j : F.Kind} : j ∈ (r.extend k vs).values ↔ k = j ∨ j ∈ r.values := by
  unfold extend
  rw [HashMap.mem_insert, beq_iff_eq]

theorem mem_values_close {j : F.Kind} : j ∈ (r.close k).values ↔ k ≠ j ∧ j ∈ r.values := by
  unfold close
  rw [HashMap.mem_erase, beq_eq_false_iff_ne]

/-- Replaces the values of a kind that is there. -/
def set (r : Registry F) (k : F.Kind) (vs : List F.Value) : Registry F :=
  { r with values := r.values.insert k vs }

theorem ofKind_set (r : Registry F) (k j : F.Kind) (vs : List F.Value) :
    (r.set k vs).ofKind j = if k = j then vs else r.ofKind j := by
  unfold set ofKind
  rw [HashMap.getD_insert]
  simp only [beq_iff_eq]

theorem mem_values_set {j : F.Kind} : j ∈ (r.set k vs).values ↔ k = j ∨ j ∈ r.values := by
  unfold set
  rw [HashMap.mem_insert, beq_iff_eq]

theorem toList_congr (order : r.order = s.order) (same : ∀ k ∈ s.order, r.ofKind k = s.ofKind k) :
    r.toList = s.toList := by
  unfold toList
  rw [order]
  exact List.map_congr_left fun k hk => by rw [same k hk]

@[simp] theorem kinds_toList (r : Registry F) : Listing.kinds r.toList = r.order := by
  unfold Listing.kinds toList
  rw [List.map_map]
  exact List.map_id _

/-! ### Tidy registries -/

/-- The order of a registry and its map hold the same kinds, each kind once and with values of its own. -/
structure Tidy (r : Registry F) : Prop where
  /-- No kind stands in the order twice. -/
  once : r.order.Nodup
  /-- The kinds in the order are those of the map. -/
  keys : ∀ k, k ∈ r.order ↔ k ∈ r.values
  /-- Every kind of the map has a value. -/
  filled : ∀ k ∈ r.values, r.ofKind k ≠ []
  /-- Values stand under their own kinds. -/
  own : ∀ k, ∀ v ∈ r.ofKind k, F.kindOfValue v = k

theorem tidy_empty : (∅ : Registry F).Tidy where
  once := List.nodup_nil
  keys k := by
    refine ⟨fun h => absurd h List.not_mem_nil, fun h => ?_⟩
    exact absurd h HashMap.not_mem_empty
  filled k h := absurd h HashMap.not_mem_empty
  own k v hv := by
    rw [ofKind_of_not_mem HashMap.not_mem_empty] at hv
    exact absurd hv List.not_mem_nil

namespace Tidy

/-- A kind stands in the order when it holds something. -/
theorem mem_order (h : r.Tidy) : k ∈ r.order ↔ r.ofKind k ≠ [] := by
  rw [h.keys]
  refine ⟨h.filled k, fun some => ?_⟩
  by_contra absent
  exact some (ofKind_of_not_mem absent)

theorem mem_order_of_mem (h : r.Tidy) (hv : v ∈ r.ofKind k) : k ∈ r.order :=
  h.mem_order.mpr (List.ne_nil_of_mem hv)

theorem contains_eq (h : r.Tidy) (k : F.Kind) : r.values.contains k = decide (k ∈ r.order) := by
  rw [Bool.eq_iff_iff, decide_eq_true_eq, h.keys k, HashMap.mem_iff_contains]

theorem mem_values (h : r.Tidy) : v ∈ Listing.values r.toList ↔ v ∈ r.ofKind (F.kindOfValue v) := by
  unfold Listing.values toList
  rw [List.flatMap_map, List.mem_flatMap]
  constructor
  · rintro ⟨k, -, hv⟩
    rw [h.own k v hv]
    exact hv
  · exact fun hv => ⟨_, h.mem_order_of_mem hv, hv⟩

/-- The values that agree with `v` are all of its kind. -/
theorem holds_toList (h : r.Tidy) (v : F.Value) : Listing.holds r.toList v = r.removes v := by
  unfold Listing.holds removes
  rw [Bool.eq_iff_iff, List.any_eq_true, List.any_eq_true]
  constructor
  · rintro ⟨w, hw, agrees⟩
    rw [h.mem_values, ← F.kind_eq_of_agrees agrees] at hw
    exact ⟨w, hw, agrees⟩
  · rintro ⟨w, hw, agrees⟩
    refine ⟨w, h.mem_values.mpr ?_, agrees⟩
    rw [h.own _ w hw]
    exact hw

/-! ### Appending -/

theorem order_extend (h : r.Tidy) (k : F.Kind) (vs : List F.Value) :
    (r.extend k vs).order = if k ∈ r.order then r.order else r.order ++ [k] := by
  unfold extend
  rw [h.contains_eq]
  simp only [decide_eq_true_eq]

theorem extend (h : r.Tidy) (some : vs ≠ []) (own : ∀ v ∈ vs, F.kindOfValue v = k) :
    (r.extend k vs).Tidy where
  once := by
    rw [h.order_extend]
    split
    · exact h.once
    · rename_i absent
      refine List.nodup_append.mpr ⟨h.once, List.nodup_singleton k, fun j hj i hi same => absent ?_⟩
      rw [← List.mem_singleton.mp hi, ← same]
      exact hj
  keys j := by
    rw [mem_values_extend, h.order_extend, ← h.keys]
    split
    · rename_i there
      refine ⟨.inr, ?_⟩
      rintro (rfl | hj)
      · exact there
      · exact hj
    · rw [List.mem_append, List.mem_singleton, or_comm, eq_comm]
  filled j hj := by
    rw [ofKind_extend]
    split
    · exact List.append_ne_nil_of_right_ne_nil _ some
    · rename_i other
      exact h.filled j ((mem_values_extend.mp hj).resolve_left other)
  own j w hw := by
    rw [ofKind_extend] at hw
    split at hw
    · rename_i same
      exact (List.mem_append.mp hw).elim (h.own j w) fun hw => (own w hw).trans same
    · exact h.own j w hw

theorem toList_extend (h : r.Tidy) (k : F.Kind) (vs : List F.Value) :
    (r.extend k vs).toList = Listing.append r.toList k vs := by
  unfold Listing.append
  rw [kinds_toList]
  unfold toList
  rw [h.order_extend]
  split
  · rw [List.map_map]
    refine List.map_congr_left fun j _ => ?_
    rw [ofKind_extend, Function.comp_apply]
    by_cases same : k = j
    · rw [if_pos same, if_pos same.symm]
    · rw [if_neg same, if_neg (Ne.symm same)]
  · rename_i absent
    rw [List.map_append]
    congr 1
    · refine List.map_congr_left fun j hj => ?_
      rw [ofKind_extend, if_neg fun same : k = j => absent (same ▸ hj)]
    · rw [List.map_singleton, ofKind_extend, if_pos rfl,
        ofKind_of_not_mem fun there => absent ((h.keys k).mpr there), List.nil_append]

theorem add (h : r.Tidy) (v : F.Value) : (r.add v).Tidy :=
  h.extend (List.cons_ne_nil v []) fun _ hw => by rw [List.mem_singleton.mp hw]

theorem toList_add (h : r.Tidy) (v : F.Value) : (r.add v).toList = Listing.add r.toList v :=
  h.toList_extend _ _

theorem addIfAbsent (h : r.Tidy) (v : F.Value) : (r.addIfAbsent v).Tidy := by
  unfold Registry.addIfAbsent
  split
  · exact h
  · exact h.add v

theorem toList_addIfAbsent (h : r.Tidy) (v : F.Value) :
    (r.addIfAbsent v).toList = Listing.addIfAbsent r.toList v := by
  unfold Registry.addIfAbsent Listing.addIfAbsent
  rw [h.holds_toList]
  unfold removes
  split
  · rfl
  · exact h.toList_add v

/-! ### Deleting -/

theorem close (h : r.Tidy) (k : F.Kind) : (r.close k).Tidy where
  once := h.once.filter _
  keys j := by
    rw [mem_values_close, ← h.keys]
    unfold Registry.close
    rw [List.mem_filter, decide_eq_true_eq, and_comm, ne_comm]
  filled j hj := by
    obtain ⟨other, hj⟩ := mem_values_close.mp hj
    rw [ofKind_close, if_neg other]
    exact h.filled j hj
  own j w hw := by
    rw [ofKind_close] at hw
    split at hw
    · exact absurd hw List.not_mem_nil
    · exact h.own j w hw

theorem toList_clear (r : Registry F) (t : F.Ty) : (r.clear t).toList = Listing.clear r.toList t := by
  unfold Registry.clear Listing.clear toList
  rw [List.filter_map]
  refine List.map_congr_left fun j hj => ?_
  have other : j ≠ F.kindOf t := by simpa [Registry.close] using (List.mem_filter.mp hj).2
  rw [ofKind_close, if_neg (Ne.symm other)]

/-- The three ways in which a deletion may go: there is nothing of the kind, nothing of it is left, or
something is. -/
theorem remove_cases (r : Registry F) (v : F.Value) :
    (F.kindOfValue v ∉ r.values ∧ r.remove v = r) ∨
    ((r.ofKind (F.kindOfValue v)).filter (fun w => !F.agrees v w) = [] ∧
      r.remove v = r.close (F.kindOfValue v)) ∨
    (F.kindOfValue v ∈ r.values ∧ (r.ofKind (F.kindOfValue v)).filter (fun w => !F.agrees v w) ≠ [] ∧
      r.remove v = r.set (F.kindOfValue v)
        ((r.ofKind (F.kindOfValue v)).filter fun w => !F.agrees v w)) := by
  unfold Registry.remove
  dsimp only
  split
  · rename_i there
    split
    · rename_i none
      exact .inr (.inl ⟨none, rfl⟩)
    · rename_i some
      exact .inr (.inr ⟨HashMap.mem_iff_contains.mpr there, some, rfl⟩)
  · rename_i absent
    exact .inl ⟨fun there => absent (HashMap.mem_iff_contains.mp there), rfl⟩

theorem set (h : r.Tidy) (there : k ∈ r.values) (some : vs ≠ []) (own : ∀ v ∈ vs, F.kindOfValue v = k) :
    (r.set k vs).Tidy where
  once := h.once
  keys j := by
    rw [mem_values_set, or_iff_right_of_imp fun same => same ▸ there]
    exact h.keys j
  filled j hj := by
    rw [ofKind_set]
    split
    · exact some
    · rename_i other
      exact h.filled j ((mem_values_set.mp hj).resolve_left other)
  own j w hw := by
    rw [ofKind_set] at hw
    split at hw
    · rename_i same
      exact (own w hw).trans same
    · exact h.own j w hw

theorem remove (h : r.Tidy) (v : F.Value) : (r.remove v).Tidy := by
  rcases remove_cases r v with ⟨-, same⟩ | ⟨-, closed⟩ | ⟨there, some, kept⟩
  · rw [same]
    exact h
  · rw [closed]
    exact h.close _
  · rw [kept]
    exact h.set there some fun w hw => h.own _ w (List.mem_filter.mp hw).1

/-- Nothing of another kind agrees with a value. -/
theorem filter_of_ne (h : r.Tidy) (other : F.kindOfValue v ≠ k) :
    (r.ofKind k).filter (fun w => !F.agrees v w) = r.ofKind k := by
  refine List.filter_eq_self.mpr fun w hw => ?_
  rw [Bool.not_eq_true', Bool.eq_false_iff]
  intro agrees
  exact other ((F.kind_eq_of_agrees agrees).trans (h.own k w hw))

/-- What is left of a kind are the values that do not agree. -/
theorem ofKind_remove (h : r.Tidy) (v : F.Value) (k : F.Kind) :
    (r.remove v).ofKind k = (r.ofKind k).filter fun w => !F.agrees v w := by
  by_cases same : F.kindOfValue v = k
  · subst same
    rcases remove_cases r v with ⟨absent, unchanged⟩ | ⟨none, closed⟩ | ⟨-, -, kept⟩
    · rw [unchanged, ofKind_of_not_mem absent]
      rfl
    · rw [closed, ofKind_close, if_pos rfl, none]
    · rw [kept, ofKind_set, if_pos rfl]
  · rw [h.filter_of_ne same]
    rcases remove_cases r v with ⟨-, unchanged⟩ | ⟨-, closed⟩ | ⟨-, -, kept⟩
    · rw [unchanged]
    · rw [closed, ofKind_close, if_neg same]
    · rw [kept, ofKind_set, if_neg same]

/-- A kind keeps its place as long as something is left of it. -/
theorem order_remove (h : r.Tidy) (v : F.Value) :
    (r.remove v).order = r.order.filter fun k => !((r.remove v).ofKind k).isEmpty := by
  have kept : (r.remove v).order = r.order.filter fun k => k ∈ (r.remove v).order := by
    have all : r.order = r.order.filter fun k => k ∈ r.order :=
      (List.filter_eq_self.mpr fun k hk => decide_eq_true hk).symm
    rcases remove_cases r v with ⟨-, same⟩ | ⟨-, closed⟩ | ⟨-, -, kept⟩
    · rw [same]
      exact all
    · rw [closed]
      refine List.filter_congr fun k hk => ?_
      unfold Registry.close
      simp [hk]
    · rw [kept]
      exact all
  rw [kept]
  refine List.filter_congr fun k _ => ?_
  rw [Bool.eq_iff_iff, decide_eq_true_eq, (h.remove v).mem_order, Bool.not_eq_true', List.isEmpty_eq_false_iff]

theorem toList_remove (h : r.Tidy) (v : F.Value) : (r.remove v).toList = Listing.remove r.toList v := by
  unfold Listing.remove toList
  rw [h.order_remove, List.map_map, List.filter_map]
  simp only [Function.comp_def, h.ofKind_remove]

/-! ### Appending a registry -/

/-- Kinds that are appended one after another, each with values of its own, -/
theorem foldl_extend {l : Listing F} (h : r.Tidy)
    (proper : ∀ e ∈ l, e.2 ≠ [] ∧ ∀ v ∈ e.2, F.kindOfValue v = e.1) :
    (l.foldl (fun r e => r.extend e.1 e.2) r).Tidy ∧
      (l.foldl (fun r e => r.extend e.1 e.2) r).toList = Listing.merge r.toList l := by
  induction l generalizing r with
  | nil => exact ⟨h, rfl⟩
  | cons e l ih =>
    obtain ⟨some, own⟩ := proper e List.mem_cons_self
    rw [List.foldl_cons, Listing.merge, List.foldl_cons, ← h.toList_extend]
    exact ih (h.extend some own) fun e' he' => proper e' (List.mem_cons_of_mem e he')

/-- are those of a tidy registry. -/
theorem proper_toList (h : s.Tidy) : ∀ e ∈ s.toList, e.2 ≠ [] ∧ ∀ v ∈ e.2, F.kindOfValue v = e.1 := by
  intro e he
  obtain ⟨k, hk, rfl⟩ := List.mem_map.mp he
  exact ⟨h.mem_order.mp hk, h.own k⟩

theorem merge (h : r.Tidy) (h' : s.Tidy) : (r.merge s).Tidy := (h.foldl_extend h'.proper_toList).1

theorem toList_merge (h : r.Tidy) (h' : s.Tidy) : (r.merge s).toList = Listing.merge r.toList s.toList :=
  (h.foldl_extend h'.proper_toList).2

theorem ofKind_merge (h : s.Tidy) (r : Registry F) (k : F.Kind) :
    (r.merge s).ofKind k = r.ofKind k ++ s.ofKind k := by
  have some (ks : List F.Kind) (once : ks.Nodup) (r : Registry F) :
      ((ks.map fun j => (j, s.ofKind j)).foldl (fun r e => r.extend e.1 e.2) r).ofKind k =
        if k ∈ ks then r.ofKind k ++ s.ofKind k else r.ofKind k := by
    induction ks generalizing r with
    | nil => rfl
    | cons j ks ih =>
      obtain ⟨first, once⟩ := List.nodup_cons.mp once
      rw [List.map_cons, List.foldl_cons, ih once, ofKind_extend]
      by_cases same : j = k
      · subst same
        simp [first]
      · simp [same, Ne.symm same]
  refine (some s.order h.once r).trans ?_
  split
  · rfl
  · rename_i absent
    rw [not_not.mp (mt h.mem_order.mpr absent), List.append_nil]

theorem order_merge (h : r.Tidy) (h' : s.Tidy) :
    (r.merge s).order = r.order ++ s.order.filter fun k => k ∉ r.order := by
  have some (ks : List F.Kind) (once : ks.Nodup) (there : ∀ k ∈ ks, s.ofKind k ≠ []) {r : Registry F}
      (h : r.Tidy) : ((ks.map fun j => (j, s.ofKind j)).foldl (fun r e => r.extend e.1 e.2) r).order =
        r.order ++ ks.filter fun k => k ∉ r.order := by
    induction ks generalizing r with
    | nil => exact (List.append_nil _).symm
    | cons j ks ih =>
      obtain ⟨first, once⟩ := List.nodup_cons.mp once
      have tidy := h.extend (there j List.mem_cons_self) (h'.own j)
      rw [List.map_cons, List.foldl_cons, ih once (fun k hk => there k (List.mem_cons_of_mem j hk)) tidy,
        h.order_extend, List.filter_cons]
      by_cases old : j ∈ r.order
      · simp [old]
      · rw [if_neg old, if_pos (decide_eq_true old), List.append_assoc, List.singleton_append]
        refine congrArg (fun l => r.order ++ j :: l) (List.filter_congr fun k hk => ?_)
        have other : k ≠ j := fun same => first (same ▸ hk)
        simp [other]
  exact some s.order h'.once (fun k hk => h'.mem_order.mp hk) h

/-- **Appending is associative.** -/
theorem merge_assoc {t : Registry F} (hr : r.Tidy) (hs : s.Tidy) (ht : t.Tidy) :
    ((r.merge s).merge t).toList = (r.merge (s.merge t)).toList := by
  refine toList_congr ?_ fun k _ => ?_
  · rw [(hr.merge hs).order_merge ht, hr.order_merge hs, hr.order_merge (hs.merge ht), hs.order_merge ht,
      List.filter_append, List.filter_filter, List.append_assoc]
    refine congrArg (fun l => r.order ++ (s.order.filter (fun k => k ∉ r.order) ++ l))
      (List.filter_congr fun k _ => ?_)
    by_cases hk : k ∈ r.order <;> simp [hk]
  · rw [ht.ofKind_merge, hs.ofKind_merge, (hs.merge ht).ofKind_merge, ht.ofKind_merge, List.append_assoc]

theorem empty_merge (h : s.Tidy) : ((∅ : Registry F).merge s).toList = s.toList := by
  refine toList_congr ?_ fun k _ => ?_
  · rw [tidy_empty.order_merge h]
    exact (List.nil_append _).trans (List.filter_eq_self.mpr fun k _ => decide_eq_true List.not_mem_nil)
  · rw [h.ofKind_merge, ofKind_of_not_mem HashMap.not_mem_empty, List.nil_append]

/-! ### Questions -/

/-- The size is the number of values in the map. -/
theorem size_eq_sum (h : r.Tidy) : r.size = (r.values.toList.map fun e => e.2.length).sum := by
  have perm : r.toList.Perm r.values.toList := by
    have once : r.toList.Nodup := by
      have once : (Listing.kinds r.toList).Nodup := by
        rw [kinds_toList]
        exact h.once
      exact .of_map Prod.fst once
    have distinct : r.values.toList.Nodup := by
      refine List.Pairwise.imp (fun {a b} differ same => ?_) HashMap.distinct_keys_toList
      rw [same, BEq.rfl] at differ
      cases differ
    refine (List.perm_ext_iff_of_nodup once distinct).mpr fun e => ?_
    rw [HashMap.mem_toList_iff_getElem?_eq_some]
    unfold toList
    rw [List.mem_map]
    constructor
    · rintro ⟨k, hk, rfl⟩
      exact getElem?_of_mem ((h.keys k).mp hk)
    · intro he
      have there : e.1 ∈ r.values := HashMap.mem_iff_isSome_getElem?.mpr (by rw [he]; rfl)
      refine ⟨e.1, (h.keys e.1).mpr there, ?_⟩
      rw [getElem?_of_mem there] at he
      exact Prod.ext rfl (Option.some.inj he)
  rw [← (perm.map _).sum_nat, List.sum_eq_foldr, List.foldr_map]
  rfl

theorem isEmpty_iff (h : r.Tidy) : r.isEmpty = true ↔ r.kinds = [] := by
  unfold Registry.isEmpty kinds
  rw [HashMap.isEmpty_iff_forall_not_mem, List.eq_nil_iff_forall_not_mem]
  exact forall_congr' fun k => not_congr (h.keys k).symm

theorem size_eq_zero_iff (h : r.Tidy) : r.size = 0 ↔ r.kinds = [] := by
  unfold size kinds
  rw [← Listing.length_values, List.length_eq_zero_iff, List.eq_nil_iff_forall_not_mem,
    List.eq_nil_iff_forall_not_mem]
  constructor
  · intro none k hk
    obtain ⟨v, hv⟩ := List.exists_mem_of_ne_nil _ (h.mem_order.mp hk)
    exact none v (h.mem_values.mpr (by rw [h.own k v hv]; exact hv))
  · exact fun none v hv => none _ (h.mem_order_of_mem (h.mem_values.mp hv))

theorem contains_iff (h : r.Tidy) (t : F.Ty) : r.contains t = true ↔ F.kindOf t ∈ r.kinds := by
  unfold contains kinds
  rw [h.contains_eq, decide_eq_true_eq]

/-- It is told that a deletion changes a registry when it makes it smaller. -/
theorem removes_iff (h : r.Tidy) (v : F.Value) : r.removes v = true ↔ (r.remove v).size < r.size := by
  unfold size
  rw [← h.holds_toList, h.toList_remove, ← Listing.length_values, ← Listing.length_values,
    Listing.values_remove, List.length_filter_lt_length_iff_exists]
  unfold Listing.holds
  rw [List.any_eq_true]
  simp only [Bool.not_eq_true, Bool.not_eq_false']

end Tidy

end Registry

end Muster
