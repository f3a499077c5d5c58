import Muster.Proofs.Source.Drawer

/-!
# What is answered, and what was drawn for it

* `Draw.Found`, `Draw.Missed`: every draw found a value, or the last one did not.
* `Draw.Tells`: an answer says what was drawn for it, and for which name nothing was left.
* **`Generator.tells_of_leads`, `Draft.tells_of_leads`**: so do snapshots and plans.
-/

namespace Muster

namespace Draw

/-- Draws for some entries, each of which found a value: together some pairs of name and value. -/
structure Found (es : List (String × Source)) (ps : List (String × String)) (xs : List Draw) : Prop where
  /-- The sources of the entries were asked for their names, in order. -/
  asked : xs.map (fun x => (x.name, x.source)) = es
  /-- They gave the values of the pairs. -/
  given : xs.map (fun x => (x.name, x.value)) = ps.map fun p => (p.1, some p.2)

/-- Draws for the first of some entries, the last of which, for a name, found no value. -/
def Missed (es : List (String × Source)) (name : String) (xs : List Draw) : Prop :=
  ∃ front src back ps ys, es = front ++ (name, src) :: back ∧ Found front ps ys ∧
    xs = ys ++ [⟨name, src, none⟩]

/-- What an answer says of the draws for some entries. -/
inductive Tells {ε α : Type} (es : List (String × Source)) (pairs : α → List (String × String))
    (missing : String → ε → Prop) (other : ε → Prop) : List Draw → Except ε α → Prop where
  /-- It holds the values that were drawn. -/
  | found {xs : List Draw} {a : α} (found : Found es (pairs a) xs) :
    Tells es pairs missing other xs (.ok a)
  /-- It names the name for which nothing was left. -/
  | missed {xs : List Draw} {name : String} {e : ε} (missed : Missed es name xs) (named : missing name e) :
    Tells es pairs missing other xs (.error e)
  /-- Something else is wrong, and what was drawn before stays drawn. -/
  | refused {xs : List Draw} {front back : List (String × Source)} {ps : List (String × String)} {e : ε}
    (cut : es = front ++ back) (found : Found front ps xs) (else_ : other e) :
    Tells es pairs missing other xs (.error e)

variable {es es' : List (String × Source)} {ps ps' : List (String × String)} {xs ys : List Draw}
  {name : String} {src : Source} {v : String}

@[simp] theorem found_nil : Found [] [] [] := ⟨rfl, rfl⟩

theorem Found.one : Found [(name, src)] [(name, v)] [⟨name, src, some v⟩] := ⟨rfl, rfl⟩

theorem Found.append (h : Found es ps xs) (h' : Found es' ps' ys) :
    Found (es ++ es') (ps ++ ps') (xs ++ ys) := by
  constructor
  · rw [List.map_append, h.asked, h'.asked]
  · rw [List.map_append, List.map_append, h.given, h'.given]

/-- A draw that found something gave a value. -/
theorem Found.value (h : Found es ps xs) {x : Draw} (hx : x ∈ xs) : x.value.isSome := by
  have there : (x.name, x.value) ∈ xs.map fun x => (x.name, x.value) := List.mem_map_of_mem hx
  rw [h.given] at there
  obtain ⟨p, -, hp⟩ := List.mem_map.mp there
  rw [← (Prod.mk.inj hp).2]
  rfl

theorem Missed.one : Missed ((name, src) :: es) name [⟨name, src, none⟩] :=
  ⟨[], src, es, [], [], rfl, found_nil, rfl⟩

theorem Missed.after (h : Found es ps xs) (h' : Missed es' name ys) :
    Missed (es ++ es') name (xs ++ ys) := by
  obtain ⟨front, src, back, ps', ys, rfl, found, rfl⟩ := h'
  exact ⟨es ++ front, src, back, ps ++ ps', xs ++ ys, by simp, h.append found, by simp⟩

theorem Missed.before (h : Missed es name xs) (es' : List (String × Source)) :
    Missed (es ++ es') name xs := by
  obtain ⟨front, src, back, ps, ys, rfl, found, rfl⟩ := h
  exact ⟨front, src, back ++ es', ps, ys, by simp, found, rfl⟩

/-- No answer is given after a draw that found nothing, except at once. -/
theorem Tells.dropLast {ε α : Type} {pairs : α → List (String × String)} {missing : String → ε → Prop}
    {other : ε → Prop} {r : Except ε α} (h : Tells es pairs missing other xs r) {x : Draw}
    (hx : x ∈ xs.dropLast) : x.value.isSome := by
  cases h with
  | found found => exact found.value (List.dropLast_subset _ hx)
  | refused _ found _ => exact found.value (List.dropLast_subset _ hx)
  | missed missed _ =>
    obtain ⟨front, src, back, ps, ys, -, found, rfl⟩ := missed
    rw [List.dropLast_concat] at hx
    exact found.value hx

end Draw

open Draw

/-- The answer of a draw that found nothing. -/
def DrawError.Misses (name : String) (e : DrawError) : Prop := e = .exhausted name

/-- The answer of a plan for which a draw found nothing. -/
def SetupError.Misses (name : String) (e : SetupError) : Prop :=
  ∃ member, e = .environment member (.exhausted name)

/-- The answer of a plan that is wrong in itself. -/
def SetupError.Plain (e : SetupError) : Prop := e.cause? = none

namespace Generator

open Drawer

/-- Asking for one name. -/
theorem resolving_leads {g : Generator} {name : String} {xs : List Draw} {r : Except DrawError String}
    (h : (g.resolving name).Leads xs (done r)) :
    (g.source? name = none ∧ xs = [] ∧ r = .error (.unknown name)) ∨
      ∃ src, g.source? name = some src ∧
        Tells [(name, src)] (fun v => [(name, v)]) DrawError.Misses (fun _ => False) xs r := by
  unfold resolving at h
  cases hsrc : g.source? name with
  | none =>
    rw [hsrc] at h
    obtain ⟨rfl, heq⟩ := done_leads h
    cases heq
    exact .inl ⟨rfl, rfl, rfl⟩
  | some src =>
    rw [hsrc] at h
    cases xs with
    | nil => cases leads_nil.mp h
    | cons x xs =>
      obtain ⟨n, s, v⟩ := x
      obtain ⟨⟨rfl, rfl⟩, rest⟩ := h
      cases v with
      | none =>
        obtain ⟨rfl, heq⟩ := done_leads rest
        cases heq
        exact .inr ⟨_, rfl, .missed .one rfl⟩
      | some v =>
        obtain ⟨rfl, heq⟩ := done_leads rest
        cases heq
        exact .inr ⟨_, rfl, .found .one⟩

/-- Asking for entry after entry. -/
theorem drawing_leads {es : List (String × Source)} {xs : List Draw}
    {r : Except DrawError (List (String × String))} (h : (drawing es).Leads xs (done r)) :
    Tells es id DrawError.Misses (fun _ => False) xs r := by
  induction es generalizing xs r with
  | nil =>
    obtain ⟨rfl, heq⟩ := done_leads h
    cases heq
    exact .found found_nil
  | cons e es ih =>
    cases xs with
    | nil => cases leads_nil.mp h
    | cons x xs =>
      obtain ⟨n, s, v⟩ := x
      obtain ⟨⟨rfl, rfl⟩, rest⟩ := h
      cases v with
      | none =>
        obtain ⟨rfl, heq⟩ := done_leads rest
        cases heq
        exact .missed .one rfl
      | some v =>
        obtain ⟨ys, zs, a, rfl, first, last⟩ := leads_bind rest
        cases ih first with
        | found found =>
          obtain ⟨rfl, heq⟩ := done_leads last
          cases heq
          rw [List.append_nil]
          exact .found (Found.one.append found)
        | missed missed named =>
          obtain ⟨rfl, heq⟩ := done_leads last
          cases heq
          rw [List.append_nil]
          exact .missed (.after .one missed) named
        | refused _ _ no => exact no.elim

/-- **Snapshots.** A snapshot holds one value for each name, drawn in order, or names the name for which
nothing was left. -/
theorem tells_of_leads {g : Generator} {xs : List Draw} {r : Except DrawError Environment}
    (h : g.snapshotting.Leads xs (done r)) :
    Tells g.entries Environment.pairs DrawError.Misses (fun _ => False) xs r := by
  obtain ⟨ys, zs, a, rfl, first, last⟩ := leads_bind h
  cases drawing_leads first with
  | found found =>
    obtain ⟨rfl, heq⟩ := done_leads last
    cases heq
    rw [List.append_nil]
    exact .found found
  | missed missed named =>
    obtain ⟨rfl, heq⟩ := done_leads last
    cases heq
    rw [List.append_nil]
    exact .missed missed named
  | refused _ _ no => exact no.elim

end Generator

/-- The entries that a group asks for: those of its schema, once for each member. -/
def Group.requests (g : Group) : List (String × Source) :=
  (List.replicate g.count g.schema.environment.entries).flatten

namespace Draft

open Drawer

/-- The entries that a plan asks for, when nothing is wrong. -/
def requests (d : Draft) : List (String × Source) := d.groups.flatMap Group.requests

/-- The names and values of some members, in order. -/
def drawn (ms : List MemberSpec) : List (String × String) := ms.flatMap (·.environment.pairs)

theorem planningMembers_leads {s : Schema} {base : String} {number ordinal count : Nat} {xs : List Draw}
    {r : Except SetupError (List MemberSpec)}
    (h : (planningMembers s base number ordinal count).Leads xs (done r)) :
    Tells (List.replicate count s.environment.entries).flatten drawn SetupError.Misses
      (fun _ => False) xs r := by
  induction count generalizing number ordinal xs r with
  | zero =>
    obtain ⟨rfl, heq⟩ := done_leads h
    cases heq
    exact .found found_nil
  | succ count ih =>
    rw [List.replicate_succ, List.flatten_cons]
    obtain ⟨ys, zs, a, rfl, first, rest⟩ := leads_bind h
    cases Generator.tells_of_leads first with
    | missed missed named =>
      obtain ⟨rfl, heq⟩ := done_leads rest
      cases heq
      rw [List.append_nil]
      exact .missed (missed.before _) ⟨_, congrArg _ named⟩
    | refused _ _ no => exact no.elim
    | found found =>
      obtain ⟨zs, us, b, rfl, others, last⟩ := leads_bind rest
      cases ih others with
      | missed missed named =>
        obtain ⟨rfl, heq⟩ := done_leads last
        cases heq
        rw [List.append_nil]
        exact .missed (.after found missed) named
      | refused _ _ no => exact no.elim
      | found found' =>
        obtain ⟨rfl, heq⟩ := done_leads last
        cases heq
        rw [List.append_nil]
        exact .found (found.append found')

/-- A snapshot of a schema has the sources of the schema. -/
theorem environment_build {s s' : Schema} (h : s.build = .ok s') : s'.environment = s.environment := by
  rw [(Schema.copy_of_build h).2]
  rfl

/-- What is wrong with a schema is not what its sources give. -/
theorem plain_of_build {s : Schema} {e : SetupError} (h : s.build = .error e) : e.Plain := by
  unfold Schema.build at h
  split at h
  case h_2 => cases h
  case h_1 e' he =>
    cases h
    unfold Schema.check? at he
    split at he
    · cases he
      rfl
    · split at he
      · cases he
        rfl
      · obtain ⟨i, -, rfl⟩ := Option.map_eq_some_iff.mp he
        rfl

/-- One more group, after draws for the members planned so far. -/
theorem planningGroup_leads {p : Progress} {g : Group} {es : List (String × Source)} {xs ys : List Draw}
    {r : Except SetupError Progress} (before : Found es (drawn p.members) xs)
    (h : (planningGroup p g).Leads ys (done r)) :
    Tells (es ++ g.requests) (fun p => drawn p.members) SetupError.Misses SetupError.Plain (xs ++ ys) r := by
  unfold planningGroup at h
  split at h
  · obtain ⟨rfl, heq⟩ := done_leads h
    cases heq
    rw [List.append_nil]
    exact .refused rfl before rfl
  · cases hs : g.schema.build with
    | error e =>
      rw [hs] at h
      obtain ⟨rfl, heq⟩ := done_leads h
      cases heq
      rw [List.append_nil]
      exact .refused rfl before (plain_of_build hs)
    | ok s =>
      rw [hs] at h
      obtain ⟨ys, zs, a, rfl, first, last⟩ := leads_bind h
      have tells := planningMembers_leads first
      rw [environment_build hs] at tells
      cases tells with
      | found found =>
        obtain ⟨rfl, heq⟩ := done_leads last
        cases heq
        rw [List.append_nil]
        refine .found ?_
        rw [drawn, List.flatMap_append]
        exact before.append found
      | missed missed named =>
        obtain ⟨rfl, heq⟩ := done_leads last
        cases heq
        rw [List.append_nil]
        exact .missed (.after before missed) named
      | refused _ _ no => exact no.elim

/-- Group after group. -/
theorem planningGroups_leads {p : Progress} {gs : List Group} {es : List (String × Source)}
    {xs ys : List Draw} {r : Except SetupError Progress} (before : Found es (drawn p.members) xs)
    (h : (planningGroups p gs).Leads ys (done r)) :
    Tells (es ++ gs.flatMap Group.requests) (fun p => drawn p.members) SetupError.Misses
      SetupError.Plain (xs ++ ys) r := by
  induction gs generalizing p es xs ys r with
  | nil =>
    obtain ⟨rfl, heq⟩ := done_leads h
    cases heq
    rw [List.flatMap_nil, List.append_nil, List.append_nil]
    exact .found before
  | cons g gs ih =>
    rw [List.flatMap_cons, ← List.append_assoc]
    obtain ⟨ys, zs, a, rfl, first, rest⟩ := leads_bind h
    rw [← List.append_assoc]
    cases planningGroup_leads before first with
    | found found => exact ih found rest
    | missed missed named =>
      obtain ⟨rfl, heq⟩ := done_leads rest
      cases heq
      rw [List.append_nil]
      exact .missed (missed.before _) named
    | refused cut found else_ =>
      obtain ⟨rfl, heq⟩ := done_leads rest
      cases heq
      rw [List.append_nil, cut, List.append_assoc]
      exact .refused rfl found else_

/-- **Plans.** A plan's members hold the values drawn for them, in order; a plan that fails names the
name for which nothing was left, or is wrong in itself. -/
theorem tells_of_leads {d : Draft} {xs : List Draw} {r : Except SetupError Plan}
    (h : d.planning.Leads xs (done r)) :
    Tells d.requests (fun p => drawn p.members) SetupError.Misses SetupError.Plain xs r := by
  obtain ⟨ys, zs, a, rfl, first, last⟩ := leads_bind h
  cases planningGroups_leads (p := {}) found_nil first with
  | found found =>
    obtain ⟨rfl, heq⟩ := done_leads last
    cases heq
    rw [List.append_nil]
    exact .found found
  | missed missed named =>
    obtain ⟨rfl, heq⟩ := done_leads last
    cases heq
    rw [List.append_nil]
    exact .missed missed named
  | refused cut found else_ =>
    obtain ⟨rfl, heq⟩ := done_leads last
    cases heq
    rw [List.append_nil]
    exact .refused cut found else_

end Draft

end Muster
