import Muster.Plan.Basic

/-!
# Drawing one value at a time

* `Draw`: for which name a source was asked, and what it gave.
* `Drawer`: a computation that asks sources, one after another, and comes to an answer.
* `Drawer.run`: a computation that nobody comes between.
* `Drawer.Leads`: the draws with which a computation comes to another.
* `Generator.run_drawing`, **`Draft.run_planning`**: a snapshot and a plan are such computations, run
  without a break.
-/

namespace Muster

/-- One question to a source. -/
structure Draw where
  /-- The name for which a value is wanted. -/
  name : String
  /-- The source under the name. -/
  source : Source
  /-- What the source gave; nothing when its sequence has run out. -/
  value : Option String
deriving DecidableEq, Repr

/-- A computation that asks sources. -/
inductive Drawer (α : Type) where
  /-- The answer is there. -/
  | done (a : α)
  /-- Asks a source for the value of a name, and goes on with what it gives. -/
  | draw (name : String) (src : Source) (next : Option String → Drawer α)

namespace Drawer

variable {α β : Type}

/-- One computation after another. -/
def bind : Drawer α → (α → Drawer β) → Drawer β
  | done a, f => f a
  | draw name src next, f => draw name src fun v => (next v).bind f

/-- The answer, and the sequences after all draws. -/
def run : Drawer α → Sequences → α × Sequences
  | done a, q => (a, q)
  | draw _ src next, q => (next (src.draw q).1).run (src.draw q).2

@[simp] theorem run_done (a : α) (q : Sequences) : (done a).run q = (a, q) := rfl

@[simp] theorem run_draw (name : String) (src : Source) (next : Option String → Drawer α)
    (q : Sequences) : (draw name src next).run q = (next (src.draw q).1).run (src.draw q).2 := rfl

theorem run_bind (d : Drawer α) (f : α → Drawer β) (q : Sequences) :
    (d.bind f).run q = (f (d.run q).1).run (d.run q).2 := by
  induction d generalizing q with
  | done a => rfl
  | draw name src next ih => exact ih _ _

/-! ## The draws made on the way -/

/-- Some draws bring one computation to another. -/
def Leads : Drawer α → List Draw → Drawer α → Prop
  | d, [], e => d = e
  | done _, _ :: _, _ => False
  | draw name src next, x :: xs, e => (x.name = name ∧ x.source = src) ∧ (next x.value).Leads xs e

@[simp] theorem leads_nil {d e : Drawer α} : d.Leads [] e ↔ d = e := by cases d <;> rfl

@[simp] theorem not_done_leads {a : α} {x : Draw} {xs : List Draw} {e : Drawer α} :
    ¬ (done a).Leads (x :: xs) e := id

theorem done_leads {a : α} {xs : List Draw} {e : Drawer α} (h : (done a).Leads xs e) :
    xs = [] ∧ e = done a := by
  cases xs with
  | nil => exact ⟨rfl, (leads_nil.mp h).symm⟩
  | cons x xs => exact absurd h not_done_leads

/-- One more draw. -/
theorem Leads.snoc {d : Drawer α} {xs : List Draw} {name : String} {src : Source}
    {next : Option String → Drawer α} (h : d.Leads xs (draw name src next)) (v : Option String) :
    d.Leads (xs ++ [⟨name, src, v⟩]) (next v) := by
  induction xs generalizing d with
  | nil =>
    cases leads_nil.mp h
    exact ⟨⟨rfl, rfl⟩, leads_nil.mpr rfl⟩
  | cons x xs ih =>
    cases d with
    | done a => exact absurd h not_done_leads
    | draw n s k => exact ⟨h.1, ih h.2⟩

/-- What does two things in a row has made the draws of both. -/
theorem leads_bind {d : Drawer α} {f : α → Drawer β} {xs : List Draw} {b : β}
    (h : (d.bind f).Leads xs (done b)) :
    ∃ ys zs a, xs = ys ++ zs ∧ d.Leads ys (done a) ∧ (f a).Leads zs (done b) := by
  induction d generalizing xs with
  | done a => exact ⟨[], xs, a, rfl, leads_nil.mpr rfl, h⟩
  | draw name src next ih =>
    cases xs with
    | nil => cases leads_nil.mp h
    | cons x xs =>
      obtain ⟨ys, zs, a, rfl, first, then_⟩ := ih _ h.2
      exact ⟨x :: ys, zs, a, rfl, ⟨h.1, first⟩, then_⟩

/-- A computation comes to an end, whatever it is given. -/
theorem exists_done (d : Drawer α) : ∃ xs a, d.Leads xs (done a) := by
  induction d with
  | done a => exact ⟨[], a, leads_nil.mpr rfl⟩
  | draw name src next ih =>
    obtain ⟨xs, a, h⟩ := ih none
    exact ⟨⟨name, src, none⟩ :: xs, a, ⟨rfl, rfl⟩, h⟩

theorem Leads.trans {d e f : Drawer α} {xs ys : List Draw} (h : d.Leads xs e) (h' : e.Leads ys f) :
    d.Leads (xs ++ ys) f := by
  induction xs generalizing d with
  | nil => exact leads_nil.mp h ▸ h'
  | cons x xs ih =>
    cases d with
    | done a => exact absurd h not_done_leads
    | draw n s k => exact ⟨h.1, ih h.2⟩

/-! ## The sources asked -/

/-- Every source that may be asked satisfies a condition. -/
def Asks (P : Source → Prop) : Drawer α → Prop
  | done _ => True
  | draw _ src next => P src ∧ ∀ v, (next v).Asks P

theorem Asks.mono {P Q : Source → Prop} {d : Drawer α} (h : d.Asks P) (hPQ : ∀ src, P src → Q src) :
    d.Asks Q := by
  induction d with
  | done a => trivial
  | draw name src next ih => exact ⟨hPQ _ h.1, fun v => ih v (h.2 v)⟩

theorem Asks.bind {P : Source → Prop} {d : Drawer α} {f : α → Drawer β} (h : d.Asks P)
    (hf : ∀ a, (f a).Asks P) : (d.bind f).Asks P := by
  induction d with
  | done a => exact hf a
  | draw name src next ih => exact ⟨h.1, fun v => ih v (h.2 v)⟩

end Drawer

/-! ## What draws in the program -/

namespace Generator

open Drawer

/-- Looks up a name, and asks its source. -/
def resolving (g : Generator) (name : String) : Drawer (Except DrawError String) :=
  match g.source? name with
  | none => done (.error (.unknown name))
  | some src => draw name src fun
    | none => done (.error (.exhausted name))
    | some v => done (.ok v)

/-- Asks the source of each entry in order, up to the first that has run out. -/
def drawing : List (String × Source) → Drawer (Except DrawError (List (String × String)))
  | [] => done (.ok [])
  | e :: es => draw e.1 e.2 fun
    | none => done (.error (.exhausted e.1))
    | some v => (drawing es).bind fun
      | .ok ps => done (.ok ((e.1, v) :: ps))
      | .error x => done (.error x)

/-- Asks the source of every name. -/
def snapshotting (g : Generator) : Drawer (Except DrawError Environment) :=
  (drawing g.entries).bind fun
    | .ok ps => done (.ok ⟨ps⟩)
    | .error x => done (.error x)

theorem run_resolving (g : Generator) (name : String) (q : Sequences) :
    (g.resolving name).run q = g.resolve name q := by
  unfold resolving resolve
  cases g.source? name with
  | none => rfl
  | some src =>
    simp only [run_draw]
    rcases src.draw q with ⟨_ | v, q'⟩ <;> rfl

theorem run_drawing (es : List (String × Source)) (q : Sequences) :
    (drawing es).run q = drawAll q es := by
  induction es generalizing q with
  | nil => rfl
  | cons e es ih =>
    simp only [drawing, run_draw, drawAll]
    rcases e.2.draw q with ⟨_ | v, q'⟩
    · rfl
    · simp only [run_bind, ih]
      rcases drawAll q' es with ⟨_ | ps, q''⟩ <;> rfl

theorem run_snapshotting (g : Generator) (q : Sequences) : g.snapshotting.run q = g.snapshot q := by
  simp only [snapshotting, run_bind, run_drawing, snapshot]
  rcases drawAll q g.entries with ⟨_ | ps, q'⟩ <;> rfl

end Generator

namespace Draft

open Drawer

/-- Asks for the environment of `count` more members of a schema. -/
def planningMembers (s : Schema) (base : String) (number ordinal : Nat) :
    Nat → Drawer (Except SetupError (List MemberSpec))
  | 0 => done (.ok [])
  | count + 1 => s.environment.snapshotting.bind fun
    | .error e => done (.error (.environment (base ++ "-" ++ toString (number + 1)) e))
    | .ok env => (planningMembers s base (number + 1) (ordinal + 1) count).bind fun
      | .error e => done (.error e)
      | .ok ms => done (.ok (⟨ordinal, base ++ "-" ++ toString (number + 1), s, env⟩ :: ms))

/-- Asks for the environments of one more group. -/
def planningGroup (p : Progress) (g : Group) : Drawer (Except SetupError Progress) :=
  if g.count = 0 then done (.error (.noMembers g.schema.executable))
  else match g.schema.build with
    | .error e => done (.error e)
    | .ok s =>
      (planningMembers s s.displayName (p.numbering s.displayName) p.members.length g.count).bind fun
        | .error e => done (.error e)
        | .ok ms => done (.ok
          { members := p.members ++ ms
            options := p.options.merge s.options
            numbering := fun b =>
              if b = s.displayName then p.numbering b + g.count else p.numbering b })

/-- Asks for the environments of the groups in order. -/
def planningGroups (p : Progress) : List Group → Drawer (Except SetupError Progress)
  | [] => done (.ok p)
  | g :: gs => (planningGroup p g).bind fun
    | .error e => done (.error e)
    | .ok p => planningGroups p gs

/-- Asks for the environment of every member. -/
def planning (d : Draft) : Drawer (Except SetupError Plan) :=
  (planningGroups {} d.groups).bind fun
    | .error e => done (.error e)
    | .ok p => done (.ok ⟨p.members, p.options.merge d.options, d.observers⟩)

theorem run_planningMembers (s : Schema) (base : String) (number ordinal : Nat) (q : Sequences)
    (count : Nat) :
    (planningMembers s base number ordinal count).run q =
      planMembers s base number ordinal q count := by
  induction count generalizing number ordinal q with
  | zero => rfl
  | succ count ih =>
    simp only [planningMembers, run_bind, Generator.run_snapshotting, planMembers,
      Schema.resolveEnvironment]
    rcases s.environment.snapshot q with ⟨_ | env, q'⟩
    · rfl
    · simp only [run_bind, ih]
      rcases planMembers s base (number + 1) (ordinal + 1) q' count with ⟨_ | ms, q''⟩ <;> rfl

theorem run_planningGroup (p : Progress) (g : Group) (q : Sequences) :
    (planningGroup p g).run q = planGroup p g q := by
  unfold planningGroup planGroup
  split
  · rfl
  · cases g.schema.build with
    | error e => rfl
    | ok s =>
      simp only [run_bind, run_planningMembers]
      rcases planMembers s s.displayName (p.numbering s.displayName) p.members.length q g.count
        with ⟨_ | ms, q'⟩ <;> rfl

theorem run_planningGroups (p : Progress) (q : Sequences) (gs : List Group) :
    (planningGroups p gs).run q = planGroups p q gs := by
  induction gs generalizing p q with
  | nil => rfl
  | cons g gs ih =>
    simp only [planningGroups, run_bind, run_planningGroup, planGroups]
    rcases planGroup p g q with ⟨_ | p', q'⟩
    · rfl
    · exact ih p' q'

/-- **Planning, draw by draw.** -/
theorem run_planning (d : Draft) (q : Sequences) : d.planning.run q = d.plan q := by
  simp only [planning, run_bind, run_planningGroups, plan]
  rcases planGroups {} q d.groups with ⟨_ | p, q'⟩ <;> rfl

end Draft

end Muster
