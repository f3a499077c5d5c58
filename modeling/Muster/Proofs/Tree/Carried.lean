import Mathlib.Data.List.Forall2
import Muster.Tree.Reading

/-!
# Documents that carry a value tree

* `Field.written`: the entries of those fields of a record that have a value; **`Field.named_written`**: reading
  the fields from them gives the values back.
* `Carries`: a document holds what a value tree holds, whoever reads it.
* `Carries.items`, `Carries.table`, `Carries.parts`: what is read from a list, from a map and from a record in
  a document that carries one; `readOptional_carried` for what may be absent.
* `Tree.record?_complete`: the fields of a record are read from entries that are all there.
* **`Tree.carries_record`**, `Tree.carries_list`: value trees carry themselves.
-/

namespace Muster

/-- Reading items one by one gives what is read of each of them. -/
theorem mapM_eq_some {α β : Type} {f : α → Option β} {l : List α} {bs : List β} :
    l.mapM f = some bs ↔ l.map f = bs.map some := by
  induction l generalizing bs with
  | nil => cases bs <;> simp
  | cons a l ih =>
    rw [List.mapM_cons, List.map_cons]
    cases bs with
    | nil => cases f a <;> cases l.mapM f <;> simp
    | cons b bs =>
      rw [List.map_cons, List.cons.injEq, ← ih]
      cases f a <;> cases l.mapM f <;> simp

theorem getElem?_of_mapM {α β : Type} {f : α → Option β} {as : List α} {bs : List β} (read : as.mapM f = some bs)
    {i : Nat} {a : α} (at_ : as[i]? = some a) : ∃ b, bs[i]? = some b ∧ f a = some b := by
  have same := congrArg (·[i]?) (mapM_eq_some.mp read)
  simp only [List.getElem?_map, at_, Option.map_some] at same
  obtain ⟨b, there, same⟩ := Option.map_eq_some_iff.mp same.symm
  exact ⟨b, there, same.symm⟩

namespace Field

variable {α β : Type}

/-- The entries of those fields of a record that have a value, in order. -/
def written : List Field → List (Option α) → List (String × α)
  | f :: fs, some a :: as => (f.name, a) :: written fs as
  | _ :: fs, none :: as => written fs as
  | _, _ => []

/-- There is a value for every field that is required. -/
def Given (fs : List Field) (as : List (Option α)) : Prop :=
  List.Forall₂ (fun f a => f.presence = .required → a.isSome = true) fs as

/-- What is written is the value of a field, under its name. -/
theorem mem_of_written {fs : List Field} {as : List (Option α)} {e : String × α} (h : e ∈ written fs as) :
    e.1 ∈ fs.map (·.name) ∧ some e.2 ∈ as := by
  induction fs, as using written.induct with
  | case1 f fs a as ih =>
    rw [written, List.mem_cons] at h
    rcases h with rfl | h
    · exact ⟨List.mem_cons_self, List.mem_cons_self⟩
    · exact ⟨List.mem_cons_of_mem _ (ih h).1, List.mem_cons_of_mem _ (ih h).2⟩
  | case2 f fs as ih => exact ⟨List.mem_cons_of_mem _ (ih h).1, List.mem_cons_of_mem _ (ih h).2⟩
  | case3 fs as some none =>
    rw [written.eq_def] at h
    split at h
    · exact absurd rfl (some _ _ _ _ rfl)
    · exact absurd rfl (none _ _ _ rfl)
    · exact absurd h List.not_mem_nil

theorem filter_eq_nil {f : Field} {es : List (String × α)} (away : ∀ e ∈ es, e.1 ≠ f.name) :
    es.filter (fun e => e.1 = f.name) = [] :=
  List.filter_eq_nil_iff.mpr fun e he => by rw [decide_eq_true_eq]; exact away e he

/-- Entries with other names are not seen. -/
theorem pick_append {f : Field} {others es : List (String × α)} (away : ∀ e ∈ others, e.1 ≠ f.name) :
    f.pick (others ++ es) = f.pick es := by
  unfold pick
  rw [List.filter_append, filter_eq_nil away, List.nil_append]

/-- A field without an entry may be left out, -/
theorem pick_absent {f : Field} {es : List (String × α)} (away : ∀ e ∈ es, e.1 ≠ f.name)
    (optional : f.presence ≠ .required) : f.pick es = some none := by
  unfold pick
  rw [filter_eq_nil away]
  exact if_neg optional

/-- and one with an entry of its own has its value. -/
theorem pick_present {f : Field} {es : List (String × α)} (away : ∀ e ∈ es, e.1 ≠ f.name) (a : α) :
    f.pick ((f.name, a) :: es) = some (some a) := by
  have found : ((f.name, a) :: es).filter (fun e => e.1 = f.name) = [(f.name, a)] := by
    rw [List.filter_cons, if_pos (decide_eq_true rfl), filter_eq_nil away]
  unfold pick
  rw [found]

/-- **Writing and reading.** Reading the fields of a record from the entries of those that have a value gives
the values back. -/
theorem named_written {fs : List Field} {as : List (Option α)} (once : (fs.map (·.name)).Nodup)
    (given : Given fs as) : named fs (written fs as) = some as := by
  -- further entries in front, with names that no field has, do not matter
  suffices any : ∀ others : List (String × α), (∀ e ∈ others, e.1 ∉ fs.map (·.name)) →
      named fs (others ++ written fs as) = some as from
    any [] fun e he => absurd he List.not_mem_nil
  induction given with
  | nil => exact fun others _ => rfl
  | @cons f a fs as required given ih =>
    intro others away
    rw [List.map_cons, List.nodup_cons] at once
    have rest : ∀ e ∈ written fs as, e.1 ≠ f.name := fun e he same =>
      once.1 (same ▸ (mem_of_written he).1)
    have front : ∀ e ∈ others, e.1 ≠ f.name := fun e he same =>
      away e he (same ▸ List.mem_cons_self)
    have away' : ∀ e ∈ others, e.1 ∉ fs.map (·.name) := fun e he inside =>
      away e he (List.mem_cons_of_mem _ inside)
    cases a with
    | none =>
      have later := ih once.2 others away'
      unfold named at later ⊢
      rw [List.mapM_cons, pick_append front, written,
        pick_absent rest fun must => absurd (required must) Bool.false_ne_true, later]
      rfl
    | some a =>
      have later := ih once.2 (others ++ [(f.name, a)]) fun e he => by
        rcases List.mem_append.mp he with he | he
        · exact away' e he
        · rw [List.mem_singleton.mp he]
          exact once.1
      rw [List.append_assoc, List.singleton_append] at later
      unfold named at later ⊢
      rw [List.mapM_cons, pick_append front, written, pick_present rest a, later]
      rfl

theorem Given.of_rel {R : α → β → Prop} {fs : List Field} {as : List (Option α)} {bs : List (Option β)}
    (given : Given fs bs) (each : List.Forall₂ (Option.Rel R) as bs) : Given fs as := by
  unfold Given at given ⊢
  induction each generalizing fs with
  | nil =>
    cases given
    exact .nil
  | cons same _ ih =>
    cases given with
    | cons required given =>
      refine .cons (fun must => ?_) (ih given)
      cases same with
      | some => rfl
      | none => exact required must

/-- Entries with the names of written ones are written themselves. -/
theorem exists_written {R : α → β → Prop} {fs : List Field} {bs : List (Option β)}
    (size : fs.length = bs.length) {es : List (String × α)}
    (names : es.map (·.1) = (written fs bs).map (·.1))
    (values : List.Forall₂ R (es.map (·.2)) ((written fs bs).map (·.2))) :
    ∃ as, es = written fs as ∧ List.Forall₂ (Option.Rel R) as bs := by
  induction fs, bs using written.induct generalizing es with
  | case1 f fs b bs ih =>
    rw [written] at names values
    match es, names, values with
    | (name, a) :: es, names, values =>
      rw [List.map_cons, List.map_cons, List.forall₂_cons] at values
      rw [List.map_cons, List.map_cons, List.cons.injEq] at names
      obtain ⟨as, rfl, rest⟩ := ih (Nat.succ.inj size) names.2 values.2
      have same : name = f.name := names.1
      exact ⟨some a :: as, by rw [written, same], .cons (.some values.1) rest⟩
  | case2 f fs bs ih =>
    obtain ⟨as, rfl, rest⟩ := ih (Nat.succ.inj size) names values
    exact ⟨none :: as, rfl, .cons .none rest⟩
  | case3 fs bs some none =>
    match fs, bs with
    | [], [] =>
      have empty : es = [] := List.map_eq_nil_iff.mp names
      exact ⟨[], empty, .nil⟩
    | f :: fs, .some b :: bs => exact absurd rfl (some _ _ _ _ rfl)
    | f :: fs, .none :: bs => exact absurd rfl (none _ _ _ rfl)

end Field

/-! ### Documents -/

section Documents

variable {α β : Type} [Readable α]

/-- A document carries a value tree: whoever reads it finds what the tree holds. -/
inductive Carries : α → Tree → Prop where
  | null {a : α} (none : Readable.absent? a = some true) (whole : Readable.content? a = some .null) :
    Carries a .null
  | bool {a : α} {b : Bool} (there : Readable.absent? a = some false)
    (whole : Readable.content? a = some (.bool b)) (read : Readable.bool? a = some b) : Carries a (.bool b)
  | int {a : α} {i : Int} (there : Readable.absent? a = some false)
    (whole : Readable.content? a = some (.int i))
    (read : ∀ n : Nat, i = n → n < Readable.limit → Readable.nat? a = some n) : Carries a (.int i)
  | float {a : α} {x : Float} (there : Readable.absent? a = some false)
    (whole : Readable.content? a = some (.float x)) : Carries a (.float x)
  | text {a : α} {s : String} (there : Readable.absent? a = some false)
    (whole : Readable.content? a = some (.text s)) (read : Readable.text? a = some s) : Carries a (.text s)
  | list {a : α} {as : List α} {ts : List Tree} (there : Readable.absent? a = some false)
    (whole : Readable.content? a = some (.list ts)) (read : Readable.list? a = some as)
    (items : List.Forall₂ Carries as ts) : Carries a (.list ts)
  | fields {a : α} {es : List (String × α)} {ts : List (Key × Tree)}
    (there : Readable.absent? a = some false) (whole : Readable.content? a = some (.fields ts))
    (table : Readable.table? a = some es)
    (record : ∀ fs : List Field, Readable.record? fs a = Field.named fs es)
    (names : ts.map (·.1) = es.map fun e => Key.text e.1)
    (values : List.Forall₂ Carries (es.map (·.2)) (ts.map (·.2))) : Carries a (.fields ts)

namespace Carries

variable {a : α} {t : Tree}

theorem content (h : Carries a t) : Readable.content? a = some t := by
  cases h <;> assumption

theorem there (h : Carries a t) (value : t ≠ .null) : Readable.absent? a = some false := by
  cases h with
  | null => exact absurd rfl value
  | bool there | int there | float there | text there | list there | fields there => exact there

theorem text? {s : String} (h : Carries a (.text s)) : Readable.text? a = some s := by
  cases h with
  | text _ _ read => exact read

theorem bool? {b : Bool} (h : Carries a (.bool b)) : Readable.bool? a = some b := by
  cases h with
  | bool _ _ read => exact read

theorem nat? {n : Nat} (h : Carries a (.int n)) (small : n < Readable.limit) :
    Readable.nat? a = some n := by
  cases h with
  | int _ _ read => exact read n rfl small

/-- Reading the items of a list one by one gives what was written there. -/
theorem mapM_read {read : α → Option β} {write : β → Tree} {as : List α} {bs : List β}
    (items : List.Forall₂ Carries as (bs.map write))
    (reads : ∀ b ∈ bs, ∀ a : α, Carries a (write b) → read a = some b) : as.mapM read = some bs := by
  induction bs generalizing as with
  | nil =>
    cases items
    rfl
  | cons b bs ih =>
    cases items with
    | cons first rest =>
      rw [List.mapM_cons, reads b List.mem_cons_self _ first,
        ih rest fun c hc => reads c (List.mem_cons_of_mem b hc)]
      rfl

/-- **Lists.** Reading a list gives what was written there. -/
theorem items {read : α → Option β} {write : β → Tree} {bs : List β}
    (h : Carries a (.list (bs.map write)))
    (reads : ∀ b ∈ bs, ∀ a : α, Carries a (write b) → read a = some b) :
    ((Readable.list? a).bind fun as => as.mapM read) = some bs := by
  cases h with
  | list _ _ list each =>
    rw [list, Option.bind_some]
    exact mapM_read each reads

/-- **Maps.** Reading the values of a map gives what was written there, under the same names. -/
theorem table (read : α → Option β) {write : β → Tree} {bs : List (String × β)}
    (h : Carries a (.record (bs.map fun b => (b.1, write b.2))))
    (reads : ∀ b ∈ bs, ∀ a : α, Carries a (write b.2) → read a = some b.2) :
    ∃ es, Readable.table? a = some es ∧
      (es.mapM fun e => (read e.2).map fun b => (e.1, b)) = some bs := by
  cases h with
  | @fields _ es _ _ whole table record names values =>
    refine ⟨es, table, ?_⟩
    clear table record whole
    induction bs generalizing es with
    | nil =>
      rw [List.map_eq_nil_iff.mp names.symm]
      rfl
    | cons b bs ih =>
      match es, names, values with
      | (name, x) :: es, names, values =>
        simp only [List.map_cons, List.cons.injEq, Key.text.injEq, List.forall₂_cons] at names values
        rw [List.mapM_cons, reads b List.mem_cons_self x values.1,
          ih (fun c hc => reads c (List.mem_cons_of_mem b hc)) names.2 values.2, ← names.1]
        rfl

/-- **Records.** Reading the fields of a record gives, for each of them, a document that carries its value if
it has one. -/
theorem parts {fs : List Field} {ts : List (Option Tree)}
    (h : Carries a (.record (Field.written fs ts))) (once : (fs.map (·.name)).Nodup)
    (given : Field.Given fs ts) :
    ∃ as, Readable.record? fs a = some as ∧ List.Forall₂ (Option.Rel Carries) as ts := by
  cases h with
  | @fields _ es _ _ _ _ record names values =>
    rw [List.map_map] at names values
    have keys : es.map (·.1) = (Field.written fs ts).map (·.1) := by
      have inj : Function.Injective Key.text := fun s s' same => Key.text.inj same
      refine (List.map_injective_iff.mpr inj) ?_
      rw [List.map_map, List.map_map]
      exact names.symm
    obtain ⟨as, rfl, each⟩ := Field.exists_written given.length_eq keys values
    exact ⟨as, (record fs).trans (Field.named_written once (given.of_rel each)), each⟩

end Carries

/-- What may be absent is read as it was written. -/
theorem readOptional_carried {read : α → Option β} {write : β → Tree} {b? : Option β} {a? : Option α}
    (h : Option.Rel Carries a? (b?.map write)) (value : ∀ b, write b ≠ .null)
    (reads : ∀ b ∈ b?, ∀ a : α, Carries a (write b) → read a = some b) :
    readOptional read a? = some b? := by
  cases b? with
  | none =>
    cases h
    rfl
  | some b =>
    cases h with
    | some carried =>
      dsimp only [readOptional]
      rw [carried.there (value b)]
      dsimp only
      rw [reads b rfl _ carried]
      rfl

end Documents

/-! ### Value trees -/

namespace Tree

theorem entries?_record (es : List (String × Tree)) : (Tree.record es).entries? = some es :=
  textEntries?_map es

/-- When every field of a record has its entry, in order, reading the fields gives the values. -/
theorem record?_complete {fs : List Field} {es : List (String × Tree)}
    (names : fs.map (·.name) = es.map (·.1)) (once : (fs.map (·.name)).Nodup) :
    Readable.record? fs (Tree.record es) = some (es.map fun e => some e.2) := by
  obtain ⟨written, given⟩ : Field.written fs (es.map fun e => some e.2) = es ∧
      Field.Given fs (es.map fun e => some e.2) := by
    clear once
    induction fs generalizing es with
    | nil =>
      rw [List.map_eq_nil_iff.mp names.symm]
      exact ⟨rfl, .nil⟩
    | cons f fs ih =>
      match es, names with
      | e :: es, names =>
        rw [List.map_cons, List.map_cons, List.cons.injEq] at names
        obtain ⟨written, given⟩ := ih names.2
        rw [List.map_cons, Field.written, written, names.1]
        exact ⟨rfl, .cons (fun _ => rfl) given⟩
  have read := Field.named_written once given
  rw [written] at read
  show (Tree.record es).entries?.bind (Field.named fs) = _
  rw [entries?_record, Option.bind_some, read]

theorem carries_text (s : String) : Carries (Tree.text s) (.text s) := .text rfl rfl rfl

theorem carries_bool (b : Bool) : Carries (Tree.bool b) (.bool b) := .bool rfl rfl rfl

theorem carries_float (x : Float) : Carries (Tree.float x) (.float x) := .float rfl rfl

theorem carries_int (i : Int) : Carries (Tree.int i) (.int i) := by
  refine .int rfl rfl fun n same small => ?_
  subst same
  have range : 0 ≤ (n : Int) ∧ (n : Int) < Readable.limit := ⟨Int.natCast_nonneg n, Int.ofNat_lt.mpr small⟩
  show (if _ then _ else _) = _
  rw [if_pos range, Int.toNat_natCast]

theorem sound_of_carries {t : Tree} (h : Carries t t) : t.sound = true := by
  have whole := h.content
  dsimp only [Readable.content?] at whole
  split at whole
  · assumption
  · cases whole

/-- A list whose items carry themselves does so too. -/
theorem carries_list {ts : List Tree} (h : ∀ t ∈ ts, Carries t t) : Carries (Tree.list ts) (.list ts) := by
  have sound : (Tree.list ts).sound = true := by
    rw [Tree.sound]
    induction ts with
    | nil => rfl
    | cons t ts ih =>
      rw [soundItems, sound_of_carries (h t List.mem_cons_self),
        ih fun u hu => h u (List.mem_cons_of_mem t hu)]
      rfl
  refine .list rfl (if_pos sound) rfl ?_
  exact List.forall₂_same.mpr h

/-- A record whose parts carry themselves does so too. -/
theorem carries_record {es : List (String × Tree)} (h : ∀ e ∈ es, Carries e.2 e.2) :
    Carries (Tree.record es) (.record es) := by
  have sound : (Tree.record es).sound = true := by
    rw [Tree.record, Tree.sound]
    induction es with
    | nil => rfl
    | cons e es ih =>
      rw [List.map_cons, soundEntries, sound_of_carries (h e List.mem_cons_self),
        ih fun u hu => h u (List.mem_cons_of_mem e hu)]
      rfl
  refine .fields rfl (if_pos sound) (entries?_record es) (fun fs => ?_) ?_ ?_
  · show (Tree.record es).entries?.bind (Field.named fs) = _
    rw [entries?_record, Option.bind_some]
  · rw [List.map_map]
    rfl
  · rw [List.map_map]
    refine List.forall₂_same.mpr fun t ht => ?_
    obtain ⟨e, he, rfl⟩ := List.mem_map.mp ht
    exact h e he

/-- A record written from values that carry themselves does so too. -/
theorem carries_written {fs : List Field} {ts : List (Option Tree)} (h : ∀ t, some t ∈ ts → Carries t t) :
    Carries (Tree.record (Field.written fs ts)) (.record (Field.written fs ts)) :=
  carries_record fun e he => h e.2 (Field.mem_of_written he).2

end Tree

end Muster
