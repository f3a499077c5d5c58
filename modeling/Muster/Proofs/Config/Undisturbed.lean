import Muster.Proofs.Config.Defaults

/-!
# Questions asked before

* `Registry.Undecided`: a kind without values and without a default that is kept, so that the next question about it
  decides what all its types are told.
* `Registry.tells`: what a type is told where no value of its kind was added; `Registry.Answers.tells_first`,
  `Registry.Answers.tells_later`: how a question changes it.
* `Registries.Alike`: two ways in which things went so far, between which a type sees no difference;
  `Registries.Alike.act`: nor does it after one more act.
* `Registries.Undisturbed`: a type is told the same whether or not a question was asked before.
* `Registries.Disturbs`: a question decides a kind in which other types stand beside one that has a default.
* **`Registries.reads_undisturbed`**: a question makes no difference to a type exactly when it does not disturb it.
-/

namespace Muster

open Std

namespace Registry

variable {F : OptionFamily} {r r' : Registry F} {t u : F.Ty} {calls : Nat} {told : List F.Value} {made : Bool}

/-- Nothing of a kind was added, and no default is kept for it. -/
structure Undecided (r : Registry F) (k : F.Kind) : Prop where
  /-- No value was added. -/
  bare : r.ofKind k = []
  /-- No default is kept, not even that there is none. -/
  unkept : k ∉ r.defaults

/-- What a type is told where no value of its kind was added: what is kept if it is of the type, or else its own
default. -/
def tells (r : Registry F) (u : F.Ty) : Option F.Value :=
  match r.defaults[F.kindOf u]? with
  | some slot => slot.bind (F.ofTy? u)
  | none => F.default? u 0

theorem tells_of_kept {slot : Option F.Value} (kept : r.defaults[F.kindOf u]? = some slot) :
    r.tells u = slot.bind (F.ofTy? u) := by
  unfold tells
  rw [kept]

theorem Undecided.tells_eq (open_ : r.Undecided (F.kindOf u)) : r.tells u = F.default? u 0 := by
  unfold tells
  rw [HashMap.getElem?_eq_none open_.unkept]

theorem tells_congr (same : r.defaults[F.kindOf u]? = r'.defaults[F.kindOf u]?) : r.tells u = r'.tells u := by
  unfold tells
  rw [same]

/-! ### What a question is told -/

section Steady

variable (steady : ∀ calls, F.default? u calls = F.default? u 0)
include steady

theorem value_default (bare : r.ofKind (F.kindOf u) = []) (calls : Nat) :
    (r.default u calls).value = r.tells u := by
  cases slot : r.defaults[F.kindOf u]? with
  | some s => rw [(default_of_kept slot calls).1, tells_of_kept slot]
  | none =>
    have open_ : r.Undecided (F.kindOf u) := ⟨bare, (getElem?_eq_none_iff _ _).mp slot⟩
    rw [(default_of_unkept slot calls).1, open_.tells_eq, steady]

/-- Registries that hold the same values of a kind and tell its type the same answer its questions alike. -/
theorem value_get_congr (values : r.ofKind (F.kindOf u) = r'.ofKind (F.kindOf u)) (tells : r.tells u = r'.tells u)
    (calls calls' : Nat) : (r.get u calls).value = (r'.get u calls').value := by
  cases last : (r.ofKind (F.kindOf u)).getLast? with
  | some v => rw [(get_of_last last calls).1, (get_of_last (values ▸ last) calls').1]
  | none =>
    have bare := List.getLast?_eq_none_iff.mp last
    have bare' := values ▸ bare
    rw [get_of_nil bare, get_of_nil bare', value_default steady bare, value_default steady bare', tells]

theorem value_getAll_congr (values : r.ofKind (F.kindOf u) = r'.ofKind (F.kindOf u))
    (tells : r.tells u = r'.tells u) (calls calls' : Nat) :
    (r.getAll u calls).value = (r'.getAll u calls').value := by
  by_cases bare : r.ofKind (F.kindOf u) = []
  · have bare' := values ▸ bare
    rw [getAll_of_nil bare, getAll_of_nil bare']
    dsimp only
    rw [value_default steady bare, value_default steady bare', tells]
  · rw [(getAll_of_ne_nil bare calls).1, (getAll_of_ne_nil (values ▸ bare) calls').1, values]

/-! ### What a question changes -/

/-- The first question about a kind decides what its types are told. -/
theorem Answers.tells_first (h : r.Answers t calls told r' made) (kind : F.kindOf t = F.kindOf u)
    (open_ : r.Undecided (F.kindOf u)) : r'.tells u = if t = u then F.default? u 0 else none := by
  cases h with
  | added filled => exact absurd (kind ▸ open_.bare) filled
  | kept _ kept =>
    rw [kind, HashMap.getElem?_eq_none open_.unkept] at kept
    cases kept
  | made =>
    have kept : (r.defaults.insert (F.kindOf t) (F.default? t calls))[F.kindOf u]? =
        some (F.default? t calls) := by
      rw [← kind]
      exact HashMap.getElem?_insert_self
    rw [tells_of_kept kept]
    split
    · rename_i same
      subst same
      rw [F.default?_bind, steady]
    · rename_i other
      cases made : F.default? t calls with
      | none => rfl
      | some v => exact F.ofTy?_eq_none.mpr (F.tyOf_default made ▸ other)

omit steady in
/-- Any other question leaves what they are told. -/
theorem Answers.tells_later (h : r.Answers t calls told r' made)
    (later : F.kindOf t = F.kindOf u → ¬ r.Undecided (F.kindOf u)) : r'.tells u = r.tells u := by
  cases h with
  | added => rfl
  | kept => rfl
  | made bare unkept =>
    have other : F.kindOf t ≠ F.kindOf u := fun same =>
      later same ⟨same ▸ bare, same ▸ (getElem?_eq_none_iff _ _).mp unkept⟩
    refine tells_congr ?_
    rw [HashMap.getElem?_insert, if_neg (by simpa using other)]

omit steady in
/-- A question makes its kind keep a default where nothing of it was added. -/
theorem Answers.mem_defaults (h : r.Answers t calls told r' made) (k : F.Kind) :
    k ∈ r'.defaults ↔ k ∈ r.defaults ∨ F.kindOf t = k ∧ r.ofKind k = [] := by
  cases h with
  | added filled =>
    refine (or_iff_left ?_).symm
    rintro ⟨rfl, bare⟩
    exact filled bare
  | kept _ kept =>
    refine (or_iff_left_of_imp ?_).symm
    rintro ⟨rfl, -⟩
    exact HashMap.mem_iff_isSome_getElem?.mpr (by rw [kept]; rfl)
  | made bare =>
    rw [HashMap.mem_insert, beq_iff_eq, or_comm]
    refine or_congr_right (iff_self_and.mpr ?_)
    rintro rfl
    exact bare

end Steady

end Registry

namespace Registries

variable {F : OptionFamily} {s s' : Registries F} {l : Nat → Listing F} {t u : F.Ty} {a question : Act F}

/-! ### Two ways in which things went -/

/-- Registries that read like one listing hold the same values of every kind. -/
theorem Listed.ofKind_eq (h : s.Listed l) (h' : s'.Listed l) (i : Nat) (k : F.Kind) :
    (s.held i).ofKind k = (s'.held i).ofKind k := by
  have same : (s.held i).toList = (s'.held i).toList := (h i).2.trans (h' i).2.symm
  by_cases there : k ∈ (s.held i).order
  · have entry : (k, (s.held i).ofKind k) ∈ (s'.held i).toList := same ▸ List.mem_map_of_mem there
    exact (Registry.ofKind_of_mem_toList entry).symm
  · have absent : k ∉ (s'.held i).order := by
      rw [← Registry.kinds_toList, ← same, Registry.kinds_toList]
      exact there
    rw [not_not.mp (mt (h i).1.mem_order.mpr there), not_not.mp (mt (h' i).1.mem_order.mpr absent)]

/-- No other type can keep a type from its default, for it has none or is alone in its kind. -/
def Safe (F : OptionFamily) (u : F.Ty) : Prop :=
  F.default? u 0 = none ∨ ∀ v, F.kindOf v = F.kindOf u → v = u

/-- Two ways in which things went so far: a type is told the same in both, and each registry keeps a default of the
type's kind in both or in neither, unless that makes no difference. -/
structure Alike (u : F.Ty) (s s' : Registries F) : Prop where
  /-- The same values were added. -/
  listed : ∃ l, s.Listed l ∧ s'.Listed l
  /-- The type is told the same where no value of its kind was added. -/
  tells : ∀ i, (s.held i).tells u = (s'.held i).tells u
  /-- As much is kept. -/
  keeps : Safe F u ∨ ∀ i, F.kindOf u ∈ (s.held i).defaults ↔ F.kindOf u ∈ (s'.held i).defaults

theorem Alike.ofKind_eq (h : Alike u s s') (i : Nat) (k : F.Kind) :
    (s.held i).ofKind k = (s'.held i).ofKind k := by
  obtain ⟨l, listed, listed'⟩ := h.listed
  exact listed.ofKind_eq listed' i k

/-- A new registry keeps nothing. -/
theorem defaults_act_of_bears (bears : a.Bears) (s : Registries F) : ((s.act a).held a.place).defaults = ∅ := by
  cases a with
  | start i =>
    rw [act, Act.place, held_put]
    rfl
  | copy i j =>
    rw [act, Act.place, held_put]
    rfl
  | add | addIfAbsent | remove | clear | merge | get | getAll => exact bears.elim

/-- An act that asks nothing leaves what two registries keep, or neither keeps anything afterwards. -/
theorem defaults_act_or (silent : a.asks? = none) (j : Nat) (s s' : Registries F) :
    (((s.act a).held j).defaults = (s.held j).defaults ∧ ((s'.act a).held j).defaults = (s'.held j).defaults) ∨
      (((s.act a).held j).defaults = ∅ ∧ ((s'.act a).held j).defaults = ∅) := by
  by_cases born : a.Bears ∧ a.place = j
  · obtain ⟨bears, rfl⟩ := born
    exact .inr ⟨defaults_act_of_bears bears s, defaults_act_of_bears bears s'⟩
  · have still : a.Bears → a.place ≠ j := fun bears here => born ⟨bears, here⟩
    exact .inl ⟨defaults_act silent still s, defaults_act silent still s'⟩

section Steady

variable (steady : ∀ calls, F.default? u calls = F.default? u 0)
include steady

/-- A type that is safe is told the same after every question. -/
theorem Safe.tells_eq {r r' : Registry F} {calls : Nat} {told : List F.Value} {made : Bool} (safe : Safe F u)
    (h : r.Answers t calls told r' made) : r'.tells u = r.tells u := by
  by_cases first : F.kindOf t = F.kindOf u ∧ r.Undecided (F.kindOf u)
  · obtain ⟨kind, open_⟩ := first
    rw [h.tells_first steady kind open_, open_.tells_eq]
    rcases safe with none | alone
    · rw [none, ite_self]
    · rw [if_pos (alone t kind)]
  · exact h.tells_later fun kind open_ => first ⟨kind, open_⟩

/-- What an act does shows a type no difference where there was none. -/
theorem Alike.act (h : Alike u s s') (a : Act F) : Alike u (s.act a) (s'.act a) := by
  obtain ⟨l, listed, listed'⟩ := h.listed
  refine ⟨⟨_, listed.act a, listed'.act a⟩, fun j => ?_, h.keeps.imp_right fun keeps j => ?_⟩
  · cases asks : a.asks? with
    | none =>
      rcases defaults_act_or asks j s s' with ⟨same, same'⟩ | ⟨bare, bare'⟩
      · rw [Registry.tells_congr (congrArg (·[F.kindOf u]?) same),
          Registry.tells_congr (congrArg (·[F.kindOf u]?) same'), h.tells]
      · exact Registry.tells_congr (by rw [bare, bare'])
    | some t =>
      by_cases here : a.place = j
      · subst here
        obtain ⟨_, answers, -⟩ := answers_act asks s
        obtain ⟨_, answers', -⟩ := answers_act asks s'
        rcases h.keeps with safe | keeps
        · rw [safe.tells_eq steady answers, safe.tells_eq steady answers', h.tells]
        -- the question is the first of its kind in both, or in neither
        · have values := h.ofKind_eq a.place (F.kindOf u)
          by_cases first : F.kindOf t = F.kindOf u ∧ (s.held a.place).Undecided (F.kindOf u)
          · obtain ⟨kind, open_⟩ := first
            have open' : (s'.held a.place).Undecided (F.kindOf u) :=
              ⟨values ▸ open_.bare, mt (keeps a.place).mpr open_.unkept⟩
            rw [answers.tells_first steady kind open_, answers'.tells_first steady kind open']
          · have later' : F.kindOf t = F.kindOf u → ¬ (s'.held a.place).Undecided (F.kindOf u) :=
              fun kind open' => first ⟨kind, values ▸ open'.bare, mt (keeps a.place).mp open'.unkept⟩
            rw [answers.tells_later fun kind open_ => first ⟨kind, open_⟩, answers'.tells_later later', h.tells]
      · rw [held_act_of_ne here, held_act_of_ne here, h.tells]
  · cases asks : a.asks? with
    | none =>
      rcases defaults_act_or asks j s s' with ⟨same, same'⟩ | ⟨bare, bare'⟩
      · rw [same, same', keeps]
      · rw [bare, bare']
    | some t =>
      by_cases here : a.place = j
      · subst here
        obtain ⟨_, answers, -⟩ := answers_act asks s
        obtain ⟨_, answers', -⟩ := answers_act asks s'
        rw [answers.mem_defaults, answers'.mem_defaults, keeps, h.ofKind_eq]
      · rw [held_act_of_ne here, held_act_of_ne here, keeps]

theorem Alike.foldl_act (h : Alike u s s') (later : List (Act F)) :
    Alike u (later.foldl Registries.act s) (later.foldl Registries.act s') := by
  induction later generalizing s s' with
  | nil => exact h
  | cons a later ih => exact ih (h.act steady a)

end Steady

/-! ### Questions that make no difference -/

/-- A type is told the same, at every place and after whatever is done next, whether or not a question is asked
first. -/
def Undisturbed (s : Registries F) (question : Act F) (u : F.Ty) : Prop :=
  ∀ (later : List (Act F)) (i : Nat),
    let asked := later.foldl act (s.act question)
    let unasked := later.foldl act s
    ((asked.held i).get u (asked.made u)).value = ((unasked.held i).get u (unasked.made u)).value ∧
      ((asked.held i).getAll u (asked.made u)).value = ((unasked.held i).getAll u (unasked.made u)).value

/-- A question for `t` decides its kind for a type `u` that has a default, while there are other types of the kind
whose default may be kept in place of that of `u`. -/
structure Disturbs (r : Registry F) (t u : F.Ty) : Prop where
  /-- Both types are of one kind. -/
  kind : F.kindOf t = F.kindOf u
  /-- Nothing decided the kind before. -/
  first : r.Undecided (F.kindOf u)
  /-- The type has a default, -/
  given : F.default? u 0 ≠ none
  /-- and is not alone in its kind. -/
  shared : ∃ v, F.kindOf v = F.kindOf u ∧ v ≠ u

/-- A question does not disturb a type that is safe, nor any type once its kind is decided. -/
theorem safe_or_later {r : Registry F} (quiet : ¬ Disturbs r t u) :
    Safe F u ∨ (F.kindOf t = F.kindOf u → ¬ r.Undecided (F.kindOf u)) := by
  by_contra neither
  obtain ⟨unsafe_, first⟩ := not_or.mp neither
  obtain ⟨given, others⟩ := not_or.mp unsafe_
  push Not at first others
  exact quiet ⟨first.1, first.2, given, others⟩

theorem Listed.ask (h : s.Listed l) (asks : question.asks? = some t) : (s.act question).Listed l := by
  have same : Listings.act l question = l := by
    cases question with
    | get | getAll => rfl
    | start | copy | add | addIfAbsent | remove | clear | merge => cases asks
  exact same ▸ h.act question

section Steady

variable (steady : ∀ calls, F.default? u calls = F.default? u 0)
include steady

/-- A question that does not disturb a type shows it no difference. -/
theorem alike_ask (listed : s.Listed l) (asks : question.asks? = some t)
    (quiet : ¬ Disturbs (s.held question.place) t u) : Alike u (s.act question) s := by
  obtain ⟨_, answers, -⟩ := answers_act asks s
  refine ⟨⟨l, listed.ask asks, listed⟩, fun j => ?_, (safe_or_later quiet).imp_right fun later j => ?_⟩
  · by_cases here : question.place = j
    · subst here
      rcases safe_or_later quiet with safe | later
      · exact safe.tells_eq steady answers
      · exact answers.tells_later later
    · rw [held_act_of_ne here]
  · by_cases here : question.place = j
    · subst here
      rw [answers.mem_defaults]
      refine or_iff_left_of_imp fun decides => ?_
      by_contra unkept
      exact later decides.1 ⟨decides.2, unkept⟩
    · rw [held_act_of_ne here]

theorem Alike.undisturbed (h : Alike u (s.act question) s) : s.Undisturbed question u := by
  intro later i
  have after := h.foldl_act steady later
  have values := after.ofKind_eq i (F.kindOf u)
  exact ⟨Registry.value_get_congr steady values (after.tells i) _ _,
    Registry.value_getAll_congr steady values (after.tells i) _ _⟩

/-- After a question that disturbs a type, the type is told its default only if it was the one asked for. -/
theorem Disturbs.value_get (h : Disturbs (s.held question.place) t u) (listed : s.Listed l)
    (asks : question.asks? = some t) (calls : Nat) :
    (((s.act question).held question.place).get u calls).value = if t = u then F.default? u 0 else none := by
  obtain ⟨_, answers, -⟩ := answers_act asks s
  have values := (listed.ask asks).ofKind_eq listed question.place (F.kindOf u)
  have bare := values.trans h.first.bare
  rw [Registry.get_of_nil bare, Registry.value_default steady bare, answers.tells_first steady h.kind h.first]

/-- Some question after one that disturbs a type is answered otherwise than without it. -/
theorem Disturbs.not_undisturbed (h : Disturbs (s.held question.place) t u) (listed : s.Listed l)
    (asks : question.asks? = some t) : ¬ s.Undisturbed question u := by
  intro same
  by_cases own : t = u
  -- the type itself was asked for, which keeps another one, asked for next, from deciding the kind
  · obtain ⟨v, kind, other⟩ := h.shared
    have unasked : Disturbs (s.held (Act.get question.place v : Act F).place) v u := ⟨kind, h.first, h.given, h.shared⟩
    have decided : ¬ Disturbs ((s.act question).held question.place) v u := by
      obtain ⟨_, answers, -⟩ := answers_act asks s
      exact fun again => again.first.unkept ((answers.mem_defaults _).mpr (.inr ⟨h.kind, h.first.bare⟩))
    have asksOther : (Act.get question.place v : Act F).asks? = some v := rfl
    have asked := (alike_ask steady (listed.ask asks) asksOther decided).undisturbed steady [] question.place
    have untold := unasked.value_get steady listed asksOther
    have differ := (same [.get question.place v] question.place).1
    refine h.given ?_
    calc F.default? u 0
        = (((s.act question).held question.place).get u _).value := by
          rw [h.value_get steady listed asks, if_pos own]
      _ = _ := asked.1.symm
      _ = _ := differ
      _ = none := (untold _).trans (if_neg other)
  · have differ := (same [] question.place).1
    refine h.given ?_
    calc F.default? u 0
        = ((s.held question.place).get u (s.made u)).value := by
          rw [Registry.get_of_nil h.first.bare, Registry.value_default steady h.first.bare, h.first.tells_eq]
      _ = _ := differ.symm
      _ = none := by
          refine (h.value_get steady listed asks _).trans ?_
          rw [if_neg own]

/-- **Questions that make no difference.** Let a type always give the same default. Whatever was done, a question makes
no difference to what the type is told ever after, at whatever place, exactly when it does not disturb it: when it is
about another kind, or its kind is decided already, or the type has no default or is alone in its kind. A question
for another type that does disturb it takes its default away: the type is told nothing next, where it would have been
told its default. -/
theorem reads_undisturbed (acts : List (Act F)) (asks : question.asks? = some t) :
    ((after acts).Undisturbed question u ↔ ¬ Disturbs ((after acts).held question.place) t u) ∧
      (Disturbs ((after acts).held question.place) t u → t ≠ u → ∀ calls,
        ((((after acts).act question).held question.place).get u calls).value = none ∧
          (((after acts).held question.place).get u calls).value = F.default? u 0) := by
  have listed := listed_after acts
  refine ⟨⟨fun same disturbs => disturbs.not_undisturbed steady listed asks same,
    fun quiet => (alike_ask steady listed asks quiet).undisturbed steady⟩, fun disturbs other calls => ⟨?_, ?_⟩⟩
  · rw [disturbs.value_get steady listed asks, if_neg other]
  · rw [Registry.get_of_nil disturbs.first.bare, Registry.value_default steady disturbs.first.bare,
      disturbs.first.tells_eq]

end Steady

/-- A label is added, so that a question for it does not decide what a number of the same kind is told. -/
theorem reads_undisturbed_filled :
    let acts : List (Act standardOptions) := [.add 0 (.label "a")]
    let question : Act standardOptions := .get 0 OptionTy.label
    (∀ calls, standardOptions.default? OptionTy.clash calls = standardOptions.default? OptionTy.clash 0) ∧
      question.asks? = some OptionTy.label ∧ (after acts).Undisturbed question OptionTy.clash := by
  intro acts question
  have steady : ∀ calls, standardOptions.default? OptionTy.clash calls =
      standardOptions.default? OptionTy.clash 0 := fun _ => rfl
  have asks : question.asks? = some (OptionTy.label : standardOptions.Ty) := rfl
  refine ⟨steady, asks, (reads_undisturbed steady acts asks).1.mpr fun disturbs => ?_⟩
  have values : ((after acts).held 0).ofKind "label" = [OptionValue.label "a"] := by
    refine Registry.ofKind_of_mem_toList ?_
    rw [(listed_after acts 0).2]
    exact List.mem_singleton_self _
  cases disturbs.first.bare.symm.trans values

/-- Nothing is added, and a question for a label takes the default away from a number of the same kind. -/
theorem reads_disturbed :
    let s := after (F := standardOptions) []
    let question : Act standardOptions := .get 0 OptionTy.label
    (∀ t ∈ [OptionTy.label, OptionTy.clash], ∀ calls,
      standardOptions.default? t calls = standardOptions.default? t 0) ∧
      (((s.act question).held 0).get OptionTy.clash 0).value = none ∧
      ((s.held 0).get OptionTy.clash 0).value = some (OptionValue.clash 99) ∧
      ¬ s.Undisturbed question OptionTy.clash := by
  intro s question
  have steady : ∀ calls, standardOptions.default? OptionTy.clash calls =
      standardOptions.default? OptionTy.clash 0 := fun _ => rfl
  have disturbs : Disturbs (s.held 0) (OptionTy.label : standardOptions.Ty) OptionTy.clash :=
    ⟨rfl, ⟨HashMap.getD_empty, HashMap.not_mem_empty⟩, nofun, OptionTy.label, rfl, nofun⟩
  refine ⟨by simp [standardOptions], ?_, ?_, ?_⟩
  · have asks : question.asks? = some (OptionTy.label : standardOptions.Ty) := rfl
    exact disturbs.value_get steady (listed_after []) asks 0
  · exact Registry.get_empty standardOptions OptionTy.clash 0 ▸ rfl
  · exact disturbs.not_undisturbed steady (listed_after []) rfl

end Registries

end Muster
