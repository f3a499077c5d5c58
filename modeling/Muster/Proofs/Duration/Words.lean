import Mathlib.Algebra.Ring.Nat
import Mathlib.Data.List.Basic
import Muster.Duration.Words
import Muster.Proofs.Text.Digits

/-!
# Spans of time in words, read back

* `Duration.readAmount_digits`: digits in a row make the number that they write.
* `Duration.addAmount?_whole`: adding a whole number of units, as long as the sum stays below the limit.
* `Duration.readSum_spelled`: reading numbers with units, one after the other, adds all of them up.
* **`Duration.ofWords?_words`**: a span whose seconds have 64 bits is read back from its words.
-/

namespace Muster.Duration

/-! ### Units -/

namespace Unit

/-- The shortest word for a unit. -/
def word : Unit → String
  | nanosecond => "ns"
  | microsecond => "us"
  | millisecond => "ms"
  | second => "s"
  | minute => "m"
  | hour => "h"
  | day => "day"
  | week => "week"
  | month => "month"
  | year => "year"

/-- Whether the word for a unit has a plural. -/
def counts : Unit → Bool
  | day | week | month | year => true
  | nanosecond | microsecond | millisecond | second | minute | hour => false

/-- The word for a number of units. -/
def label (u : Unit) (n : Nat) : String := if u.counts && 1 < n then u.word ++ "s" else u.word

/-- The characters of the word for a number of units name the unit, and nothing else is among them. -/
theorem label_names (u : Unit) (n : Nat) :
    ofWord? (u.label n) = some u ∧ (u.label n).toList ≠ [] ∧
      ∀ c ∈ (u.label n).toList, isUnitChar c = true ∧ c.isDigit = false ∧ Text.isBlank c = false := by
  obtain ⟨word, some, chars⟩ : ofWord? (u.label n) = some u ∧ (u.label n).toList ≠ [] ∧
      (u.label n).toList.all (fun c => isUnitChar c && !c.isDigit && !Text.isBlank c) = true := by
    unfold label
    split
    · rename_i plural
      have counted := (Bool.and_eq_true_iff.mp plural).1
      clear plural
      revert counted
      cases u <;> decide
    · cases u <;> decide
  refine ⟨word, some, fun c hc => ?_⟩
  have holds := List.all_eq_true.mp chars c hc
  rw [Bool.and_eq_true, Bool.and_eq_true, Bool.not_eq_true', Bool.not_eq_true'] at holds
  exact ⟨holds.1.1, holds.1.2, holds.2⟩

theorem nanos_eq (u : Unit) : u.nanos / u.wholeStep * u.wholeStep = u.nanos := by cases u <;> decide

theorem wholeStep_eq (u : Unit) : u.wholeStep = 1 ∨ u.wholeStep = perSecond := by cases u <;> decide

end Unit

/-! ### Numbers -/

theorem digit?_of_isDigit {c : Char} (h : c.isDigit = true) : digit? c = some (c.toNat - 48) :=
  if_pos (Text.isDigit_iff.mpr h)

theorem digit?_eq_none {c : Char} (h : c.isDigit = false) : digit? c = none :=
  if_neg fun inside => Bool.false_ne_true (h.symm.trans (Text.isDigit_iff.mp inside))

theorem bounded?_of_lt {n : Nat} (h : n < wordLimit) : bounded? n = some n := if_pos h

/-- Digits in a row make the number that they write. -/
theorem readAmount_digits {n : Nat} {ds rest : List Char} (digits : ∀ c ∈ ds, c.isDigit = true)
    (small : Nat.ofDigitChars 10 ds n < wordLimit) :
    readAmount n (ds ++ rest) = readAmount (Nat.ofDigitChars 10 ds n) rest := by
  induction ds generalizing n with
  | nil => rfl
  | cons c ds ih =>
    rw [Nat.ofDigitChars_cons] at small ⊢
    have bound : n * 10 + (c.toNat - 48) < wordLimit := by
      rw [Nat.mul_comm]
      exact Nat.lt_of_le_of_lt (Text.le_ofDigitChars ds _) small
    rw [List.cons_append, readAmount, digit?_of_isDigit (digits c List.mem_cons_self)]
    dsimp only
    rw [bounded?_of_lt bound, Nat.mul_comm n 10]
    exact ih (fun d hd => digits d (List.mem_cons_of_mem c hd)) small

/-- A number ends where the word for its unit begins. -/
theorem readAmount_label (n k : Nat) (u : Unit) (rest : List Char) :
    readAmount k ((u.label n).toList ++ rest) = some (⟨k, none⟩, (u.label n).toList ++ rest) := by
  obtain ⟨-, some, chars⟩ := u.label_names n
  obtain ⟨c, cs, label⟩ := List.exists_cons_of_ne_nil some
  obtain ⟨unit, digit, blank⟩ := chars c (label ▸ List.mem_cons_self)
  rw [label, List.cons_append, readAmount, digit?_eq_none digit]
  dsimp only
  rw [blank, if_neg Bool.false_ne_true, if_pos unit]

/-! ### Sums -/

/-- Adding nanoseconds to a span, in whole seconds or below a second. -/
theorem plus?_eq {d : Duration} {nanos step : Nat}
    (parts : step = 1 ∧ nanos < perSecond ∨ step ≠ 1 ∧ nanos % perSecond = 0)
    (fits : (d.nanos + nanos) / perSecond < wordLimit) : d.plus? nanos step = some ⟨d.nanos + nanos⟩ := by
  have limit : wordLimit = 18446744073709551616 := by decide
  unfold perSecond at parts fits
  unfold plus? seconds subsecond ofParts perSecond
  rcases parts with ⟨rfl, small⟩ | ⟨coarse, whole⟩
  · rw [if_pos rfl]
    dsimp only
    rw [bounded?_of_lt (by omega)]
    dsimp only [Option.bind_eq_bind, Option.bind_some]
    rw [bounded?_of_lt (by omega)]
    dsimp only [Option.bind_some]
    congr 2
    omega
  · rw [if_neg coarse]
    dsimp only
    rw [bounded?_of_lt (by omega)]
    dsimp only [Option.bind_eq_bind, Option.bind_some]
    rw [bounded?_of_lt (by omega)]
    dsimp only [Option.bind_some]
    congr 2
    omega

/-- A number of units below a second stays below a second. -/
def Fine (n : Nat) (u : Unit) : Prop := u.wholeStep = 1 → n * u.nanos < perSecond

/-- Adding a whole number of units, as long as the sum stays below the limit. -/
theorem addAmount?_whole {d : Duration} {n : Nat} {u : Unit} (fine : Fine n u)
    (fits : (d.nanos + n * u.nanos) / perSecond < wordLimit) :
    d.addAmount? ⟨n, none⟩ u = some ⟨d.nanos + n * u.nanos⟩ := by
  have limit : wordLimit = 18446744073709551616 := by decide
  have steps : n * (u.nanos / u.wholeStep) * u.wholeStep = n * u.nanos := by
    rw [Nat.mul_assoc, u.nanos_eq]
  have count : n * (u.nanos / u.wholeStep) < wordLimit := by
    rcases u.wholeStep_eq with one | coarse
    · have small := fine one
      unfold perSecond at small
      rw [one, Nat.div_one]
      omega
    · rw [coarse] at steps ⊢
      unfold perSecond at steps fits ⊢
      omega
  unfold addAmount?
  dsimp only
  rw [bounded?_of_lt count]
  dsimp only [Option.bind_eq_bind, Option.bind_some]
  rw [steps, plus?_eq _ fits]
  · rfl
  · rcases u.wholeStep_eq with one | coarse
    · exact .inl ⟨one, fine one⟩
    · refine .inr ⟨by rw [coarse]; decide, ?_⟩
      rw [← steps, coarse]
      exact Nat.mul_mod_left _ _

/-- What is left behind the characters of a unit's word. -/
theorem takeWhile_label (n : Nat) (u : Unit) (rest : List Char)
    (apart : ∀ c ∈ rest.head?, isUnitChar c = false) :
    ((u.label n).toList ++ rest).takeWhile isUnitChar = (u.label n).toList ∧
      ((u.label n).toList ++ rest).dropWhile isUnitChar = rest := by
  obtain ⟨-, -, chars⟩ := u.label_names n
  have unit : ∀ c ∈ (u.label n).toList, isUnitChar c = true := fun c hc => (chars c hc).1
  have none : rest.takeWhile isUnitChar = [] ∧ rest.dropWhile isUnitChar = rest := by
    cases rest with
    | nil => exact ⟨rfl, rfl⟩
    | cons c cs =>
      have other := apart c rfl
      rw [List.takeWhile_cons, List.dropWhile_cons, other]
      exact ⟨rfl, rfl⟩
  rw [List.takeWhile_append_of_pos unit, List.dropWhile_append_of_pos unit, none.1, none.2, List.append_nil]
  exact ⟨rfl, rfl⟩

section Sum

variable {d e : Duration} {k n : Nat} {u : Unit} {cs : List Char}

/-- The last number with its unit ends a sum. -/
theorem readSum_last (number : readAmount k cs = some (⟨n, none⟩, (u.label n).toList))
    (adds : d.addAmount? ⟨n, none⟩ u = some e) : readSum d k cs = some e := by
  obtain ⟨word, rest⟩ := takeWhile_label n u [] fun c hc => absurd hc (Option.not_mem_none c)
  rw [List.append_nil] at word rest
  rw [readSum]
  split
  · rename_i none
    cases number.symm.trans none
  · rename_i a left same
    cases number.symm.trans same
    rw [word]
    dsimp only
    rw [String.ofList_toList, (u.label_names n).1]
    dsimp only
    rw [adds]
    dsimp only
    split
    · rfl
    · rename_i c tail more
      cases rest.symm.trans more

/-- After a number with its unit, a blank and a digit, the sum goes on. -/
theorem readSum_next {c : Char} {tail : List Char}
    (number : readAmount k cs = some (⟨n, none⟩, (u.label n).toList ++ ' ' :: c :: tail))
    (digit : c.isDigit = true) (adds : d.addAmount? ⟨n, none⟩ u = some e) :
    readSum d k cs = readSum e (c.toNat - 48) tail := by
  obtain ⟨word, rest⟩ := takeWhile_label n u (' ' :: c :: tail) fun b hb => by
    cases hb
    decide
  have blanks : (c :: tail).dropWhile Text.isBlank = c :: tail := by
    rw [List.dropWhile_cons, Text.isBlank_of_isDigit digit]
    rfl
  rw [readSum]
  split
  · rename_i none
    cases number.symm.trans none
  · rename_i a left same
    cases number.symm.trans same
    rw [word]
    dsimp only
    rw [String.ofList_toList, (u.label_names n).1]
    dsimp only
    rw [adds]
    dsimp only
    split
    · rename_i none
      cases rest.symm.trans none
    · rename_i b after more
      cases rest.symm.trans more
      rw [digit?_eq_none (by decide)]
      dsimp only
      rw [if_pos (by decide)]
      split
      · rename_i none
        cases blanks.symm.trans none
      · rename_i c' tail' next
        cases blanks.symm.trans next
        rw [digit?_of_isDigit digit]

end Sum

/-! ### Numbers with units, one after the other -/

/-- The span that numbers with units make. -/
def total (ps : List (Nat × Unit)) : Nat := (ps.map fun p => p.1 * p.2.nanos).sum

theorem total_nil : total [] = 0 := rfl

theorem total_cons (n : Nat) (u : Unit) (ps : List (Nat × Unit)) :
    total ((n, u) :: ps) = n * u.nanos + total ps := rfl

/-- A number with its unit, in words. -/
def spell (p : Nat × Unit) : List Char := Nat.toDigits 10 p.1 ++ (p.2.label p.1).toList

/-- Numbers with units in words, with blanks between them. -/
def spelled (ps : List (Nat × Unit)) : List Char := [' '].intercalate (ps.map spell)

theorem spelled_singleton (p : Nat × Unit) : spelled [p] = spell p := List.append_nil _

theorem spelled_cons_cons (p q : Nat × Unit) (ps : List (Nat × Unit)) :
    spelled (p :: q :: ps) = spell p ++ ' ' :: spelled (q :: ps) := rfl

/-- **Sums.** Reading numbers with units, one after the other, adds all of them up. -/
theorem readSum_spelled (p : Nat × Unit) (ps : List (Nat × Unit)) (d : Duration)
    (fine : ∀ q ∈ p :: ps, Fine q.1 q.2) (small : ∀ q ∈ p :: ps, q.1 < wordLimit)
    (fits : (d.nanos + total (p :: ps)) / perSecond < wordLimit) :
    ∃ c cs, spelled (p :: ps) = c :: cs ∧ c.isDigit = true ∧ cs ≠ [] ∧
      readSum d (c.toNat - 48) cs = some ⟨d.nanos + total (p :: ps)⟩ := by
  induction ps generalizing p d with
  | nil =>
    obtain ⟨n, u⟩ := p
    obtain ⟨c, cs, written, digit, digits, value⟩ := Text.exists_digits n
    have sum : total [(n, u)] = n * u.nanos := Nat.add_zero _
    have number : readAmount (c.toNat - 48) (cs ++ (u.label n).toList) =
        some (⟨n, none⟩, (u.label n).toList) := by
      have ended := readAmount_label n n u []
      rw [List.append_nil] at ended
      rw [readAmount_digits digits (value.symm ▸ small _ List.mem_cons_self), value, ended]
    rw [sum] at fits ⊢
    refine ⟨c, cs ++ (u.label n).toList, ?_, digit, ?_, ?_⟩
    · rw [spelled_singleton, spell, written, List.cons_append]
    · exact List.append_ne_nil_of_right_ne_nil _ (u.label_names n).2.1
    · exact readSum_last number (addAmount?_whole (fine _ List.mem_cons_self) fits)
  | cons q ps ih =>
    obtain ⟨n, u⟩ := p
    obtain ⟨c, cs, written, digit, digits, value⟩ := Text.exists_digits n
    rw [total_cons, ← Nat.add_assoc] at fits ⊢
    have adds : d.addAmount? ⟨n, none⟩ u = some ⟨d.nanos + n * u.nanos⟩ :=
      addAmount?_whole (fine _ List.mem_cons_self)
        (Nat.lt_of_le_of_lt (Nat.div_le_div_right (Nat.le_add_right _ _)) fits)
    obtain ⟨c', cs', rest, digit', -, read⟩ := ih q ⟨d.nanos + n * u.nanos⟩
      (fun r hr => fine r (List.mem_cons_of_mem _ hr)) (fun r hr => small r (List.mem_cons_of_mem _ hr)) fits
    have number : readAmount (c.toNat - 48) (cs ++ ((u.label n).toList ++ ' ' :: c' :: cs')) =
        some (⟨n, none⟩, (u.label n).toList ++ ' ' :: c' :: cs') := by
      rw [readAmount_digits digits (value.symm ▸ small _ List.mem_cons_self), value, readAmount_label]
    refine ⟨c, cs ++ ((u.label n).toList ++ ' ' :: c' :: cs'), ?_, digit, ?_, ?_⟩
    · rw [spelled_cons_cons, spell, written, rest, List.append_assoc, List.cons_append]
    · refine List.append_ne_nil_of_right_ne_nil _ (List.append_ne_nil_of_left_ne_nil ?_ _)
      exact (u.label_names n).2.1
    · rw [readSum_next number digit' adds]
      exact read

/-! ### The parts of a span -/

/-- The parts of a span, largest unit first. -/
def unitParts (d : Duration) : List (Nat × Unit) :=
  let s := d.seconds
  let inYear := s % 31557600
  let inMonth := inYear % 2630016
  let inDay := inMonth % 86400
  [(s / 31557600, .year), (inYear / 2630016, .month), (inMonth / 86400, .day), (inDay / 3600, .hour),
   (inDay % 3600 / 60, .minute), (inDay % 60, .second), (d.subsecond / 1000000, .millisecond),
   (d.subsecond / 1000 % 1000, .microsecond), (d.subsecond % 1000, .nanosecond)]

theorem wordParts_eq (d : Duration) : d.wordParts = d.unitParts.map fun p => (p.1, p.2.label p.1) := by
  simp only [wordParts, unitParts, List.map_cons, List.map_nil, Unit.label, Unit.counts, Unit.word,
    Bool.true_and, Bool.false_and, decide_eq_true_eq, gt_iff_lt, Bool.false_eq_true, if_false]

/-- The parts of a span make it up. -/
theorem total_unitParts (d : Duration) : total d.unitParts = d.nanos := by
  unfold unitParts
  -- one part at a time: unfolding sum and units at once makes the kernel count up to a year
  rw [total_cons, total_cons, total_cons, total_cons, total_cons, total_cons, total_cons, total_cons,
    total_cons, total_nil]
  simp only [Unit.nanos]
  unfold seconds subsecond perSecond
  omega

theorem fine_unitParts (d : Duration) : ∀ p ∈ d.unitParts, Fine p.1 p.2 := by
  have second : perSecond = 1000000000 := rfl
  unfold unitParts seconds subsecond
  simp only [List.forall_mem_cons, Fine, Unit.wholeStep, Unit.nanos, second]
  refine ⟨?_, ?_, ?_, ?_, ?_, ?_, ?_, ?_, ?_, fun p hp => absurd hp List.not_mem_nil⟩ <;> omega

theorem small_unitParts {d : Duration} (fits : d.seconds < wordLimit) : ∀ p ∈ d.unitParts, p.1 < wordLimit := by
  have limit : wordLimit = 18446744073709551616 := by decide
  have below : d.subsecond < perSecond := Nat.mod_lt _ (by decide)
  have second : perSecond = 1000000000 := rfl
  unfold unitParts
  simp only [List.forall_mem_cons]
  refine ⟨?_, ?_, ?_, ?_, ?_, ?_, ?_, ?_, ?_, fun p hp => absurd hp List.not_mem_nil⟩ <;> omega

/-- Parts that are zero make no difference. -/
theorem total_filter (ps : List (Nat × Unit)) : total (ps.filter (·.1 ≠ 0)) = total ps := by
  induction ps with
  | nil => rfl
  | cons p ps ih =>
    rw [List.filter_cons, total_cons]
    split
    · rw [total_cons, ih]
    · rename_i zero
      have zero : p.1 = 0 := by simpa using zero
      rw [ih, zero, Nat.zero_mul, Nat.zero_add]

/-- The characters of a span in words: those of its parts that are not zero, or of no seconds. -/
theorem toList_words (d : Duration) : ∃ p ps, d.words.toList = spelled (p :: ps) ∧
    (∀ q ∈ p :: ps, q ∈ d.unitParts ∨ q = (0, .second)) ∧ total (p :: ps) = d.nanos := by
  have parts : d.wordParts.filter (·.1 ≠ 0) =
      (d.unitParts.filter (·.1 ≠ 0)).map fun p => (p.1, p.2.label p.1) := by
    rw [wordParts_eq, List.filter_map]
    rfl
  have sum : total (d.unitParts.filter (·.1 ≠ 0)) = d.nanos := by rw [total_filter, total_unitParts]
  have inside : ∀ q ∈ d.unitParts.filter (·.1 ≠ 0), q ∈ d.unitParts := fun q hq => (List.mem_filter.mp hq).1
  unfold words
  rw [parts]
  cases hps : d.unitParts.filter (·.1 ≠ 0) with
  | nil =>
    rw [hps] at sum
    refine ⟨(0, .second), [], rfl, fun q hq => .inr (List.mem_singleton.mp hq), ?_⟩
    rw [← sum]
    rfl
  | cons p ps =>
    rw [hps] at sum inside
    refine ⟨p, ps, ?_, fun q hq => .inl (inside q hq), sum⟩
    rw [List.map_cons]
    dsimp only
    rw [String.toList_intercalate, ← List.map_cons (f := fun p : Nat × Unit => (p.1, p.2.label p.1)),
      List.map_map, List.map_map]
    unfold spelled
    congr 1
    refine List.map_congr_left fun q _ => ?_
    rw [Function.comp_apply, Function.comp_apply, String.toList_append, Nat.toString_eq_ofList_toDigits,
      String.toList_ofList]
    rfl

/-- **Words.** A span whose seconds have 64 bits is read back from its words. -/
theorem ofWords?_words {d : Duration} (fits : d.seconds < wordLimit) : ofWords? d.words = some d := by
  obtain ⟨p, ps, words, parts, sum⟩ := d.toList_words
  obtain ⟨c, cs, spelled, digit, more, read⟩ := readSum_spelled p ps ⟨0⟩ (fun q hq => by
      rcases parts q hq with part | rfl
      · exact d.fine_unitParts q part
      · exact fun one => absurd one (by decide))
    (fun q hq => by
      rcases parts q hq with part | rfl
      · exact small_unitParts fits q part
      · decide)
    (by rw [sum, Nat.zero_add]; exact fits)
  have written : d.words.toList = c :: cs := words.trans spelled
  have long : d.words ≠ "0" := by
    intro same
    rw [same] at written
    exact more (List.cons.inj written).2.symm
  unfold ofWords?
  rw [if_neg long, written, List.dropWhile_cons, Text.isBlank_of_isDigit digit, if_neg Bool.false_ne_true]
  dsimp only
  rw [digit?_of_isDigit digit, Option.bind_some, read, sum, Nat.zero_add]

end Muster.Duration
