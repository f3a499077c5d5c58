import Mathlib.Data.List.Basic
import Muster.Proofs.Text.Digits
import Muster.Proofs.Timestamp.Calendar

/-!
# Points in time, read back

* `Timestamp.readNumber_digits`, `Timestamp.readField_padded`: numbers in a row of digits are read as they were
  written.
* `Timestamp.readDate_text`, `Timestamp.readTime_text`: so are a date and a time of day.
* `Timestamp.Proper`: the year has four digits, and leap seconds come last in their minutes.
* **`Timestamp.ofText?_text`**: a proper point in time is read back from its text.
* `Timestamp.leap_of_ofText?`: what is read has its leap seconds last in their minutes, so in years of four
  digits no others are read back (`Timestamp.ofText?_text_iff`).
-/

namespace Muster.Timestamp

/-! ### Numbers -/

theorem digit?_of_isDigit {c : Char} (h : c.isDigit = true) : digit? c = some (c.toNat - 48) :=
  if_pos (Text.isDigit_iff.mpr h)

theorem isSome_digit? (c : Char) : (digit? c).isSome = c.isDigit := by
  cases h : c.isDigit with
  | true => rw [digit?_of_isDigit h]; rfl
  | false =>
    have none : digit? c = none :=
      if_neg fun inside => Bool.false_ne_true (h.symm.trans (Text.isDigit_iff.mp inside))
    rw [none]
    rfl

/-- Digits add up to the number that they write. -/
theorem foldl_digits {ds : List Char} (digits : ∀ c ∈ ds, c.isDigit = true) (n : Nat) :
    ds.foldl (fun n c => 10 * n + (digit? c).getD 0) n = Nat.ofDigitChars 10 ds n := by
  induction ds generalizing n with
  | nil => rfl
  | cons c ds ih =>
    rw [List.foldl_cons, Nat.ofDigitChars_cons, digit?_of_isDigit (digits c List.mem_cons_self),
      ih fun d hd => digits d (List.mem_cons_of_mem c hd)]
    rfl

/-- A row of digits is read as a whole when no more may be read, or when no digit follows. -/
theorem readNumber_digits {width : Nat} {ds rest : List Char} (digits : ∀ c ∈ ds, c.isDigit = true)
    (some : ds ≠ []) (fits : ds.length ≤ width)
    (ends : ds.length = width ∨ ∀ c ∈ rest.head?, c.isDigit = false) :
    readNumber width (ds ++ rest) = .some (Nat.ofDigitChars 10 ds 0, rest) := by
  have taken : ((ds ++ rest).take width).takeWhile (fun c => (digit? c).isSome) = ds := by
    have own : ∀ c ∈ ds, (digit? c).isSome = true := fun c hc => (isSome_digit? c).trans (digits c hc)
    rw [List.take_append, List.take_of_length_le fits, List.takeWhile_append_of_pos own]
    suffices none : (rest.take (width - ds.length)).takeWhile (fun c => (digit? c).isSome) = [] by
      rw [none, List.append_nil]
    rcases ends with full | apart
    · rw [full, Nat.sub_self, List.take_zero, List.takeWhile_nil]
    · cases rest with
      | nil => rw [List.take_nil, List.takeWhile_nil]
      | cons c cs =>
        cases width - ds.length with
        | zero => rfl
        | succ n => rw [List.take_succ_cons, List.takeWhile_cons, isSome_digit?, apart c rfl]; rfl
  unfold readNumber
  dsimp only
  rw [taken, if_neg (by rw [List.isEmpty_iff]; exact some), foldl_digits digits, List.drop_left]

/-- A number with zeros in front is a row of as many digits as it should have. -/
theorem padded_digits {width n : Nat} (small : n < 10 ^ width) (some : 0 < width) :
    (padded width n).toList.length = width ∧ (∀ c ∈ (padded width n).toList, c.isDigit = true) ∧
      Nat.ofDigitChars 10 (padded width n).toList 0 = n := by
  have short : (Nat.toDigits 10 n).length ≤ width := (Nat.length_toDigits_le_iff (by decide) some).mpr small
  unfold padded
  rw [String.toList_ofList]
  refine ⟨?_, fun c hc => ?_, ?_⟩
  · rw [List.length_append, List.length_replicate, Nat.sub_add_cancel short]
  · rcases List.mem_append.mp hc with zero | digit
    · rw [List.eq_of_mem_replicate zero]
      rfl
    · exact Nat.isDigit_of_mem_toDigits (by decide) (by decide) digit
  · rw [Nat.ofDigitChars_append, Nat.ofDigitChars_replicate_zero, Nat.mul_zero,
      Nat.ofDigitChars_ten_toDigits]

/-- Nothing is skipped in front of a row of digits. -/
theorem skipBlanks_padded {width n : Nat} (small : n < 10 ^ width) (some : 0 < width) (rest : List Char) :
    skipBlanks ((padded width n).toList ++ rest) = (padded width n).toList ++ rest := by
  obtain ⟨length, digits, -⟩ := padded_digits small some
  obtain ⟨c, cs, written⟩ := List.exists_cons_of_length_pos (l := (padded width n).toList) (by omega)
  unfold skipBlanks
  rw [written, List.cons_append, List.dropWhile_cons,
    Text.isBlank_of_isDigit (digits c (written ▸ List.mem_cons_self))]
  rfl

theorem readNumber_padded {width n : Nat} (small : n < 10 ^ width) (some : 0 < width) (rest : List Char) :
    readNumber width ((padded width n).toList ++ rest) = .some (n, rest) := by
  obtain ⟨length, digits, value⟩ := padded_digits small some
  have written : (padded width n).toList ≠ [] := List.ne_nil_of_length_pos (by omega)
  rw [readNumber_digits digits written (Nat.le_of_eq length) (.inl length), value]

/-- A number of two digits is read when it lies between the bounds. -/
theorem readField_padded {low high n : Nat} (above : low ≤ n) (below : n ≤ high) (small : n < 100)
    (rest : List Char) : readField low high ((padded 2 n).toList ++ rest) = some (n, rest) := by
  unfold readField
  rw [skipBlanks_padded small (by decide), readNumber_padded small (by decide)]
  dsimp only [Option.bind_eq_bind, Option.bind_some]
  rw [if_pos ⟨above, below⟩]

theorem readYear_padded {y : Int} (low : 0 ≤ y) (high : y ≤ 9999) (rest : List Char) :
    readYear ((yearText y).toList ++ rest) = some (y, rest) := by
  have small : y.toNat < 10 ^ 4 := by omega
  have back : ((y.toNat : Nat) : Int) = y := Int.toNat_of_nonneg low
  obtain ⟨length, digits, -⟩ := padded_digits small (by decide)
  unfold yearText readYear
  rw [if_pos ⟨low, high⟩, skipBlanks_padded small (by decide)]
  have number := readNumber_padded small (by decide) rest
  obtain ⟨c, cs, written⟩ := List.exists_cons_of_length_pos (l := (padded 4 y.toNat).toList) (by omega)
  have digit := digits c (written ▸ List.mem_cons_self)
  rw [written, List.cons_append] at number ⊢
  split
  · rename_i sign
    cases sign
    exact absurd digit (by decide)
  · rename_i sign
    cases sign
    exact absurd digit (by decide)
  · rw [number, Option.map_some]
    exact congrArg (fun z => some (z, rest)) back

theorem readMark_cons {c : Char} (visible : Text.isBlank c = false) (rest : List Char) :
    readMark c (c :: rest) = some rest := by
  unfold readMark skipBlanks
  rw [List.dropWhile_cons, visible]
  exact if_pos rfl

/-! ### Dates and times of day -/

/-- The date of a day is read as it was written. -/
theorem readDate_text (days : Int) (low : 0 ≤ (dateOf days).year) (high : (dateOf days).year ≤ 9999)
    (rest : List Char) :
    readDate ((yearText (dateOf days).year).toList ++ '-' :: ((padded 2 (dateOf days).month).toList ++
      '-' :: ((padded 2 (dateOf days).day).toList ++ rest))) = some (dateOf days, rest) := by
  obtain ⟨month, twelve, day, within⟩ := dateOf_proper days
  have days31 : (dateOf days).day ≤ 31 := by
    refine Nat.le_trans within ?_
    unfold daysInMonth
    split
    · split <;> decide
    · split <;> decide
  unfold readDate
  rw [readYear_padded low high]
  dsimp only [Option.bind_eq_bind, Option.bind_some]
  rw [readMark_cons (by decide), Option.bind_some, readField_padded month twelve (by omega)]
  dsimp only [Option.bind_some]
  rw [readMark_cons (by decide), Option.bind_some, readField_padded day days31 (by omega)]
  dsimp only [Option.bind_some]
  have range : yearInRange (dateOf days).year = true := by
    unfold yearInRange
    rw [Bool.and_eq_true, decide_eq_true_eq, decide_eq_true_eq]
    omega
  rw [if_pos ⟨range, within⟩]

/-- Digits behind a point count as parts of a second. -/
theorem readFraction_padded {width n : Nat} (small : n < 10 ^ width) (some : 0 < width) (fits : width ≤ 9)
    (rest : List Char) (ends : ∀ c ∈ rest.head?, c.isDigit = false) :
    readFraction ('.' :: ((padded width n).toList ++ rest)) = .some (n * tenTo (9 - width), rest) := by
  obtain ⟨length, digits, value⟩ := padded_digits small some
  have written : (padded width n).toList ≠ [] := List.ne_nil_of_length_pos (by omega)
  have after : rest.dropWhile (fun c => (digit? c).isSome) = rest := by
    cases rest with
    | nil => rfl
    | cons c cs => rw [List.dropWhile_cons, isSome_digit?, ends c rfl]; rfl
  simp only [readFraction]
  rw [readNumber_digits digits written (by omega) (.inr ends), value]
  dsimp only [Option.bind_eq_bind, Option.bind_some]
  rw [after, List.length_append, Nat.add_sub_cancel, length]

/-- The fraction of a second is read as it was written, in as many digits as it needs. -/
theorem readFraction_text {n : Nat} (small : n < 1000000000) :
    readFraction ((fractionText n).toList ++ ['Z']) = some (n, ['Z']) := by
  have ends : ∀ c ∈ (['Z'] : List Char).head?, c.isDigit = false := by
    intro c hc
    cases hc
    rfl
  have point : ".".toList = ['.'] := rfl
  unfold fractionText
  split
  · rename_i zero
    rw [zero]
    rfl
  split
  · rename_i millis
    rw [String.toList_append, point, List.append_assoc, List.singleton_append]
    refine (readFraction_padded (by omega) (by decide) (by decide) ['Z'] ends).trans ?_
    rw [show tenTo (9 - 3) = 1000000 by decide, Nat.div_mul_cancel (Nat.dvd_of_mod_eq_zero millis)]
  split
  · rename_i micros
    rw [String.toList_append, point, List.append_assoc, List.singleton_append]
    refine (readFraction_padded (by omega) (by decide) (by decide) ['Z'] ends).trans ?_
    rw [show tenTo (9 - 6) = 1000 by decide, Nat.div_mul_cancel (Nat.dvd_of_mod_eq_zero micros)]
  · rw [String.toList_append, point, List.append_assoc, List.singleton_append]
    refine (readFraction_padded (by omega) (by decide) (by decide) ['Z'] ends).trans ?_
    rw [show tenTo (9 - 9) = 1 by decide, Nat.mul_one]

/-- The time of day is read as it was written; a leap second is the sixty-first of its minute. -/
theorem readTime_text {s leap n : Nat} (within : s < 86400) (small : n < 1000000000)
    (last : leap = 0 ∨ leap = 1 ∧ s % 60 = 59) :
    readTime ((padded 2 (s / 3600)).toList ++ ':' :: ((padded 2 (s % 3600 / 60)).toList ++
      ':' :: ((padded 2 (s % 60 + leap)).toList ++ ((fractionText n).toList ++ ['Z'])))) =
        some ((s, n + leap * 1000000000), ['Z']) := by
  unfold readTime
  rw [readField_padded (Nat.zero_le _) (by omega) (by omega)]
  dsimp only [Option.bind_eq_bind, Option.bind_some]
  rw [readMark_cons (by decide), Option.bind_some, readField_padded (Nat.zero_le _) (by omega) (by omega)]
  dsimp only [Option.bind_some]
  rw [readMark_cons (by decide), Option.bind_some, readField_padded (Nat.zero_le _) (by omega) (by omega)]
  dsimp only [Option.bind_some]
  rw [readFraction_text small]
  dsimp only [Option.bind_some]
  rcases last with rfl | ⟨rfl, last⟩
  · rw [if_neg (by omega)]
    congr 3
    omega
  · rw [if_pos (by omega)]
    congr 3
    omega

/-! ### Points in time -/

/-- The year has four digits, and a second that is not over after its nanoseconds is a leap second, the
last of its minute. -/
structure Proper (t : Timestamp) : Prop where
  year : 0 ≤ (dateOf (t.seconds.fdiv 86400)).year ∧ (dateOf (t.seconds.fdiv 86400)).year ≤ 9999
  nanos : t.nanos < 2000000000
  leap : 1000000000 ≤ t.nanos → t.seconds.fmod 60 = 59

/-- The characters of a point in time. -/
theorem toList_text (t : Timestamp) : t.text.toList =
    (yearText (dateOf (t.seconds.fdiv 86400)).year).toList ++
    '-' :: ((padded 2 (dateOf (t.seconds.fdiv 86400)).month).toList ++
    '-' :: ((padded 2 (dateOf (t.seconds.fdiv 86400)).day).toList ++
    'T' :: ((padded 2 ((t.seconds.fmod 86400).toNat / 3600)).toList ++
    ':' :: ((padded 2 ((t.seconds.fmod 86400).toNat % 3600 / 60)).toList ++
    ':' :: ((padded 2 ((t.seconds.fmod 86400).toNat % 60 + if t.nanos ≥ 1000000000 then 1 else 0)).toList ++
    ((fractionText (t.nanos % 1000000000)).toList ++ ['Z'])))))) := by
  have marks : "-".toList = ['-'] ∧ ":".toList = [':'] ∧ "T".toList = ['T'] ∧ "Z".toList = ['Z'] :=
    ⟨rfl, rfl, rfl, rfl⟩
  unfold text
  simp only [String.toList_append, marks, List.append_assoc, List.cons_append, List.nil_append]

/-- **Points in time.** A proper point in time is read back from its text. -/
theorem ofText?_text {t : Timestamp} (proper : t.Proper) : ofText? t.text = some t := by
  obtain ⟨⟨low, high⟩, nanos, leap⟩ := proper
  have days : t.seconds.fdiv 86400 = t.seconds / 86400 := Int.fdiv_eq_ediv_of_nonneg _ (by decide)
  have second : t.seconds.fmod 86400 = t.seconds % 86400 := Int.fmod_eq_emod_of_nonneg _ (by decide)
  have minute : t.seconds.fmod 60 = t.seconds % 60 := Int.fmod_eq_emod_of_nonneg _ (by decide)
  have last : (if t.nanos ≥ 1000000000 then 1 else 0) = 0 ∨
      (if t.nanos ≥ 1000000000 then 1 else 0) = 1 ∧ (t.seconds.fmod 86400).toNat % 60 = 59 := by
    split
    · rename_i late
      have := leap late
      exact .inr ⟨rfl, by omega⟩
    · exact .inl rfl
  have zone : readOffset (skipBlanks ['Z']) = some (0, []) := by decide
  have total : daysOf (dateOf (t.seconds.fdiv 86400)) * 86400 + ((t.seconds.fmod 86400).toNat : Int) - 0 =
      t.seconds := by
    rw [daysOf_dateOf, days, second]
    omega
  have range : yearInRange (dateOf (t.seconds.fdiv 86400)).year = true := by
    unfold yearInRange
    rw [Bool.and_eq_true, decide_eq_true_eq, decide_eq_true_eq]
    omega
  have parts : t.nanos % 1000000000 + (if t.nanos ≥ 1000000000 then 1 else 0) * 1000000000 = t.nanos := by
    split <;> omega
  unfold ofText?
  rw [toList_text, readDate_text _ low high]
  dsimp only [Option.bind_eq_bind, Option.bind_some]
  rw [if_pos (by decide), readTime_text (by omega) (Nat.mod_lt _ (by decide)) last]
  dsimp only [Option.bind_some]
  rw [zone]
  dsimp only [Option.bind_some]
  rw [if_neg (by decide), total, if_pos range, parts]

/-! ### What is read -/

section Read

variable {cs rest : List Char} {n : Nat}

/-- A number is read from a row of digits in front, no longer than it may be. -/
theorem readNumber_bounds {width : Nat} (h : readNumber width cs = some (n, rest)) :
    ∃ ds, cs = ds ++ rest ∧ ds.length ≤ width ∧ n < 10 ^ ds.length := by
  unfold readNumber at h
  dsimp only at h
  split at h
  · cases h
  · cases h
    have front := (List.takeWhile_prefix (l := cs.take width) fun c => (digit? c).isSome).trans
      (List.take_prefix width cs)
    have digits : ∀ c ∈ (cs.take width).takeWhile (fun c => (digit? c).isSome), c.isDigit = true :=
      fun c hc => (isSome_digit? c).symm.trans (List.all_eq_true.mp List.all_takeWhile c hc)
    refine ⟨_, (List.prefix_iff_eq_append.mp front).symm, ?_, ?_⟩
    · exact Nat.le_trans (List.takeWhile_prefix _).length_le (List.length_take_le ..)
    · rw [foldl_digits digits]
      exact Nat.lt_of_lt_of_eq (Text.ofDigitChars_lt digits 0) (by rw [Nat.zero_add, Nat.one_mul])

/-- Parts of a second make no full second. -/
theorem readFraction_lt (h : readFraction cs = some (n, rest)) : n < 1000000000 := by
  unfold readFraction at h
  split at h
  · rename_i cs
    rw [Option.bind_eq_bind, Option.bind_eq_some_iff] at h
    obtain ⟨⟨m, left⟩, number, h⟩ := h
    obtain ⟨ds, rfl, short, small⟩ := readNumber_bounds number
    dsimp only at h
    rw [List.length_append, Nat.add_sub_cancel] at h
    cases h
    have whole : 10 ^ ds.length * tenTo (9 - ds.length) = 1000000000 := by
      show 10 ^ ds.length * 10 ^ (9 - ds.length) = 1000000000
      rw [← Nat.pow_add, Nat.add_sub_cancel' short]
    exact whole ▸ Nat.mul_lt_mul_of_pos_right small (tenTo_pos _)
  · cases h
    decide

/-- A leap second is read as the last second of its minute. -/
theorem readTime_leap {s : Nat} (h : readTime cs = some ((s, n), rest)) :
    n < 2000000000 ∧ (1000000000 ≤ n → s % 60 = 59) := by
  unfold readTime at h
  simp only [Option.bind_eq_bind, Option.bind_eq_some_iff, Prod.exists] at h
  obtain ⟨hours, _, -, _, -, minutes, _, -, _, -, seconds, _, -, parts, _, fraction, h⟩ := h
  have small := readFraction_lt fraction
  split at h
  · cases h
    omega
  · cases h
    omega

theorem readOffsetDigits_minutes (h : readOffsetDigits cs = some (n, rest)) : n % 60 = 0 := by
  unfold readOffsetDigits at h
  simp only [Option.bind_eq_bind, Option.bind_eq_some_iff, Prod.exists] at h
  obtain ⟨hours, _, -, minutes, _, -, h⟩ := h
  split at h
  · cases h
    omega
  · cases h

/-- Offsets are whole minutes. -/
theorem readOffset_minutes {o : Int} (h : readOffset cs = some (o, rest)) : o % 60 = 0 := by
  have whole {cs : List Char} (signed : Nat → Int) (sign : ∀ n, signed n = n ∨ signed n = -n)
      (h : (readOffsetDigits cs).map (fun p => (signed p.1, p.2)) = some (o, rest)) : o % 60 = 0 := by
    obtain ⟨⟨n, left⟩, digits, same⟩ := Option.map_eq_some_iff.mp h
    have minutes := readOffsetDigits_minutes digits
    have either : o = n ∨ o = -n := by
      cases same
      exact sign n
    omega
  unfold readOffset at h
  split at h
  · cases h
    rfl
  · cases h
    rfl
  · exact whole (fun n => n) (fun _ => .inl rfl) h
  · exact whole (fun n => -n) (fun _ => .inr rfl) h
  · exact whole (fun n => -n) (fun _ => .inr rfl) h
  · split at h
    · cases h
      rfl
    · cases h
  · cases h

/-- **Leap seconds.** Whatever text a point in time is read from, its leap seconds come last in their minutes. -/
theorem leap_of_ofText? {s : String} {t : Timestamp} (h : ofText? s = some t) :
    t.nanos < 2000000000 ∧ (1000000000 ≤ t.nanos → t.seconds.fmod 60 = 59) := by
  unfold ofText? at h
  rw [Option.bind_eq_bind, Option.bind_eq_some_iff] at h
  obtain ⟨⟨date, _⟩, -, h⟩ := h
  dsimp only at h
  split at h
  · split at h
    · simp only [Option.bind_eq_bind, Option.bind_some, Option.bind_eq_some_iff, Prod.exists] at h
      obtain ⟨seconds, nanos, _, time, offset, _, zone, h⟩ := h
      have minutes := readOffset_minutes zone
      have leap := readTime_leap time
      split at h
      · cases h
      split at h
      · cases h
        refine ⟨leap.1, fun late => ?_⟩
        have last := leap.2 late
        rw [Int.fmod_eq_emod_of_nonneg _ (by decide)]
        dsimp only
        omega
      · cases h
    · cases h
  · cases h

end Read

/-- In a year of four digits, the points in time that are read back from their texts are the proper ones. -/
theorem ofText?_text_iff {t : Timestamp}
    (year : 0 ≤ (dateOf (t.seconds.fdiv 86400)).year ∧ (dateOf (t.seconds.fdiv 86400)).year ≤ 9999) :
    ofText? t.text = some t ↔ t.Proper := by
  refine ⟨fun read => ?_, ofText?_text⟩
  obtain ⟨nanos, leap⟩ := leap_of_ofText? read
  exact ⟨year, nanos, leap⟩

end Muster.Timestamp
