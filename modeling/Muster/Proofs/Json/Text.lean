import Mathlib.Algebra.Ring.Nat
import Muster.Json.Reader
import Muster.Json.Writer
import Muster.Proofs.Text.Digits

/-!
# JSON texts, read back

* `Json.readText_escaped`: a text is read back, whatever characters it has.
* `Json.readNumber_toDigits`: so is a whole number of 64 bits.
* `Json.Kept`: the trees that texts keep.
* **`Json.parse?_write`**: a tree that texts keep is read back from its text.
-/

namespace Muster.Json

/-! ### Texts -/

theorem hexValue?_digitChar {d : Nat} (h : d < 16) : hexValue? (Nat.digitChar d) = some d := by
  revert d
  decide

/-- A short escape stands for its character. -/
theorem readUnits_short {e u : Char} (short : shortEscape? e = some u) (tail : List Char) :
    readUnits ('\\' :: e :: tail) = (readUnits tail).map fun p => (u.toNat :: p.1, p.2) := by
  have other : e ≠ 'u' := by
    rintro rfl
    cases short
  rw [readUnits]
  · cases readUnits tail <;> simp [short]
  · exact fun _ _ _ _ _ same => absurd same other

/-- A long escape stands for the code that its last two digits make. -/
theorem readUnits_long {x y : Nat} {a b : Char} (high : hexValue? a = some x) (low : hexValue? b = some y)
    (tail : List Char) : readUnits ('\\' :: 'u' :: '0' :: '0' :: a :: b :: tail) =
      (readUnits tail).map fun p => ((x * 16 + y) :: p.1, p.2) := by
  have zero : hexValue? '0' = some 0 := rfl
  rw [readUnits]
  cases readUnits tail <;> simp [zero, high, low]

/-- Any other character from the blank on stands for itself. -/
theorem readUnits_plain {c : Char} (quote : c ≠ '"') (slash : c ≠ '\\') (visible : 0x20 ≤ c.toNat)
    (tail : List Char) : readUnits (c :: tail) = (readUnits tail).map fun p => (c.toNat :: p.1, p.2) := by
  rw [readUnits]
  · exact if_neg fun bad => bad.elim slash fun low => absurd visible (Nat.not_le.mpr low)
  · exact quote
  · exact fun _ _ _ _ _ same _ => absurd same slash
  · exact fun _ _ same _ => absurd same slash

/-- One character inside a text is read as its code. -/
theorem readUnits_escaped (c : Char) (tail : List Char) :
    readUnits (escaped c ++ tail) = (readUnits tail).map fun p => (c.toNat :: p.1, p.2) := by
  unfold escaped
  dsimp only
  split
  · exact readUnits_short rfl tail
  · exact readUnits_short rfl tail
  · exact readUnits_short rfl tail
  · exact readUnits_short rfl tail
  · exact readUnits_short rfl tail
  · rename_i quote slash _ _ _
    split
    · rename_i low
      rw [Nat.toDigits_of_lt_base low]
      have zero : hexValue? '0' = some 0 := rfl
      have read := readUnits_long zero (hexValue?_digitChar low) tail
      rw [Nat.zero_mul, Nat.zero_add] at read
      exact read
    split
    · rename_i least low
      have high : c.toNat / 16 < 16 := by omega
      have read := readUnits_long (hexValue?_digitChar high)
        (hexValue?_digitChar (Nat.mod_lt c.toNat (by decide))) tail
      rw [Nat.div_add_mod'] at read
      rw [Nat.toDigits_of_base_le (by decide) (Nat.not_lt.mp least), Nat.toDigits_of_lt_base high]
      exact read
    · rename_i visible
      exact readUnits_plain quote slash (Nat.not_lt.mp visible) tail

/-- Codes of characters are joined to these characters, for none is half a pair. -/
theorem joinUnits_codes (cs : List Char) : joinUnits (cs.map Char.toNat) = some cs := by
  have whole (c : Char) : ¬ (0xD800 ≤ c.toNat ∧ c.toNat ≤ 0xDBFF) ∧
      ¬ (0xDC00 ≤ c.toNat ∧ c.toNat ≤ 0xDFFF) ∧ ¬ (0xD800 ≤ c.toNat ∧ c.toNat ≤ 0xDFFF) := by
    have valid : c.toNat < 0xD800 ∨ 0xDFFF < c.toNat ∧ c.toNat < 0x110000 := c.valid
    omega
  induction cs with
  | nil => rfl
  | cons c cs ih =>
    obtain ⟨high, low, either⟩ := whole c
    cases cs with
    | nil =>
      rw [List.map_singleton, joinUnits, if_neg either, Char.ofNat_toNat]
    | cons d ds =>
      rw [List.map_cons] at ih
      rw [List.map_cons, List.map_cons, joinUnits, if_neg high, if_neg low, ih, Option.map_some,
        Char.ofNat_toNat]

/-- **Texts.** A text is read back, whatever characters it has. -/
theorem readText_escaped (s : String) (rest : List Char) :
    readText (s.toList.flatMap escaped ++ '"' :: rest) = some (some s, rest) := by
  have units (cs : List Char) : readUnits (cs.flatMap escaped ++ '"' :: rest) =
      some (cs.map Char.toNat, rest) := by
    induction cs with
    | nil => rfl
    | cons c cs ih => rw [List.flatMap_cons, List.append_assoc, readUnits_escaped, ih]; rfl
  unfold readText
  rw [units, Option.map_some]
  dsimp only
  rw [joinUnits_codes, Option.map_some, String.ofList_toList]

/-! ### Numbers -/

/-- What follows is no part of a number. -/
def Ends (rest : List Char) : Prop :=
  ∀ c ∈ rest.head?, c.isDigit = false ∧ c ≠ '.' ∧ c ≠ 'e' ∧ c ≠ 'E'

/-- The values of digits. -/
def digitValues (ds : List Char) : List Nat := ds.map (·.toNat - 48)

theorem readDigits_append {ds rest : List Char} (digits : ∀ c ∈ ds, c.isDigit = true) (ends : Ends rest) :
    readDigits (ds ++ rest) = (digitValues ds, rest) := by
  induction ds with
  | nil =>
    cases rest with
    | nil => rfl
    | cons c rest =>
      have none : digit? c = none :=
        if_neg fun inside => Bool.false_ne_true ((ends c rfl).1.symm.trans (Text.isDigit_iff.mp inside))
      rw [List.nil_append, readDigits, none]
      rfl
  | cons c ds ih =>
    have digit : digit? c = some (c.toNat - 48) := if_pos (Text.isDigit_iff.mpr (digits c List.mem_cons_self))
    rw [List.cons_append, readDigits, digit, ih fun d hd => digits d (List.mem_cons_of_mem c hd)]
    rfl

theorem valueOf_digitValues (ds : List Char) :
    Numeral.valueOf (digitValues ds) = Nat.ofDigitChars 10 ds 0 := by
  unfold Numeral.valueOf digitValues
  rw [List.foldl_map, Nat.ofDigitChars_eq_foldl]
  rfl

/-- A number with several digits does not begin with a zero. -/
theorem toDigits_head {n : Nat} {cs : List Char} (written : Nat.toDigits 10 n = '0' :: cs) : cs = [] := by
  have value : Nat.ofDigitChars 10 (Nat.toDigits 10 n) 0 = n := Nat.ofDigitChars_ten_toDigits
  have digits : ∀ c ∈ Nat.toDigits 10 n, c.isDigit = true := fun c hc =>
    Nat.isDigit_of_mem_toDigits (by decide) (by decide) hc
  rw [written] at value digits
  by_contra some
  have small := Text.ofDigitChars_lt (fun c hc => digits c (List.mem_cons_of_mem '0' hc)) 0
  rw [Nat.ofDigitChars_cons] at value
  have short := (Nat.length_toDigits_le_iff (b := 10) (by decide) (List.length_pos_iff.mpr some)).mpr
    (show n < 10 ^ cs.length by rw [← value]; simpa using small)
  rw [written, List.length_cons] at short
  exact Nat.not_succ_le_self _ short

theorem readFraction_ends {rest : List Char} (ends : Ends rest) : readFraction rest = some (none, rest) := by
  cases rest with
  | nil => rfl
  | cons c rest =>
    rw [readFraction]
    exact fun _ same => absurd (List.cons.inj same).1 (ends c rfl).2.1

theorem readExponent_ends {rest : List Char} (ends : Ends rest) : readExponent rest = some (none, rest) := by
  cases rest with
  | nil => rfl
  | cons c rest =>
    unfold readExponent
    exact if_neg fun either => either.elim (ends c rfl).2.2.1 (ends c rfl).2.2.2

/-- The digits of a whole number are read as a whole. -/
theorem readNumber_toDigits (negative : Bool) (n : Nat) {rest : List Char} (ends : Ends rest) :
    readNumber negative (Nat.toDigits 10 n ++ rest) =
      some (Numeral.tree ⟨negative, digitValues (Nat.toDigits 10 n), none, none⟩, rest) := by
  obtain ⟨c, cs, written, digit, others, -⟩ := Text.exists_digits n
  have digits : ∀ d ∈ Nat.toDigits 10 n, d.isDigit = true := by
    rw [written]
    exact List.forall_mem_cons.mpr ⟨digit, others⟩
  have proper : ¬ ((digitValues (Nat.toDigits 10 n)).isEmpty = true ∨
      ((digitValues (Nat.toDigits 10 n)).head? = some 0 ∧ (digitValues (Nat.toDigits 10 n)).length > 1)) := by
    rw [written]
    rintro (empty | ⟨zero, several⟩)
    · cases empty
    · have range := Text.digit_range digit
      have value : c.toNat - 48 = 0 := Option.some.inj zero
      have first : c = '0' := Char.toNat_inj.mp (show c.toNat = 48 by omega)
      have alone := toDigits_head (first ▸ written)
      rw [alone] at several
      exact absurd several (Nat.lt_irrefl 1)
  unfold readNumber
  rw [readDigits_append digits ends]
  dsimp only
  rw [if_neg proper, readFraction_ends ends]
  dsimp only [Option.bind_eq_bind, Option.bind_some]
  rw [readExponent_ends ends]
  rfl

/-- Whole numbers of 64 bits stay whole, -/
theorem tree_toDigits {n : Nat} (small : n ≤ Numeral.maxWord) :
    Numeral.tree ⟨false, digitValues (Nat.toDigits 10 n), none, none⟩ = .int n := by
  unfold Numeral.tree
  dsimp only
  rw [valueOf_digitValues, Nat.ofDigitChars_ten_toDigits, if_neg, if_pos]
  · exact Bool.false_ne_true
  · simp [small]

/-- and so do those with a sign in front. -/
theorem tree_toDigits_negative {n : Nat} (some : 0 < n) (small : n ≤ twoTo 63) :
    Numeral.tree ⟨true, digitValues (Nat.toDigits 10 n), none, none⟩ = .int (-n) := by
  have fits : n ≤ Numeral.maxWord := Nat.le_trans small (by decide)
  unfold Numeral.tree
  dsimp only
  rw [valueOf_digitValues, Nat.ofDigitChars_ten_toDigits, if_neg, if_neg, if_pos ⟨some, small⟩]
  · exact not_not_intro rfl
  · simp [fits]

/-! ### Values -/

/-- The characters of a tree's text. -/
def chars (t : Tree) : List Char := (write t).toList

/-- The characters of an entry in a map's text. -/
def entryChars (e : String × Tree) : List Char :=
  '"' :: (e.1.toList.flatMap escaped ++ '"' :: ':' :: chars e.2)

theorem toList_writeText (s : String) :
    (writeText s).toList = '"' :: (s.toList.flatMap escaped ++ ['"']) := by
  unfold writeText
  rw [String.toList_ofList, List.cons_append]

theorem chars_text (s : String) : chars (.text s) = '"' :: (s.toList.flatMap escaped ++ ['"']) :=
  toList_writeText s

theorem chars_nat (n : Nat) : chars (.int n) = Nat.toDigits 10 n := by
  show (Nat.repr n).toList = _
  rw [Nat.toList_repr]

theorem chars_negative (n : Nat) : chars (.int (-(n + 1 : Nat))) = '-' :: Nat.toDigits 10 (n + 1) := by
  have sign : "-".toList = ['-'] := rfl
  show ("-" ++ Nat.repr (n + 1)).toList = _
  rw [String.toList_append, sign, Nat.toList_repr, List.singleton_append]

theorem chars_list (ts : List Tree) :
    chars (.list ts) = '[' :: ([','].intercalate (ts.map chars) ++ [']']) := by
  have items : writeItems ts = ts.map write := by
    induction ts with
    | nil => rfl
    | cons t ts ih => rw [writeItems, ih, List.map_cons]
  have marks : "[".toList = ['['] ∧ ",".toList = [','] ∧ "]".toList = [']'] := ⟨rfl, rfl, rfl⟩
  unfold chars
  rw [write, items, String.toList_append, String.toList_append, String.toList_intercalate, List.map_map,
    marks.1, marks.2.1, marks.2.2, List.append_assoc, List.singleton_append]
  rfl

theorem chars_record (es : List (String × Tree)) :
    chars (.record es) = '\x7b' :: ([','].intercalate (es.map entryChars) ++ ['\x7d']) := by
  have entries : (writeEntries (es.map fun e => (Key.text e.1, e.2))).map String.toList =
      es.map entryChars := by
    induction es with
    | nil => rfl
    | cons e es ih =>
      have colon : ":".toList = [':'] := rfl
      rw [List.map_cons, writeEntries, List.map_cons, ih, List.map_cons, writeKey, String.toList_append,
        String.toList_append, toList_writeText, colon]
      unfold entryChars chars
      simp only [List.cons_append, List.append_assoc, List.nil_append]
  have marks : "\x7b".toList = ['\x7b'] ∧ ",".toList = [','] ∧ "\x7d".toList = ['\x7d'] := ⟨rfl, rfl, rfl⟩
  unfold chars Tree.record
  rw [write, String.toList_append, String.toList_append, String.toList_intercalate, entries, marks.1,
    marks.2.1, marks.2.2, List.append_assoc, List.singleton_append]

/-- Texts that are put together begin as the first of them does. -/
theorem exists_intercalate {α : Type} {f : α → List Char} {a : α} {c : Char} {cs : List Char}
    (first : f a = c :: cs) (l : List α) : ∃ more, [','].intercalate ((a :: l).map f) = c :: more := by
  rw [List.map_cons, first]
  cases l.map f with
  | nil => exact ⟨cs, List.intercalate_singleton⟩
  | cons ds l =>
    refine ⟨cs ++ [','] ++ [','].intercalate (ds :: l), ?_⟩
    rw [List.intercalate_cons_cons, List.cons_append, List.cons_append]

theorem fieldsAt_texts {depth : Nat} (shallow : depth ≤ maxDepth) (es : List (String × Tree)) :
    fieldsAt depth (es.map fun e => (some e.1, e.2)) = .record es := by
  have keys : (es.map fun e => (some e.1, e.2)).mapM (fun e => e.1.map fun k => (Key.text k, e.2)) =
      some (es.map fun e => (.text e.1, e.2)) := by
    induction es with
    | nil => rfl
    | cons e es ih =>
      rw [List.map_cons, List.mapM_cons, ih]
      rfl
  unfold fieldsAt
  rw [if_neg (Nat.not_lt.mpr shallow), keys]
  rfl

/-- Nothing is skipped in front of a character that is no white space. -/
theorem skipSpace_cons {c : Char} (visible : c ∉ [' ', '\n', '\t', '\r']) (cs : List Char) :
    skipSpace (c :: cs) = c :: cs := by
  simp only [List.mem_cons, List.not_mem_nil, or_false, not_or] at visible
  unfold skipSpace
  rw [List.dropWhile_cons]
  simp [visible]

/-- A digit is not among characters that are none. -/
theorem not_mem_of_isDigit {c : Char} {cs : List Char} (digit : c.isDigit = true)
    (others : cs.any Char.isDigit = false) : c ∉ cs := fun mem => List.any_eq_false.mp others c mem digit

/-- Trees that texts keep at a level: their numbers are whole and have 64 bits, and no part of them is
flawed or stands too deep. -/
inductive Kept : Nat → Tree → Prop where
  | null {depth : Nat} : Kept depth .null
  | bool {depth : Nat} (b : Bool) : Kept depth (.bool b)
  | nat {depth n : Nat} (small : n ≤ Numeral.maxWord) : Kept depth (.int n)
  | negative {depth n : Nat} (small : n < twoTo 63) : Kept depth (.int (-(n + 1 : Nat)))
  | text {depth : Nat} (s : String) : Kept depth (.text s)
  | list {depth : Nat} {ts : List Tree} (shallow : depth ≤ maxDepth) (items : ∀ t ∈ ts, Kept (depth + 1) t) :
    Kept depth (.list ts)
  | record {depth : Nat} {es : List (String × Tree)} (shallow : depth ≤ maxDepth)
    (values : ∀ e ∈ es, Kept (depth + 1) e.2) : Kept depth (.record es)

/-- A tree is read at a level from its characters, whatever follows, as long as the fuel lasts. -/
def Reads (depth : Nat) (t : Tree) : Prop :=
  ∀ {fuel : Nat} {rest : List Char}, (chars t).length ≤ fuel → Ends rest →
    readValue depth fuel (chars t ++ rest) = some (t, rest)

theorem ends_cons {c : Char} (mark : c ∈ [',', ']', '\x7d']) (rest : List Char) : Ends (c :: rest) := by
  intro d hd
  cases hd
  simp only [List.mem_cons, List.not_mem_nil, or_false] at mark
  rcases mark with rfl | rfl | rfl <;> decide

section Sequences

variable {depth fuel : Nat} {t : Tree} {cs more rest : List Char}

/-- A digit begins a number. -/
theorem readValue_digit {c : Char} (digit : c.isDigit = true) (cs : List Char) :
    readValue depth (fuel + 1) (c :: cs) = readNumber false (c :: cs) := by
  rw [readValue, skipSpace_cons (not_mem_of_isDigit digit (by decide))]
  split
  case h_8 => rfl
  all_goals
    rename_i mark
    cases mark
    exact absurd digit (by decide)

/-- An opening bracket begins a list, with items unless the closing one follows. -/
theorem readValue_items (front : skipSpace cs = cs) (some : ∀ more, cs ≠ ']' :: more) :
    readValue depth (fuel + 1) ('[' :: cs) =
      (readItems (depth + 1) fuel cs).map fun p => (listAt depth p.1, p.2) := by
  rw [readValue, skipSpace_cons (by decide)]
  simp only [front]

/-- An opening brace and a key begin a map. -/
theorem readValue_entries : readValue depth (fuel + 1) ('\x7b' :: '"' :: cs) =
    (readEntries (depth + 1) fuel ('"' :: cs)).map fun p => (fieldsAt depth p.1, p.2) := by
  rw [readValue, skipSpace_cons (by decide)]
  rfl

/-- The last item stands in front of the closing bracket. -/
theorem readItems_last (read : readValue depth fuel cs = some (t, ']' :: rest)) :
    readItems depth (fuel + 1) cs = some ([t], rest) := by
  rw [readItems, read]
  rfl

/-- After an item and a comma the items go on. -/
theorem readItems_next (read : readValue depth fuel cs = some (t, ',' :: more)) :
    readItems depth (fuel + 1) cs = (readItems depth fuel more).map fun p => (t :: p.1, p.2) := by
  rw [readItems, read]
  rfl

/-- The last entry stands in front of the closing brace. -/
theorem readEntries_last (read : readValue depth fuel cs = some (t, '\x7d' :: rest)) (s : String) :
    readEntries depth (fuel + 1) ('"' :: (s.toList.flatMap escaped ++ '"' :: ':' :: cs)) =
      some ([(some s, t)], rest) := by
  rw [readEntries, skipSpace_cons (by decide)]
  show (readText _).bind _ = _
  rw [readText_escaped]
  show (readValue depth fuel cs).bind _ = _
  rw [read]
  rfl

/-- After an entry and a comma the entries go on. -/
theorem readEntries_next (read : readValue depth fuel cs = some (t, ',' :: more)) (s : String) :
    readEntries depth (fuel + 1) ('"' :: (s.toList.flatMap escaped ++ '"' :: ':' :: cs)) =
      (readEntries depth fuel more).map fun p => ((some s, t) :: p.1, p.2) := by
  rw [readEntries, skipSpace_cons (by decide)]
  show (readText _).bind _ = _
  rw [readText_escaped]
  show (readValue depth fuel cs).bind _ = _
  rw [read]
  rfl

end Sequences

/-- Items are read one after another up to the closing bracket. -/
theorem readItems_chars {depth : Nat} {ts : List Tree} (some : ts ≠ []) (reads : ∀ t ∈ ts, Reads depth t)
    {fuel : Nat} (enough : ([','].intercalate (ts.map chars)).length < fuel) (rest : List Char) :
    readItems depth fuel ([','].intercalate (ts.map chars) ++ ']' :: rest) = .some (ts, rest) := by
  induction ts generalizing fuel with
  | nil => exact absurd rfl some
  | cons t ts ih =>
    obtain ⟨fuel, rfl⟩ := Nat.exists_eq_add_one_of_ne_zero (Nat.ne_of_gt (Nat.zero_lt_of_lt enough))
    have own := @reads t List.mem_cons_self
    cases ts with
    | nil =>
      rw [List.map_singleton, List.intercalate_singleton] at enough ⊢
      exact readItems_last (own (Nat.le_of_lt_succ enough) (ends_cons (by decide) rest))
    | cons u us =>
      rw [List.map_cons, List.map_cons, List.intercalate_cons_cons] at enough ⊢
      rw [List.length_append, List.length_append, List.length_singleton] at enough
      rw [List.append_assoc, List.append_assoc, List.singleton_append,
        readItems_next (own (by omega) (ends_cons (by decide) _)), ← List.map_cons,
        ih (List.cons_ne_nil u us) (fun t ht => reads t (List.mem_cons_of_mem _ ht))
          (by rw [List.map_cons]; omega), Option.map_some]

/-- Entries are read one after another up to the closing brace. -/
theorem readEntries_chars {depth : Nat} {es : List (String × Tree)} (some : es ≠ [])
    (reads : ∀ e ∈ es, Reads depth e.2) {fuel : Nat}
    (enough : ([','].intercalate (es.map entryChars)).length < fuel) (rest : List Char) :
    readEntries depth fuel ([','].intercalate (es.map entryChars) ++ '\x7d' :: rest) =
      .some (es.map fun e => (.some e.1, e.2), rest) := by
  have within (e : String × Tree) : (chars e.2).length < (entryChars e).length := by
    unfold entryChars
    simp only [List.length_cons, List.length_append]
    omega
  have split (e : String × Tree) (more : List Char) : entryChars e ++ more =
      '"' :: (e.1.toList.flatMap escaped ++ '"' :: ':' :: (chars e.2 ++ more)) := by
    unfold entryChars
    simp only [List.cons_append, List.append_assoc]
  induction es generalizing fuel with
  | nil => exact absurd rfl some
  | cons e es ih =>
    obtain ⟨fuel, rfl⟩ := Nat.exists_eq_add_one_of_ne_zero (Nat.ne_of_gt (Nat.zero_lt_of_lt enough))
    have own := @reads e List.mem_cons_self
    have short := within e
    cases es with
    | nil =>
      rw [List.map_singleton, List.intercalate_singleton] at enough
      rw [List.map_singleton, List.intercalate_singleton, split]
      exact readEntries_last (own (by omega) (ends_cons (by decide) rest)) e.1
    | cons u us =>
      rw [List.map_cons, List.map_cons, List.intercalate_cons_cons, List.length_append, List.length_append,
        List.length_singleton] at enough
      rw [List.map_cons, List.map_cons, List.intercalate_cons_cons, List.append_assoc, List.append_assoc,
        List.singleton_append, split, readEntries_next (own (by omega) (ends_cons (by decide) _)),
        ← List.map_cons, ih (List.cons_ne_nil u us) (fun e he => reads e (List.mem_cons_of_mem _ he))
          (by rw [List.map_cons]; omega), Option.map_some]
      rfl

namespace Kept

variable {depth : Nat} {t : Tree}

/-- A text begins neither with white space nor with a closing bracket. -/
theorem head (h : Kept depth t) :
    ∃ c cs, chars t = c :: cs ∧ c ∉ [' ', '\n', '\t', '\r', ']'] := by
  cases h with
  | null => exact ⟨'n', ['u', 'l', 'l'], rfl, by decide⟩
  | bool b =>
    cases b with
    | true => exact ⟨'t', ['r', 'u', 'e'], rfl, by decide⟩
    | false => exact ⟨'f', ['a', 'l', 's', 'e'], rfl, by decide⟩
  | @nat _ n small =>
    obtain ⟨c, cs, written, digit, -⟩ := Text.exists_digits n
    exact ⟨c, cs, (chars_nat n).trans written, not_mem_of_isDigit digit (by decide)⟩
  | negative small => exact ⟨'-', _, chars_negative _, by decide⟩
  | text s => exact ⟨'"', _, chars_text s, by decide⟩
  | list shallow items => exact ⟨'[', _, chars_list _, by decide⟩
  | record shallow values => exact ⟨'\x7b', _, chars_record _, by decide⟩

/-- The fuel for a text lasts for a step at least. -/
theorem of_step (h : Kept depth t) (step : ∀ {fuel : Nat} {rest : List Char}, (chars t).length ≤ fuel + 1 →
    Ends rest → readValue depth (fuel + 1) (chars t ++ rest) = some (t, rest)) : Reads depth t := by
  intro fuel rest enough ends
  obtain ⟨c, cs, written, -⟩ := h.head
  cases fuel with
  | zero =>
    rw [written] at enough
    exact absurd enough (Nat.not_succ_le_zero _)
  | succ fuel => exact step enough ends

theorem reads_nat {n : Nat} (small : n ≤ Numeral.maxWord) : Reads depth (.int n) := by
  refine of_step (.nat small) fun {fuel rest} _ ends => ?_
  obtain ⟨c, cs, written, digit, -⟩ := Text.exists_digits n
  have number := readNumber_toDigits false n ends
  rw [tree_toDigits small] at number
  rw [chars_nat]
  rw [written, List.cons_append] at number ⊢
  rw [readValue_digit digit, number]

theorem reads_negative {n : Nat} (small : n < twoTo 63) : Reads depth (.int (-(n + 1 : Nat))) := by
  refine of_step (.negative small) fun {fuel rest} _ ends => ?_
  rw [chars_negative]
  show readNumber true (Nat.toDigits 10 (n + 1) ++ rest) = _
  rw [readNumber_toDigits true (n + 1) ends, tree_toDigits_negative (Nat.succ_pos n) small]

theorem reads_text (s : String) : Reads depth (.text s) := by
  refine of_step (.text s) fun {fuel rest} _ _ => ?_
  rw [chars_text, List.cons_append, List.append_assoc, List.singleton_append]
  show (readText _).map _ = _
  rw [readText_escaped]
  rfl

/-- A list is read as its items are. -/
theorem reads_list {ts : List Tree} (shallow : depth ≤ maxDepth) (items : ∀ t ∈ ts, Kept (depth + 1) t)
    (reads : ∀ t ∈ ts, Reads (depth + 1) t) : Reads depth (.list ts) := by
  refine of_step (.list shallow items) fun {fuel rest} enough _ => ?_
  have whole : listAt depth ts = .list ts := if_neg (Nat.not_lt.mpr shallow)
  rw [chars_list] at enough ⊢
  rw [List.cons_append, List.append_assoc, List.singleton_append]
  rw [List.length_cons, List.length_append, List.length_singleton] at enough
  cases ts with
  | nil => exact congrArg (fun t => some (t, rest)) whole
  | cons t ts =>
    have read := readItems_chars (List.cons_ne_nil t ts) reads (show _ < fuel by omega) rest
    obtain ⟨c, cs, written, visible⟩ := (items t List.mem_cons_self).head
    obtain ⟨more, first⟩ := exists_intercalate written ts
    rw [first, List.cons_append] at read ⊢
    rw [readValue_items, read, Option.map_some, whole]
    · exact skipSpace_cons (fun mem => visible (List.mem_append_left [']'] mem)) _
    · intro left same
      cases same
      exact visible (by decide)

/-- A map is read as its values are. -/
theorem reads_record {es : List (String × Tree)} (shallow : depth ≤ maxDepth)
    (values : ∀ e ∈ es, Kept (depth + 1) e.2) (reads : ∀ e ∈ es, Reads (depth + 1) e.2) :
    Reads depth (.record es) := by
  refine of_step (.record shallow values) fun {fuel rest} enough _ => ?_
  have whole := fieldsAt_texts shallow es
  rw [chars_record] at enough ⊢
  rw [List.cons_append, List.append_assoc, List.singleton_append]
  rw [List.length_cons, List.length_append, List.length_singleton] at enough
  cases es with
  | nil => exact congrArg (fun t => some (t, rest)) whole
  | cons e es =>
    have read := readEntries_chars (List.cons_ne_nil e es) reads (show _ < fuel by omega) rest
    have written : entryChars e = '"' :: (e.1.toList.flatMap escaped ++ '"' :: ':' :: chars e.2) := rfl
    obtain ⟨more, first⟩ := exists_intercalate written es
    rw [first, List.cons_append] at read ⊢
    rw [readValue_entries, read, Option.map_some, whole]

/-- **Values.** A tree that texts keep is read at its level from its characters. -/
theorem reads (h : Kept depth t) : Reads depth t := by
  induction h with
  | null => exact of_step .null fun _ _ => rfl
  | bool b => cases b <;> exact of_step (.bool _) fun _ _ => rfl
  | nat small => exact reads_nat small
  | negative small => exact reads_negative small
  | text s => exact reads_text s
  | list shallow items ih => exact reads_list shallow items ih
  | record shallow values ih => exact reads_record shallow values ih

end Kept

/-- **JSON texts.** A tree that texts keep is read back from its text. -/
theorem parse?_write {t : Tree} (h : Kept 1 t) : parse? (write t) = some t := by
  have read : readValue 1 (2 * (chars t).length + 2) (chars t ++ []) = some (t, []) :=
    h.reads (by omega) fun _ none => absurd none (Option.not_mem_none _)
  rw [List.append_nil] at read
  unfold chars at read
  unfold parse?
  dsimp only
  rw [read]
  rfl

end Muster.Json
