import PackRelay.Proofs.Text.Hex
import PackRelay.Proofs.Toml.Text
import PackRelay.Toml.Document
import Mathlib.Algebra.Group.Nat.Defs

/-! Values that are read back as they are written: texts, flags, whole numbers that fit into 64 bits
with a sign, and lists of texts. -/
namespace PackRelay.Toml

variable {c : Char} {cs ds rest : List Char} {depth : Nat}

/-- What stands here up to the end of a line is this value. -/
def Reads (text : List Char) (v : Value) : Prop :=
  ∀ rest, value maxDepth (skipBlank (text ++ '\n' :: rest)) = some (v, '\n' :: rest)

theorem Reads.unique {text : List Char} {v w : Value} (reads : Reads text v) (other : Reads text w) :
    v = w :=
  congrArg Prod.fst (Option.some.inj ((reads []).symm.trans (other [])))

theorem scalar?_eq (no_true : c ≠ 't') (no_false : c ≠ 'f') :
    scalar? (c :: cs) = ((string? (c :: cs)).map fun (s, rest) => (.text s, rest)).or
      (((moment? (c :: cs)).map fun (s, rest) => (.moment s, rest)).or (number? (c :: cs))) := by
  unfold scalar?
  split
  · rename_i is
    exact absurd (List.cons.inj is).1 no_true
  · rename_i is
    exact absurd (List.cons.inj is).1 no_false
  · rfl

/-- Neither a list nor a table in braces. -/
theorem value_eq (no_array : c ≠ '[') (no_table : c ≠ '\x7b') :
    value depth (c :: cs) = scalar? (c :: cs) := by
  cases depth with
  | zero => rfl
  | succ depth =>
    unfold value
    split
    · rename_i is
      exact absurd (List.cons.inj is).1 no_array
    · rename_i is
      exact absurd (List.cons.inj is).1 no_table
    · rfl

theorem value_quote (s : String) (unquoted : ∀ behind, rest ≠ '"' :: behind) :
    value depth (quote s ++ rest) = some (.text s, rest) := by
  have read := string?_quote s unquoted
  rw [quote_append] at read ⊢
  rw [value_eq (by decide) (by decide), scalar?_eq (by decide) (by decide), read]
  rfl

theorem reads_text (s : String) : Reads (Value.text s).chars (.text s) := by
  intro rest
  rw [Value.chars, quote_append, skipBlank_of_solid (by decide), ← quote_append]
  exact value_quote s fun _ is => by cases is

theorem reads_boolean (b : Bool) : Reads (Value.boolean b).chars (.boolean b) := by
  intro rest
  cases b <;> rfl

/-! ## Whole numbers -/

/-- Digits up to the end of a line. -/
def Digits (rest cs : List Char) : Prop := ∃ ds, cs = ds ++ '\n' :: rest ∧ ∀ d ∈ ds, d.isDigit

theorem Digits.step (digits : Digits rest (c :: cs)) (digit : c.isDigit) : Digits rest cs := by
  obtain ⟨ds, is, all⟩ := digits
  cases ds with
  | nil =>
    cases is
    exact absurd digit (by decide)
  | cons d ds =>
    cases is
    exact ⟨ds, rfl, fun d listed => all d (List.mem_cons_of_mem _ listed)⟩

theorem Digits.digits? {count n m : Nat} (digits : Digits rest cs)
    (read : digits? count n cs = some (m, ds)) : Digits rest ds := by
  induction count generalizing n cs with
  | zero =>
    cases read
    exact digits
  | succ count ih =>
    cases cs with
    | nil => cases read
    | cons c cs =>
      simp only [Toml.digits?] at read
      split at read
      · exact ih (digits.step ‹_›) read
      · cases read

theorem Digits.mark? (digits : Digits rest cs) (other : c.isDigit = false) (inside : c ≠ '\n') :
    mark? c cs = none := by
  obtain ⟨ds, rfl, all⟩ := digits
  cases ds with
  | nil => simp [Toml.mark?, inside.symm]
  | cons d ds =>
    have digit := all d List.mem_cons_self
    have differ : d ≠ c := by
      rintro rfl
      rw [other] at digit
      cases digit
    simp [Toml.mark?, differ]

/-- Digits alone are neither a date nor a time. -/
theorem Digits.moment? (digits : Digits rest cs) : moment? cs = none := by
  have date : date? cs = none := by
    simp only [date?]
    cases read : Toml.digits? 4 0 cs with
    | none => rfl
    | some p => simp [(digits.digits? read).mark? (c := '-') (by decide) (by decide)]
  have clock : clock? cs = none := by
    simp only [clock?, pair?]
    cases read : Toml.digits? 2 0 cs with
    | none => rfl
    | some p =>
      simp only [Option.filter]
      split
      · simp [(digits.digits? read).mark? (c := ':') (by decide) (by decide)]
      · rfl
  simp [Toml.moment?, date, clock]

theorem isDigit_ne {d : Char} (digit : c.isDigit) (other : d.isDigit = false) : c ≠ d := by
  rintro rfl
  rw [other] at digit
  cases digit

theorem moreDigits_end (digits : ∀ d ∈ ds, d.isDigit) (rest : List Char) :
    moreDigits Char.isDigit (ds ++ '\n' :: rest) = some (ds, '\n' :: rest) := by
  induction ds with
  | nil =>
    unfold moreDigits
    rfl
  | cons d ds ih =>
    obtain ⟨digit, others⟩ := List.forall_mem_cons.1 digits
    have solid := isDigit_ne digit (d := '_') (by decide)
    rw [List.cons_append]
    unfold moreDigits
    split
    · rename_i is
      exact absurd (List.cons.inj is).1 solid
    · rename_i is
      exact absurd (List.cons.inj is).1 solid
    · rename_i is
      obtain ⟨rfl, rfl⟩ := List.cons.inj is
      rw [if_pos digit, ih others]
      rfl
    · rename_i is
      cases is

/-- Digits as a whole number is written: a zero stands alone. -/
structure Whole (c : Char) (ds : List Char) : Prop where
  first : c.isDigit
  digits : ∀ d ∈ ds, d.isDigit
  alone : c = '0' → ds = []

theorem Whole.wholeDigits (whole : Whole c ds) (rest : List Char) :
    wholeDigits (c :: (ds ++ '\n' :: rest)) = some (c :: ds, '\n' :: rest) := by
  unfold Toml.wholeDigits
  split
  · rename_i is
    cases is
    rw [whole.alone rfl]
    rfl
  · rw [digitRun, if_pos whole.first, moreDigits_end whole.digits]
    rfl

theorem head_toDigits {n : Nat} (pos : 0 < n) : ∃ c ds, Nat.toDigits 10 n = c :: ds ∧ c ≠ '0' := by
  induction n using Nat.strongRecOn with
  | ind n ih =>
    by_cases single : n < 10
    · have lead : ∀ n < 10, 0 < n → Nat.digitChar n ≠ '0' := by decide
      exact ⟨_, _, Nat.toDigits_of_lt_base single, lead n single pos⟩
    · obtain ⟨c, ds, front, lead⟩ := ih (n / 10) (by omega) (by omega)
      rw [Nat.toDigits_of_base_le (by decide) (Nat.le_of_not_lt single), front]
      exact ⟨c, _, rfl, lead⟩

theorem whole_toDigits (n : Nat) : ∃ c ds, Nat.toDigits 10 n = c :: ds ∧ Whole c ds := by
  obtain ⟨c, ds, digits⟩ := List.exists_cons_of_ne_nil (Nat.toDigits_ne_nil (n := n) (b := 10))
  have all : ∀ d ∈ c :: ds, d.isDigit := fun d listed =>
    Nat.isDigit_of_mem_toDigits (by decide) (by decide) (digits ▸ listed)
  obtain ⟨first, others⟩ := List.forall_mem_cons.1 all
  refine ⟨c, ds, digits, first, others, ?_⟩
  rintro rfl
  rcases Nat.eq_zero_or_pos n with rfl | pos
  · exact (List.cons.inj digits).2.symm
  · obtain ⟨c, _, written, lead⟩ := head_toDigits pos
    exact absurd (List.cons.inj (written.symm.trans digits)).1 lead

theorem spelled_toDigits (n : Nat) : spelled 10 (Nat.toDigits 10 n) = n := by
  induction n using Nat.strongRecOn with
  | ind n ih =>
    have last : ∀ d < 10, (Hex.value? (Nat.digitChar d)).getD 0 = d := fun d small => by
      rw [Hex.value?_digitChar d (by omega), Option.getD_some]
    by_cases single : n < 10
    · rw [Nat.toDigits_of_lt_base single]
      simp [spelled, last n single]
    · have front := ih (n / 10) (by omega)
      simp only [spelled] at front ⊢
      rw [Nat.toDigits_of_base_le (by decide) (Nat.le_of_not_lt single), List.foldl_append, front]
      simp only [List.foldl_cons, List.foldl_nil, last (n % 10) (by omega)]
      omega

/-- A whole number is read as such if nothing but the end of the line follows. -/
theorem Whole.decimal (whole : Whole c ds) (negative : Bool) (rest : List Char) :
    decimal negative (c :: (ds ++ '\n' :: rest)) =
      (signed64? (signedInt negative (spelled 10 (c :: ds)))).map (·, '\n' :: rest) := by
  have no_places : places ('\n' :: rest) = some ([], '\n' :: rest) := rfl
  have no_power : power ('\n' :: rest) = some (0, '\n' :: rest) := rfl
  simp only [Toml.decimal, whole.wholeDigits, no_places, no_power, Option.bind_eq_bind,
    Option.bind_some, if_true]
  cases signed64? (signedInt negative (spelled 10 (c :: ds))) <;> rfl

theorem Whole.number? (whole : Whole c ds) (rest : List Char) :
    number? (c :: (ds ++ '\n' :: rest)) =
      (signed64? (spelled 10 (c :: ds))).map (·, '\n' :: rest) := by
  have base : ∀ d more, d ≠ '\n' → c :: (ds ++ '\n' :: rest) ≠ '0' :: d :: more := by
    rintro d more inside is
    obtain ⟨zero, behind⟩ := List.cons.inj is
    rw [whole.alone zero] at behind
    exact inside (List.cons.inj behind).1.symm
  have unsigned : sign (c :: (ds ++ '\n' :: rest)) = (false, c :: (ds ++ '\n' :: rest)) := by
    unfold sign
    split
    · rename_i is
      exact absurd (List.cons.inj is).1 (isDigit_ne whole.first (by decide))
    · rename_i is
      exact absurd (List.cons.inj is).1 (isDigit_ne whole.first (by decide))
    · rfl
  have ordinary : special false (c :: (ds ++ '\n' :: rest)) = none := by
    have i := isDigit_ne whole.first (d := 'i') (by decide)
    have n := isDigit_ne whole.first (d := 'n') (by decide)
    simp [special, word?, mark?, i, n]
  unfold Toml.number?
  split
  · exact absurd ‹_› (base _ _ (by decide))
  · exact absurd ‹_› (base _ _ (by decide))
  · exact absurd ‹_› (base _ _ (by decide))
  · rw [unsigned]
    simp only [ordinary, Option.none_or]
    exact whole.decimal false rest

theorem string?_unquoted (basic : c ≠ '"') (literal : c ≠ '\'') : string? (c :: cs) = none := by
  match cs with
  | [] | [_] | _ :: _ :: _ =>
    simp [string?, stringOf, Delimiter.basic, Delimiter.literal, basic, literal]

theorem chars_integer (n : Nat) : (Value.integer n).chars = Nat.toDigits 10 n := by
  show (Int.repr n).toList = _
  exact Nat.toList_repr

theorem reads_integer {n : Nat} (small : n < 2 ^ 63) :
    Reads (Value.integer n).chars (.integer n) := by
  intro rest
  obtain ⟨c, ds, digits, whole⟩ := whole_toDigits n
  have limit : Int.pow 2 63 = (2 : Nat) ^ 63 := rfl
  have fits : signed64? n = some (.integer n) := if_pos (by rw [limit]; omega)
  have number := whole.number? rest
  rw [← digits, spelled_toDigits, fits] at number
  have digit {d : Char} (other : d.isDigit = false) : c ≠ d := isDigit_ne whole.first other
  have no_moment : moment? (c :: (ds ++ '\n' :: rest)) = none :=
    Digits.moment? ⟨c :: ds, rfl, List.forall_mem_cons.2 ⟨whole.first, whole.digits⟩⟩
  have no_string : string? (c :: (ds ++ '\n' :: rest)) = none :=
    string?_unquoted (digit (by decide)) (digit (by decide))
  have solid : isBlank c = false := by
    simp [isBlank, digit (d := ' ') (by decide), digit (d := '\t') (by decide)]
  rw [chars_integer, digits, List.cons_append, skipBlank_of_solid solid,
    value_eq (digit (by decide)) (digit (by decide)),
    scalar?_eq (digit (by decide)) (digit (by decide)), no_string, no_moment, number]
  rfl

/-! ## Lists of texts -/

theorem skipGap_blank : skipGap false (' ' :: cs) = skipGap false cs := by
  simp [skipGap, isBlank]

theorem items_blank {readValue : List Char → Read Value} {fuel : Nat} :
    items readValue fuel (' ' :: cs) = items readValue fuel cs := by
  cases fuel with
  | zero => rfl
  | succ fuel => simp only [items, skipGap_blank]

/-- One item for each text, whatever stands behind the bracket. -/
theorem items_texts {fuel : Nat} (s : String) (ss : List String) (enough : ss.length < fuel) :
    items (value depth) fuel (quote s ++ (itemChars false (ss.map .text) ++ rest)) =
      some (.text s :: ss.map .text, rest) := by
  induction ss generalizing s fuel with
  | nil =>
    obtain ⟨fuel, rfl⟩ := Nat.exists_eq_add_one.2 enough
    have read : value depth (quote s ++ ']' :: rest) = some (.text s, ']' :: rest) :=
      value_quote s fun _ is => by cases is
    show items (value depth) (fuel + 1) (quote s ++ ']' :: rest) = _
    rw [quote_append] at read
    simp [items, quote_append, skipGap, isBlank, read]
  | cons next ss ih =>
    obtain ⟨fuel, rfl⟩ := Nat.exists_eq_add_one.2 (Nat.zero_lt_of_lt enough)
    have later := ih next (show ss.length < fuel by simpa using enough)
    rw [← items_blank] at later
    have read : value depth (quote s ++ (itemChars false ((next :: ss).map .text) ++ rest)) =
        some (.text s, itemChars false ((next :: ss).map .text) ++ rest) :=
      value_quote s fun _ is => by cases is
    simp only [List.map_cons, itemChars, Value.chars, Bool.false_eq_true, if_false,
      List.append_assoc, List.cons_append, List.nil_append] at read later ⊢
    rw [quote_append s] at read
    simp [items, quote_append s, skipGap, isBlank, read, later]

theorem length_lt_itemChars (ss : List String) :
    ss.length < (itemChars false (ss.map .text)).length := by
  induction ss with
  | nil => exact Nat.one_pos
  | cons s ss ih =>
    simp only [List.map_cons, itemChars, Bool.false_eq_true, if_false, List.length_append,
      List.length_cons] at ih ⊢
    omega

theorem value_list {vs : List Value} {behind : List Char}
    (read : items (value depth) (rest.length + 1) rest = some (vs, behind)) :
    value (depth + 1) ('[' :: rest) = some (.array vs, behind) := by
  rw [value, read]
  rfl

theorem reads_texts (ss : List String) :
    Reads (Value.array (ss.map .text)).chars (.array (ss.map .text)) := by
  intro rest
  cases ss with
  | nil => rfl
  | cons s ss =>
    have long := length_lt_itemChars ss
    simp only [Value.chars, List.map_cons, itemChars, if_true, List.nil_append, List.cons_append,
      List.append_assoc]
    rw [skipBlank_of_solid (by decide)]
    show value (78 + 1) _ = _
    refine value_list (items_texts s ss ?_)
    simp only [List.length_append]
    omega

end PackRelay.Toml
