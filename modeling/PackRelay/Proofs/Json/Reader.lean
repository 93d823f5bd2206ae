import PackRelay.Json.Reader
import PackRelay.Proofs.Text.Utf8

/-! Written values are read back, whatever stands behind them: strings character by character, then
lists and objects of values that are read back themselves. Fuel is counted against the octets that
were written. -/
namespace PackRelay

namespace Json

variable {α β : Type} {c : Cursor} {b : UInt8} {more rest : Bytes} {first : Bool} {fuel depth : Nat}

/-- Reading gives a value and leaves these octets. Where in the text they stand does not matter. -/
def Reads (r : Read α) (a : α) (rest : Bytes) : Prop := ∃ c, r = .ok (a, c) ∧ c.rest = rest

theorem Reads.map {r : Read α} {a : α} (reads : Reads r a rest) (f : α → β) :
    Reads (r.map fun (a, c) => (f a, c)) (f a) rest := by
  obtain ⟨c, rfl, left⟩ := reads
  exact ⟨c, rfl, left⟩

namespace Cursor

theorem skip_rest (text : c.rest = b :: rest) : c.skip.rest = rest := by
  simp only [skip, text]

theorem skipBlank_solid (text : c.rest = b :: rest) (solid : isBlank b = false) :
    c.skipBlank = c := by
  cases c
  cases text
  simp [skipBlank, skipBlankFrom, solid]

end Cursor

/-! ## Strings -/

theorem octetValue?_digitChar : ∀ d < 16,
    String.utf8EncodeChar (Nat.digitChar d) = [ascii (Nat.digitChar d)] ∧
      Hex.octetValue? (ascii (Nat.digitChar d)) = some d := by decide

theorem stringPart_simple {e : UInt8} {x : Char} (text : c.rest = ascii '\\' :: e :: rest)
    (plain : e ≠ ascii 'u') (known : simpleEscape? e = some x) :
    Reads (stringPart c) (.char x) rest := by
  refine ⟨⟨rest, (c.place.next (ascii '\\')).next e⟩, ?_, rfl⟩
  have mark : ascii '\\' ≠ ascii '"' := by decide
  simp only [stringPart, text, mark, plain, known, if_false, if_true]
  rfl

/-- A control character that has no letter is written as a unit of four digits. -/
theorem stringPart_control {n : Nat} (control : n < 0x20)
    (text : c.rest = Utf8.encode (['\\', 'u', '0', '0'] ++ controlDigits n) ++ rest) :
    Reads (stringPart c) (.char (Char.ofNat n)) rest := by
  obtain ⟨high, high_value⟩ := octetValue?_digitChar (n / 16) (by omega)
  obtain ⟨low, low_value⟩ := octetValue?_digitChar (n % 16) (by omega)
  have written : Utf8.encode (['\\', 'u', '0', '0'] ++ controlDigits n) =
      [ascii '\\', ascii 'u', ascii '0', ascii '0', ascii (Nat.digitChar (n / 16)),
        ascii (Nat.digitChar (n % 16))] := by
    simp only [controlDigits, Utf8.encode, List.flatMap_cons, List.flatMap_nil, List.flatMap_append,
      high, low]
    rfl
  have zero : Hex.octetValue? (ascii '0') = some 0 := by decide
  have mark : ascii '\\' ≠ ascii '"' := by decide
  have value : ((0 * 16 + 0) * 16 + n / 16) * 16 + n % 16 = n := by omega
  have single : ¬ (0xDC00 ≤ n ∧ n ≤ 0xDFFF) ∧ (n < 0xD800 ∨ 0xDBFF < n) := by omega
  rw [written] at text
  simp only [stringPart, text, mark, if_false, if_true, List.cons_append, List.nil_append,
    unicodeEscape, hexQuad, Cursor.skip, zero, high_value, low_value, bind, Except.bind, value,
    single.1, single.2]
  exact ⟨_, rfl, rfl⟩

theorem stringPart_plain {x : Char} (shown : 0x20 ≤ x.toNat) (unquoted : x ≠ '"')
    (unescaped : x ≠ '\\') (text : c.rest = String.utf8EncodeChar x ++ rest) :
    Reads (stringPart c) (.char x) rest := by
  obtain ⟨lead, more, encoded, small, ascii_or⟩ := Utf8.encode_lead x
  have step := Utf8.step_encode x rest
  rw [encoded, List.cons_append] at text step
  have other : ∀ y : Char, x ≠ y → y.toNat < 0x80 → UInt8.ofNat lead ≠ ascii y := by
    intro y differ y_ascii
    refine Utf8.ofNat_ne small (by omega) fun same => ?_
    rcases ascii_or with rfl | ⟨long, _⟩
    · exact differ (Char.toNat_inj.1 same)
    · omega
  have high : ¬ UInt8.ofNat lead < 0x20 := by
    rw [UInt8.lt_iff_toNat_lt, Utf8.toNat_ofNat small, show (0x20 : UInt8).toNat = 0x20 from rfl]
    omega
  simp only [stringPart, text, other '"' unquoted (by decide), other '\\' unescaped (by decide),
    high, if_false, step]
  exact ⟨_, rfl, rfl⟩

/-- One written character is one part of a string. -/
theorem stringPart_escape (x : Char) (text : c.rest = Utf8.encode (escapeChar x) ++ rest) :
    Reads (stringPart c) (.char x) rest := by
  unfold escapeChar at text
  split at text
  · subst x; exact stringPart_simple text (by decide) (by decide)
  split at text
  · subst x; exact stringPart_simple text (by decide) (by decide)
  split at text
  · subst x; exact stringPart_simple text (by decide) (by decide)
  split at text
  · subst x; exact stringPart_simple text (by decide) (by decide)
  split at text
  · subst x; exact stringPart_simple text (by decide) (by decide)
  split at text
  · subst x; exact stringPart_simple text (by decide) (by decide)
  split at text
  · subst x; exact stringPart_simple text (by decide) (by decide)
  split at text
  · rename_i control
    exact x.ofNat_toNat ▸ stringPart_control control text
  · rename_i unquoted unescaped _ _ _ _ _ shown
    rw [Utf8.encode_cons, show Utf8.encode [] = [] from rfl, List.append_nil] at text
    exact stringPart_plain (by omega) unquoted unescaped text

theorem length_escape (x : Char) : 0 < (Utf8.encode (escapeChar x)).length := by
  have some_octet : ∀ y ys, 0 < (Utf8.encode (y :: ys)).length := by
    intro y ys
    obtain ⟨lead, more, encoded, _⟩ := Utf8.encode_lead y
    rw [Utf8.encode_cons, encoded, List.cons_append, List.length_cons]
    omega
  unfold escapeChar
  repeat' split
  all_goals exact some_octet _ _

theorem stringBody_reads {cs : List Char} (done : List Char)
    (text : c.rest = Utf8.encode (cs.flatMap escapeChar) ++ ascii '"' :: rest)
    (enough : cs.length < fuel) :
    Reads (stringBody fuel c done none) (String.ofList (done.reverse ++ cs)) rest := by
  induction cs generalizing fuel c done with
  | nil =>
    cases fuel with
    | zero => cases enough
    | succ fuel =>
      have closes : stringPart c = .ok (.close, ⟨rest, c.place.next (ascii '"')⟩) := by
        have text : c.rest = ascii '"' :: rest := text
        simp only [stringPart, text, if_true]
      simp only [stringBody, closes, bind, Except.bind, List.append_nil]
      exact ⟨_, rfl, rfl⟩
  | cons x cs ih =>
    cases fuel with
    | zero => cases enough
    | succ fuel =>
      rw [List.flatMap_cons, Utf8.encode_append, List.append_assoc] at text
      obtain ⟨c', part, left⟩ := stringPart_escape x text
      have rest_read := ih (x :: done) left (Nat.lt_of_succ_lt_succ enough)
      rw [List.reverse_cons, List.append_assoc, List.singleton_append] at rest_read
      simpa only [stringBody, part, bind, Except.bind] using rest_read

theorem length_escaped (cs : List Char) :
    cs.length ≤ (Utf8.encode (cs.flatMap escapeChar)).length := by
  induction cs with
  | nil => exact Nat.zero_le _
  | cons x cs ih =>
    have one := length_escape x
    rw [List.flatMap_cons, Utf8.encode_append, List.length_append, List.length_cons]
    omega

theorem encode_quote (s : String) :
    Utf8.encode (quote s) =
      ascii '"' :: (Utf8.encode (s.toList.flatMap escapeChar) ++ [ascii '"']) := by
  rw [quote, Utf8.encode_append]
  rfl

theorem length_text (s : String) : s.toList.length ≤ (Value.text s).encode.length := by
  have := length_escaped s.toList
  rw [Value.encode, Value.chars, encode_quote, List.length_cons, List.length_append]
  omega

theorem string_reads {s : String} (text : c.rest = Utf8.encode (quote s) ++ rest) :
    Reads (string c.skip) s rest := by
  rw [encode_quote, List.cons_append, List.append_assoc] at text
  have body := Cursor.skip_rest text
  have enough : s.toList.length < c.skip.rest.length + 1 := by
    have := length_escaped s.toList
    rw [body, List.length_append]
    omega
  have reads := stringBody_reads [] body enough
  rwa [List.reverse_nil, List.nil_append, String.ofList_toList] at reads

/-! ## Values -/

/-- Before every item or member but the first. -/
def separator (first : Bool) : Bytes := if first then [] else [ascii ',']

theorem encode_itemChars (v : Value) (vs : List Value) :
    Utf8.encode (itemChars first (v :: vs)) =
      separator first ++ (v.encode ++ Utf8.encode (itemChars false vs)) := by
  rw [itemChars, Utf8.encode_append, Utf8.encode_append, List.append_assoc]
  cases first <;> rfl

theorem encode_memberChars (key : String) (v : Value) (ms : List (String × Value)) :
    Utf8.encode (memberChars first ((key, v) :: ms)) =
      separator first ++ (Utf8.encode (quote key) ++
        ascii ':' :: (v.encode ++ Utf8.encode (memberChars false ms))) := by
  rw [memberChars, Utf8.encode_append, Utf8.encode_append, Utf8.encode_append, Utf8.encode_cons,
    List.append_assoc, List.append_assoc]
  cases first <;> rfl

theorem length_memberChars {ms : List (String × Value)} {m : String × Value} (there : m ∈ ms) :
    m.2.encode.length ≤ (Utf8.encode (memberChars first ms)).length := by
  induction ms generalizing first with
  | nil => cases there
  | cons m' ms ih =>
    rw [encode_memberChars, List.length_append, List.length_append, List.length_cons,
      List.length_append]
    rcases List.mem_cons.1 there with rfl | there
    · omega
    · have others : m.2.encode.length ≤ (Utf8.encode (memberChars false ms)).length := ih there
      omega

/-- An object is longer than each of its members. -/
theorem length_member {ms : List (String × Value)} {m : String × Value} (there : m ∈ ms) :
    m.2.encode.length < (Value.object ms).encode.length := by
  have fits : m.2.encode.length ≤ (Utf8.encode (memberChars true ms)).length :=
    length_memberChars there
  have opens : (String.utf8EncodeChar '\x7b').length = 1 := rfl
  rw [Value.encode.eq_def (.object ms), Value.chars, Utf8.encode_cons, List.length_append, opens]
  omega

theorem nextItem_more (solid : Cursor.isBlank b = false) (goes_on : b ≠ ascii ']')
    (text : c.rest = separator first ++ b :: more) : Reads (nextItem first c) true (b :: more) := by
  cases first with
  | true =>
    have text : c.rest = b :: more := text
    refine ⟨c, ?_, text⟩
    simp only [nextItem, Cursor.skipBlank_solid text solid, text, goes_on, if_false, if_true]
  | false =>
    have text : c.rest = ascii ',' :: b :: more := text
    have behind := Cursor.skip_rest text
    refine ⟨c.skip, ?_, behind⟩
    have comma : ascii ',' ≠ ascii ']' := by decide
    simp only [nextItem, Cursor.skipBlank_solid text (by decide),
      Cursor.skipBlank_solid behind solid, text, behind, comma, goes_on, if_false, if_true,
      Bool.false_eq_true]

theorem nextItem_end (text : c.rest = ascii ']' :: rest) : nextItem first c = .ok (false, c) := by
  simp only [nextItem, Cursor.skipBlank_solid text (by decide), text, if_true]

theorem nextMember_more (text : c.rest = separator first ++ ascii '"' :: more) :
    Reads (nextMember first c) true (ascii '"' :: more) := by
  have member : ascii '"' ≠ ascii '\x7d' := by decide
  cases first with
  | true =>
    have text : c.rest = ascii '"' :: more := text
    refine ⟨c, ?_, text⟩
    simp only [nextMember, Cursor.skipBlank_solid text (by decide), text, member, if_false, if_true]
  | false =>
    have text : c.rest = ascii ',' :: ascii '"' :: more := text
    have behind := Cursor.skip_rest text
    refine ⟨c.skip, ?_, behind⟩
    have comma : ascii ',' ≠ ascii '\x7d' := by decide
    simp only [nextMember, Cursor.skipBlank_solid text (by decide),
      Cursor.skipBlank_solid behind (by decide), text, behind, comma, if_false, if_true,
      Bool.false_eq_true]

theorem nextMember_end (text : c.rest = ascii '\x7d' :: rest) :
    nextMember first c = .ok (false, c) := by
  simp only [nextMember, Cursor.skipBlank_solid text (by decide), text, if_true]

/-- Up to the value of a member. -/
theorem member_reads {key : String}
    (text : c.rest = separator first ++ (Utf8.encode (quote key) ++ ascii ':' :: rest)) :
    ∃ c₁ c₂ c₃, nextMember first c = .ok (true, c₁) ∧ string c₁.skip = .ok (key, c₂) ∧
      colon c₂ = .ok c₃ ∧ c₃.rest = rest := by
  have quoted := encode_quote key
  rw [quoted, List.cons_append] at text
  obtain ⟨c₁, next, at_key⟩ := nextMember_more text
  rw [← List.cons_append, ← quoted] at at_key
  obtain ⟨c₂, read, at_colon⟩ := string_reads at_key
  refine ⟨c₁, c₂, c₂.skip, next, read, ?_, Cursor.skip_rest at_colon⟩
  simp only [colon, Cursor.skipBlank_solid at_colon (by decide), at_colon, if_true]

/-- A value that is read back wherever `depth` levels are left. -/
structure Readable (depth : Nat) (v : Value) : Prop where
  opens : ∃ b more, v.encode = b :: more ∧ Cursor.isBlank b = false ∧ b ≠ ascii ']'
  reads : ∀ {fuel : Nat} {c : Cursor} {rest : Bytes}, c.rest = v.encode ++ rest →
    v.encode.length ≤ fuel → Reads (value fuel depth c) v rest

theorem items_reads {vs : List Value} (each : ∀ v ∈ vs, Readable depth v)
    (text : c.rest = Utf8.encode (itemChars first vs) ++ rest)
    (enough : (Utf8.encode (itemChars first vs)).length ≤ fuel) :
    Reads (items fuel depth first c) vs rest := by
  induction vs generalizing fuel c first with
  | nil =>
    cases fuel with
    | zero => cases enough
    | succ fuel =>
      have text : c.rest = ascii ']' :: rest := text
      simp only [items, nextItem_end text, bind, Except.bind]
      exact ⟨_, rfl, Cursor.skip_rest text⟩
  | cons v vs ih =>
    obtain ⟨b, more, opened, solid, goes_on⟩ := (each v List.mem_cons_self).opens
    rw [encode_itemChars, List.append_assoc, List.append_assoc] at text
    rw [encode_itemChars, List.length_append, List.length_append] at enough
    have positive : 0 < v.encode.length := by simp [opened]
    cases fuel with
    | zero => omega
    | succ fuel =>
      have further : 0 < (Utf8.encode (itemChars false vs)).length := by
        cases vs with
        | nil => exact Nat.zero_lt_one
        | cons w ws =>
          rw [encode_itemChars, List.length_append, show (separator false).length = 1 from rfl]
          omega
      rw [opened, List.cons_append] at text
      obtain ⟨c₁, next, at_value⟩ := nextItem_more solid goes_on text
      rw [← List.cons_append, ← opened] at at_value
      have fits : v.encode.length ≤ fuel := by omega
      have others_fit : (Utf8.encode (itemChars false vs)).length ≤ fuel := by omega
      obtain ⟨c₂, read, behind⟩ := (each v List.mem_cons_self).reads at_value fits
      obtain ⟨c₃, others, left⟩ :=
        ih (fun w there => each w (List.mem_cons_of_mem v there)) behind others_fit
      refine ⟨c₃, ?_, left⟩
      simp only [items, next, read, others, bind, Except.bind, pure, Except.pure]

theorem members_reads {ms : List (String × Value)} (each : ∀ m ∈ ms, Readable depth m.2)
    (text : c.rest = Utf8.encode (memberChars first ms) ++ rest)
    (enough : (Utf8.encode (memberChars first ms)).length ≤ fuel) :
    Reads (members fuel depth first c) ms rest := by
  induction ms generalizing fuel c first with
  | nil =>
    cases fuel with
    | zero => cases enough
    | succ fuel =>
      have text : c.rest = ascii '\x7d' :: rest := text
      simp only [members, nextMember_end text, bind, Except.bind]
      exact ⟨_, rfl, Cursor.skip_rest text⟩
  | cons m ms ih =>
    obtain ⟨key, v⟩ := m
    have of_value := each (key, v) List.mem_cons_self
    rw [encode_memberChars, List.append_assoc, List.append_assoc, List.cons_append,
      List.append_assoc] at text
    rw [encode_memberChars, List.length_append, List.length_append, List.length_cons,
      List.length_append] at enough
    cases fuel with
    | zero => omega
    | succ fuel =>
      obtain ⟨c₁, c₂, c₃, next, name, mark, at_value⟩ := member_reads text
      have fits : v.encode.length ≤ fuel := by omega
      have others_fit : (Utf8.encode (memberChars false ms)).length ≤ fuel := by omega
      obtain ⟨c₄, read, behind⟩ := of_value.reads at_value fits
      obtain ⟨c₅, others, left⟩ :=
        ih (fun m there => each m (List.mem_cons_of_mem _ there)) behind others_fit
      refine ⟨c₅, ?_, left⟩
      simp only [members, next, name, mark, read, others, bind, Except.bind, pure, Except.pure]

/-- Built of texts, lists and objects that nest at most so deep. -/
inductive Textual : Nat → Value → Prop
  | text (d : Nat) (s : String) : Textual d (.text s)
  | array (d : Nat) (vs : List Value) : (∀ v ∈ vs, Textual d v) → Textual (d + 1) (.array vs)
  | object (d : Nat) (ms : List (String × Value)) :
    (∀ m ∈ ms, Textual d m.2) → Textual (d + 1) (.object ms)

theorem Textual.readable {d : Nat} {v : Value} (textual : Textual d v) (deep : d < depth) :
    Readable depth v := by
  induction textual generalizing depth with
  | text d s =>
    have quoted : (Value.text s).encode = ascii '"' :: _ := encode_quote s
    refine ⟨⟨_, _, quoted, by decide, by decide⟩, fun {fuel c rest} text enough => ?_⟩
    cases fuel with
    | zero =>
      rw [quoted] at enough
      cases enough
    | succ fuel =>
      have reads := (string_reads text).map Value.text
      rw [quoted, List.cons_append] at text
      have read : scalar? (ascii '"') c = some _ := rfl
      simpa only [value, Cursor.skipBlank_solid text (by decide), text, read] using reads
  | array d vs _ ih =>
    have opened : (Value.array vs).encode = ascii '[' :: Utf8.encode (itemChars true vs) := rfl
    refine ⟨⟨_, _, opened, by decide, by decide⟩, fun {fuel c rest} text enough => ?_⟩
    rw [opened] at text enough
    rw [List.cons_append] at text
    cases fuel with
    | zero => cases enough
    | succ fuel =>
      have behind := Cursor.skip_rest text
      have each : ∀ v ∈ vs, Readable (depth - 1) v := fun v there => ih v there (by omega)
      have reads := (items_reads each behind (Nat.le_of_succ_le_succ enough)).map Value.array
      have unread : scalar? (ascii '[') c = none := rfl
      have room : ¬ depth ≤ 1 := by omega
      simpa only [value, Cursor.skipBlank_solid text (by decide), text, unread, room, if_true,
        if_false] using reads
  | object d ms _ ih =>
    have opened : (Value.object ms).encode =
      ascii '\x7b' :: Utf8.encode (memberChars true ms) := rfl
    refine ⟨⟨_, _, opened, by decide, by decide⟩, fun {fuel c rest} text enough => ?_⟩
    rw [opened] at text enough
    rw [List.cons_append] at text
    cases fuel with
    | zero => cases enough
    | succ fuel =>
      have behind := Cursor.skip_rest text
      have each : ∀ m ∈ ms, Readable (depth - 1) m.2 := fun m there => ih m there (by omega)
      have reads := (members_reads each behind (Nat.le_of_succ_le_succ enough)).map Value.object
      have unread : scalar? (ascii '\x7b') c = none := rfl
      have other : ascii '\x7b' ≠ ascii '[' := by decide
      have room : ¬ depth ≤ 1 := by omega
      simpa only [value, Cursor.skipBlank_solid text (by decide), text, unread, other, room,
        if_true, if_false] using reads

end Json
end PackRelay
