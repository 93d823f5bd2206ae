import PackRelay.Toml.Printer

/-! Strings and keys are read back as they are written, whatever stands behind them. A character that
no line may hold is written by its number. -/
namespace PackRelay.Toml

variable {c : Char} {cs rest : List Char}

/-! ## Strings -/

theorem codePoint?_quad : ∀ n < 128, codePoint? (quad n) = some (Char.ofNat n) := by decide

/-- Only control characters of one octet are hidden. -/
theorem lt_of_hidden (hidden : ¬ isShown c) : c.toNat < 128 := by
  simp only [isShown, Bool.or_eq_true, decide_eq_true_eq, Bool.and_eq_true, not_or, not_and] at hidden
  omega

theorem lineString_escape {e : Char} {more : List Char} (escaped : escape? more = some (e, rest)) :
    lineString .basic ('\\' :: more) =
      (lineString .basic rest).map fun (xs, rest) => (e :: xs, rest) := by
  rw [lineString, if_neg (by decide), if_pos (by decide)]
  split
  · rename_i none_read
    cases escaped.symm.trans none_read
  · rename_i x behind read
    cases escaped.symm.trans read
    rfl

theorem lineString_shown (shown : isShown c) (unquoted : c ≠ '"') (unescaped : c ≠ '\\') :
    lineString .basic (c :: rest) = (lineString .basic rest).map fun (xs, rest) => (c :: xs, rest) := by
  rw [lineString, if_neg (show c ≠ Delimiter.basic.quote from unquoted),
    if_neg (by simp [unescaped]), if_pos shown]

/-- One written character is one character of a string. -/
theorem lineString_escapeChar (c : Char) (rest : List Char) :
    lineString .basic (escapeChar c ++ rest) =
      (lineString .basic rest).map fun (xs, rest) => (c :: xs, rest) := by
  unfold escapeChar
  split
  · subst c
    exact lineString_escape rfl
  split
  · subst c
    exact lineString_escape rfl
  split
  · exact lineString_shown ‹_› ‹_› ‹_›
  · rename_i hidden
    have number := codePoint?_quad c.toNat (lt_of_hidden hidden)
    rw [Char.ofNat_toNat] at number
    refine lineString_escape ?_
    show (codePoint? (quad c.toNat)).map _ = _
    rw [number]
    rfl

theorem lineString_close (rest : List Char) : lineString .basic ('"' :: rest) = some ([], rest) := by
  rw [lineString, if_pos (by decide)]

theorem lineString_escaped (cs rest : List Char) :
    lineString .basic (cs.flatMap escapeChar ++ '"' :: rest) = some (cs, rest) := by
  induction cs with
  | nil => exact lineString_close rest
  | cons c cs ih =>
    rw [List.flatMap_cons, List.append_assoc, lineString_escapeChar, ih]
    rfl

theorem quote_append (s : String) (rest : List Char) :
    quote s ++ rest = '"' :: (s.toList.flatMap escapeChar ++ '"' :: rest) := by
  simp [quote]

theorem head_escapeChar (c : Char) : ∃ d ds, escapeChar c = d :: ds ∧ d ≠ '"' := by
  unfold escapeChar
  split
  · exact ⟨_, _, rfl, by decide⟩
  split
  · exact ⟨_, _, rfl, by decide⟩
  split
  · exact ⟨c, [], rfl, ‹_›⟩
  · exact ⟨_, _, rfl, by decide⟩

/-- Three quotes would open a string over lines. -/
theorem stringOf_line (single : ∀ behind, cs ≠ '"' :: '"' :: behind) :
    stringOf .basic ('"' :: cs) = lineString .basic cs := by
  match cs with
  | [] | [_] => rfl
  | b :: c :: behind =>
    have two : ¬ (decide (b = '"') && decide (c = '"')) := by
      rw [Bool.and_eq_true, decide_eq_true_eq, decide_eq_true_eq]
      rintro ⟨rfl, rfl⟩
      exact single behind rfl
    simp only [stringOf, Delimiter.basic, decide_true, Bool.true_and, if_true]
    exact if_neg two

theorem string?_quote (s : String) (unquoted : ∀ behind, rest ≠ '"' :: behind) :
    string? (quote s ++ rest) = some (s, rest) := by
  have single : ∀ behind, s.toList.flatMap escapeChar ++ '"' :: rest ≠ '"' :: '"' :: behind := by
    intro behind is
    cases text : s.toList with
    | nil =>
      rw [text] at is
      exact unquoted behind (List.cons.inj is).2
    | cons c cs =>
      obtain ⟨d, ds, escaped, other⟩ := head_escapeChar c
      rw [text, List.flatMap_cons, escaped] at is
      exact other (List.cons.inj is).1
  have read := (stringOf_line single).trans (lineString_escaped s.toList rest)
  rw [string?, quote_append, read, Option.some_or, Option.map_some]
  exact congrArg (fun t => some (t, rest)) String.ofList_toList

/-! ## Keys -/

/-- What a key may begin with is neither a blank nor what begins another kind of line. -/
def Opens (c : Char) : Prop := c = '"' ∨ isBare c

theorem Opens.solid (opens : Opens c) : isBlank c = false ∧ c ≠ '[' ∧ c ≠ '#' ∧ c ≠ '\n' ∧ c ≠ '\r' ∧
    c ≠ '\uFEFF' := by
  rcases opens with rfl | bare
  · decide
  · refine ⟨eq_false_of_ne_true fun blank => ?_, ?_, ?_, ?_, ?_, ?_⟩
    · simp only [isBlank, Bool.or_eq_true, decide_eq_true_eq] at blank
      rcases blank with rfl | rfl <;> revert bare <;> decide
    all_goals
      rintro rfl
      revert bare
      decide

theorem nameChars_opens (name : String) : ∃ c cs, nameChars name = c :: cs ∧ Opens c := by
  unfold nameChars
  split
  · rename_i bare
    obtain ⟨c, cs, text⟩ := List.exists_cons_of_ne_nil bare.1
    refine ⟨c, cs, text, .inr ?_⟩
    have all := bare.2
    rw [text] at all
    exact (Bool.and_eq_true _ _ ▸ all).1
  · exact ⟨_, _, rfl, .inl rfl⟩

theorem span_bare (bare : cs.all isBare) (stops : ∀ c behind, rest = c :: behind → isBare c = false) :
    (cs ++ rest).takeWhile isBare = cs ∧ (cs ++ rest).dropWhile isBare = rest := by
  have all := List.all_eq_true.1 bare
  rw [List.takeWhile_append_of_pos all, List.dropWhile_append_of_pos all]
  cases rest with
  | nil => exact ⟨List.append_nil cs, rfl⟩
  | cons c behind => simp [stops c behind rfl]

theorem keyPart?_bare (some_char : cs ≠ []) (bare : cs.all isBare)
    (stops : ∀ c behind, rest = c :: behind → isBare c = false) :
    keyPart? (cs ++ rest) = some (String.ofList cs, rest) := by
  obtain ⟨taken, dropped⟩ := span_bare bare stops
  obtain ⟨c, more, rfl⟩ := List.exists_cons_of_ne_nil some_char
  have first : isBare c := (Bool.and_eq_true _ _ ▸ bare).1
  unfold keyPart?
  split
  · rename_i is
    cases is
    exact absurd first (by decide)
  · rename_i is
    cases is
    exact absurd first (by decide)
  · rw [taken, dropped]

/-- A key is read up to what cannot belong to it. -/
theorem keyPart?_nameChars (name : String)
    (stops : ∀ c behind, rest = c :: behind → isBare c = false) :
    keyPart? (nameChars name ++ rest) = some (name, rest) := by
  unfold nameChars
  split
  · rename_i bare
    rw [keyPart?_bare bare.1 bare.2 stops, String.ofList_toList]
  · rw [quote_append, keyPart?, lineString_escaped, Option.map_some]
    exact congrArg (fun t => some (t, rest)) String.ofList_toList

theorem skipBlank_of_solid (solid : isBlank c = false) : skipBlank (c :: rest) = c :: rest := by
  simp [skipBlank, solid]

theorem skipBlank_nameChars (name : String) (rest : List Char) :
    skipBlank (nameChars name ++ rest) = nameChars name ++ rest := by
  obtain ⟨c, cs, text, opens⟩ := nameChars_opens name
  rw [text]
  exact skipBlank_of_solid opens.solid.1

/-- A name on its own is a key of one part. -/
theorem key?_nameChars {parts : Nat} {more : List Char} (name : String)
    (stops : ∀ c behind, rest = c :: behind → isBare c = false) (next : skipBlank rest = c :: more)
    (undotted : c ≠ '.') :
    key? (parts + 1) (nameChars name ++ rest) = some (⟨[], name⟩, c :: more) := by
  rw [key?, skipBlank_nameChars, keyPart?_nameChars name stops]
  simp only [Option.bind_eq_bind, Option.bind_some, next]
  split
  · rename_i is
    exact absurd (List.cons.inj is).1 undotted
  · rfl

end PackRelay.Toml
