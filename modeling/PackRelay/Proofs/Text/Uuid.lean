import PackRelay.Uuid
import Mathlib.Data.List.Basic

/-! Identifiers are read back from the hyphenated form that they are written in. -/
namespace PackRelay.Uuid

variable {cs : List Char}

theorem digit?_digitChar : ∀ d : Fin 16, Hex.digit? (digitChar d) = some d := by decide

theorem mapM_digit? (ds : List (Fin 16)) : (ds.map digitChar).mapM Hex.digit? = some ds := by
  induction ds with
  | nil => rfl
  | cons d ds ih => simp [digit?_digitChar, ih]

/-- The groups between hyphens, the last of which is not cut. -/
theorem groups (full : cs.length = 32) :
    ∃ a b c d e, cs = a ++ (b ++ (c ++ (d ++ e))) ∧ a.length = 8 ∧ b.length = 4 ∧ c.length = 4 ∧
      d.length = 4 := by
  refine ⟨cs.take 8, (cs.drop 8).take 4, (cs.drop 12).take 4, (cs.drop 16).take 4, cs.drop 20,
    ?_, by simp [full], by simp [full], by simp [full], by simp [full]⟩
  have cut : ∀ n, (cs.drop n).take 4 ++ cs.drop (n + 4) = cs.drop n := fun n => by
    rw [← List.drop_drop, List.take_append_drop]
  rw [cut 16, cut 12, cut 8, List.take_append_drop]

theorem hyphenate_groups {a b c d e : List Char} (first : a.length = 8) (second : b.length = 4)
    (third : c.length = 4) (fourth : d.length = 4) :
    hyphenate (a ++ (b ++ (c ++ (d ++ e)))) =
      a ++ '-' :: (b ++ '-' :: (c ++ '-' :: (d ++ '-' :: e))) := by
  simp (disch := omega) [hyphenate, List.drop_append, List.drop_of_length_le, first, second, third]

/-- Taking the hyphens out again. -/
theorem plain_groups {a b c d e h : List Char} (first : a.length = 8) (second : b.length = 4)
    (third : c.length = 4) (fourth : d.length = 4)
    (parted : h = a ++ '-' :: (b ++ '-' :: (c ++ '-' :: (d ++ '-' :: e)))) :
    h.take 8 ++ (h.drop 9).take 4 ++ (h.drop 14).take 4 ++ (h.drop 19).take 4 ++ h.drop 24 =
      a ++ (b ++ (c ++ (d ++ e))) := by
  subst parted
  simp (disch := omega) [List.drop_append, List.drop_of_length_le, first, second, third, fourth]

theorem hyphenated?_hyphenate (full : cs.length = 32) :
    (hyphenate cs).length = 36 ∧ hyphenated? (hyphenate cs) = simple? cs := by
  obtain ⟨a, b, c, d, e, rfl, first, second, third, fourth⟩ := groups full
  have parted := hyphenate_groups (e := e) first second third fourth
  constructor
  · rw [parted]
    simp only [List.length_append, List.length_cons] at full ⊢
    omega
  · simp only [hyphenated?, plain_groups first second third fourth parted, if_true]

theorem parse_text (u : Uuid) : parse u.text = .ok u := by
  have full : (u.digits.map digitChar).length = 32 := by rw [List.length_map, u.length_eq]
  obtain ⟨long, parts⟩ := hyphenated?_hyphenate full
  have read : simple? (u.digits.map digitChar) = some u := by
    simp only [simple?, mapM_digit?, Option.bind_some, ofDigits?, u.length_eq, dif_pos]
  simp [parse, text, toChars, parse?, long, parts, read]

end PackRelay.Uuid
