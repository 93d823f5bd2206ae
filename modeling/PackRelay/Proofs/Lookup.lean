/-! Entries that are found by name. -/
namespace PackRelay

theorem lookup_map {β γ : Type} (f : String → β → γ) (l : List (String × β)) (name : String) :
    (l.map fun p => (p.1, f p.1 p.2)).lookup name = (l.lookup name).map (f name) := by
  induction l with
  | nil => rfl
  | cons p l ih =>
    obtain ⟨n, b⟩ := p
    simp only [List.map_cons, List.lookup_cons]
    cases same : name == n with
    | true =>
      cases eq_of_beq same
      rfl
    | false => exact ih

theorem lookup_filter_ne {β : Type} {name other : String} (l : List (String × β))
    (differs : name ≠ other) :
    (l.filter (·.1 ≠ other)).lookup name = l.lookup name := by
  induction l with
  | nil => rfl
  | cons p l ih =>
    obtain ⟨n, b⟩ := p
    by_cases there : n = other
    · subst there
      have apart : (name == n) = false := beq_eq_false_iff_ne.2 differs
      simpa [List.lookup_cons, apart] using ih
    · simp only [List.filter_cons, there, ne_eq, not_false_eq_true, decide_true, if_true,
        List.lookup_cons, ih]

theorem lookup_filter_self {β : Type} (l : List (String × β)) (name : String) :
    (l.filter (·.1 ≠ name)).lookup name = none := by
  refine List.lookup_eq_none_iff.2 fun p there => ?_
  have differs : p.1 ≠ name := of_decide_eq_true (List.mem_filter.1 there).2
  exact bne_iff_ne.2 differs.symm

theorem mem_of_lookup {β : Type} {l : List (String × β)} {name : String} {b : β}
    (found : l.lookup name = some b) : (name, b) ∈ l := by
  induction l with
  | nil => cases found
  | cons p l ih =>
    obtain ⟨n, b'⟩ := p
    rw [List.lookup_cons] at found
    cases same : name == n with
    | true =>
      rw [same] at found
      cases found
      cases eq_of_beq same
      exact List.mem_cons_self
    | false =>
      rw [same] at found
      exact List.mem_cons_of_mem _ (ih found)

end PackRelay
