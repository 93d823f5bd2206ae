import PackRelay.Proofs.Url.Ipv6
import PackRelay.Proofs.Url.Path
import PackRelay.Url.Parse

/-! The hosts of URLs whose scheme is not of the web. A host is read back from its text, and the text is
found again in front of a port. -/
namespace PackRelay.Url

variable {cs rest : List Char} {c : Char} {host : Host}

/-- Where neither a host nor an authority ends. -/
def IsPlain (c : Char) : Prop :=
  endsAuthority false c = false ∧ c ≠ '@' ∧ isBlank c = false ∧ isDropped c = false

instance (c : Char) : Decidable (IsPlain c) := inferInstanceAs (Decidable (_ ∧ _))

/-- Text that stands for a host wherever it is read. -/
structure Names (cs : List Char) (host : Host) : Prop where
  read : opaqueHost cs = .ok host
  plain : ∀ c ∈ cs, IsPlain c
  found : ∀ rest, splitHost false false (cs ++ ':' :: rest) = (cs, ':' :: rest)

theorem splitHost_colon (rest : List Char) :
    splitHost false false (':' :: rest) = ([], ':' :: rest) := rfl

theorem splitHost_cons {inside : Bool} (goes : endsAuthority false c = false)
    (bare : c = ':' → inside = true) (rest : List Char) :
    splitHost false inside (c :: rest) =
      ((c :: (splitHost false (if c = '[' then true else if c = ']' then false else inside) rest).1),
        (splitHost false (if c = '[' then true else if c = ']' then false else inside) rest).2) := by
  have on : ((decide (c = ':') && !inside) || endsAuthority false c) = false := by
    rw [goes, Bool.or_false, Bool.and_eq_false_iff, decide_eq_false_iff_not, Bool.not_eq_false']
    by_cases colon : c = ':'
    · exact .inr (bare colon)
    · exact .inl colon
  simp only [splitHost, on, Bool.false_eq_true, if_false]

/-- Characters that neither open nor close brackets. -/
theorem splitHost_append {inside : Bool} (plain : ∀ c ∈ cs, IsPlain c ∧ c ≠ '[' ∧ c ≠ ']')
    (bare : ':' ∈ cs → inside = true) (rest : List Char) :
    splitHost false inside (cs ++ rest) =
      (cs ++ (splitHost false inside rest).1, (splitHost false inside rest).2) := by
  induction cs with
  | nil => rfl
  | cons c cs ih =>
    obtain ⟨⟨goes, open_, close⟩, later⟩ := List.forall_mem_cons.1 plain
    have bare' : c = ':' → inside = true := fun is => bare (is ▸ List.mem_cons_self)
    have further := ih later fun there => bare (List.mem_cons_of_mem c there)
    rw [List.cons_append, splitHost_cons goes.1 bare', if_neg open_, if_neg close, further]
    rfl

theorem forbidden_of_marks : ∀ m ∈ Percent.marks, isForbiddenInHost m = false ∧
    Percent.isControl m = false := List.all_iff_forall_prop.1 (by decide)

theorem visible_of_printable (printable : Percent.isControl c = false) (space : c ≠ ' ') :
    isBlank c = false ∧ isDropped c = false := by
  constructor
  · have code : c.toNat ≠ 0x20 := fun is => space (Char.toNat_inj.1 is)
    simp only [Percent.isControl, Bool.or_eq_false_iff, decide_eq_false_iff_not] at printable
    simp only [isBlank, decide_eq_false_iff_not]
    omega
  · refine eq_false_of_ne_true fun dropped => ?_
    simp only [isDropped, Bool.or_eq_true, decide_eq_true_eq] at dropped
    rcases dropped with (rfl | rfl) | rfl <;> cases printable

theorem plain_of_allowed (allowed : isForbiddenInHost c = false)
    (printable : Percent.isControl c = false) : IsPlain c ∧ c ≠ '[' ∧ c ≠ ']' ∧ c ≠ ':' := by
  have other {d : Char} (forbidden : isForbiddenInHost d = true) : c ≠ d := by
    rintro rfl
    exact Bool.false_ne_true (allowed.symm.trans forbidden)
  have goes : endsAuthority false c = false := by
    simp [endsAuthority, other (d := '/') (by decide), other (d := '?') (by decide),
      other (d := '#') (by decide)]
  exact ⟨⟨goes, other (by decide), visible_of_printable printable (other (by decide))⟩,
    other (by decide), other (by decide), other (by decide)⟩

theorem names_of_name (allowed : ∀ c ∈ cs, isForbiddenInHost c = false ∧
    Percent.isControl c = false) : Names cs (.name cs) := by
  have are : ∀ c ∈ cs, IsPlain c ∧ c ≠ '[' ∧ c ≠ ']' ∧ c ≠ ':' := fun c there =>
    plain_of_allowed (allowed c there).1 (allowed c there).2
  constructor
  · have unbracketed : cs.head? ≠ some '[' := fun first =>
      (are '[' (List.mem_of_mem_head? first)).2.1 rfl
    have none_ : cs.any isForbiddenInHost = false :=
      List.any_eq_false.2 fun c there => Bool.eq_false_iff.1 (allowed c there).1
    rw [opaqueHost, if_neg unbracketed, if_neg (Bool.eq_false_iff.1 none_),
      Percent.encode_of_plain fun c there => (allowed c there).2]
  · exact fun c there => (are c there).1
  · intro rest
    have colon : ':' ∉ cs := fun there => (are ':' there).2.2.2 rfl
    rw [splitHost_append (fun c there => ⟨(are c there).1, (are c there).2.1, (are c there).2.2.1⟩)
      (absurd · colon), splitHost_colon, List.append_nil]

theorem letters_plain : ∀ c ∈ Ipv6.letters, IsPlain c ∧ c ≠ '[' ∧ c ≠ ']' :=
  List.all_iff_forall_prop.1 (by decide)

theorem names_of_ipv6 {ws : List Nat} (valid : Ipv6.Valid ws) :
    Names (Host.ipv6 ws).text (.ipv6 ws) := by
  have are : ∀ c ∈ Ipv6.text ws, IsPlain c ∧ c ≠ '[' ∧ c ≠ ']' := fun c there =>
    letters_plain c (Ipv6.mem_text there)
  constructor
  · have opened : (Host.ipv6 ws).text.head? = some '[' := rfl
    have closed : (Host.ipv6 ws).text.getLast? = some ']' := List.getLast?_concat
    have within : ((Host.ipv6 ws).text.drop 1).dropLast = Ipv6.text ws := List.dropLast_concat
    rw [opaqueHost, if_pos opened, bracketed, if_neg (not_not.2 closed), within,
      Ipv6.parse_text valid]
  · intro c there
    simp only [Host.text, List.mem_append, List.mem_cons, List.not_mem_nil, or_false] at there
    rcases there with (rfl | there) | rfl
    · decide
    · exact (are c there).1
    · decide
  · intro rest
    have closing : splitHost false true (']' :: ':' :: rest) = ([']'], ':' :: rest) := by
      rw [splitHost_cons rfl (absurd · (by decide))]
      simp [splitHost_colon]
    -- Colons do not end the host before the bracket is closed.
    have inner := splitHost_append are (fun _ => rfl) (']' :: ':' :: rest)
    rw [closing] at inner
    have whole : (Host.ipv6 ws).text ++ ':' :: rest =
        '[' :: (Ipv6.text ws ++ (']' :: ':' :: rest)) := by
      simp [Host.text]
    rw [whole, splitHost_cons rfl (absurd · (by decide)), if_pos rfl, inner]
    simp [Host.text]

theorem names_of_opaqueHost (read : opaqueHost cs = .ok host) : Names host.text host := by
  unfold opaqueHost at read
  split at read
  · unfold bracketed at read
    split at read
    · cases read
    · split at read
      · rename_i ws parsed
        cases read
        exact names_of_ipv6 (Ipv6.valid_of_parse parsed)
      · cases read
  · split at read
    · cases read
    · rename_i none_
      cases read
      refine names_of_name fun c there => ?_
      rcases Percent.mem_encode there with ⟨within, printable⟩ | mark
      · exact ⟨eq_false_of_ne_true fun is => none_ (List.any_eq_true.2 ⟨c, within, is⟩), printable⟩
      · exact forbidden_of_marks c mark

end PackRelay.Url
