import PackRelay.Json.Tagged
import PackRelay.Proofs.Json.Reader

/-! A written record whose first member is its tag is taken apart into the variant and the members
that remain. -/
namespace PackRelay.Json

variable {α : Type} {c : Cursor} {rest : Bytes} {first : Bool} {fuel i : Nat}
    {tag typeName name : String} {known : List String} {ms : List (String × Value)}

theorem variant_reads (found : known.findIdx? (· == name) = some i)
    (text : c.rest = Utf8.encode (quote name) ++ rest) : Reads (variant known c) i rest := by
  obtain ⟨c', read, left⟩ := string_reads text
  rw [encode_quote, List.cons_append] at text
  have scalar : scalar? (ascii '"') c = some _ := rfl
  refine ⟨c', ?_, left⟩
  simp only [variant, Cursor.skipBlank_solid text (by decide), text, scalar, read, Except.map,
    found]

/-- Once the variant is known, all other members are kept as they are. -/
theorem taggedMembers_named (each : ∀ m ∈ ms, Readable (maxDepth - 1) m.2)
    (untagged : ∀ m ∈ ms, m.1 ≠ tag)
    (text : c.rest = Utf8.encode (memberChars first ms) ++ rest)
    (enough : (Utf8.encode (memberChars first ms)).length ≤ fuel) :
    Reads (taggedMembers tag known fuel first (some i) c) (i, ms) rest := by
  induction ms generalizing fuel c first with
  | nil =>
    cases fuel with
    | zero => cases enough
    | succ fuel =>
      have text : c.rest = ascii '\x7d' :: rest := text
      simp only [taggedMembers, nextMember_end text, bind, Except.bind]
      exact ⟨_, rfl, Cursor.skip_rest text⟩
  | cons m ms ih =>
    obtain ⟨key, v⟩ := m
    have of_value := each (key, v) List.mem_cons_self
    have other : key ≠ tag := untagged (key, v) List.mem_cons_self
    rw [encode_memberChars, List.append_assoc, List.append_assoc, List.cons_append,
      List.append_assoc] at text
    rw [encode_memberChars, List.length_append, List.length_append, List.length_cons,
      List.length_append] at enough
    cases fuel with
    | zero => omega
    | succ fuel =>
      have fits : v.encode.length ≤ fuel := by omega
      have others_fit : (Utf8.encode (memberChars false ms)).length ≤ fuel := by omega
      obtain ⟨c₁, c₂, c₃, next, read_key, mark, at_value⟩ := member_reads text
      obtain ⟨c₄, read, behind⟩ := of_value.reads at_value fits
      obtain ⟨c₅, others, left⟩ := ih (fun m there => each m (List.mem_cons_of_mem _ there))
        (fun m there => untagged m (List.mem_cons_of_mem _ there)) behind others_fit
      refine ⟨c₅, ?_, left⟩
      simp only [taggedMembers, next, read_key, other, mark, read, others, bind, Except.bind, pure,
        Except.pure, if_false]

theorem taggedMembers_reads (found : known.findIdx? (· == name) = some i)
    (each : ∀ m ∈ ms, Readable (maxDepth - 1) m.2) (untagged : ∀ m ∈ ms, m.1 ≠ tag)
    (text : c.rest = Utf8.encode (memberChars true ((tag, .text name) :: ms)) ++ rest)
    (enough : (Utf8.encode (memberChars true ((tag, .text name) :: ms))).length ≤ fuel) :
    Reads (taggedMembers tag known fuel true none c) (i, ms) rest := by
  rw [encode_memberChars, List.append_assoc, List.append_assoc, List.cons_append,
    List.append_assoc] at text
  rw [encode_memberChars, List.length_append, List.length_append, List.length_cons,
    List.length_append] at enough
  cases fuel with
  | zero => omega
  | succ fuel =>
    have others_fit : (Utf8.encode (memberChars false ms)).length ≤ fuel := by omega
    obtain ⟨c₁, c₂, c₃, next, read_key, mark, at_value⟩ := member_reads text
    obtain ⟨c₄, read, behind⟩ := variant_reads found at_value
    have named : Reads (taggedMembers tag known fuel false (some i) c₄) (i, ms) rest :=
      taggedMembers_named each untagged behind others_fit
    obtain ⟨c₅, others, left⟩ := named
    refine ⟨c₅, ?_, left⟩
    simp only [taggedMembers, next, read_key, mark, read, others, bind, Except.bind, if_true,
      Option.isSome_none, Bool.false_eq_true, if_false]

theorem tagged_reads (found : known.findIdx? (· == name) = some i)
    (each : ∀ m ∈ ms, Readable (maxDepth - 1) m.2) (untagged : ∀ m ∈ ms, m.1 ≠ tag)
    (text : c.rest = (Value.object ((tag, .text name) :: ms)).encode ++ rest) :
    Reads (tagged tag typeName known c) (i, .object ms) rest := by
  have opened : (Value.object ((tag, .text name) :: ms)).encode =
    ascii '\x7b' :: Utf8.encode (memberChars true ((tag, .text name) :: ms)) := rfl
  rw [opened, List.cons_append] at text
  have enough : (Utf8.encode (memberChars true ((tag, .text name) :: ms))).length ≤ c.fuel := by
    simp only [Cursor.fuel, text, List.length_cons, List.length_append]
    omega
  obtain ⟨c', read, left⟩ :=
    taggedMembers_reads found each untagged (Cursor.skip_rest text) enough
  have unread : scalar? (ascii '\x7b') c = none := rfl
  refine ⟨c', ?_, left⟩
  simp only [tagged, Cursor.skipBlank_solid text (by decide), text, unread, read, if_true, bind,
    Except.bind, pure, Except.pure]

theorem atEnd_nil (is_over : c.rest = []) : atEnd c = .ok () := by
  have blank : c.skipBlank.rest = [] := by
    simp only [Cursor.skipBlank, is_over, Cursor.skipBlankFrom]
  simp only [atEnd, blank]

/-- What a record is built from is what it was written with. -/
theorem decodeTagged_encode {build : Nat → Value → Except Schema.Mismatch α} {a : α} {d : Nat}
    (found : known.findIdx? (· == name) = some i)
    (plain : ∀ m ∈ ms, Textual d m.2 ∧ m.1 ≠ tag) (shallow : d < maxDepth - 1)
    (built : build i (.object ms) = .ok a) :
    decodeTagged tag typeName known build (Value.object ((tag, .text name) :: ms)).encode =
      .ok a := by
  have each : ∀ m ∈ ms, Readable (maxDepth - 1) m.2 := fun m there =>
    (plain m there).1.readable shallow
  have untagged : ∀ m ∈ ms, m.1 ≠ tag := fun m there => (plain m there).2
  generalize text : (Value.object ((tag, .text name) :: ms)).encode = document
  have reads : Reads (tagged tag typeName known (Cursor.start document)) (i, .object ms) [] :=
    tagged_reads found each untagged (by rw [text, List.append_nil]; rfl)
  obtain ⟨c, read, is_over⟩ := reads
  simp only [decodeTagged, read, built, atEnd_nil is_over, bind, Except.bind, pure, Except.pure]

end PackRelay.Json
