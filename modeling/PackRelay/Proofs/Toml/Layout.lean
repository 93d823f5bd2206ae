import PackRelay.Proofs.Toml.Value

/-! Documents of lines and sections, each name once in its place, are read back as what they are laid
out from, in the same order. -/
namespace PackRelay.Toml

/-- A name and the text of a value. -/
structure Line where
  name : String
  text : List Char
  value : Value
  reads : Reads text value

namespace Line

def chars (l : Line) : List Char := nameChars l.name ++ " = ".toList ++ l.text ++ ['\n']

def entry (l : Line) : String × Value := (l.name, l.value)

def given (l : Line) : Key × Value := (⟨[], l.name⟩, l.value)

theorem chars_append (l : Line) (rest : List Char) :
    l.chars ++ rest = nameChars l.name ++ ' ' :: '=' :: ' ' :: (l.text ++ '\n' :: rest) := by
  simp [chars]

theorem opens (l : Line) (rest : List Char) : ∃ c cs, l.chars ++ rest = c :: cs ∧ Opens c := by
  obtain ⟨c, cs, text, opens⟩ := nameChars_opens l.name
  rw [chars_append, text]
  exact ⟨c, _, rfl, opens⟩

theorem entry_chars (l : Line) (rest : List Char) :
    Toml.entry (Toml.value maxDepth) (l.chars ++ rest) = some (l.given, '\n' :: rest) := by
  have key : key? maxDepth (l.chars ++ rest) =
      some (⟨[], l.name⟩, '=' :: ' ' :: (l.text ++ '\n' :: rest)) := by
    rw [chars_append]
    exact key?_nameChars l.name (fun _ _ is => by cases is; rfl) rfl (by decide)
  have blank : skipBlank (' ' :: (l.text ++ '\n' :: rest)) = skipBlank (l.text ++ '\n' :: rest) := rfl
  simp only [Toml.entry, key, mark?, blank, l.reads rest, given, Option.bind_eq_bind,
    Option.bind_some, if_true]
  rfl

end Line

/-- A header and the lines below it. -/
structure Block where
  name : String
  lines : List Line
  distinct : (lines.map Line.name).Nodup

namespace Block

def header (b : Block) : List Char := '[' :: nameChars b.name ++ [']', '\n']

def chars (b : Block) : List Char := b.header ++ b.lines.flatMap Line.chars

def entry (b : Block) : String × Value := (b.name, .table .header (b.lines.map Line.entry))

def given (b : Block) : Section := ⟨false, ⟨[], b.name⟩, b.lines.map Line.given⟩

end Block

/-- Lines above every header, and blocks. -/
structure Layout where
  top : List Line
  blocks : List Block
  distinct : (top.map Line.name ++ blocks.map Block.name).Nodup

namespace Layout

def chars (d : Layout) : List Char := d.top.flatMap Line.chars ++ d.blocks.flatMap Block.chars

def text (d : Layout) : String := String.ofList d.chars

def entries (d : Layout) : Entries := d.top.map Line.entry ++ d.blocks.map Block.entry

/-- The line stands in the block of this name. -/
def Under (d : Layout) (name : String) (l : Line) : Prop :=
  ∃ b ∈ d.blocks, b.name = name ∧ l ∈ b.lines

end Layout

/-! ## The outline of the text -/

namespace Outline

variable {cs rest : List Char} {o : Outline}

/-- Whatever length is allowed for, as long as it is enough. -/
def Of (cs : List Char) (o : Outline) : Prop := ∀ fuel, cs.length < fuel → read fuel cs = some o

theorem Of.nil : Of [] empty := by
  intro fuel enough
  obtain ⟨fuel, rfl⟩ := Nat.exists_eq_add_one.2 (Nat.zero_lt_of_lt enough)
  rfl

theorem Of.line (behind : Of rest o) (l : Line) : Of (l.chars ++ rest) (o.addEntry l.given) := by
  intro fuel enough
  obtain ⟨fuel, rfl⟩ := Nat.exists_eq_add_one.2 (Nat.zero_lt_of_lt enough)
  obtain ⟨c, cs, text, opens⟩ := l.opens rest
  have entry := l.entry_chars rest
  obtain ⟨blank, bracket, comment, newline, carriage, _⟩ := opens.solid
  have shorter : rest.length < fuel := by
    rw [Line.chars_append] at enough
    simp only [List.length_append, List.length_cons] at enough
    omega
  rw [text] at entry ⊢
  unfold read
  rw [skipBlank_of_solid blank]
  split
  · rename_i is
    cases is
  · rename_i is
    exact absurd (List.cons.inj is).1 bracket
  · rename_i is
    exact absurd (List.cons.inj is).1 bracket
  · rename_i is
    obtain ⟨rfl, rfl⟩ := List.cons.inj is
    have ended : lineEnd? ('\n' :: rest) = some rest := rfl
    simp only [comment, newline, carriage, decide_false, Bool.or_self, Bool.false_eq_true, if_false,
      entry, ended, Option.bind_eq_bind, Option.bind_some, behind fuel shorter, Option.map_some]

theorem Of.header (behind : Of rest o) (b : Block) :
    Of (b.header ++ rest) (o.addHeader false ⟨[], b.name⟩) := by
  intro fuel enough
  obtain ⟨fuel, rfl⟩ := Nat.exists_eq_add_one.2 (Nat.zero_lt_of_lt enough)
  obtain ⟨c, cs, text, opens⟩ := nameChars_opens b.name
  have shorter : rest.length < fuel := by
    simp only [Block.header, List.length_append, List.length_cons] at enough
    omega
  have key : key? maxDepth (nameChars b.name ++ ']' :: '\n' :: rest) =
      some (⟨[], b.name⟩, ']' :: '\n' :: rest) :=
    key?_nameChars b.name (fun _ _ is => by cases is; rfl) rfl (by decide)
  have whole : b.header ++ rest = '[' :: (nameChars b.name ++ ']' :: '\n' :: rest) := by
    simp [Block.header]
  have ended : lineEnd? ('\n' :: rest) = some rest := rfl
  rw [whole]
  unfold read
  rw [skipBlank_of_solid (by decide)]
  split
  · rename_i is
    cases is
  · rename_i is
    rw [text] at is
    exact absurd (List.cons.inj (List.cons.inj is).2).1 opens.solid.2.1
  · rename_i is
    obtain ⟨-, rfl⟩ := List.cons.inj is
    simp only [key, mark?, ended, if_true, Option.bind_eq_bind, Option.bind_some,
      behind fuel shorter, Option.map_some]
  · rename_i bracket is
    exact absurd (List.cons.inj is).1.symm bracket

theorem Of.lines (behind : Of rest o) (ls : List Line) :
    Of (ls.flatMap Line.chars ++ rest) { o with top := ls.map Line.given ++ o.top } := by
  induction ls with
  | nil => exact behind
  | cons l ls ih =>
    rw [List.flatMap_cons, List.append_assoc]
    exact ih.line l

theorem Of.blocks (bs : List Block) : Of (bs.flatMap Block.chars) ⟨[], bs.map Block.given⟩ := by
  induction bs with
  | nil => exact .nil
  | cons b bs ih =>
    have all := (ih.lines b.lines).header b
    rw [List.flatMap_cons, Block.chars, List.append_assoc]
    simp only [List.append_nil] at all
    exact all

end Outline

/-! ## The table of the outline -/

variable {α : Type} {es : Entries}

theorem Entries.get?_eq_none {name : String} (fresh : name ∉ es.map Prod.fst) :
    es.get? name = none := by
  rw [get?, Option.map_eq_none_iff, List.find?_eq_none]
  intro e listed is
  exact fresh (of_decide_eq_true is ▸ List.mem_map_of_mem listed)

/-- One new entry after the other. -/
theorem foldlM_fresh {add : Entries → α → Option Entries} {entry : α → String × Value}
    (adds : ∀ es a, (entry a).1 ∉ es.map Prod.fst → add es a = some (es ++ [entry a])) (all : List α)
    (distinct : (es.map Prod.fst ++ all.map fun a => (entry a).1).Nodup) :
    all.foldlM add es = some (es ++ all.map entry) := by
  induction all generalizing es with
  | nil => simp
  | cons a all ih =>
    have fresh : (entry a).1 ∉ es.map Prod.fst := by
      rw [List.nodup_append] at distinct
      exact fun there => distinct.2.2 _ there _ (by simp) rfl
    rw [List.foldlM_cons, adds es a fresh]
    have rest := @ih (es ++ [entry a]) (by simpa using distinct)
    simpa using rest

theorem putAll_lines {ls : List Line} (distinct : (es.map Prod.fst ++ ls.map Line.name).Nodup) :
    es.putAll (ls.map Line.given) = some (es ++ ls.map Line.entry) := by
  rw [Entries.putAll, List.foldlM_map]
  refine foldlM_fresh (fun es l fresh => ?_) ls distinct
  have absent : es.get? l.name = none := Entries.get?_eq_none fresh
  simp [Entries.put, Line.given, Entries.add, absent, Line.entry]

theorem addSection_block {b : Block} (fresh : b.name ∉ es.map Prod.fst) :
    Outline.addSection es b.given = some (es ++ [b.entry]) := by
  have inner := @putAll_lines [] _ b.distinct
  simp [Outline.addSection, Block.given, Entries.open?, Entries.below, Entries.change,
    Entries.get?_eq_none fresh, inner, Block.entry]

namespace Layout

theorem assemble (d : Layout) :
    Outline.assemble ⟨d.top.map Line.given, d.blocks.map Block.given⟩ = some d.entries := by
  have apart := d.distinct
  have top := @putAll_lines [] _ (List.nodup_append.1 apart).1
  simp only [Outline.assemble, top, Option.bind_eq_bind, Option.bind_some, List.foldlM_map]
  have adds : ∀ (es : Entries) (b : Block), b.entry.1 ∉ es.map Prod.fst →
      Outline.addSection es b.given = some (es ++ [b.entry]) := fun _ _ => addSection_block
  refine foldlM_fresh adds d.blocks ?_
  simpa [Function.comp_def, Line.entry, Block.entry] using apart

/-- No mark of byte order is taken off. -/
theorem unmarked (d : Layout) (behind : List Char) : d.chars ≠ '\uFEFF' :: behind := by
  unfold chars
  cases d.top with
  | nil =>
    cases d.blocks with
    | nil => exact fun is => by cases is
    | cons b bs => exact fun is => by cases is
  | cons l ls =>
    obtain ⟨c, cs, text, opens⟩ := l.opens (ls.flatMap Line.chars ++ d.blocks.flatMap Block.chars)
    rw [List.flatMap_cons, List.append_assoc, text]
    exact fun is => opens.solid.2.2.2.2.2 (List.cons.inj is).1

theorem parse_text (d : Layout) : parse d.text = some d.entries := by
  have outline := (Outline.Of.blocks d.blocks).lines d.top
  rw [List.append_nil] at outline
  unfold parse
  rw [text, String.toList_ofList]
  split
  · exact absurd ‹_› (d.unmarked _)
  · exact (congrArg (Option.bind · Outline.assemble) (outline _ (Nat.lt_succ_self _))).trans d.assemble

end Layout
end PackRelay.Toml
