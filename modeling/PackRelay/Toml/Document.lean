import PackRelay.Toml.Moment
import PackRelay.Toml.Number
import PackRelay.Toml.Table

/-! Whole documents: values, the outline of keys and headers, and the table that it stands for. -/
namespace PackRelay.Toml

/-- How deep arrays and tables in braces may nest, and how many parts a key may have. -/
def maxDepth : Nat := 79

def scalar? (cs : List Char) : Read Value :=
  match cs with
  | 't' :: rest => (word? ['r', 'u', 'e'] rest).map fun rest => (.boolean true, rest)
  | 'f' :: rest => (word? ['a', 'l', 's', 'e'] rest).map fun rest => (.boolean false, rest)
  | cs =>
    ((string? cs).map fun (s, rest) => (.text s, rest)).or
      (((moment? cs).map fun (s, rest) => (.moment s, rest)).or (number? cs))

/-- The items that remain and the closing bracket. Lines may end anywhere between them, and a comma may
stand behind the last. -/
def items (readValue : List Char → Read Value) : Nat → List Char → Option (List Value × List Char)
  | 0, _ => none
  | fuel + 1, cs =>
    match skipGap false cs with
    | ']' :: rest => some ([], rest)
    | cs => do
      let (v, cs) ← readValue cs
      match skipGap false cs with
      | ',' :: rest =>
        let (vs, rest) ← items readValue fuel rest
        some (v :: vs, rest)
      | ']' :: rest => some ([v], rest)
      | _ => none

def entry (readValue : List Char → Read Value) (cs : List Char) : Option ((Key × Value) × List Char) := do
  let (key, cs) ← key? maxDepth cs
  let (v, cs) ← readValue (skipBlank (← mark? '=' cs))
  some ((key, v), skipBlank cs)

def entries (readValue : List Char → Read Value) : Nat → List Char → Option (List (Key × Value) × List Char)
  | 0, _ => none
  | fuel + 1, cs => do
    let (e, cs) ← entry readValue cs
    match cs with
    | ',' :: rest =>
      let (es, rest) ← entries readValue fuel rest
      some (e :: es, rest)
    | '\x7d' :: rest => some ([e], rest)
    | _ => none

def braces (readValue : List Char → Read Value) (cs : List Char) : Option (Value × List Char) :=
  match skipBlank cs with
  | '\x7d' :: rest => some (.table .closed [], rest)
  | cs => do
    let (given, rest) ← entries readValue (cs.length + 1) cs
    some (.table .closed (← Entries.putAll [] given), rest)

/-- A value that nests at most so deep. -/
def value : Nat → List Char → Option (Value × List Char)
  | 0, cs => scalar? cs
  | depth + 1, cs =>
    match cs with
    | '[' :: rest => do
      let (vs, rest) ← items (value depth) (rest.length + 1) rest
      some (.array vs, rest)
    | '\x7b' :: rest => braces (value depth) rest
    | cs => scalar? cs

structure Section where
  /-- Whether the header adds a table to a list. -/
  inList : Bool
  key : Key
  given : List (Key × Value)

structure Outline where
  top : List (Key × Value)
  sections : List Section

namespace Outline

def empty : Outline := ⟨[], []⟩

def addEntry (o : Outline) (e : Key × Value) : Outline := { o with top := e :: o.top }

def addHeader (o : Outline) (inList : Bool) (key : Key) : Outline := ⟨[], ⟨inList, key, o.top⟩ :: o.sections⟩

def read : Nat → List Char → Option Outline
  | 0, _ => none
  | fuel + 1, cs =>
    match skipBlank cs with
    | [] => some empty
    | '[' :: '[' :: rest => do
      let (key, rest) ← key? maxDepth rest
      let rest ← lineEnd? (← word? [']', ']'] rest)
      (read fuel rest).map (addHeader · true key)
    | '[' :: rest => do
      let (key, rest) ← key? maxDepth rest
      let rest ← lineEnd? (← mark? ']' rest)
      (read fuel rest).map (addHeader · false key)
    | c :: rest =>
      if c = '#' || c = '\n' || c = '\r' then (lineEnd? (c :: rest)).bind (read fuel)
      else do
        let (e, rest) ← entry (value maxDepth) (c :: rest)
        let rest ← lineEnd? rest
        (read fuel rest).map (addEntry · e)

/-- One section on top of those before it. -/
def addSection (es : Entries) (s : Section) : Option Entries :=
  if s.inList then es.append? s.key s.given else es.open? s.key s.given

def assemble (o : Outline) : Option Entries := do
  o.sections.foldlM addSection (← Entries.putAll [] o.top)

end Outline

/-- The table that a document stands for, if it is well formed. A mark of byte order may open it. -/
def parse (s : String) : Option Entries :=
  let cs := match s.toList with
    | '\uFEFF' :: cs => cs
    | cs => cs
  (Outline.read (cs.length + 1) cs).bind Outline.assemble

end PackRelay.Toml
