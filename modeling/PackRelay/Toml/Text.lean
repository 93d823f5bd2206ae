import PackRelay.Text.Hex

/-! The characters of TOML: blanks, line ends, comments, strings and keys. Every reader takes the text
from where it stands and gives what it read and the text behind it, or none where the text has another
form. -/
namespace PackRelay.Toml

abbrev Read (α : Type) := Option (α × List Char)

def isBlank (c : Char) : Bool := c = ' ' || c = '\t'

def skipBlank (cs : List Char) : List Char := cs.dropWhile isBlank

/-- What a line may hold: no control character but the tab. -/
def isShown (c : Char) : Bool := c = '\t' || (0x20 ≤ c.toNat && c.toNat ≠ 0x7F)

def mark? (wanted : Char) : List Char → Option (List Char)
  | c :: rest => if c = wanted then some rest else none
  | [] => none

def newline? : List Char → Option (List Char)
  | '\n' :: rest => some rest
  | '\r' :: '\n' :: rest => some rest
  | _ => none

def skipComment : List Char → List Char
  | '#' :: rest => rest.dropWhile isShown
  | cs => cs

def lineEnd? (cs : List Char) : Option (List Char) :=
  match skipComment (skipBlank cs) with
  | [] => some []
  | rest => newline? rest

def skipSpace : List Char → List Char
  | '\r' :: '\n' :: rest => skipSpace rest
  | c :: rest => if isBlank c || c = '\n' then skipSpace rest else c :: rest
  | [] => []

/-- Past blanks, line ends and comments. A character that no comment holds stops it. -/
def skipGap (inComment : Bool) : List Char → List Char
  | '\r' :: '\n' :: rest => skipGap false rest
  | '\n' :: rest => skipGap false rest
  | c :: rest =>
    if inComment then if isShown c then skipGap true rest else c :: rest
    else if c = '#' then skipGap true rest
    else if isBlank c then skipGap false rest
    else c :: rest
  | [] => []

def codePoint? (ds : List Char) : Option Char := do
  let n ← ds.foldlM (fun n d => (Hex.value? d).map (n * 16 + ·)) 0
  if h : n.isValidChar then some (Char.ofNatAux n h) else none

def escape? : List Char → Read Char
  | 'b' :: rest => some ('\x08', rest)
  | 't' :: rest => some ('\t', rest)
  | 'n' :: rest => some ('\n', rest)
  | 'f' :: rest => some ('\x0c', rest)
  | 'r' :: rest => some ('\r', rest)
  | '"' :: rest => some ('"', rest)
  | '\\' :: rest => some ('\\', rest)
  | 'u' :: a :: b :: c :: d :: rest => (codePoint? [a, b, c, d]).map fun x => (x, rest)
  | 'U' :: a :: b :: c :: d :: e :: f :: g :: h :: rest =>
    (codePoint? [a, b, c, d, e, f, g, h]).map fun x => (x, rest)
  | _ => none

theorem escape?_shorter {cs rest : List Char} {c : Char} (h : escape? cs = some (c, rest)) :
    rest.length < cs.length := by
  unfold escape? at h
  split at h
  case h_10 => cases h
  all_goals first
    | (cases h; simp)
    | (obtain ⟨_, _, h⟩ := Option.map_eq_some_iff.1 h; cases h; simp only [List.length_cons]; omega)

/-- How a string is delimited, and whether a backslash means anything in it. -/
structure Delimiter where
  quote : Char
  escapes : Bool
  deriving DecidableEq, Repr

def Delimiter.basic : Delimiter := ⟨'"', true⟩

def Delimiter.literal : Delimiter := ⟨'\'', false⟩

def lineString (d : Delimiter) (cs : List Char) : Read (List Char) :=
  match cs with
  | [] => none
  | c :: rest =>
    if c = d.quote then some ([], rest)
    else if c = '\\' && d.escapes then
      match _h : escape? rest with
      | none => none
      | some (x, behind) => (lineString d behind).map fun (xs, rest) => (x :: xs, rest)
    else if isShown c then (lineString d rest).map fun (xs, rest) => (c :: xs, rest)
    else none
termination_by cs.length
decreasing_by
  · have := escape?_shorter ‹_›
    simp only [List.length_cons]
    omega
  · simp

theorem skipSpace_length_le (cs : List Char) : (skipSpace cs).length ≤ cs.length := by
  fun_induction skipSpace cs <;> simp_all <;> omega

def joinedLine? (cs : List Char) : Option (List Char) := (newline? (skipBlank cs)).map skipSpace

theorem newline?_shorter {cs rest : List Char} (h : newline? cs = some rest) :
    rest.length < cs.length := by
  unfold newline? at h
  split at h
  · cases h; simp
  · cases h; simp only [List.length_cons]; omega
  · cases h

theorem joinedLine?_shorter {cs rest : List Char} (h : joinedLine? cs = some rest) :
    rest.length < cs.length := by
  obtain ⟨mid, hmid, rfl⟩ := Option.map_eq_some_iff.1 h
  have a := newline?_shorter hmid
  have b := skipSpace_length_le mid
  have c : (skipBlank cs).length ≤ cs.length := (List.dropWhile_sublist _).length_le
  omega

def quoteRun (q : Char) (cs : List Char) : Nat := ((cs.take 5).takeWhile (· = q)).length

/-- A string over lines, up to its closing quotes. Of three to five quotes the last three close it. -/
def blockString (d : Delimiter) (cs : List Char) : Read (List Char) :=
  match cs with
  | [] => none
  | c :: rest =>
    let run := quoteRun d.quote (c :: rest)
    if 3 ≤ run then some (List.replicate (run - 3) d.quote, (c :: rest).drop run)
    else if c = '\\' && d.escapes then
      match _h : joinedLine? rest with
      | some behind => blockString d behind
      | none =>
        match _h : escape? rest with
        | none => none
        | some (x, behind) => (blockString d behind).map fun (xs, rest) => (x :: xs, rest)
    else match _h : newline? (c :: rest) with
      | some behind => (blockString d behind).map fun (xs, rest) => ('\n' :: xs, rest)
      | none =>
        if isShown c then (blockString d rest).map fun (xs, rest) => (c :: xs, rest) else none
termination_by cs.length
decreasing_by
  · have := joinedLine?_shorter ‹_›
    simp only [List.length_cons]
    omega
  · have := escape?_shorter ‹_›
    simp only [List.length_cons]
    omega
  · exact newline?_shorter ‹_›
  · simp

/-- A string value. A line end right behind three opening quotes is no part of it. -/
def stringOf (d : Delimiter) : List Char → Read (List Char)
  | a :: b :: c :: rest =>
    if a = d.quote && b = d.quote && c = d.quote then blockString d ((newline? rest).getD rest)
    else if a = d.quote then lineString d (b :: c :: rest)
    else none
  | a :: rest => if a = d.quote then lineString d rest else none
  | [] => none

def string? (cs : List Char) : Read String :=
  ((stringOf .basic cs).or (stringOf .literal cs)).map fun (xs, rest) => (String.ofList xs, rest)

/-- A dotted key: the tables that it leads through, and the name in the last of them. -/
structure Key where
  parents : List String
  name : String
  deriving DecidableEq, Repr

def isBare (c : Char) : Bool := c.isAlphanum || c = '_' || c = '-'

def keyPart? : List Char → Read String
  | '"' :: rest => (lineString .basic rest).map fun (xs, rest) => (String.ofList xs, rest)
  | '\'' :: rest => (lineString .literal rest).map fun (xs, rest) => (String.ofList xs, rest)
  | cs =>
    match cs.takeWhile isBare with
    | [] => none
    | name => some (String.ofList name, cs.dropWhile isBare)

/-- A key of at most so many parts, with the blanks around it. -/
def key? : Nat → List Char → Option (Key × List Char)
  | 0, _ => none
  | parts + 1, cs => do
    let (part, cs) ← keyPart? (skipBlank cs)
    match skipBlank cs with
    | '.' :: rest =>
      let (key, rest) ← key? parts rest
      some (⟨part :: key.parents, key.name⟩, rest)
    | rest => some (⟨[], part⟩, rest)

end PackRelay.Toml
