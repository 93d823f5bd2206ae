import PackRelay.Toml.Text

/-! Dates and times: `1979-05-27`, `07:32:00.5`, and both together with a distance from universal time
or without. The readers give the text behind them. -/
namespace PackRelay.Toml

def digits? : Nat → Nat → List Char → Read Nat
  | 0, n, cs => some (n, cs)
  | _ + 1, _, [] => none
  | count + 1, n, c :: rest => if c.isDigit then digits? count (n * 10 + (c.toNat - 48)) rest else none

def pair? (low high : Nat) (cs : List Char) : Read Nat :=
  (digits? 2 0 cs).filter fun (n, _) => low ≤ n && n ≤ high

def isLeap (year : Nat) : Bool := year % 4 = 0 && (year % 100 ≠ 0 || year % 400 = 0)

def daysIn (year month : Nat) : Nat :=
  if month = 2 then if isLeap year then 29 else 28
  else if month = 4 ∨ month = 6 ∨ month = 9 ∨ month = 11 then 30
  else 31

def date? (cs : List Char) : Option (List Char) := do
  let (year, cs) ← digits? 4 0 cs
  let cs ← mark? '-' cs
  let (month, cs) ← pair? 1 12 cs
  let cs ← mark? '-' cs
  let (_, cs) ← pair? 1 (daysIn year month) cs
  some cs

def skipFraction : List Char → List Char
  | '.' :: d :: rest => if d.isDigit then rest.dropWhile Char.isDigit else '.' :: d :: rest
  | cs => cs

/-- A time of day; a leap second counts. -/
def clock? (cs : List Char) : Option (List Char) := do
  let (_, cs) ← pair? 0 23 cs
  let cs ← mark? ':' cs
  let (_, cs) ← pair? 0 59 cs
  let cs ← mark? ':' cs
  let (_, cs) ← pair? 0 60 cs
  some (skipFraction cs)

def offset? : List Char → Option (List Char)
  | 'Z' :: rest => some rest
  | 'z' :: rest => some rest
  | c :: rest =>
    if c = '+' || c = '-' then do
      let (_, cs) ← pair? 0 23 rest
      let cs ← mark? ':' cs
      let (_, cs) ← pair? 0 59 cs
      some cs
    else some (c :: rest)
  | [] => some []

/-- A time behind a date. A blank that no time follows is not part of the date. -/
def clockAfterDate? (cs : List Char) : Option (List Char) :=
  match cs with
  | c :: rest =>
    if c = 'T' || c = 't' || c = ' ' then
      match clock? rest with
      | some behind => offset? behind
      | none => some cs
    else some cs
  | [] => some []

/-- A date, a time of day, or both, as it is spelt. -/
def moment? (cs : List Char) : Option (String × List Char) := do
  let rest ← ((date? cs).bind clockAfterDate?).or (clock? cs)
  some (String.ofList (cs.take (cs.length - rest.length)), rest)

end PackRelay.Toml
