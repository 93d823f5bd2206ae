import PackRelay.Toml.Text
import PackRelay.Toml.Value

/-! Numbers of TOML. A whole number has to fit into 64 bits with a sign; a fraction is the nearest
64-bit one, and one that is too large for all of them is refused unless it is negative. -/
namespace PackRelay.Toml

/-- Digits that remain, each underscore between two of them. -/
def moreDigits (isDigit : Char → Bool) : List Char → Read (List Char)
  | ['_'] => none
  | '_' :: d :: rest =>
    if isDigit d then (moreDigits isDigit rest).map fun (ds, rest) => (d :: ds, rest) else none
  | d :: rest =>
    if isDigit d then (moreDigits isDigit rest).map fun (ds, rest) => (d :: ds, rest) else some ([], d :: rest)
  | [] => some ([], [])

def digitRun (isDigit : Char → Bool) : List Char → Read (List Char)
  | d :: rest =>
    if isDigit d then (moreDigits isDigit rest).map fun (ds, rest) => (d :: ds, rest) else none
  | [] => none

/-- Digits of a whole number: no zero stands before others. -/
def wholeDigits : List Char → Read (List Char)
  | '0' :: rest => some (['0'], rest)
  | cs => digitRun Char.isDigit cs

def spelled (base : Nat) (ds : List Char) : Nat :=
  ds.foldl (fun n d => n * base + (Hex.value? d).getD 0) 0

def isDigitOf (base : Nat) (c : Char) : Bool := (Hex.value? c).any (· < base)

def signed64? (n : Int) : Option Value := if -Int.pow 2 63 ≤ n ∧ n < Int.pow 2 63 then some (.integer n) else none

def based (base : Nat) (cs : List Char) : Option (Value × List Char) := do
  let (ds, rest) ← digitRun (isDigitOf base) cs
  some (← signed64? (spelled base ds), rest)

def sign : List Char → Bool × List Char
  | '-' :: rest => (true, rest)
  | '+' :: rest => (false, rest)
  | cs => (false, cs)

def signedInt (negative : Bool) (n : Nat) : Int := if negative then -n else n

/-- The fraction nearest to `n · 10 ^ e`; far beyond what 64 bits reach it is infinite or zero. -/
def nearest (n : Nat) (e : Int) : Float :=
  let lead := e + (Nat.toDigits 10 n).length
  if n = 0 ∨ lead < -400 then 0
  else if 400 < lead then 1 / 0
  else Float.ofScientific n (e < 0) e.natAbs

def fractionValue (negative : Bool) (f : Float) : Value := .fraction (if negative then -f else f).toBits

def places (cs : List Char) : Read (List Char) :=
  match cs with
  | '.' :: rest => digitRun Char.isDigit rest
  | cs => some ([], cs)

/-- The power of ten behind its letter, if one stands here; zeros may stand before it. -/
def power (cs : List Char) : Option (Int × List Char) :=
  match cs with
  | c :: rest =>
    if c = 'e' || c = 'E' then do
      let (negative, rest) := sign rest
      let (ds, rest) ← digitRun Char.isDigit rest
      some (signedInt negative (spelled 10 ds), rest)
    else some (0, c :: rest)
  | [] => some (0, [])

def decimal (negative : Bool) (cs : List Char) : Option (Value × List Char) := do
  let (whole, behindWhole) ← wholeDigits cs
  let (part, behindPart) ← places behindWhole
  let (e, rest) ← power behindPart
  if rest.length = behindWhole.length then
    some (← signed64? (signedInt negative (spelled 10 whole)), rest)
  else
    let f := nearest (spelled 10 (whole ++ part)) (e - part.length)
    if f.isInf && !negative then none else some (fractionValue negative f, rest)

def word? : List Char → List Char → Option (List Char)
  | [], cs => some cs
  | w :: more, cs => (mark? w cs).bind (word? more)

def special (negative : Bool) (cs : List Char) : Read Value :=
  match word? ['i', 'n', 'f'] cs with
  | some rest => some (fractionValue negative (1 / 0), rest)
  | none => (word? ['n', 'a', 'n'] cs).map fun rest => (fractionValue negative (0 / 0), rest)

def number? (cs : List Char) : Read Value :=
  match cs with
  | '0' :: 'x' :: rest => based 16 rest
  | '0' :: 'o' :: rest => based 8 rest
  | '0' :: 'b' :: rest => based 2 rest
  | cs =>
    let (negative, rest) := sign cs
    (special negative rest).or (decimal negative rest)

end PackRelay.Toml
