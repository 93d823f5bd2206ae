import PackRelay.Text.Hex

/-! Universally unique identifiers: 32 hexadecimal digits. They are written in lower case, in groups
of 8, 4, 4, 4 and 12; they are read in that form, without hyphens, in braces, or after `urn:uuid:`,
in either case. -/
namespace PackRelay

structure Uuid where
  digits : List (Fin 16)
  length_eq : digits.length = 32
  deriving DecidableEq

namespace Uuid

inductive ParseError
  | character (found : Char) (column : Nat)
  | simpleLength (found : Nat)
  | groupCount (found : Nat)
  | groupLength (group expected found : Nat)
  deriving DecidableEq, Repr

def ParseError.message : ParseError → String
  | .character found column => "invalid character: found `" ++ found.toString ++ "` at " ++ toString column
  | .simpleLength found => "invalid length: expected length 32 for simple format, found " ++ toString found
  | .groupCount found => "invalid group count: expected 5, found " ++ toString found
  | .groupLength group expected found =>
    "invalid group length in group " ++ toString group ++ ": expected " ++ toString expected
      ++ ", found " ++ toString found

def digitChar (d : Fin 16) : Char := Nat.digitChar d.val

def isDigit (c : Char) : Bool := (Hex.digit? c).isSome

def hyphenate (cs : List Char) : List Char :=
  cs.take 8 ++ '-' :: (cs.drop 8).take 4 ++ '-' :: (cs.drop 12).take 4
    ++ '-' :: (cs.drop 16).take 4 ++ '-' :: cs.drop 20

def toChars (u : Uuid) : List Char := hyphenate (u.digits.map digitChar)

def text (u : Uuid) : String := String.ofList u.toChars

def ofDigits? (ds : List (Fin 16)) : Option Uuid :=
  if h : ds.length = 32 then some ⟨ds, h⟩ else none

def simple? (cs : List Char) : Option Uuid := (cs.mapM Hex.digit?).bind ofDigits?

def hyphenated? (cs : List Char) : Option Uuid :=
  let plain := cs.take 8 ++ (cs.drop 9).take 4 ++ (cs.drop 14).take 4 ++ (cs.drop 19).take 4 ++ cs.drop 24
  if cs = hyphenate plain then simple? plain else none

def urn : List Char := ['u', 'r', 'n', ':', 'u', 'u', 'i', 'd', ':']

/-- What stands inside braces or after the URN prefix, with how far in it starts. -/
def unwrap? (cs : List Char) : Option (List Char × Nat) :=
  if cs.head? = some '{' ∧ cs.getLast? = some '}' ∧ 2 ≤ cs.length then some ((cs.drop 1).dropLast, 1)
  else if (cs.take 9).map Char.toLower = urn then some (cs.drop 9, 9)
  else none

def parse? (cs : List Char) : Option Uuid :=
  if cs.length = 32 then simple? cs
  else if cs.length = 36 then hyphenated? cs
  else match unwrap? cs with
    | some (inner, _) => if inner.length = 36 then hyphenated? inner else none
    | none => none

/-- The first character that no form has, counted in octets from one. -/
def strange? : List Char → Nat → Option ParseError
  | [], _ => none
  | c :: rest, column =>
    if c = '-' || isDigit c then strange? rest (column + c.utf8Size) else some (.character c column)

def hyphens : List Char → Nat → List Nat
  | [], _ => []
  | c :: rest, i => if c = '-' then i :: hyphens rest (i + 1) else hyphens rest (i + 1)

/-- The first group whose end is not where it should be, else the last. -/
def wrongGroup (total : Nat) : List (Nat × Nat × Nat × Nat) → ParseError
  | [] => .groupLength 4 12 (total - 24)
  | (group, start, width, stop) :: rest =>
    if stop ≠ start + width then .groupLength group width (stop - start) else wrongGroup total rest

def diagnose (cs : List Char) : ParseError :=
  let (inner, offset, wrapped) := match unwrap? cs with
    | some (inner, offset) => (inner, offset, true)
    | none => (cs, 0, false)
  match strange? inner (offset + 1) with
  | some e => e
  | none =>
    match hyphens inner 0 with
    | [] => if wrapped then .groupCount 1 else .simpleLength cs.length
    | [a, b, c, d] => wrongGroup cs.length [(0, 0, 8, a), (1, 9, 4, b), (2, 14, 4, c), (3, 19, 4, d)]
    | hs => .groupCount (hs.length + 1)

def parse (s : String) : Except ParseError Uuid :=
  match parse? s.toList with
  | some u => .ok u
  | none => .error (diagnose s.toList)

/-- Version 4, variant 1: the digits that name them are fixed. -/
def isRandom (u : Uuid) : Bool :=
  u.digits[12]?.map Fin.val == some 4 && (match u.digits[16]? with | some d => 8 ≤ d.val && d.val ≤ 11 | none => false)

end Uuid
end PackRelay
