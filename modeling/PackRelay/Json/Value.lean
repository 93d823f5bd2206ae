import PackRelay.Text.Utf8

/-! JSON values and their compact text: no blanks, members in order, and inside strings only what has
to be escaped is. -/
namespace PackRelay.Json

inductive Value
  | null
  | boolean (b : Bool)
  | integer (n : Int)
  /-- A number with a point or an exponent, or too large for a word, as a binary fraction. -/
  | fraction (bits : UInt64)
  | text (s : String)
  | array (items : List Value)
  | object (members : List (String × Value))

def controlDigits (n : Nat) : List Char := [Nat.digitChar (n / 16), Nat.digitChar (n % 16)]

def escapeChar (c : Char) : List Char :=
  if c = '"' then ['\\', '"']
  else if c = '\\' then ['\\', '\\']
  else if c = '\x08' then ['\\', 'b']
  else if c = '\x0c' then ['\\', 'f']
  else if c = '\n' then ['\\', 'n']
  else if c = '\r' then ['\\', 'r']
  else if c = '\t' then ['\\', 't']
  else if c.toNat < 0x20 then ['\\', 'u', '0', '0'] ++ controlDigits c.toNat
  else [c]

def quote (s : String) : List Char := '"' :: s.toList.flatMap escapeChar ++ ['"']

mutual
/-- The text of a value; a fraction has none here, because nothing that is written holds one. -/
def Value.chars : Value → List Char
  | .null => ['n', 'u', 'l', 'l']
  | .boolean true => ['t', 'r', 'u', 'e']
  | .boolean false => ['f', 'a', 'l', 's', 'e']
  | .integer n => (toString n).toList
  | .fraction _ => ['n', 'u', 'l', 'l']
  | .text s => quote s
  | .array items => '[' :: itemChars true items
  | .object members => '\x7b' :: memberChars true members

def itemChars : Bool → List Value → List Char
  | _, [] => [']']
  | first, v :: rest => (if first then [] else [',']) ++ v.chars ++ itemChars false rest

def memberChars : Bool → List (String × Value) → List Char
  | _, [] => ['\x7d']
  | first, (key, v) :: rest =>
    (if first then [] else [',']) ++ quote key ++ ':' :: v.chars ++ memberChars false rest
end

def Value.encode (v : Value) : Bytes := Utf8.encode v.chars

end PackRelay.Json
