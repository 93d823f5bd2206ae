import PackRelay.Toml.Text
import PackRelay.Toml.Value

/-! TOML text of values and of tables under headers. A string is written on one line, with escapes where
it has to have them; a table inside a value is written in braces. -/
namespace PackRelay.Toml

def quad (n : Nat) : List Char :=
  [n / 4096 % 16, n / 256 % 16, n / 16 % 16, n % 16].map Nat.digitChar

def escapeChar (c : Char) : List Char :=
  if c = '"' then ['\\', '"']
  else if c = '\\' then ['\\', '\\']
  else if isShown c then [c]
  else '\\' :: 'u' :: quad c.toNat

def quote (s : String) : List Char := '"' :: s.toList.flatMap escapeChar ++ ['"']

def nameChars (name : String) : List Char :=
  if name.toList ≠ [] ∧ name.toList.all isBare then name.toList else quote name

/-- A fraction; what is no number has no sign. -/
def fractionChars (bits : UInt64) : List Char :=
  match Binary64.classify bits with
  | .undefined => ['n', 'a', 'n']
  | _ => (Binary64.plain bits).toList

mutual
def Value.chars : Value → List Char
  | .text s => quote s
  | .integer n => (toString n).toList
  | .fraction bits => fractionChars bits
  | .boolean true => ['t', 'r', 'u', 'e']
  | .boolean false => ['f', 'a', 'l', 's', 'e']
  | .moment spelling => spelling.toList
  | .array items => '[' :: itemChars true items
  | .table _ entries => '\x7b' :: entryChars true entries
  | .tables each => '[' :: tableChars true each

def itemChars : Bool → List Value → List Char
  | _, [] => [']']
  | first, v :: rest => (if first then [] else [',', ' ']) ++ v.chars ++ itemChars false rest

def entryChars : Bool → List (String × Value) → List Char
  | _, [] => ['\x7d']
  | first, (key, v) :: rest =>
    (if first then [] else [',', ' ']) ++ nameChars key ++ " = ".toList ++ v.chars ++ entryChars false rest

def tableChars : Bool → List (List (String × Value)) → List Char
  | _, [] => [']']
  | first, es :: rest =>
    (if first then [] else [',', ' ']) ++ '\x7b' :: entryChars true es ++ tableChars false rest
end

def lineChars : String × Value → List Char
  | (key, v) => nameChars key ++ " = ".toList ++ v.chars ++ ['\n']

def sectionChars : String × Entries → List Char
  | (name, es) => '[' :: nameChars name ++ [']', '\n'] ++ es.flatMap lineChars

def render (top : Entries) (sections : List (String × Entries)) : String :=
  String.ofList (top.flatMap lineChars ++ sections.flatMap sectionChars)

end PackRelay.Toml
