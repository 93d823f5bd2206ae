import PackRelay.Text.Printable

/-! Text in double quotes for messages: quotes, backslashes and what cannot be printed are escaped. -/
namespace PackRelay.Quoted

def codePoint (c : Char) : List Char :=
  ['\\', 'u', Char.ofNat 0x7B] ++ Nat.toDigits 16 c.toNat ++ [Char.ofNat 0x7D]

def escapeChar (c : Char) : List Char :=
  match c with
  | '\x00' => ['\\', '0']
  | '\t' => ['\\', 't']
  | '\r' => ['\\', 'r']
  | '\n' => ['\\', 'n']
  | '"' => ['\\', '"']
  | '\\' => ['\\', '\\']
  | c => if isCombining c || !isPrintable c then codePoint c else [c]

def text (s : String) : String := String.ofList ('"' :: s.toList.flatMap escapeChar ++ ['"'])

end PackRelay.Quoted
