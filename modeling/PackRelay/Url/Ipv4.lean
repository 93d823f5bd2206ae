import PackRelay.Url.Ipv6

/-! IPv4 addresses as web addresses spell them: one to four parts, each in decimal, octal after `0` or
hexadecimal after `0x`, the last one filling all octets that remain. -/
namespace PackRelay.Ipv4

def value? (base : Nat) (cs : List Char) : Option Nat :=
  cs.foldlM (fun n c => (Hex.value? c).bind fun d => if d < base then some (n * base + d) else none) 0

/-- One part. Nothing after the mark of a base is zero. -/
def part? : List Char → Option Nat
  | [] => none
  | '0' :: 'x' :: cs | '0' :: 'X' :: cs => value? 16 cs
  | '0' :: c :: cs => value? 8 (c :: cs)
  | cs => value? 10 cs

/-- The parts, without an empty one behind a dot at the end. -/
def parts (cs : List Char) : List (List Char) :=
  let ps := splitAt (· = '.') cs
  if ps.length ≠ 1 ∧ ps.getLast? = some [] then ps.dropLast else ps

/-- A host whose last part is a number can only be an address. -/
def endsInNumber (cs : List Char) : Bool :=
  match (parts cs).getLast? with
  | some last => (!last.isEmpty && last.all Char.isDigit) || (part? last).isSome
  | none => false

def parse (cs : List Char) : Option Nat :=
  let ps := parts cs
  if 4 < ps.length then none
  else match ps.mapM part? with
    | none => none
    | some ns =>
      let leading := ns.dropLast
      let last := ns.getLastD 0
      if Nat.pow 256 (4 - leading.length) ≤ last ∨ leading.any (255 < ·) then none
      else some (leading.foldr (fun n (sum, scale) => (sum + n * scale, scale * 256))
        (last, Nat.pow 256 (4 - leading.length))).1

def text (n : Nat) : List Char :=
  List.intercalate ['.'] ([n / 0x1000000, n / 0x10000 % 256, n / 0x100 % 256, n % 256].map (Nat.toDigits 10))

end PackRelay.Ipv4
