/-! Whether a text is a socket address: an address of version four, or of version six in brackets with
perhaps a zone, then a colon and a port. -/
namespace PackRelay.SocketAddress

/-- What follows a number below a limit, if the text starts with one. -/
def decimal? (limit : Nat) (cs : List Char) : Option (List Char) :=
  let ds := cs.takeWhile Char.isDigit
  if ds.isEmpty then none
  else if limit ≤ ds.foldl (fun n c => n * 10 + (c.toNat - 48)) 0 then none
  else some (cs.dropWhile Char.isDigit)

/-- What follows an octet in at most three digits without leading zeros. -/
def octet? (cs : List Char) : Option (List Char) :=
  let ds := cs.takeWhile Char.isDigit
  if 3 < ds.length ∨ (1 < ds.length ∧ ds.head? = some '0') then none else decimal? 256 cs

def dot? : List Char → Option (List Char)
  | '.' :: rest => some rest
  | _ => none

def ipv4? (cs : List Char) : Option (List Char) := do
  octet? (← dot? (← octet? (← dot? (← octet? (← dot? (← octet? cs))))))

def isHexDigit (c : Char) : Bool :=
  c.isDigit || ('a' ≤ c && c ≤ 'f') || ('A' ≤ c && c ≤ 'F')

def group? (cs : List Char) : Option (List Char) :=
  let ds := cs.takeWhile isHexDigit
  if ds.isEmpty ∨ 4 < ds.length then none else some (cs.dropWhile isHexDigit)

def colon? : List Char → Option (List Char)
  | ':' :: rest => some rest
  | _ => none

/-- Groups between colons, at most `limit`, the last two perhaps as an address of version four: how
many there are, whether that ends them, and what follows. -/
def groups : Nat → Bool → List Char → Nat × Bool × List Char
  | 0, _, cs => (0, false, cs)
  | limit + 1, first, cs =>
    let start := if first then some cs else colon? cs
    match start with
    | none => (0, false, cs)
    | some start =>
      match (if 1 ≤ limit then ipv4? start else none) with
      | some rest => (2, true, rest)
      | none =>
        match group? start with
        | none => (0, false, cs)
        | some rest =>
          let (n, closed, rest) := groups limit false rest
          (n + 1, closed, rest)

def ipv6? (cs : List Char) : Option (List Char) :=
  match groups 8 true cs with
  | (8, _, rest) => some rest
  | (_, true, _) => none
  | (n, false, ':' :: ':' :: rest) =>
    let (_, _, rest) := groups (7 - n) true rest
    some rest
  | _ => none

def zone? : List Char → Option (List Char)
  | '%' :: rest => decimal? 0x100000000 rest
  | cs => some cs

def isPort (cs : List Char) : Bool :=
  match cs with
  | ':' :: rest => decimal? 0x10000 rest = some []
  | _ => false

def isVersion4 (cs : List Char) : Bool := ((ipv4? cs).map isPort).getD false

def isVersion6 : List Char → Bool
  | '[' :: rest =>
    match (ipv6? rest).bind zone? with
    | some (']' :: rest) => isPort rest
    | _ => false
  | _ => false

def isValid (s : String) : Bool := isVersion4 s.toList || isVersion6 s.toList

end PackRelay.SocketAddress
