import PackRelay.Text.Utf8
import PackRelay.Text.Hex

/-! Percent-encoding: an octet as `%` and two upper-case hexadecimal digits. What is escaped depends on
where in a URL a text stands. -/
namespace PackRelay.Percent

def upperDigit (n : Nat) : Char := (Nat.digitChar n).toUpper

def encodeOctet (b : UInt8) : List Char := ['%', upperDigit (b.toNat / 16), upperDigit (b.toNat % 16)]

/-- The characters of a text, those that `escaped` picks as their octets. -/
def encode (escaped : Char → Bool) (cs : List Char) : List Char :=
  cs.flatMap fun c => if escaped c then (String.utf8EncodeChar c).flatMap encodeOctet else [c]

def isControl (c : Char) : Bool := c.toNat < 0x20 || 0x7E < c.toNat

/-- What a path never holds unescaped. A percent sign stands for itself. -/
def isPathEscaped (c : Char) : Bool :=
  isControl c || [' ', '"', '#', '<', '>', '?', '`', '\x7b', '\x7d'].contains c

/-- Octets with each escape undone; a percent sign that starts none is kept. -/
def decode : Bytes → Bytes
  | [] => []
  | 0x25 :: h :: l :: rest =>
    match Hex.octetValue? h, Hex.octetValue? l with
    | some h, some l => UInt8.ofNat (h * 16 + l) :: decode rest
    | _, _ => 0x25 :: decode (h :: l :: rest)
  | b :: rest => b :: decode rest

end PackRelay.Percent
