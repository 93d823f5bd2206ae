/-! Hexadecimal digits, in either case. -/
namespace PackRelay.Hex

def digit? (c : Char) : Option (Fin 16) :=
  let n := c.toNat
  if 48 ≤ n ∧ n ≤ 57 then some (Fin.ofNat 16 (n - 48))
  else if 97 ≤ n ∧ n ≤ 102 then some (Fin.ofNat 16 (n - 87))
  else if 65 ≤ n ∧ n ≤ 70 then some (Fin.ofNat 16 (n - 55))
  else none

def value? (c : Char) : Option Nat := (digit? c).map Fin.val

def octetValue? (b : UInt8) : Option Nat := value? (Char.ofNat b.toNat)

end PackRelay.Hex
