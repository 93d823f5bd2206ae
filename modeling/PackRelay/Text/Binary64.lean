/-! Decimal text of 64-bit binary fractions. `shortest` finds the fewest digits that still read back
as the same fraction, and of those the nearest; the two layouts decide where positional notation
ends. -/
namespace PackRelay.Binary64

/-- A finite fraction `mantissa · 2 ^ exponent`, without its sign. -/
structure Magnitude where
  mantissa : Nat
  exponent : Int
  /-- Whether the next smaller fraction is only half as far away as the next larger one. -/
  lowerGapHalved : Bool
  deriving DecidableEq, Repr

inductive Class
  | finite (m : Magnitude)
  | infinite
  | undefined
  deriving DecidableEq, Repr

def isNegative (bits : UInt64) : Bool := bits >>> 63 == 1

def classify (bits : UInt64) : Class :=
  let field := (bits >>> 52 &&& 0x7FF).toNat
  let low := (bits &&& 0xFFFFFFFFFFFFF).toNat
  if field = 0x7FF then if low = 0 then .infinite else .undefined
  else if field = 0 then .finite ⟨low, -1074, false⟩
  else .finite ⟨low + Nat.pow 2 52, field - 1075, low = 0 && field > 1⟩

/-- A quotient of naturals that stands for `x · 2 ^ e / 4`. -/
def quarterScaled (x : Nat) (e : Int) : Nat × Nat := (x * Nat.pow 2 e.toNat, 4 * Nat.pow 2 (-e).toNat)

/-- A quotient that stands for `d · 10 ^ e`. -/
def decimalScaled (d : Nat) (e : Int) : Nat × Nat := (d * Nat.pow 10 e.toNat, Nat.pow 10 (-e).toNat)

def le (a b : Nat × Nat) : Bool := a.1 * b.2 ≤ b.1 * a.2

def lt (a b : Nat × Nat) : Bool := a.1 * b.2 < b.1 * a.2

def leadingFrom : Nat → Nat × Nat → Int → Int
  | 0, _, e => e
  | fuel + 1, v, e => if le (decimalScaled 1 (e + 1)) v then leadingFrom fuel v (e + 1) else e

/-- Digits as one natural, with the exponent of its last digit. -/
structure Digits where
  digits : Nat
  exponent : Int
  deriving DecidableEq, Repr

/-- The candidate of `n` digits that reads back and lies nearest, if one does. -/
def candidate (m : Magnitude) (lead : Int) (n : Nat) : Option Digits :=
  let v := quarterScaled (4 * m.mantissa) m.exponent
  let high := quarterScaled (4 * m.mantissa + 2) m.exponent
  let low := quarterScaled (4 * m.mantissa - if m.lowerGapHalved then 1 else 2) m.exponent
  let e := lead - (n - 1 : Nat)
  let unit := decimalScaled 1 e
  let below := v.1 * unit.2 / (v.2 * unit.1)
  let reads (d : Nat) : Bool :=
    let x := decimalScaled d e
    if m.mantissa % 2 = 0 then le low x && le x high else lt low x && lt x high
  /- Twice the distance from the lower candidate against one step of the grid. -/
  let roundsDown : Bool := 2 * (v.1 * unit.2 - below * (v.2 * unit.1)) ≤ v.2 * unit.1
  match reads below, reads (below + 1) with
  | true, true => some ⟨if roundsDown then below else below + 1, e⟩
  | true, false => some ⟨below, e⟩
  | false, true => some ⟨below + 1, e⟩
  | false, false => none

def shortestFrom (m : Magnitude) (lead : Int) : Nat → Nat → Digits
  | 0, n => (candidate m lead n).getD ⟨0, 0⟩
  | fuel + 1, n => (candidate m lead n).getD (shortestFrom m lead fuel (n + 1))

def trim : Nat → Digits → Digits
  | 0, d => d
  | fuel + 1, d =>
    if d.digits ≠ 0 ∧ d.digits % 10 = 0 then trim fuel ⟨d.digits / 10, d.exponent + 1⟩ else d

def shortest (m : Magnitude) : Digits :=
  if m.mantissa = 0 then ⟨0, 0⟩
  else
    let v := quarterScaled (4 * m.mantissa) m.exponent
    trim 20 (shortestFrom m (leadingFrom 700 v (-330)) 17 1)

def zeros (n : Nat) : String := String.ofList (List.replicate n '0')

/-- Digits with the point placed, never in exponent form; whole numbers have no point. -/
def Digits.positional (d : Digits) : String :=
  let text := toString d.digits
  if 0 ≤ d.exponent then text ++ zeros d.exponent.toNat
  else
    let places := (-d.exponent).toNat
    let cs := text.toList
    if places < cs.length then
      String.ofList (cs.take (cs.length - places)) ++ "." ++ String.ofList (cs.drop (cs.length - places))
    else "0." ++ zeros (places - cs.length) ++ text

def Digits.scientific (d : Digits) : String :=
  let cs := (toString d.digits).toList
  let power := d.exponent + (cs.length - 1 : Nat)
  let tail := cs.drop 1
  String.ofList (cs.take 1) ++ (if tail.isEmpty then "" else "." ++ String.ofList tail)
    ++ "e" ++ toString power

def withPoint (text : String) : String := if text.toList.contains '.' then text else text ++ ".0"

def signed (negative : Bool) (text : String) : String := if negative then "-" ++ text else text

/-- Always positional, with a fractional part. -/
def plain (bits : UInt64) : String :=
  match classify bits with
  | .undefined => "NaN"
  | .infinite => signed (isNegative bits) "inf"
  | .finite m => signed (isNegative bits) (withPoint (shortest m).positional)

/-- Positional from 10⁻⁵ up to 10¹⁶, with a power of ten outside. -/
def compact (bits : UInt64) : String :=
  match classify bits with
  | .undefined => "NaN"
  | .infinite => signed (isNegative bits) "inf"
  | .finite m =>
    let d := shortest m
    let point := d.exponent + (toString d.digits).length
    signed (isNegative bits)
      (if d.digits = 0 ∨ (-5 < point ∧ point ≤ 16) then withPoint d.positional else d.scientific)

end PackRelay.Binary64
