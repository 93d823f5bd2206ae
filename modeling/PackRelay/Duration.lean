/-! Lengths of time in nanoseconds, and their text: the largest unit that leaves a whole part, with
as many decimals as are needed. -/
namespace PackRelay

structure Duration where
  nanos : Nat
  deriving DecidableEq, Repr, Inhabited

namespace Duration

def ofNanos (n : Nat) : Duration := ⟨n⟩
def ofMicros (n : Nat) : Duration := ⟨n * 1000⟩
def ofMillis (n : Nat) : Duration := ⟨n * 1000000⟩
def ofSecs (n : Nat) : Duration := ⟨n * 1000000000⟩

/-- Whole microseconds, rounded down. -/
def micros (d : Duration) : Nat := d.nanos / 1000

/-- Whole milliseconds, rounded up, as a timer counts. -/
def millisUp (d : Duration) : Nat := (d.nanos + 999999) / 1000000

/-- The digits of a fraction below one, `width` places wide, without the zeros at its end. -/
def decimals (fraction width : Nat) : List Char :=
  let digits := Nat.toDigits 10 fraction
  let padded := List.replicate (width - digits.length) '0' ++ digits
  (padded.reverse.dropWhile (· == '0')).reverse

def inUnit (nanos places : Nat) (unit : String) : String :=
  let scale := Nat.pow 10 places
  let tail := decimals (nanos % scale) places
  toString (nanos / scale) ++ (if tail.isEmpty then "" else "." ++ String.ofList tail) ++ unit

def text (d : Duration) : String :=
  if 1000000000 ≤ d.nanos then inUnit d.nanos 9 "s"
  else if 1000000 ≤ d.nanos then inUnit d.nanos 6 "ms"
  else if 1000 ≤ d.nanos then inUnit d.nanos 3 "µs"
  else inUnit d.nanos 0 "ns"

end Duration
end PackRelay
