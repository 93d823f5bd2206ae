/-! Reading Punycode: the ASCII characters of a label stand before the last hyphen, behind it numbers
in a variable base say which further characters go where. -/
namespace PackRelay.Punycode

def digit? (c : Char) : Option Nat :=
  let n := c.toNat
  if 97 ≤ n ∧ n ≤ 122 then some (n - 97)
  else if 65 ≤ n ∧ n ≤ 90 then some (n - 65)
  else if 48 ≤ n ∧ n ≤ 57 then some (n - 22)
  else none

/-- Digits below this threshold end a number. -/
def threshold (k bias : Nat) : Nat := if k ≤ bias then 1 else if bias + 26 ≤ k then 26 else k - bias

/-- A number, read on from a sum and a weight, and what follows it. -/
def number : List Char → Nat → Nat → Nat → Nat → Option (Nat × List Char)
  | [], _, _, _, _ => none
  | c :: rest, sum, weight, k, bias =>
    match digit? c with
    | none => none
    | some d =>
      let t := threshold k bias
      let sum := sum + d * weight
      if 0x100000000 ≤ sum then none
      else if d < t then some (sum, rest)
      else number rest sum (weight * (36 - t)) (k + 36) bias

theorem length_number_lt {cs rest : List Char} {sum weight k bias n : Nat}
    (h : number cs sum weight k bias = some (n, rest)) : rest.length < cs.length := by
  induction cs generalizing sum weight k with
  | nil => simp [number] at h
  | cons c tail ih =>
    simp only [number] at h
    split at h
    · simp at h
    · split at h
      · simp at h
      · split at h
        · simp only [Option.some.injEq, Prod.mk.injEq] at h
          simp [h.2]
        · exact Nat.lt_succ_of_lt (ih h)

/-- Halves the distance until it is small, counting steps of the base. -/
def settle : Nat → Nat → Nat → Nat × Nat
  | 0, delta, k => (delta, k)
  | fuel + 1, delta, k => if 455 < delta then settle fuel (delta / 35) (k + 36) else (delta, k)

def adapt (delta count : Nat) (first : Bool) : Nat :=
  let delta := if first then delta / 700 else delta / 2
  let (delta, k) := settle 8 (delta + delta / count) 0
  k + 36 * delta / (delta + 38)

def insertAll (cs done : List Char) (code index bias : Nat) : Option (List Char) :=
  match cs with
  | [] => some done
  | c :: tail =>
    match _h : number (c :: tail) index 1 36 bias with
    | none => none
    | some (next, rest) =>
      let count := done.length + 1
      let code := code + next / count
      if 0x10FFFF < code ∨ (0xD800 ≤ code ∧ code ≤ 0xDFFF) then none
      else
        let place := next % count
        insertAll rest (done.take place ++ Char.ofNat code :: done.drop place) code (place + 1)
          (adapt (next - index) count (index == 0))
termination_by cs.length
decreasing_by exact length_number_lt ‹_›

/-- Characters before and behind the last hyphen; all are behind where there is none. -/
def splitLast (cs : List Char) : List Char × List Char :=
  let behind := (cs.reverse.takeWhile (· ≠ '-')).reverse
  if behind.length = cs.length then ([], cs) else (cs.take (cs.length - behind.length - 1), behind)

def decode (cs : List Char) : Option (List Char) :=
  let (plain, rest) := splitLast cs
  insertAll rest plain 128 0 72

end PackRelay.Punycode
