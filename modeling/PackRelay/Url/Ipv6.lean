import PackRelay.Text.Hex
import PackRelay.Text.Split

/-! IPv6 addresses: eight words, one run of zeros shortened to `::`, the last two words perhaps in
dotted decimals. They are written in lower case with the first of the longest runs shortened. -/
namespace PackRelay.Ipv6

def word : Nat → List Char → Nat → Nat × List Char
  | 0, cs, n => (n, cs)
  | _, [], n => (n, [])
  | width + 1, c :: rest, n =>
    match Hex.value? c with
    | some d => word width rest (n * 16 + d)
    | none => (n, c :: rest)

theorem length_word_le (width : Nat) (cs : List Char) (n : Nat) :
    (word width cs n).2.length ≤ cs.length := by
  induction cs generalizing width n with
  | nil => cases width <;> simp [word]
  | cons c rest ih =>
    cases width with
    | zero => simp [word]
    | succ width =>
      simp only [word]
      split
      · exact Nat.le_succ_of_le (ih width _)
      · simp

def octet? (ds : List Char) : Option Nat :=
  if ds.isEmpty || !ds.all Char.isDigit || (ds.length ≠ 1 && ds.head? = some '0') || 3 < ds.length then none
  else
    let n := ds.foldl (fun n c => n * 10 + (c.toNat - 48)) 0
    if n ≤ 255 then some n else none

def dotted? (cs : List Char) : Option (List Nat) :=
  match (splitAt (· = '.') cs).mapM octet? with
  | some [a, b, c, d] => some [a * 256 + b, c * 256 + d]
  | _ => none

/-- Words read so far, the latest first, and how many stood before the end of the `::`, if there was
one. -/
structure Partial where
  words : List Nat
  shortened : Option Nat

/-- The words that remain. Every `:` that is read here either starts the `::` or parts two words. -/
def words (cs : List Char) (p : Partial) : Option Partial :=
  match cs with
  | [] => some p
  | ':' :: rest =>
    if p.words.length = 8 ∨ p.shortened.isSome then none
    else words rest ⟨0 :: p.words, some (p.words.length + 1)⟩
  | c :: rest =>
    if p.words.length = 8 then none
    else match Hex.value? c with
      | none => none
      | some d =>
        match _h : word 3 rest d with
        | (n, []) => some { p with words := n :: p.words }
        | (n, ':' :: next :: behind) => words (next :: behind) { p with words := n :: p.words }
        | (_, '.' :: _) =>
          if 6 < p.words.length then none
          else (dotted? (c :: rest)).map fun pair => { p with words := pair.reverse ++ p.words }
        | _ => none
termination_by cs.length
decreasing_by
  · simp
  · have := length_word_le 3 rest d
    simp_all only [List.length_cons]
    omega

/-- The zeros that `::` stands for go where it stood. -/
def Partial.finish (p : Partial) : Option (List Nat) :=
  let ws := p.words.reverse
  match p.shortened with
  | none => if ws.length = 8 then some ws else none
  | some i => some (ws.take i ++ List.replicate (8 - ws.length) 0 ++ ws.drop i)

def parse (cs : List Char) : Option (List Nat) :=
  match cs with
  | [] | [_] => none
  | ':' :: ':' :: rest => (words rest ⟨[0], some 1⟩).bind Partial.finish
  | ':' :: _ => none
  | cs => (words cs ⟨[], none⟩).bind Partial.finish

/-- Start and length of the first longest run of zeros, given the run that ends here. -/
def longestRun : List Nat → Nat → Nat → Nat × Nat → Nat × Nat
  | [], _, _, best => best
  | w :: rest, i, run, best =>
    if w = 0 then longestRun rest (i + 1) (run + 1) (if best.2 < run + 1 then (i - run, run + 1) else best)
    else longestRun rest (i + 1) 0 best

def joined (ws : List Nat) : List Char := List.intercalate [':'] (ws.map (Nat.toDigits 16))

def text (ws : List Nat) : List Char :=
  let (start, length) := longestRun ws 0 0 (0, 0)
  if length < 2 then joined ws
  else joined (ws.take start) ++ [':', ':'] ++ joined (ws.drop (start + length))

end PackRelay.Ipv6
