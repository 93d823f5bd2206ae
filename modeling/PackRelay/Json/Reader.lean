import PackRelay.Text.Utf8
import PackRelay.Text.Binary64
import PackRelay.Json.Value
import PackRelay.Json.Fault
import PackRelay.Text.Hex

/-! Reading JSON from octets. Every reader takes a cursor and gives a value and the cursor behind it,
or the fault. Readers that nest take fuel, one unit a call; the wrapper gives more than the input can
use. -/
namespace PackRelay.Json

structure Cursor where
  rest : Bytes
  place : Position
  deriving DecidableEq, Repr

namespace Cursor

def start (bs : Bytes) : Cursor := ⟨bs, .start⟩

def skip (c : Cursor) : Cursor :=
  match c.rest with
  | [] => c
  | b :: rest => ⟨rest, c.place.next b⟩

/-- A problem with the next octet, which its place counts in. -/
def peekFault (c : Cursor) (problem : Problem) : Fault := .located problem c.skip.place

def fault (c : Cursor) (problem : Problem) : Fault := .located problem c.place

def isBlank (b : UInt8) : Bool := b == 0x20 || b == 0x0A || b == 0x09 || b == 0x0D

def skipBlankFrom : Bytes → Position → Cursor
  | [], p => ⟨[], p⟩
  | b :: rest, p => if isBlank b then skipBlankFrom rest (p.next b) else ⟨b :: rest, p⟩

def skipBlank (c : Cursor) : Cursor := skipBlankFrom c.rest c.place

def peek (c : Cursor) : Option UInt8 := c.rest.head?

end Cursor

abbrev Read (α : Type) := Except Fault (α × Cursor)

def ascii (c : Char) : UInt8 := UInt8.ofNat c.toNat

def isDecimal (b : UInt8) : Bool := ascii '0' ≤ b && b ≤ ascii '9'

def decimalValue (b : UInt8) : Nat := b.toNat - 48

def simpleEscape? (b : UInt8) : Option Char :=
  if b = ascii '"' then some '"'
  else if b = ascii '\\' then some '\\'
  else if b = ascii '/' then some '/'
  else if b = ascii 'b' then some '\x08'
  else if b = ascii 'f' then some '\x0c'
  else if b = ascii 'n' then some '\n'
  else if b = ascii 'r' then some '\r'
  else if b = ascii 't' then some '\t'
  else none

def hexQuad (c : Cursor) : Read Nat :=
  match c.rest with
  | a :: b :: d :: e :: rest =>
    let behind : Cursor := ⟨rest, c.place.after [a, b, d, e]⟩
    match Hex.octetValue? a, Hex.octetValue? b, Hex.octetValue? d, Hex.octetValue? e with
    | some a, some b, some d, some e => .ok (((a * 16 + b) * 16 + d) * 16 + e, behind)
    | _, _, _, _ => .error (behind.fault .invalidEscape)
  | short => .error (.located .endInString (c.place.after short))

def pairing (c : Cursor) (wanted : UInt8) : Except Fault Cursor :=
  match c.rest with
  | [] => .error (c.fault .endInString)
  | b :: _ => if b = wanted then .ok c.skip else .error (c.skip.fault .truncatedEscape)

/-- What follows `\u`: one unit, or a pair of surrogates that make one character. -/
def unicodeEscape (c : Cursor) : Except Fault (Char × Cursor) := do
  let (high, c) ← hexQuad c
  if 0xDC00 ≤ high ∧ high ≤ 0xDFFF then .error (c.fault .loneSurrogate)
  else if high < 0xD800 ∨ 0xDBFF < high then pure (Char.ofNat high, c)
  else
    let c ← pairing c (ascii '\\')
    let c ← pairing c (ascii 'u')
    let (low, c) ← hexQuad c
    if low < 0xDC00 ∨ 0xDFFF < low then .error (c.fault .loneSurrogate)
    else pure (Char.ofNat ((high - 0xD800) * 0x400 + (low - 0xDC00) + 0x10000), c)

inductive StringPart
  | close
  | char (x : Char)
  | illFormed
  deriving DecidableEq, Repr

def stringPart (c : Cursor) : Read StringPart :=
  match c.rest with
  | [] => .error (c.fault .endInString)
  | b :: rest =>
    let behind : Cursor := ⟨rest, c.place.next b⟩
    if b = ascii '"' then .ok (.close, behind)
    else if b = ascii '\\' then
      match rest with
      | [] => .error (behind.fault .endInString)
      | e :: _ =>
        if e = ascii 'u' then (unicodeEscape behind.skip).map fun (x, c) => (.char x, c)
        else match simpleEscape? e with
          | some x => .ok (.char x, behind.skip)
          | none => .error (behind.skip.fault .invalidEscape)
    else if b < 0x20 then .error (behind.fault .controlCharacter)
    else match Utf8.step (b :: rest) with
      | .ok (x, after) =>
        .ok (.char x, ⟨after, c.place.after ((b :: rest).take x.utf8Size)⟩)
      | .error _ => .ok (.illFormed, behind)

/-- The characters up to the closing quote. Octets that make no character are a fault only of a string
that is whole; `bad` is the first such fault. -/
def stringBody : Nat → Cursor → List Char → Option Fault → Except Fault (String × Cursor)
  | 0, c, _, _ => .error (c.fault .endInString)
  | fuel + 1, c, done, bad => do
    match ← stringPart c with
    | (.close, c) =>
      match bad with
      | none => pure (String.ofList done.reverse, c)
      | some f => .error f
    | (.char x, c) => stringBody fuel c (x :: done) bad
    | (.illFormed, c) => stringBody fuel c done (bad.or (some (c.fault .invalidCodePoint)))

def string (c : Cursor) : Read String := stringBody (c.rest.length + 1) c [] none

structure Significand where
  value : Nat
  /-- Whether the next digit would have gone past the largest word. -/
  full : Bool

def digitsFrom : Bytes → Position → Nat → Nat → Significand × Nat × Cursor
  | [], p, n, count => (⟨n, false⟩, count, ⟨[], p⟩)
  | b :: rest, p, n, count =>
    if isDecimal b then
      if 2 ^ 64 ≤ n * 10 + decimalValue b then (⟨n, true⟩, count, ⟨b :: rest, p⟩)
      else digitsFrom rest (p.next b) (n * 10 + decimalValue b) (count + 1)
    else (⟨n, false⟩, count, ⟨b :: rest, p⟩)

def skipDigits : Bytes → Position → Nat → Nat × Cursor
  | [], p, count => (count, ⟨[], p⟩)
  | b :: rest, p, count =>
    if isDecimal b then skipDigits rest (p.next b) (count + 1) else (count, ⟨b :: rest, p⟩)

/-- The fraction `significand · 10 ^ exponent`, scaled by stored powers of ten; none if too large. -/
def scale : Nat → Float → Int → Option Float
  | 0, f, _ => some f
  | fuel + 1, f, exponent =>
    if exponent.natAbs ≤ 308 then
      let power := Float.ofScientific 1 false exponent.natAbs
      if 0 ≤ exponent then
        let product := f * power
        if product.isInf then none else some product
      else some (f / power)
    else if f == 0 then some f
    else if 0 ≤ exponent then none
    else scale fuel (f / Float.ofScientific 1 false 308) (exponent + 308)

def finishFraction (positive : Bool) (significand : Nat) (exponent : Int) (c : Cursor) : Read Value :=
  match scale (exponent.natAbs + 1) (UInt64.ofNat significand).toFloat exponent with
  | some f => .ok (.fraction (if positive then f else -f).toBits, c)
  | none => .error (c.fault .numberOutOfRange)

/-- The digits of an exponent, up to the one that makes it too large. -/
def exponentDigits : Bytes → Position → Nat → Nat × Bool × Cursor
  | [], p, n => (n, false, ⟨[], p⟩)
  | b :: rest, p, n =>
    if isDecimal b then
      if 2 ^ 31 ≤ n * 10 + decimalValue b then (n, true, ⟨rest, p.next b⟩)
      else exponentDigits rest (p.next b) (n * 10 + decimalValue b)
    else (n, false, ⟨b :: rest, p⟩)

def exponentPart (positive : Bool) (significand : Nat) (exponent : Int) (c : Cursor) : Read Value :=
  let (upward, c) :=
    if c.peek = some (ascii '+') then (true, c.skip)
    else if c.peek = some (ascii '-') then (false, c.skip)
    else (true, c)
  match c.rest with
  | [] => .error (c.fault .endInValue)
  | b :: _ =>
    if isDecimal b then
      let (n, tooLarge, c) := exponentDigits c.skip.rest c.skip.place (decimalValue b)
      if tooLarge then
        if significand ≠ 0 ∧ upward then .error (c.fault .numberOutOfRange)
        else
          let (_, c) := skipDigits c.rest c.place 0
          .ok (.fraction (if positive then (0 : Float) else -0.0).toBits, c)
      else finishFraction positive significand (if upward then exponent + n else exponent - n) c
    else .error (c.skip.fault .invalidNumber)

def isExponentLetter (b : Option UInt8) : Bool := b == some (ascii 'e') || b == some (ascii 'E')

def fractionEnd (positive : Bool) (significand : Nat) (exponent : Int) (c : Cursor) : Read Value :=
  if isExponentLetter c.peek then exponentPart positive significand exponent c.skip
  else finishFraction positive significand exponent c

def moreDigits (n : Nat) (c : Cursor) : Significand × Nat × Cursor := digitsFrom c.rest c.place n 0

def fractionPart (positive : Bool) (significand : Nat) (exponent : Int) (c : Cursor) : Read Value :=
  let (s, count, c) := moreDigits significand c
  if s.full then
    let (_, c) := skipDigits c.rest c.place 0
    fractionEnd positive s.value (exponent - count) c
  else if count = 0 then
    match c.rest with
    | [] => .error (c.peekFault .endInValue)
    | _ :: _ => .error (c.peekFault .invalidNumber)
  else fractionEnd positive s.value (exponent - count) c

def numberEnd (positive : Bool) (significand : Nat) (c : Cursor) : Read Value :=
  if c.peek = some (ascii '.') then fractionPart positive significand 0 c.skip
  else if isExponentLetter c.peek then exponentPart positive significand 0 c.skip
  else if positive then .ok (.integer significand, c)
  else if significand ≠ 0 ∧ significand ≤ Nat.pow 2 63 then .ok (.integer (-significand), c)
  else .ok (.fraction (-(UInt64.ofNat significand).toFloat).toBits, c)

def number (positive : Bool) (c : Cursor) : Read Value :=
  match c.rest with
  | [] => .error (c.fault .endInValue)
  | b :: _ =>
    let behind := c.skip
    if b = ascii '0' then
      match behind.rest with
      | d :: _ => if isDecimal d then .error (behind.peekFault .invalidNumber) else numberEnd positive 0 behind
      | [] => numberEnd positive 0 behind
    else if isDecimal b then
      let (s, _, c) := moreDigits (decimalValue b) behind
      if s.full then
        let (count, c) := skipDigits c.rest c.place 0
        if c.peek = some (ascii '.') then fractionPart positive s.value count c.skip
        else fractionEnd positive s.value count c
      else numberEnd positive s.value c
    else .error (behind.fault .invalidNumber)

def word : List UInt8 → Cursor → Except Fault Cursor
  | [], c => .ok c
  | b :: more, c =>
    match c.rest with
    | [] => .error (c.fault .endInValue)
    | x :: _ => if x = b then word more c.skip else .error (c.skip.fault .expectedIdentifier)

def bytesOf (s : String) : List UInt8 := s.toList.map ascii

/-- A value that does not nest, given its first octet; none if it is no such value. -/
def scalar? (b : UInt8) (c : Cursor) : Option (Read Value) :=
  if b = ascii 'n' then some ((word (bytesOf "ull") c.skip).map fun c => (.null, c))
  else if b = ascii 't' then some ((word (bytesOf "rue") c.skip).map fun c => (.boolean true, c))
  else if b = ascii 'f' then some ((word (bytesOf "alse") c.skip).map fun c => (.boolean false, c))
  else if b = ascii '-' then some (number false c.skip)
  else if isDecimal b then some (number true c)
  else if b = ascii '"' then some ((string c.skip).map fun (s, c) => (.text s, c))
  else none

def nextItem (first : Bool) (c : Cursor) : Read Bool :=
  let c := c.skipBlank
  match c.rest with
  | [] => .error (c.peekFault .endInList)
  | b :: _ =>
    if b = ascii ']' then .ok (false, c)
    else if first then .ok (true, c)
    else if b = ascii ',' then
      let c := c.skip.skipBlank
      match c.rest with
      | [] => .error (c.peekFault .endInValue)
      | b :: _ => if b = ascii ']' then .error (c.peekFault .trailingComma) else .ok (true, c)
    else .error (c.peekFault .expectedCommaOrBracket)

def nextMember (first : Bool) (c : Cursor) : Read Bool :=
  let c := c.skipBlank
  match c.rest with
  | [] => .error (c.peekFault .endInObject)
  | b :: _ =>
    if b = ascii '\x7d' then .ok (false, c)
    else if first then
      if b = ascii '"' then .ok (true, c) else .error (c.peekFault .keyNotString)
    else if b = ascii ',' then
      let c := c.skip.skipBlank
      match c.rest with
      | [] => .error (c.peekFault .endInValue)
      | b :: _ =>
        if b = ascii '"' then .ok (true, c)
        else if b = ascii '\x7d' then .error (c.peekFault .trailingComma)
        else .error (c.peekFault .keyNotString)
    else .error (c.peekFault .expectedCommaOrBrace)

def colon (c : Cursor) : Except Fault Cursor :=
  let c := c.skipBlank
  match c.rest with
  | [] => .error (c.peekFault .endInObject)
  | b :: _ => if b = ascii ':' then .ok c.skip else .error (c.peekFault .expectedColon)

mutual
/-- A value, at most `depth - 1` levels deep. -/
def value : Nat → Nat → Cursor → Read Value
  | 0, _, c => .error (c.fault .endInValue)
  | fuel + 1, depth, c =>
    let c := c.skipBlank
    match c.rest with
    | [] => .error (c.peekFault .endInValue)
    | b :: _ =>
      match scalar? b c with
      | some result => result
      | none =>
        if b = ascii '[' then
          if depth ≤ 1 then .error (c.peekFault .tooDeep)
          else (items fuel (depth - 1) true c.skip).map fun (xs, c) => (.array xs, c)
        else if b = ascii '\x7b' then
          if depth ≤ 1 then .error (c.peekFault .tooDeep)
          else (members fuel (depth - 1) true c.skip).map fun (ms, c) => (.object ms, c)
        else .error (c.peekFault .expectedValue)

def items : Nat → Nat → Bool → Cursor → Except Fault (List Value × Cursor)
  | 0, _, _, c => .error (c.fault .endInList)
  | fuel + 1, depth, first, c => do
    match ← nextItem first c with
    | (false, c) => pure ([], c.skip)
    | (true, c) =>
      let (v, c) ← value fuel depth c
      let (vs, c) ← items fuel depth false c
      pure (v :: vs, c)

def members : Nat → Nat → Bool → Cursor → Except Fault (List (String × Value) × Cursor)
  | 0, _, _, c => .error (c.fault .endInObject)
  | fuel + 1, depth, first, c => do
    match ← nextMember first c with
    | (false, c) => pure ([], c.skip)
    | (true, c) =>
      let (key, c) ← string c.skip
      let c ← colon c
      let (v, c) ← value fuel depth c
      let (ms, c) ← members fuel depth false c
      pure ((key, v) :: ms, c)
end

/-- How deep lists and objects may nest. -/
def maxDepth : Nat := 128

def Cursor.fuel (c : Cursor) : Nat := 2 * c.rest.length + 2

def atEnd (c : Cursor) : Except Fault Unit :=
  let c := c.skipBlank
  match c.rest with
  | [] => .ok ()
  | _ :: _ => .error (c.peekFault .trailingCharacters)

def Value.found : Value → Schema.Found
  | .null => .null
  | .boolean b => .boolean b
  | .integer n => .integer n
  | .fraction bits => .fraction (Binary64.compact bits)
  | .text s => .text s
  | .array _ => .sequence
  | .object _ => .map

end PackRelay.Json
