import PackRelay.Bytes
import PackRelay.Schema

/-! Why octets are not the JSON document that was asked for, and where. -/
namespace PackRelay.Json

/-- A line, from one, and the octets read on it. -/
structure Position where
  line : Nat
  column : Nat
  deriving DecidableEq, Repr

namespace Position

def start : Position := ⟨1, 0⟩

def next (p : Position) (b : UInt8) : Position :=
  if b = 0x0A then ⟨p.line + 1, 0⟩ else ⟨p.line, p.column + 1⟩

def after (p : Position) (bs : Bytes) : Position := bs.foldl next p

end Position

inductive Problem
  | endInList
  | endInObject
  | endInString
  | endInValue
  | expectedColon
  | expectedCommaOrBracket
  | expectedCommaOrBrace
  | expectedIdentifier
  | expectedValue
  | invalidEscape
  | invalidNumber
  | numberOutOfRange
  | invalidCodePoint
  | controlCharacter
  | keyNotString
  | loneSurrogate
  | trailingComma
  | trailingCharacters
  | truncatedEscape
  | tooDeep
  | mismatch (m : Schema.Mismatch)
  deriving DecidableEq, Repr

def Problem.message : Problem → String
  | .endInList => "EOF while parsing a list"
  | .endInObject => "EOF while parsing an object"
  | .endInString => "EOF while parsing a string"
  | .endInValue => "EOF while parsing a value"
  | .expectedColon => "expected `:`"
  | .expectedCommaOrBracket => "expected `,` or `]`"
  | .expectedCommaOrBrace => "expected `,` or `\x7d`"
  | .expectedIdentifier => "expected ident"
  | .expectedValue => "expected value"
  | .invalidEscape => "invalid escape"
  | .invalidNumber => "invalid number"
  | .numberOutOfRange => "number out of range"
  | .invalidCodePoint => "invalid unicode code point"
  | .controlCharacter => "control character (\\u0000-\\u001F) found while parsing a string"
  | .keyNotString => "key must be a string"
  | .loneSurrogate => "lone leading surrogate in hex escape"
  | .trailingComma => "trailing comma"
  | .trailingCharacters => "trailing characters"
  | .truncatedEscape => "unexpected end of hex escape"
  | .tooDeep => "recursion limit exceeded"
  | .mismatch m => m.message

/-- A problem, and where it was met unless it lies in how the parts fit together. -/
structure Fault where
  problem : Problem
  place : Option Position
  deriving DecidableEq, Repr

namespace Fault

def located (problem : Problem) (p : Position) : Fault := ⟨problem, some p⟩

def message (f : Fault) : String :=
  match f.place with
  | none => f.problem.message
  | some p => f.problem.message ++ " at line " ++ toString p.line ++ " column " ++ toString p.column

end Fault
end PackRelay.Json
