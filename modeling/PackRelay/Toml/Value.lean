import PackRelay.Schema
import PackRelay.Text.Binary64

/-! TOML values. A table remembers how it came to be, because that decides what may still be added to
it. -/
namespace PackRelay.Toml

inductive Origin
  /-- Written in braces, and complete. -/
  | closed
  /-- Opened by a header of its own. -/
  | header
  /-- Passed through by the header of a table inside it. -/
  | implied
  /-- Passed through by a dotted key. -/
  | dotted
  deriving DecidableEq, Repr

inductive Value
  | text (s : String)
  | integer (n : Int)
  | fraction (bits : UInt64)
  | boolean (b : Bool)
  | moment (spelling : String)
  | array (items : List Value)
  | table (origin : Origin) (entries : List (String × Value))
  /-- Tables that headers in double brackets add one after the other. -/
  | tables (each : List (List (String × Value)))

abbrev Entries := List (String × Value)

def Value.found : Value → Schema.Found
  | .text s => .text s
  | .integer n => .integer n
  | .fraction bits => .fraction (Binary64.plain bits)
  | .boolean b => .boolean b
  | .moment _ => .map
  | .array _ => .sequence
  | .table _ _ => .map
  | .tables _ => .sequence

end PackRelay.Toml
