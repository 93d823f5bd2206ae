import PackRelay.Text.Quoted

/-! How a document that is well formed can still fail to fit the record it should fill. -/
namespace PackRelay.Schema

inductive Found
  | null
  | boolean (b : Bool)
  | integer (n : Int)
  | fraction (spelling : String)
  | text (s : String)
  | sequence
  | map
  deriving DecidableEq, Repr

inductive Mismatch
  | type (found : Found) (expected : String)
  | value (found : Found) (expected : String)
  | length (found : Nat) (expected : String)
  | unknownVariant (name : String) (known : List String)
  | missingField (name : String)
  | duplicateField (name : String)
  | identifier (reason : String)
  deriving DecidableEq, Repr

def Found.description : Found → String
  | .null => "null"
  | .boolean b => "boolean `" ++ (if b then "true" else "false") ++ "`"
  | .integer n => "integer `" ++ toString n ++ "`"
  | .fraction spelling => "floating point `" ++ spelling ++ "`"
  | .text s => "string " ++ Quoted.text s
  | .sequence => "sequence"
  | .map => "map"

def ticked (name : String) : String := "`" ++ name ++ "`"

/-- Names in ticks, as a choice. -/
def oneOf : List String → String
  | [] => "there are no variants"
  | [a] => "expected " ++ ticked a
  | [a, b] => "expected " ++ ticked a ++ " or " ++ ticked b
  | names => "expected one of " ++ String.intercalate ", " (names.map ticked)

def Mismatch.message : Mismatch → String
  | .type found expected => "invalid type: " ++ found.description ++ ", expected " ++ expected
  | .value found expected => "invalid value: " ++ found.description ++ ", expected " ++ expected
  | .length found expected => "invalid length " ++ toString found ++ ", expected " ++ expected
  | .unknownVariant name known => "unknown variant " ++ ticked name ++ ", " ++ oneOf known
  | .missingField name => "missing field " ++ ticked name
  | .duplicateField name => "duplicate field " ++ ticked name
  | .identifier reason => "UUID parsing failed: " ++ reason

def elements (n : Nat) : String := toString n ++ if n = 1 then " element" else " elements"

end PackRelay.Schema
