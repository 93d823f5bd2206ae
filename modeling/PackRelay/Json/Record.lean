import PackRelay.Json.Reader
import PackRelay.Uuid

/-! Filling records from values already read: members in the order they stand, or the items of a list
in the order of the fields. -/
namespace PackRelay.Json

open Schema

def mismatched {α : Type} (v : Value) (expected : String) : Except Mismatch α :=
  .error (.type v.found expected)

def Value.toText : Value → Except Mismatch String
  | .text s => .ok s
  | v => mismatched v "a string"

def Value.toText? : Value → Except Mismatch (Option String)
  | .null => .ok none
  | v => v.toText.map some

def Value.toTexts : Value → Except Mismatch (List String)
  | .array vs => vs.mapM Value.toText
  | v => mismatched v "a sequence"

def Value.toUuid : Value → Except Mismatch Uuid
  | .text s =>
    match Uuid.parse s with
    | .ok u => .ok u
    | .error e => .error (.identifier e.message)
  | v => mismatched v "a formatted UUID string"

def fill {α : Type} (name : String) (slot : Option α) (read : Value → Except Mismatch α) (v : Value) :
    Except Mismatch (Option α) :=
  if slot.isSome then .error (.duplicateField name) else (read v).map some

def required {α : Type} (name : String) : Option α → Except Mismatch α
  | some a => .ok a
  | none => .error (.missingField name)

/-- The next item of a list that gives fields in order, `index` of them being read already. -/
def item {α : Type} (index : Nat) (expected : String) (read : Value → Except Mismatch α) :
    List Value → Except Mismatch (α × List Value)
  | [] => .error (.length index expected)
  | v :: rest => (read v).map fun a => (a, rest)

/-- The next item, or what stands for it when the list is over. -/
def itemOr {α : Type} (missing : α) (read : Value → Except Mismatch α) :
    List Value → Except Mismatch (α × List Value)
  | [] => .ok (missing, [])
  | v :: rest => (read v).map fun a => (a, rest)

def noMore (count : Nat) : List Value → Except Mismatch Unit
  | [] => .ok ()
  | rest => .error (.length (count + rest.length) (elements count ++ " in sequence"))

end PackRelay.Json
