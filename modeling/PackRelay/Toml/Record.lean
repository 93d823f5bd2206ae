import PackRelay.Toml.Value

/-! Filling records from values. A table gives fields by name, in any order, and names that no field has
are passed over; an array gives them in the order of the record. What is not given stays as it was. -/
namespace PackRelay.Toml

open Schema

abbrev Fit (α : Type) := Except Mismatch α

def mismatched {α : Type} (v : Value) (expected : String) : Fit α := .error (.type v.found expected)

def Value.toText : Value → Fit String
  | .text s => .ok s
  | v => mismatched v "a string"

def Value.toBool : Value → Fit Bool
  | .boolean b => .ok b
  | v => mismatched v "a boolean"

def Value.toNat : Value → Fit Nat
  | .integer n => if 0 ≤ n then .ok n.toNat else .error (.value (.integer n) "u64")
  | v => mismatched v "u64"

def Value.toTexts : Value → Fit (List String)
  | .array vs => vs.mapM Value.toText
  | .tables each => (each.map (Value.table .header)).mapM Value.toText
  | v => mismatched v "a sequence"

structure Field (σ : Type) where
  name : String
  set : Value → σ → Fit σ

def Field.of {σ α : Type} (name : String) (read : Value → Fit α) (put : σ → α → σ) : Field σ :=
  ⟨name, fun v s => (read v).map (put s)⟩

def fillByName {σ : Type} (fields : List (Field σ)) (s : σ) (es : Entries) : Fit σ :=
  es.foldlM (fun s (key, v) =>
    match fields.find? (·.name = key) with
    | some f => f.set v s
    | none => .ok s) s

/-- The items of an array, one field each; more than there are fields are passed over. -/
def fillInOrder {σ : Type} (fields : List (Field σ)) (s : σ) (vs : List Value) : Fit σ :=
  (fields.zip vs).foldlM (fun s (f, v) => f.set v s) s

/-- A record. A date or time counts as a table without any of its fields. -/
def fill {σ : Type} (expected : String) (fields : List (Field σ)) (s : σ) : Value → Fit σ
  | .table _ es => fillByName fields s es
  | .moment _ => .ok s
  | .array vs => fillInOrder fields s vs
  | .tables each => fillInOrder fields s (each.map (Value.table .header))
  | v => mismatched v expected

end PackRelay.Toml
