import PackRelay.Toml.Text
import PackRelay.Toml.Value

/-! Tables as they grow. Each step gives none where a key is given twice, or where something is added to
what is complete or no table. -/
namespace PackRelay.Toml.Entries

def get? (es : Entries) (key : String) : Option Value := (es.find? (·.1 = key)).map (·.2)

def replace (es : Entries) (key : String) (v : Value) : Entries :=
  es.map fun (k, old) => if k = key then (k, v) else (k, old)

def erase (es : Entries) (key : String) : Entries := es.filter (·.1 ≠ key)

def add (es : Entries) (key : String) (v : Value) : Option Entries :=
  if (es.get? key).isSome then none else some (es ++ [(key, v)])

/-- Changes the table behind a path. Tables on the way that are missing come to be by `through`; of
those that are there, it passes the ones that `passable` lets it. Of tables in a list the last is meant. -/
def change (through : Origin) (passable : Origin → Bool) (f : Origin → Entries → Option Entries) :
    List String → Origin → Entries → Option Entries
  | [], origin, es => f origin es
  | key :: path, _, es =>
    match es.get? key with
    | none => do
      let inner ← change through passable f path through []
      some (es ++ [(key, .table through inner)])
    | some (.table origin inner) =>
      if passable origin then do
        let inner ← change through passable f path origin inner
        some (es.replace key (.table origin inner))
      else none
    | some (.tables each) => do
      let inner ← change through passable f path .header (← each.getLast?)
      some (es.replace key (.tables (each.dropLast ++ [inner])))
    | some _ => none

/-- Gives a key its value. Tables that the key leads through must not have headers, and the last of them
must have come from dotted keys alone. -/
def put (es : Entries) (key : Key) (v : Value) : Option Entries :=
  match key.parents with
  | [] => es.add key.name v
  | parents =>
    change .dotted (fun o => o = .implied || o = .dotted)
      (fun origin es => if origin = .dotted then es.add key.name v else none) parents .dotted es

def putAll (es : Entries) (given : List (Key × Value)) : Option Entries :=
  given.foldlM (fun es (key, v) => es.put key v) es

/-- Below the parents that a header names; tables in braces are complete. -/
def below (es : Entries) (parents : List String) (f : Entries → Option Entries) : Option Entries :=
  change .implied (· ≠ .closed) (fun _ es => f es) parents .header es

/-- A table under its own header. Where headers of inner tables came first, it goes on from them, and
stands where its own header does. -/
def open? (es : Entries) (key : Key) (given : List (Key × Value)) : Option Entries :=
  es.below key.parents fun es =>
    match es.get? key.name with
    | none => (putAll [] given).map fun inner => es ++ [(key.name, .table .header inner)]
    | some (.table .implied inner) =>
      (putAll inner given).map fun inner => es.erase key.name ++ [(key.name, .table .header inner)]
    | some _ => none

def append? (es : Entries) (key : Key) (given : List (Key × Value)) : Option Entries :=
  es.below key.parents fun es => do
    let inner ← putAll [] given
    match es.get? key.name with
    | none => some (es ++ [(key.name, .tables [inner])])
    | some (.tables each) => some (es.replace key.name (.tables (each ++ [inner])))
    | some _ => none

end PackRelay.Toml.Entries
