import PackRelay.Json.Reader

/-! Records told apart by a tag. A member with the tag's key names the variant, wherever it stands; in a
list the first item does. What else the record holds is read as plain values first, so a fault in them
has no place. -/
namespace PackRelay.Json

/-- Behind the closing brace if that comes next, else before whatever does. -/
def Cursor.pastClose (c : Cursor) (close : Char) : Cursor :=
  let c := c.skipBlank
  if c.peek = some (ascii close) then c.skip else c

def variantMismatch (v : Value) : Problem := .mismatch (.type v.found "variant identifier")

def variant (known : List String) (c : Cursor) : Except Fault (Nat × Cursor) :=
  let c := c.skipBlank
  match c.rest with
  | [] => .error (c.peekFault .endInValue)
  | b :: _ =>
    match scalar? b c with
    | some (.error f) => .error f
    | some (.ok (.text name, c)) =>
      match known.findIdx? (· == name) with
      | some i => .ok (i, c)
      | none => .error (c.fault (.mismatch (.unknownVariant name known)))
    | some (.ok (v, c)) => .error (c.fault (variantMismatch v))
    | none =>
      if b = ascii '[' then .error (c.fault (variantMismatch (.array [])))
      else if b = ascii '\x7b' then .error (c.fault (variantMismatch (.object [])))
      else .error (c.peekFault .expectedValue)

/-- The members that remain, the variant taken out of them. -/
def taggedMembers (tag : String) (known : List String) :
    Nat → Bool → Option Nat → Cursor → Except Fault ((Nat × List (String × Value)) × Cursor)
  | 0, _, _, c => .error (c.fault .endInObject)
  | fuel + 1, first, named, c => do
    match ← nextMember first c with
    | (false, c) =>
      match named with
      | some i => pure ((i, []), c.skip)
      | none => .error ((c.pastClose '\x7d').fault (.mismatch (.missingField tag)))
    | (true, c) =>
      let (key, c) ← string c.skip
      if key = tag then
        if named.isSome then
          .error ((c.pastClose '\x7d').fault (.mismatch (.duplicateField tag)))
        else
          let c ← colon c
          let (i, c) ← variant known c
          taggedMembers tag known fuel false (some i) c
      else
        let c ← colon c
        let (v, c) ← value fuel (maxDepth - 1) c
        let ((i, ms), c) ← taggedMembers tag known fuel false named c
        pure ((i, (key, v) :: ms), c)

/-- The variant's index and the rest of the record, an object or an array. -/
def tagged (tag typeName : String) (known : List String) (c : Cursor) :
    Except Fault ((Nat × Value) × Cursor) :=
  let c := c.skipBlank
  let expected := "internally tagged enum " ++ typeName
  match c.rest with
  | [] => .error (c.peekFault .endInValue)
  | b :: _ =>
    match scalar? b c with
    | some (.error f) => .error f
    | some (.ok (v, c)) => .error (c.fault (.mismatch (.type v.found expected)))
    | none =>
      if b = ascii '\x7b' then do
        let ((i, ms), c) ← taggedMembers tag known c.fuel true none c.skip
        pure ((i, .object ms), c)
      else if b = ascii '[' then do
        match ← nextItem true c.skip with
        | (false, c) => .error ((c.pastClose ']').fault (.mismatch (.missingField tag)))
        | (true, c) =>
          let (i, c) ← variant known c
          let (vs, c) ← items c.fuel (maxDepth - 1) false c
          pure ((i, .array vs), c)
      else .error (c.peekFault .expectedValue)

def decodeTagged {α : Type} (tag typeName : String) (known : List String)
    (build : Nat → Value → Except Schema.Mismatch α) (bs : Bytes) : Except Fault α := do
  let ((i, v), c) ← tagged tag typeName known (Cursor.start bs)
  let a ← match build i v with
    | .ok a => pure a
    | .error m => .error ⟨.mismatch m, none⟩
  atEnd c
  pure a

end PackRelay.Json
