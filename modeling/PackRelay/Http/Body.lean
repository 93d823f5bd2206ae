import PackRelay.IoError
import PackRelay.Bytes

/-! A request body as a stream of octets: chunks in the order they came, one read never crossing from
one into the next. -/
namespace PackRelay.Http

abbrev Body := List (Except IoError Bytes)

namespace Body

def readError (e : IoError) : IoError := ⟨.other, e.message⟩

def readSome (room : Nat) : Body → Except IoError Bytes × Body
  | [] => (.ok [], [])
  | .error e :: rest => (.error (readError e), rest)
  | .ok [] :: rest => readSome room rest
  | .ok bs :: rest =>
    (.ok (bs.take room), if bs.length ≤ room then rest else .ok (bs.drop room) :: rest)

/-- Reads into room for `room` octets; no octets mean the end, or that there was no room. -/
def read (room : Nat) (body : Body) : Except IoError Bytes × Body :=
  if room = 0 then (.ok [], body) else body.readSome room

def readAll : Body → List Nat → List (Except IoError Bytes)
  | _, [] => []
  | body, room :: rooms => (body.read room).1 :: readAll (body.read room).2 rooms

end Body
end PackRelay.Http
