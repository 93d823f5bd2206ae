import PackRelay.Bytes

/-! Request headers that an exchange looks at. -/
namespace PackRelay.Http

/-- A header's name in lower case and the octets of its value. -/
abbrev Headers := List (String × Bytes)

namespace Headers

def find? (hs : Headers) (name : String) : Option Bytes :=
  (List.find? (fun h => h.1 == name) hs).map fun h => h.2

def isVisible (b : UInt8) : Bool := b == 9 || (0x20 ≤ b && b ≤ 0x7E)

/-- A value as text, which only visible ASCII, blanks and tabs make. -/
def text? (bs : Bytes) : Option String :=
  if bs.all isVisible then some (String.ofList (bs.map fun b => Char.ofNat b.toNat)) else none

def requestIdName : String := "x-request-id"

def gitProtocolName : String := "git-protocol"

def requestId (hs : Headers) : String := ((hs.find? requestIdName).bind text?).getD "unknown"

def gitProtocol (hs : Headers) : Option String := (hs.find? gitProtocolName).bind text?

end Headers
end PackRelay.Http
