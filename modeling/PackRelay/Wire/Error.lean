import PackRelay.IoError
import PackRelay.Json.Fault

/-! Why a frame was not written or read. -/
namespace PackRelay.Wire

/-- The largest document that a frame carries, in octets. -/
def maxFrameLength : Nat := 64 * 1024

inductive Error
  /-- The stream ended inside a frame. -/
  | closed
  | frameTooLarge (length : Nat)
  | malformed (fault : Json.Fault)
  | io (e : IoError)
  deriving DecidableEq, Repr

namespace Error

def message : Error → String
  | .closed => "connection closed before a complete frame"
  | .frameTooLarge length =>
    "frame of " ++ toString length ++ " bytes exceeds limit of " ++ toString maxFrameLength
  | .malformed fault => "malformed frame: " ++ fault.message
  | .io e => "i/o error: " ++ e.message

def causes : Error → List String
  | .closed | .frameTooLarge _ => []
  | .malformed fault => [fault.message]
  | .io e => [e.message]

end Error
end PackRelay.Wire
