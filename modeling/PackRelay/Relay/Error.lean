import PackRelay.Sidechannel.Error

/-! Why a relay of octets ended early. -/
namespace PackRelay

inductive Direction
  | inbound
  | outbound
  deriving DecidableEq, Repr

def Direction.text : Direction → String
  | .inbound => "inbound"
  | .outbound => "outbound"

inductive RelayError
  | clientRead (e : IoError)
  | clientWrite (e : IoError)
  | sidechannel (e : SidechannelError)
  | cancelled (reason : CancelReason)
  deriving DecidableEq, Repr

namespace RelayError

/-- The client's end of the exchange failed. -/
def isClientSide : RelayError → Bool
  | .clientRead _ | .clientWrite _ => true
  | _ => false

/-- A cancelled sidechannel operation is a cancelled relay. -/
def ofSidechannel : SidechannelError → RelayError
  | .cancelled reason => .cancelled reason
  | e => .sidechannel e

def message : RelayError → String
  | .clientRead e => "reading request body: " ++ e.message
  | .clientWrite e => "writing response: " ++ e.message
  | .sidechannel e => e.message
  | .cancelled reason => "copy cancelled: " ++ reason.text

def causes : RelayError → List String
  | .sidechannel e => e.causes
  | _ => []

end RelayError
end PackRelay
