import PackRelay.Backend.ConnectError
import PackRelay.Wire.Error

/-! Why an operation on a sidechannel failed. -/
namespace PackRelay

inductive SidechannelError
  | cancelled (reason : CancelReason)
  | closed
  | connect (e : ConnectError)
  | handshake (e : Wire.Error)
  | io (e : IoError)
  deriving DecidableEq, Repr

namespace SidechannelError

def message : SidechannelError → String
  | .cancelled reason => "sidechannel cancelled: " ++ reason.text
  | .closed => "sidechannel is closed"
  | .connect e => e.message
  | .handshake e => "sidechannel handshake failed: " ++ e.message
  | .io e => "sidechannel i/o error: " ++ e.message

def causes : SidechannelError → List String
  | .cancelled _ | .closed | .connect _ => []
  | .handshake e => e.message :: e.causes
  | .io e => [e.message]

end SidechannelError
end PackRelay
