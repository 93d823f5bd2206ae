import PackRelay.Backend.ConnectError
import PackRelay.Wire.Error

/-! Why a call got no good reply. -/
namespace PackRelay

structure BackendStatus where
  code : String
  message : String
  deriving DecidableEq, Repr

def BackendStatus.text (s : BackendStatus) : String := s.code ++ ": " ++ s.message

inductive CallError
  | backend (status : BackendStatus)
  | cancelled (reason : CancelReason)
  | connect (e : ConnectError)
  | wire (e : Wire.Error)
  deriving DecidableEq, Repr

namespace CallError

def message : CallError → String
  | .backend status => "backend error: " ++ status.text
  | .cancelled reason => "rpc cancelled: " ++ reason.text
  | .connect e => e.message
  | .wire e => "rpc wire error: " ++ e.message

def causes : CallError → List String
  | .backend _ | .cancelled _ | .connect _ => []
  | .wire e => e.message :: e.causes

end CallError
end PackRelay
