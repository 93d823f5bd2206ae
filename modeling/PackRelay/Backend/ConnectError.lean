import PackRelay.Backend.Address
import PackRelay.Context.Reason
import PackRelay.Duration
import PackRelay.IoError

/-! Why a backend could not be dialed. -/
namespace PackRelay

inductive ConnectError
  | cancelled (reason : CancelReason)
  | address (e : AddressError)
  | timeout (place : String) (limit : Duration)
  | io (place : String) (e : IoError)
  deriving DecidableEq, Repr

def ConnectError.message : ConnectError → String
  | .cancelled reason => "connect cancelled: " ++ reason.text
  | .address e => e.message
  | .timeout place limit => "connect to " ++ place ++ " timed out after " ++ limit.text
  | .io place e => "connect to " ++ place ++ " failed: " ++ e.message

end PackRelay
