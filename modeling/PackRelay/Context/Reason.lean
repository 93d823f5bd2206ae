/-! Why an exchange was cancelled. -/
namespace PackRelay

inductive CancelReason
  | deadlineExceeded
  /-- The request that the exchange serves went away. -/
  | clientAborted
  /-- The exchange is over, or one of its participants failed. -/
  | done
  deriving DecidableEq, Repr

def CancelReason.text : CancelReason → String
  | .deadlineExceeded => "deadline_exceeded"
  | .clientAborted => "client_aborted"
  | .done => "done"

end PackRelay
