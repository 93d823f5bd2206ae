import PackRelay.Exchange.Error

/-! The HTTP status of an exchange that failed before anything was relayed. -/
namespace PackRelay

def OutcomeKind.httpStatus : OutcomeKind → Nat
  | .success => 200
  | .deadlineExceeded => 504
  | .clientAborted => 499
  | .backendError | .transportError => 502

def ExchangeError.httpStatus (e : ExchangeError) : Nat := e.kind.httpStatus

end PackRelay
