import PackRelay.Context.Basic
import PackRelay.Exchange.Error
import PackRelay.Relay.Inbound

/-! What went wrong while an exchange ran, before it is classified. -/
namespace PackRelay

structure Observed where
  client : Option RelayError := none
  backend : Option BackendStatus := none
  transport : Option TransportError := none
  deriving DecidableEq, Repr

namespace Observed

/-- A cancellation never displaces what may have caused it. -/
def recordTransport (e : TransportError) (o : Observed) : Observed :=
  match o.transport with
  | none => { o with transport := some e }
  | some old => if old.isCancellation && !e.isCancellation then { o with transport := some e } else o

def recordRelay (r : RelayResult) (o : Observed) : Observed :=
  match r.error with
  | none => o
  | some e =>
    if e.isClientSide then { o with client := o.client.or (some e) } else o.recordTransport (.relay e)

def recordCall (e : CallError) (o : Observed) : Observed :=
  match e with
  | .backend status => { o with backend := o.backend.or (some status) }
  | e => o.recordTransport (.call e)

/-- What the exchange comes to without a reason from outside: the client's failure first, then the
backend's word, then the transport's. -/
def blame (o : Observed) : Except ExchangeError Unit :=
  match o.client, o.backend, o.transport with
  | some e, _, _ => .error (.clientAborted (some e))
  | none, some status, _ => .error (.backend status)
  | none, none, some e => .error (.transport e)
  | none, none, none => .ok ()

/-- What the exchange comes to. A deadline wins over all that was seen, whoever noticed it. -/
def resolve (ctx : Context) (o : Observed) : Except ExchangeError Unit :=
  match ctx.reason with
  | some .deadlineExceeded => .error (.deadlineExceeded (.ofMicros ctx.timeout))
  | some .clientAborted => .error (.clientAborted o.client)
  | _ => o.blame

end Observed
end PackRelay
