import PackRelay.Backend.CallError
import PackRelay.Relay.Error

/-! How an exchange ends, and why one failed. -/
namespace PackRelay

inductive TransportError
  | call (e : CallError)
  | sidechannel (e : SidechannelError)
  | relay (e : RelayError)
  deriving DecidableEq, Repr

namespace TransportError

def message : TransportError → String
  | .call e => e.message
  | .sidechannel e => e.message
  | .relay e => e.message

def causes : TransportError → List String
  | .call e => e.causes
  | .sidechannel e => e.causes
  | .relay e => e.causes

/-- Only tells that something else cancelled the exchange. -/
def isCancellation : TransportError → Bool
  | .call (.cancelled _) | .sidechannel (.cancelled _) | .relay (.cancelled _) => true
  | _ => false

end TransportError

inductive OutcomeKind
  | success
  | deadlineExceeded
  | clientAborted
  | backendError
  | transportError
  deriving DecidableEq, Repr

def OutcomeKind.text : OutcomeKind → String
  | .success => "success"
  | .deadlineExceeded => "deadline_exceeded"
  | .clientAborted => "client_aborted"
  | .backendError => "backend_error"
  | .transportError => "transport_error"

inductive ExchangeError
  | deadlineExceeded (timeout : Duration)
  | clientAborted (source : Option RelayError)
  | backend (status : BackendStatus)
  | transport (e : TransportError)
  deriving DecidableEq, Repr

namespace ExchangeError

def kind : ExchangeError → OutcomeKind
  | .deadlineExceeded _ => .deadlineExceeded
  | .clientAborted _ => .clientAborted
  | .backend _ => .backendError
  | .transport _ => .transportError

def isDeadlineExceeded : ExchangeError → Bool
  | .deadlineExceeded _ => true
  | _ => false

def message : ExchangeError → String
  | .deadlineExceeded timeout => "upload-pack deadline of " ++ timeout.text ++ " exceeded"
  | .clientAborted _ => "client aborted upload-pack"
  | .backend status => "backend rejected upload-pack: " ++ status.text
  | .transport e => "upload-pack transport failure: " ++ e.message

/-- What lies behind an error, the nearest first. The message of a transport failure tells it all. -/
def causes : ExchangeError → List String
  | .clientAborted (some e) => e.message :: e.causes
  | _ => []

def report (e : ExchangeError) : String := String.intercalate ": " (e.message :: e.causes)

end ExchangeError
end PackRelay
