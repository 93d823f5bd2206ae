import PackRelay.Exchange.Error

/-! What is counted of finished exchanges. -/
namespace PackRelay

structure Metrics where
  /-- Exchanges by how they ended. -/
  requests : OutcomeKind → Nat := fun _ => 0
  bytesIn : Nat := 0
  bytesOut : Nat := 0

namespace Metrics

def record (kind : OutcomeKind) (bytesIn bytesOut : Nat) (m : Metrics) : Metrics where
  requests k := if k = kind then m.requests k + 1 else m.requests k
  bytesIn := m.bytesIn + bytesIn
  bytesOut := m.bytesOut + bytesOut

def kinds : List OutcomeKind := [.success, .deadlineExceeded, .clientAborted, .backendError, .transportError]

def total (m : Metrics) : Nat := kinds.foldr (m.requests · + ·) 0

end Metrics
end PackRelay
