import PackRelay.Backend.Wired
import PackRelay.Exchange.Error

/-! The cancellation that an error tells of, however deep it is in there. -/
namespace PackRelay

def ConnectError.told : ConnectError → Option CancelReason
  | .cancelled r => some r
  | _ => none

def OpeningError.told : OpeningError → Option CancelReason
  | .cancelled r => some r
  | .connect e => e.told
  | .wire _ => none

def CallError.told : CallError → Option CancelReason
  | .cancelled r => some r
  | .connect e => e.told
  | _ => none

def SidechannelError.told : SidechannelError → Option CancelReason
  | .cancelled r => some r
  | .connect e => e.told
  | _ => none

def RelayError.told : RelayError → Option CancelReason
  | .cancelled r => some r
  | .sidechannel e => e.told
  | _ => none

def TransportError.told : TransportError → Option CancelReason
  | .call e => e.told
  | .sidechannel e => e.told
  | .relay e => e.told

theorem CallError.told_ofOpening (e : OpeningError) : (CallError.ofOpening e).told = e.told := by
  cases e <;> rfl

theorem SidechannelError.told_ofOpening (e : OpeningError) :
    (SidechannelError.ofOpening e).told = e.told := by
  cases e <;> rfl

theorem TransportError.told_of_isCancellation {e : TransportError} (h : e.isCancellation = true) :
    e.told.isSome := by
  unfold isCancellation at h
  split at h
  · rfl
  · rfl
  · rfl
  · cases h

theorem TransportError.isCancellation_of_untold {e : TransportError} (untold : e.told = none) :
    e.isCancellation = false := by
  cases seen : e.isCancellation with
  | false => rfl
  | true =>
    have := told_of_isCancellation seen
    rw [untold] at this
    cases this

end PackRelay
