import PackRelay.Backend.CallError
import PackRelay.Sidechannel.Basic

/-! What an exchange needs of a backend: to begin a call, to open the call's sidechannel, and to wait
for the call's reply. The state holds what the backend keeps for one exchange. -/
namespace PackRelay

structure Backend (κ : Type) where
  start : Nat → Context × κ → Poll (Context × κ) (Except CallError Unit)
  dial : Nat → Context × κ → Poll (Context × κ) (Except SidechannelError Sidechannel)
  reply : Nat → κ → Poll κ (Except CallError Unit)
  callId : κ → SidechannelId
  release : κ → κ

end PackRelay
