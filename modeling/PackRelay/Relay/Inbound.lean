import PackRelay.Relay.Error
import PackRelay.Sidechannel.Basic

/-! The relay of the request body into the sidechannel, which ends with the shutdown of the
sidechannel's writing side. -/
namespace PackRelay

structure RelayResult where
  direction : Direction
  /-- The octets of all chunks that were relayed in full. -/
  bytes : Nat
  /-- None after a clean end. -/
  error : Option RelayError
  deriving DecidableEq, Repr

namespace RelayResult

def isOk (r : RelayResult) : Bool := r.error.isNone

end RelayResult

def relayBuffer : Nat := 32 * 1024

inductive InboundPhase
  | reading
  | writing (rest : Bytes) (size : Nat)
  | closing
  deriving DecidableEq, Repr

structure Inbound where
  body : Source
  bytes : Nat := 0
  phase : InboundPhase := .reading
  deriving DecidableEq, Repr

namespace Inbound

def result (i : Inbound) (error : Option RelayError) : RelayResult := ⟨.inbound, i.bytes, error⟩

def pollReading (ctx : Context) (now : Nat) (i : Inbound) (c : Sidechannel) :
    Poll (Inbound × Sidechannel) RelayResult :=
  (ctx.guard i.body (i.body.poll now relayBuffer)).into (fun body => ({ i with body }, c))
    fun outcome body =>
      let i := { i with body }
      match outcome with
      | .error r => .ready (i.result (some (.cancelled r))) (i, c)
      | .ok (.error e) => .ready (i.result (some (.clientRead e))) (i, c)
      | .ok (.ok []) => .more ({ i with phase := .closing }, c)
      | .ok (.ok bs) => .more ({ i with phase := .writing bs bs.length }, c)

def pollWriting (ctx : Context) (now : Nat) (rest : Bytes) (size : Nat) (i : Inbound) (c : Sidechannel) :
    Poll (Inbound × Sidechannel) RelayResult :=
  (c.pollWriteAll ctx now rest).into (fun (rest, c) => ({ i with phase := .writing rest size }, c))
    fun outcome (rest, c) =>
      match outcome with
      | .ok () => .more ({ i with bytes := i.bytes + size, phase := .reading }, c)
      | .error e =>
        .ready (i.result (some (.ofSidechannel e))) ({ i with phase := .writing rest size }, c)

def pollClosing (ctx : Context) (now : Nat) (i : Inbound) (c : Sidechannel) :
    Poll (Inbound × Sidechannel) RelayResult :=
  (c.pollCloseWrite ctx now).into (i, ·) fun outcome c =>
    match outcome with
    | .ok () => .ready (i.result none) (i, c)
    | .error e => .ready (i.result (some (.ofSidechannel e))) (i, c)

def poll (ctx : Context) (now : Nat) (i : Inbound) (c : Sidechannel) :
    Poll (Inbound × Sidechannel) RelayResult :=
  match i.phase with
  | .reading => i.pollReading ctx now c
  | .writing rest size => i.pollWriting ctx now rest size c
  | .closing => i.pollClosing ctx now c

end Inbound
end PackRelay
