import PackRelay.Relay.Inbound
import PackRelay.Response.Writer

/-! The relay of what the backend sends into the response, which ends with a flush. -/
namespace PackRelay

inductive OutboundPhase
  | reading
  | writing (rest : Bytes) (size : Nat)
  | flushing
  deriving DecidableEq, Repr

structure Outbound where
  response : ResponseWriter
  bytes : Nat := 0
  phase : OutboundPhase := .reading

namespace Outbound

def result (o : Outbound) (error : Option RelayError) : RelayResult := ⟨.outbound, o.bytes, error⟩

def pollReading (ctx : Context) (now : Nat) (o : Outbound) (c : Sidechannel) :
    Poll (Outbound × Sidechannel) RelayResult :=
  (c.pollRead ctx now relayBuffer).into (o, ·) fun outcome c =>
    match outcome with
    | .error e => .ready (o.result (some (.ofSidechannel e))) (o, c)
    | .ok [] => .more ({ o with phase := .flushing }, c)
    | .ok bs => .more ({ o with phase := .writing bs bs.length }, c)

def pollWriting (ctx : Context) (now : Nat) (rest : Bytes) (size : Nat) (o : Outbound) (c : Sidechannel) :
    Poll (Outbound × Sidechannel) RelayResult :=
  (ctx.guard (rest, o.response) (o.response.pollWriteAll now size rest)).into
    (fun (rest, response) => ({ o with response, phase := .writing rest size }, c))
    fun outcome (rest, response) =>
      let o := { o with response, phase := .writing rest size }
      match outcome with
      | .error r => .ready (o.result (some (.cancelled r))) (o, c)
      | .ok (.error e) => .ready (o.result (some (.clientWrite e))) (o, c)
      | .ok (.ok ()) => .more ({ o with bytes := o.bytes + size, phase := .reading }, c)

def pollFlushing (ctx : Context) (now : Nat) (o : Outbound) (c : Sidechannel) :
    Poll (Outbound × Sidechannel) RelayResult :=
  (ctx.guard o.response (o.response.pollFlush now)).into (fun response => ({ o with response }, c))
    fun outcome response =>
      let o := { o with response }
      match outcome with
      | .error r => .ready (o.result (some (.cancelled r))) (o, c)
      | .ok (.error e) => .ready (o.result (some (.clientWrite e))) (o, c)
      | .ok (.ok ()) => .ready (o.result none) (o, c)

def poll (ctx : Context) (now : Nat) (o : Outbound) (c : Sidechannel) :
    Poll (Outbound × Sidechannel) RelayResult :=
  match o.phase with
  | .reading => o.pollReading ctx now c
  | .writing rest size => o.pollWriting ctx now rest size c
  | .flushing => o.pollFlushing ctx now c

end Outbound
end PackRelay
