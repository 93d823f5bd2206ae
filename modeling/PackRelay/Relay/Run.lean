import PackRelay.Relay.Outbound

/-! One relay on its own, under a context that may be cancelled from outside. -/
namespace PackRelay

structure Relaying (ρ : Type) where
  ctx : Context
  relay : ρ
  channel : Sidechannel

namespace Relaying

variable {ρ : Type}

def beside (outside : Option Interruption) : Background (Relaying ρ) :=
  Context.beside Relaying.ctx (fun ctx r => { r with ctx }) outside

/-- Steps that a relay of what the streams deliver does not use up. -/
def budget (source : Nat) (channel : Sidechannel) : Nat :=
  8 * (source + channel.connection.readBudget * (source + 2)) + 64

def place (r : Relaying ρ) (p : ρ × Sidechannel) : Relaying ρ := { r with relay := p.1, channel := p.2 }

def inbound (outside : Option Interruption) (r : Relaying Inbound) : Run (Relaying Inbound) RelayResult :=
  run (beside outside) (fun now r => (r.relay.poll r.ctx now r.channel).within r.place)
    (budget (r.relay.body.events.length + r.relay.body.delivers.length) r.channel) 0 r

def outbound (outside : Option Interruption) (r : Relaying Outbound) :
    Run (Relaying Outbound) RelayResult :=
  run (beside outside) (fun now r => (r.relay.poll r.ctx now r.channel).within r.place)
    (budget 0 r.channel) 0 r

end Relaying
end PackRelay
