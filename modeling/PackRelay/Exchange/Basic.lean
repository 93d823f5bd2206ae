import PackRelay.Backend.Capability
import PackRelay.Exchange.Metrics
import PackRelay.Exchange.Observed
import PackRelay.Relay.Outbound

/-! One exchange. The call is begun and its sidechannel opened; then the two relays and the wait for
the reply run side by side, and the first of them to fail cancels the others; then the sidechannel is
closed and all that was seen becomes one outcome. However it ends, crashes included, everything held is
released. -/
namespace PackRelay

structure Summary where
  sidechannelId : SidechannelId
  bytesIn : Nat
  bytesOut : Nat
  deriving DecidableEq

/-- How an exchange ended, and the octets of its relays. -/
structure Report where
  outcome : Except ExchangeError Summary
  bytesIn : Nat
  bytesOut : Nat

namespace Report

def kind (r : Report) : OutcomeKind :=
  match r.outcome with
  | .ok _ => .success
  | .error e => e.kind

end Report

/-- The results of an exchange's parts, as far as they are there. -/
structure Results where
  start : Option CallError := none
  dial : Option SidechannelError := none
  inbound : Option RelayResult := none
  outbound : Option RelayResult := none
  reply : Option (Except CallError Unit) := none

namespace Results

def bytesIn (r : Results) : Nat := (r.inbound.map RelayResult.bytes).getD 0

def bytesOut (r : Results) : Nat := (r.outbound.map RelayResult.bytes).getD 0

def observed (r : Results) : Observed :=
  let o := (r.start.map fun e => Observed.recordCall e {}).getD {}
  let o := (r.dial.map fun e => o.recordTransport (.sidechannel e)).getD o
  let o := (r.inbound.map fun i => o.recordRelay i).getD o
  let o := (r.outbound.map fun i => o.recordRelay i).getD o
  match r.reply with
  | some (.error e) => o.recordCall e
  | _ => o

end Results

inductive ExchangePhase
  | starting
  | opening
  | relaying
  | closing
  deriving DecidableEq, Repr

structure Exchange (κ : Type) where
  ctx : Context
  backend : κ
  inbound : Inbound
  outbound : Outbound
  channel : Option Sidechannel := none
  phase : ExchangePhase := .starting
  results : Results := {}

inductive Participant
  | inbound
  | outbound
  | reply
  deriving DecidableEq, Repr

/-- An order in which all participants get their turns. -/
structure Turns where
  order : List Participant
  complete : ∀ p, p ∈ order
  /-- Whether the context's watcher gets a turn before them. -/
  watched : Bool := false

def Turns.inOrder : Turns where
  order := [.inbound, .outbound, .reply]
  complete p := by cases p <;> simp

namespace Exchange

variable {κ : Type}

def fresh (ctx : Context) (backend : κ) (body : Source) (response : Sink) : Exchange κ :=
  { ctx, backend, inbound := { body }, outbound := { response := { sink := response } } }

def setBackend (x : Exchange κ) (p : Context × κ) : Exchange κ := { x with ctx := p.1, backend := p.2 }

def setChannel (x : Exchange κ) (c : Sidechannel) : Exchange κ := { x with channel := some c }

def cancel (x : Exchange κ) (r : CancelReason) : Exchange κ := { x with ctx := x.ctx.cancel r }

def release (b : Backend κ) (x : Exchange κ) : Exchange κ :=
  { x.cancel .done with channel := x.channel.map Sidechannel.drop, backend := b.release x.backend }

def report (b : Backend κ) (x : Exchange κ) : Report :=
  let bytesIn := x.results.bytesIn
  let bytesOut := x.results.bytesOut
  let outcome := (x.results.observed.resolve x.ctx).map fun () => ⟨b.callId x.backend, bytesIn, bytesOut⟩
  ⟨outcome, bytesIn, bytesOut⟩

def conclude (b : Backend κ) (x : Exchange κ) : Poll (Exchange κ) Report := .ready (x.report b) (x.release b)

def failedStart (e : CallError) (x : Exchange κ) : Exchange κ :=
  { x with results := { x.results with start := some e } }

def failedDial (e : SidechannelError) (x : Exchange κ) : Exchange κ :=
  { x with results := { x.results with dial := some e } }

def pollStart (b : Backend κ) (now : Nat) (x : Exchange κ) : Poll (Exchange κ) Report :=
  (b.start now (x.ctx, x.backend)).into x.setBackend fun result p =>
    match result with
    | .ok () => .more { x.setBackend p with phase := .opening }
    | .error e => ((x.setBackend p).failedStart e).conclude b

/-- A sidechannel that arrives closed ends the exchange at once. -/
def pollOpen (b : Backend κ) (now : Nat) (x : Exchange κ) : Poll (Exchange κ) Report :=
  (b.dial now (x.ctx, x.backend)).into x.setBackend fun result p =>
    let x := x.setBackend p
    match result with
    | .ok c =>
      if c.isOpen then .more { x.setChannel c with phase := .relaying }
      else ((x.setChannel c).failedDial .closed).conclude b
    | .error e => (x.failedDial e).conclude b

/-- A participant that failed cancels the others. -/
def cancelUnless (ok : Bool) (x : Exchange κ) : Exchange κ := if ok then x else x.cancel .done

def pollInbound (now : Nat) (c : Sidechannel) (x : Exchange κ) : Poll (Exchange κ) Unit :=
  if x.results.inbound.isSome then .ready () x
  else
    let put (p : Inbound × Sidechannel) : Exchange κ := { x.setChannel p.2 with inbound := p.1 }
    (x.inbound.poll x.ctx now c).into put fun r p =>
      .more { (put p).cancelUnless r.isOk with results := { x.results with inbound := some r } }

def pollOutbound (now : Nat) (c : Sidechannel) (x : Exchange κ) : Poll (Exchange κ) Unit :=
  if x.results.outbound.isSome then .ready () x
  else
    let put (p : Outbound × Sidechannel) : Exchange κ := { x.setChannel p.2 with outbound := p.1 }
    (x.outbound.poll x.ctx now c).into put fun r p =>
      .more { (put p).cancelUnless r.isOk with results := { x.results with outbound := some r } }

def replied : Except CancelReason (Except CallError Unit) → Except CallError Unit
  | .error r => .error (.cancelled r)
  | .ok result => result

/-- The call is over once it is no longer waited for. -/
def pollReply (b : Backend κ) (now : Nat) (x : Exchange κ) : Poll (Exchange κ) Unit :=
  if x.results.reply.isSome then .ready () x
  else
    let put (k : κ) : Exchange κ := { x with backend := k }
    (x.ctx.guard x.backend (b.reply now x.backend)).into put fun r k =>
      let result := replied r
      .more { (put (b.release k)).cancelUnless result.isOk with
        results := { x.results with reply := some result } }

def onChannel (poll : Sidechannel → Exchange κ → Poll (Exchange κ) Unit) (x : Exchange κ) :
    Poll (Exchange κ) Unit :=
  match x.channel with
  | some c => poll c x
  | none => .ready () x

def pollParticipant (b : Backend κ) (now : Nat) : Participant → Exchange κ → Poll (Exchange κ) Unit
  | .inbound => onChannel (pollInbound now)
  | .outbound => onChannel (pollOutbound now)
  | .reply => pollReply b now

def pollParticipants (b : Backend κ) (turns : Turns) (now : Nat) : Exchange κ → Poll (Exchange κ) Unit :=
  Poll.all (turns.order.map (pollParticipant b now))

def pollRelaying (b : Backend κ) (turns : Turns) (now : Nat) (x : Exchange κ) : Poll (Exchange κ) Report :=
  (x.pollParticipants b turns now).into (fun x => x) fun () x => .more { x with phase := .closing }

/-- How closing went makes no difference. -/
def pollClosing (b : Backend κ) (now : Nat) (x : Exchange κ) : Poll (Exchange κ) Report :=
  match x.channel with
  | none => x.conclude b
  | some c => (c.pollClose now).into x.setChannel fun _ c => (x.setChannel c).conclude b

def poll (b : Backend κ) (turns : Turns) (now : Nat) (x : Exchange κ) : Poll (Exchange κ) Report :=
  match x.phase with
  | .starting => x.pollStart b now
  | .opening => x.pollOpen b now
  | .relaying => x.pollRelaying b turns now
  | .closing => x.pollClosing b now

def beside (gone : Option Nat) : Background (Exchange κ) :=
  Context.beside Exchange.ctx (fun ctx x => { x with ctx }) (gone.map Interruption.requestGone)

/-- What the watcher finds if it gets a turn. -/
def look (turns : Turns) (gone : Option Nat) (now : Nat) (x : Exchange κ) : Option (Exchange κ) :=
  if turns.watched then (beside gone).act now x else none

/-- The next step, of the watcher if it finds something and else of the exchange. -/
def next (b : Backend κ) (turns : Turns) (gone : Option Nat) (now : Nat) (x : Exchange κ) :
    Poll (Exchange κ) Report :=
  match x.look turns gone now with
  | some x => .more x
  | none => x.poll b turns now

/-- Runs an exchange from a time on, with the turns of its participants in whatever order `turns` says
each time, and the watcher between any two steps that it says. When the whole exchange waits, the
watcher gets a turn in any case. A crash lets go of everything as well. -/
def handle (b : Backend κ) (turns : Nat → Exchange κ → Turns) (gone : Option Nat) (steps now : Nat)
    (x : Exchange κ) : Run (Exchange κ) Report :=
  match run (beside gone) (fun now x => x.next b (turns now x) gone now) steps now x with
  | .crashed time x => .crashed time (x.release b)
  | r => r

end Exchange
end PackRelay
