import PackRelay.Backend.Wired
import PackRelay.Exchange.Basic

/-! The other end of the wire: a backend that plays its part on the sidechannel step by step while the
exchange waits, then pauses, answers the call and closes both connections. -/
namespace PackRelay

inductive PeerStep
  | readToEnd
  | read (count : Nat)
  | echo
  | write (bs : Bytes)
  | shutdown
  | sleep (ms : Nat)
  deriving DecidableEq, Repr

structure Peer where
  steps : List PeerStep
  /-- The octets of the answer; none are sent if there are none. -/
  answer : Bytes
  /-- How many octets behind the hello were read. -/
  received : Nat := 0
  sending : Bool := true
  wake : Option Nat := none
  gone : Bool := false

namespace Peer

/-- How long it pauses before it answers, in milliseconds. -/
def breath : Nat := 25

def line : Connection := .waiting {}

def brokenPipe : IoError := .ofErrno .brokenPipe "Broken pipe" 32

def connectionReset : IoError := .ofErrno .connectionReset "Connection reset by peer" 104

def arrived (greeting : Nat) (c : Connection) : Nat := c.sink.accepted - greeting

def next (p : Peer) : Peer := { p with steps := p.steps.drop 1, wake := none }

def send (p : Peer) (bs : Bytes) (c : Connection) : Connection :=
  if p.sending then c.deliver (.data bs) else c

/-- Closes the sidechannel. What was sent and never read makes that a reset. -/
def closeLine (p : Peer) (greeting : Nat) (c : Connection) : Connection :=
  let c := if p.sending && p.received < arrived greeting c then c.deliver (.error connectionReset) else c
  c.finish.setSink { c.sink with plan := { write := fun _ _ => { answer := .fail brokenPipe } } }

def step? (now greeting : Nat) (p : Peer) (c : Connection) : Option (Peer × Connection) :=
  match p.steps with
  | [] => none
  | .readToEnd :: _ =>
    if c.sink.isShutDown || c.sink.released then
      some ({ p.next with received := arrived greeting c }, c)
    else none
  | .read count :: _ =>
    if p.received + count ≤ arrived greeting c || c.sink.isShutDown || c.sink.released then
      some ({ p.next with received := min (p.received + count) (arrived greeting c) }, c)
    else none
  | .echo :: _ => some (p.next, p.send ((c.sink.written.drop greeting).take p.received) c)
  | .write bs :: _ => some (p.next, p.send bs c)
  | .shutdown :: _ => some ({ p.next with sending := false }, c.finish)
  | .sleep ms :: _ =>
    match pause now ms p.wake with
    | none => some (p.next, c)
    | some t => if p.wake = some t then none else some ({ p with wake := some t }, c)

def answerOn (p : Peer) : CallLine → CallLine
  | .listening r c => .listening r (if p.answer.isEmpty then c.finish else (c.deliver (.data p.answer)).finish)
  | line => line

/-- The end of the peer's part, a pause after its last step. -/
def finish? (now greeting : Nat) (p : Peer) (b : WiredBackend) (c : Connection) :
    Option (Peer × WiredBackend × Connection) :=
  match pause now breath p.wake with
  | none =>
    some ({ p with gone := true, wake := none }, b.withCall (p.answerOn b.call), p.closeLine greeting c)
  | some t => if p.wake = some t then none else some ({ p with wake := some t }, b, c)

/-- An exchange and the backend at the other end of its connections. -/
structure Served where
  exchange : Exchange WiredBackend
  peer : Peer

def greeting (b : WiredBackend) : Nat := (Wire.Hello.sidechannel b.id).encode.length + 4

/-- The peer's turn. It stops when the call is given up. -/
def act? (now : Nat) (s : Served) : Option Served :=
  let x := s.exchange
  match x.channel, x.backend.call with
  | some c, .listening _ _ =>
    if s.peer.gone then none
    else
      let put (p : Peer) (b : WiredBackend) (k : Connection) : Served :=
        ⟨{ x with backend := b, channel := some (c.setConnection k) }, p⟩
      if s.peer.steps.isEmpty then
        (s.peer.finish? now (greeting x.backend) x.backend c.connection).map fun (p, b, k) => put p b k
      else
        (s.peer.step? now (greeting x.backend) c.connection).map fun (p, k) => put p x.backend k
  | _, _ => none

def beside : Background Served where
  act now s :=
    match s.exchange.ctx.watch none now with
    | some ctx => some { s with exchange := { s.exchange with ctx } }
    | none => act? now s
  alarm now s := earlier (s.exchange.ctx.alarm none now) (s.peer.wake.filter (now < ·))

def serve (steps now : Nat) (s : Served) : Run Served Report :=
  run beside (fun now s => (s.exchange.poll WiredBackend.backend .inOrder now).within fun x => { s with exchange := x })
    steps now s

def heard? (b : WiredBackend) : Option Wire.CallRequest :=
  match b.call with
  | .listening _ c | .dropped (some c) =>
    match Wire.Hello.decode (c.sink.written.drop 4) with
    | .ok (.call request) => some request
    | _ => none
  | _ => none

def channels (b : WiredBackend) : Nat :=
  match b.channel with
  | .handedOut => 1
  | _ => 0

end Peer
end PackRelay
