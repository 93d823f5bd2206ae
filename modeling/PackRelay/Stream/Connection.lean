import PackRelay.Stream.Sink
import PackRelay.Stream.Source

/-! A stream with both sides. What was written to it may come back to be read. -/
namespace PackRelay

structure Connection where
  source : Source
  sink : Sink

namespace Connection

def setSource (c : Connection) (s : Source) : Connection := { c with source := s }

def setSink (c : Connection) (s : Sink) : Connection := { c with sink := s }

def release (c : Connection) : Connection := { c with sink := c.sink.release }

/-- What the peer sends back of what it was sent. -/
def echoed (c : Connection) (skip : Nat) (stop : Option Nat) : Bytes :=
  let sent := c.sink.written.drop skip
  match stop with
  | none => sent
  | some n => sent.take n

def pollRead (now room : Nat) (c : Connection) : Poll Connection (Except IoError Bytes) :=
  match c.source.events with
  | .awaitShutdown :: _ =>
    if c.sink.isShutDown then .more (c.setSource c.source.skip) else .waiting c none
  | .awaitWritten count :: _ =>
    if count ≤ c.sink.accepted || c.sink.isShutDown then .more (c.setSource c.source.skip)
    else .waiting c none
  | .echo skip stop :: _ => .more (c.setSource (c.source.skip.push (c.echoed skip stop)))
  | _ => (c.source.poll now room).within c.setSource

def waiting (plan : SinkPlan) : Connection := ⟨.ofEvents [.hang], { plan }⟩

/-- The peer sends something, before whatever reading waits for. -/
def deliver (event : ReadEvent) (c : Connection) : Connection :=
  c.setSource { c.source with events := c.source.events.dropLast ++ [event, .hang] }

def finish (c : Connection) : Connection :=
  c.setSource { c.source with events := c.source.events.filter (· ≠ .hang) }

/-- Steps that reading to the end does not use up. -/
def readBudget (c : Connection) : Nat :=
  3 * (c.source.events.length * (c.sink.accepted + 2) + c.source.delivers.length) + 16

end Connection
end PackRelay
