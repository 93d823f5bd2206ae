import PackRelay.Context.Basic
import PackRelay.Sidechannel.Error
import PackRelay.Stream.Connection
import PackRelay.Wire.Message

/-! The raw connection that carries the pack data of one call. Every operation but closing stops when
the context of the exchange is cancelled. The connection is released exactly once. -/
namespace PackRelay

structure Sidechannel where
  id : SidechannelId
  connection : Connection
  isOpen : Bool := true
  writeClosed : Bool := false
  /-- How often the connection was given up. -/
  closeCount : Nat := 0
  /-- When closing stops waiting for the peer. -/
  closeLimit : Option Nat := none

namespace Sidechannel

def setConnection (c : Sidechannel) (k : Connection) : Sidechannel := { c with connection := k }

def setSink (c : Sidechannel) (s : Sink) : Sidechannel := c.setConnection (c.connection.setSink s)

def settle {α : Type} : Except CancelReason (Except IoError α) → Except SidechannelError α
  | .error r => .error (.cancelled r)
  | .ok (.error e) => .error (.io e)
  | .ok (.ok a) => .ok a

/-- A read into room for `room` octets. No octets mean that the backend has finished. -/
def pollRead (ctx : Context) (now room : Nat) (c : Sidechannel) :
    Poll Sidechannel (Except SidechannelError Bytes) :=
  if !c.isOpen then .ready (.error .closed) c
  else (ctx.guard c.connection (c.connection.pollRead now room)).map settle c.setConnection

def pollWrite (ctx : Context) (now : Nat) (bs : Bytes) (c : Sidechannel) :
    Poll Sidechannel (Except SidechannelError Nat) :=
  if !c.isOpen || c.writeClosed then .ready (.error .closed) c
  else (ctx.guard c.connection.sink (c.connection.sink.pollWrite now bs)).map settle c.setSink

/-- Writing all of some octets, of which the state holds what remains. -/
def pollWriteAll (ctx : Context) (now : Nat) (rest : Bytes) (c : Sidechannel) :
    Poll (Bytes × Sidechannel) (Except SidechannelError Unit) :=
  if !c.isOpen || c.writeClosed then .ready (.error .closed) (rest, c)
  else
    (ctx.guard (rest, c.connection.sink) (c.connection.sink.pollWriteAll now rest)).map settle
      fun (rest, s) => (rest, c.setSink s)

/-- Tells the backend that no more input is coming. Once that has worked there is nothing to do. -/
def pollCloseWrite (ctx : Context) (now : Nat) (c : Sidechannel) :
    Poll Sidechannel (Except SidechannelError Unit) :=
  if !c.isOpen then .ready (.error .closed) c
  else if c.writeClosed then .ready (.ok ()) c
  else
    (ctx.guard c.connection.sink (c.connection.sink.pollShutdown now)).into c.setSink fun result s =>
      match settle result with
      | .ok () => .ready (.ok ()) { c.setSink s with writeClosed := true }
      | .error e => .ready (.error e) (c.setSink s)

def isReleased (c : Sidechannel) : Bool := 0 < c.closeCount

/-- How long closing waits for the peer, in milliseconds. -/
def closePatience : Nat := 1000

/-- Gives the connection up: closed for every later operation. -/
def giveUp (now : Nat) (c : Sidechannel) : Sidechannel :=
  { c with isOpen := false, closeCount := c.closeCount + 1, closeLimit := some (now + closePatience) }

def letGo (c : Sidechannel) : Sidechannel :=
  { c with connection := c.connection.release, closeLimit := none }

/-- Closing what was given up, so that a peer that does not answer holds nobody up. -/
def pollRelease (now limit : Nat) (c : Sidechannel) : Poll Sidechannel (Except SidechannelError Unit) :=
  if c.writeClosed then .ready (.ok ()) c.letGo
  else match c.connection.sink.pollShutdown now with
    | .ready (.ok ()) s => .ready (.ok ()) (c.setSink s).letGo
    | .ready (.error e) s =>
      .ready (if e.isDisconnect then .ok () else .error (.io e)) (c.setSink s).letGo
    | .more s => .more (c.setSink s)
    | .waiting s alarm =>
      if limit ≤ now then .ready (.ok ()) (c.setSink s).letGo
      else .waiting (c.setSink s) (earlier alarm (some limit))
    | .crashed s => .crashed (c.setSink s)

/-- Releases the connection, shutting its writing side down first if that was not done. A peer that is
gone is no failure. -/
def pollClose (now : Nat) (c : Sidechannel) : Poll Sidechannel (Except SidechannelError Unit) :=
  match c.closeLimit with
  | some limit => c.pollRelease now limit
  | none => if c.isOpen then .more (c.giveUp now) else .ready (.ok ()) c

/-- Releases the connection at once if it is still held. -/
def drop (c : Sidechannel) : Sidechannel :=
  if c.isOpen then { c.letGo with isOpen := false, closeCount := c.closeCount + 1 } else c.letGo

def describe (c : Sidechannel) : String :=
  let flag (b : Bool) : String := if b then "true" else "false"
  "Sidechannel \x7b id: SidechannelId(" ++ c.id.uuid.text ++ "), closed: " ++ flag (!c.isOpen)
    ++ ", write_closed: " ++ flag c.writeClosed ++ " \x7d"

end Sidechannel
end PackRelay
