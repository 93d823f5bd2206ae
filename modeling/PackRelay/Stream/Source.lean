import PackRelay.Bytes
import PackRelay.Clock.Poll
import PackRelay.IoError

/-! The reading side of a stream, as the events that reads meet in order; behind the last one is the
end. The source keeps what its reads delivered. -/
namespace PackRelay

inductive ReadEvent
  | data (bs : Bytes)
  /-- Waits, from the moment that reading gets here. -/
  | delay (ms : Nat)
  | hang
  | error (e : IoError)
  | crash
  /-- Waits until the same stream's writing side was shut down. -/
  | awaitShutdown
  /-- Waits until that many octets were written to the same stream, or its writing side shut down. -/
  | awaitWritten (count : Nat)
  /-- Delivers what was written to the same stream, without the first `skip` octets, and up to `stop`
  in all if that is given. -/
  | echo (skip : Nat) (stop : Option Nat)
  deriving DecidableEq, Repr

structure Source where
  events : List ReadEvent
  /-- When a delay that reading has got to is over. -/
  wake : Option Nat := none
  /-- What each read delivered, the latest first. -/
  chunks : List Bytes := []
  deriving DecidableEq, Repr

namespace Source

def ofEvents (events : List ReadEvent) : Source := { events }

def delivered (s : Source) : Bytes := s.chunks.reverse.flatten

def skip (s : Source) : Source := { s with events := s.events.drop 1, wake := none }

def push (bs : Bytes) (s : Source) : Source := { s with events := .data bs :: s.events, wake := none }

def read (room : Nat) (bs : Bytes) (s : Source) : Source :=
  let rest := if bs.length ≤ room then s.skip else s.skip.push (bs.drop room)
  { rest with chunks := bs.take room :: rest.chunks }

/-- A read into room for `room` octets. No octets mean the end. -/
def poll (now room : Nat) (s : Source) : Poll Source (Except IoError Bytes) :=
  match s.events with
  | [] => .ready (.ok []) s
  | .data [] :: _ => .more s.skip
  | .data bs :: _ => .ready (.ok (bs.take room)) (s.read room bs)
  | .delay ms :: _ =>
    match pause now ms s.wake with
    | none => .more s.skip
    | some t => .waiting { s with wake := some t } (some t)
  | .error e :: _ => .ready (.error e) s.skip
  | .crash :: _ => .crashed s
  | .hang :: _ | .awaitShutdown :: _ | .awaitWritten _ :: _ => .waiting s none
  | .echo _ _ :: _ => .more s.skip

/-- All octets that reading would deliver if nothing failed, hung or crashed. -/
def delivers (s : Source) : Bytes :=
  s.events.flatMap fun | .data bs => bs | _ => []

end Source
end PackRelay
