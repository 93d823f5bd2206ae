/-! The stop signal. Any number of handles may give it and any number of receivers get it. The latest
signal is kept for those who have not taken it; one who missed earlier ones is told how many. -/
namespace PackRelay.Shutdown

inductive Received
  | signal
  | empty
  /-- Every handle is gone, and nothing is left to take. -/
  | closed
  | lagged (missed : Nat)
  deriving DecidableEq, Repr

/-- The signals given so far, and how many of them each receiver is past. -/
structure Channel where
  sent : Nat := 0
  handles : List String
  receivers : List (String × Nat) := []
  deriving DecidableEq, Repr

inductive Step
  | subscribe (receiver : String) (handle : String)
  | clone (name : String) (handle : String)
  | drop (handle : String)
  | unsubscribe (receiver : String)
  | trigger (handle : String)
  | receive (receiver : String)
  deriving DecidableEq, Repr

inductive Outcome
  | done
  | existed (b : Bool)
  | received (r : Received)
  /-- The step names a handle or a receiver that is not there. -/
  | unknown
  deriving DecidableEq, Repr

namespace Channel

def start (handle : String) : Channel := { handles := [handle] }

/-- What a receiver that is past `seen` signals finds, and how many it is past then. -/
def take (c : Channel) (seen : Nat) : Received × Nat :=
  match c.sent - seen with
  | 0 => (if c.handles.isEmpty then .closed else .empty, seen)
  | 1 => (.signal, c.sent)
  | pending + 2 => (.lagged (pending + 1), c.sent - 1)

/-- Gives the signal. With nobody to get it, it is not remembered. -/
def trigger (c : Channel) : Channel := if c.receivers.isEmpty then c else { c with sent := c.sent + 1 }

def subscribe (receiver : String) (c : Channel) : Channel :=
  { c with receivers := (receiver, c.sent) :: c.receivers.filter (·.1 ≠ receiver) }

def perform (c : Channel) : Step → Outcome × Channel
  | .subscribe receiver handle =>
    if c.handles.contains handle then (.done, c.subscribe receiver) else (.unknown, c)
  | .clone name handle =>
    if c.handles.contains handle then (.done, { c with handles := name :: c.handles.filter (· ≠ name) })
    else (.unknown, c)
  | .drop handle =>
    (.existed (c.handles.contains handle), { c with handles := c.handles.filter (· ≠ handle) })
  | .unsubscribe receiver =>
    (.existed (c.receivers.lookup receiver).isSome,
      { c with receivers := c.receivers.filter (·.1 ≠ receiver) })
  | .trigger handle => if c.handles.contains handle then (.done, c.trigger) else (.unknown, c)
  | .receive receiver =>
    match c.receivers.lookup receiver with
    | none => (.unknown, c)
    | some seen =>
      let (r, seen) := c.take seen
      (.received r, { c with receivers := (receiver, seen) :: c.receivers.filter (·.1 ≠ receiver) })

def performAll : Channel → List Step → List Outcome
  | _, [] => []
  | c, step :: rest => (c.perform step).1 :: performAll (c.perform step).2 rest

end Channel
end PackRelay.Shutdown
