import PackRelay.Bytes
import PackRelay.Clock.Poll
import PackRelay.IoError

/-! The writing side of a stream. A plan says what each write, flush and shutdown meets; the sink
keeps what it accepted. -/
namespace PackRelay

/-- What a write of at least one octet meets, once its delay is over. -/
inductive WriteAnswer
  /-- As many octets as there are, up to a number. -/
  | accept (most : Option Nat)
  /-- No octet, and not because it failed. -/
  | refuse
  | fail (e : IoError)
  | hang
  | crash
  deriving DecidableEq, Repr

structure WriteTurn where
  delay : Nat := 0
  answer : WriteAnswer
  deriving DecidableEq, Repr

inductive FinishAnswer
  | done
  | fail (e : IoError)
  | hang
  | crash
  deriving DecidableEq, Repr

structure FinishTurn where
  delay : Nat := 0
  answer : FinishAnswer := .done
  deriving DecidableEq, Repr

structure SinkPlan where
  /-- By how many writes were answered before, and how many octets accepted. -/
  write : Nat → Nat → WriteTurn := fun _ _ => { answer := .accept none }
  /-- By how many flushes were answered before. -/
  flush : Nat → FinishTurn := fun _ => {}
  /-- By how many shutdowns were answered before. -/
  shutdown : Nat → FinishTurn := fun _ => {}

/-- Every write waits as long and accepts as much, until a limit is reached if there is one. -/
def WriteTurn.steady (most : Option Nat) (delay : Nat) (limit : Option (Nat × WriteAnswer)) :
    Nat → Nat → WriteTurn := fun _ accepted =>
  match limit with
  | none => ⟨delay, .accept most⟩
  | some (stop, answer) =>
    if stop ≤ accepted then ⟨delay, answer⟩
    else ⟨delay, .accept (some (min (most.getD (stop - accepted)) (stop - accepted)))⟩

structure Sink where
  plan : SinkPlan := {}
  /-- What each write accepted, the latest first. -/
  chunks : List Bytes := []
  accepted : Nat := 0
  writeTurns : Nat := 0
  writeWake : Option Nat := none
  flushes : Nat := 0
  flushTurns : Nat := 0
  flushWake : Option Nat := none
  shutdowns : Nat := 0
  shutdownTurns : Nat := 0
  shutdownWake : Option Nat := none
  released : Bool := false

namespace Sink

def written (s : Sink) : Bytes := s.chunks.reverse.flatten

def writes (s : Sink) : List Nat := (s.chunks.map List.length).reverse

def isShutDown (s : Sink) : Bool := 0 < s.shutdowns

def release (s : Sink) : Sink := { s with released := true }

def accept (bs : Bytes) (s : Sink) : Sink :=
  { s with
    chunks := bs :: s.chunks
    accepted := s.accepted + bs.length
    writeTurns := s.writeTurns + 1
    writeWake := none }

def turnDown (s : Sink) : Sink := { s with writeTurns := s.writeTurns + 1, writeWake := none }

/-- A write. The value is how many octets it accepted. -/
def pollWrite (now : Nat) (bs : Bytes) (s : Sink) : Poll Sink (Except IoError Nat) :=
  let turn := s.plan.write s.writeTurns s.accepted
  match pause now turn.delay s.writeWake with
  | some t => .waiting { s with writeWake := some t } (some t)
  | none =>
    if bs.isEmpty then .ready (.ok 0) (s.accept [])
    else match turn.answer with
      | .accept most =>
        let bs := match most with | none => bs | some n => bs.take n
        .ready (.ok bs.length) (s.accept bs)
      | .refuse => .ready (.ok 0) s.turnDown
      | .fail e => .ready (.error e) s.turnDown
      | .hang => .waiting s none
      | .crash => .crashed s

/-- Writing all of some octets, of which the state holds what remains. An interrupted write is tried
again. -/
def pollWriteAll (now : Nat) (bs : Bytes) (s : Sink) : Poll (Bytes × Sink) (Except IoError Unit) :=
  if bs.isEmpty then .ready (.ok ()) ([], s)
  else (s.pollWrite now bs).into (bs, ·) fun result s =>
    match result with
    | .ok 0 => .ready (.error .writeZero) (bs, s)
    | .ok n =>
      match bs.drop n with
      | [] => .ready (.ok ()) ([], s)
      | rest => .more (rest, s)
    | .error e => if e.kind = .interrupted then .more (bs, s) else .ready (.error e) (bs, s)

def flushed (ok : Bool) (s : Sink) : Sink :=
  { s with
    flushes := if ok then s.flushes + 1 else s.flushes
    flushTurns := s.flushTurns + 1
    flushWake := none }

def pollFlush (now : Nat) (s : Sink) : Poll Sink (Except IoError Unit) :=
  let turn := s.plan.flush s.flushTurns
  match pause now turn.delay s.flushWake with
  | some t => .waiting { s with flushWake := some t } (some t)
  | none =>
    match turn.answer with
    | .done => .ready (.ok ()) (s.flushed true)
    | .fail e => .ready (.error e) (s.flushed false)
    | .hang => .waiting s none
    | .crash => .crashed s

def shutDown (ok : Bool) (s : Sink) : Sink :=
  { s with
    shutdowns := if ok then s.shutdowns + 1 else s.shutdowns
    shutdownTurns := s.shutdownTurns + 1
    shutdownWake := none }

def pollShutdown (now : Nat) (s : Sink) : Poll Sink (Except IoError Unit) :=
  let turn := s.plan.shutdown s.shutdownTurns
  match pause now turn.delay s.shutdownWake with
  | some t => .waiting { s with shutdownWake := some t } (some t)
  | none =>
    match turn.answer with
    | .done => .ready (.ok ()) (s.shutDown true)
    | .fail e => .ready (.error e) (s.shutDown false)
    | .hang => .waiting s none
    | .crash => .crashed s

end Sink
end PackRelay
