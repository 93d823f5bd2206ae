import PackRelay.Stream.Sink

/-! The response of an exchange. Its status is committed by the first write that is begun, whatever
becomes of that write. -/
namespace PackRelay

/-- A value that others watch. Its version rises whenever they are told of a change. -/
structure Watched (α : Type) where
  value : α
  version : Nat
  deriving DecidableEq, Repr

namespace Watched

/-- Changes the value in place, and says whether those who watch are told. -/
def sendIfModified {α : Type} (change : α → Bool × α) (w : Watched α) : Watched α :=
  let (told, value) := change w.value
  ⟨value, if told then w.version + 1 else w.version⟩

/-- Sets a flag. Those who watch are told only if it was not set before. -/
def raise (w : Watched Bool) : Watched Bool := w.sendIfModified fun set => (!set, true)

end Watched

structure ResponseWriter where
  sink : Sink
  /-- Whether the status was committed. -/
  headers : Watched Bool := ⟨false, 0⟩
  bytesWritten : Nat := 0

namespace ResponseWriter

def headersSent (w : ResponseWriter) : Bool := w.headers.value

def setSink (w : ResponseWriter) (s : Sink) : ResponseWriter := { w with sink := s }

def commit (w : ResponseWriter) : ResponseWriter := { w with headers := w.headers.raise }

def count (n : Nat) (w : ResponseWriter) : ResponseWriter := { w with bytesWritten := w.bytesWritten + n }

def pollWrite (now : Nat) (bs : Bytes) (w : ResponseWriter) : Poll ResponseWriter (Except IoError Nat) :=
  let w := w.commit
  (w.sink.pollWrite now bs).into w.setSink fun result s =>
    match result with
    | .ok n => .ready (.ok n) ((w.setSink s).count n)
    | .error e => .ready (.error e) (w.setSink s)

/-- Writing all of `total` octets, of which the state holds what remains. -/
def pollWriteAll (now total : Nat) (rest : Bytes) (w : ResponseWriter) :
    Poll (Bytes × ResponseWriter) (Except IoError Unit) :=
  let w := w.commit
  (w.sink.pollWriteAll now rest).into (fun (rest, s) => (rest, w.setSink s)) fun result (rest, s) =>
    match result with
    | .ok () => .ready (.ok ()) (rest, (w.setSink s).count total)
    | .error e => .ready (.error e) (rest, w.setSink s)

def pollFlush (now : Nat) (w : ResponseWriter) : Poll ResponseWriter (Except IoError Unit) :=
  (w.sink.pollFlush now).within w.setSink

end ResponseWriter

/-- Somebody who watches for the status, and the version that was there at the last look. -/
structure HeadersWatcher where
  seen : Nat
  deriving DecidableEq, Repr

namespace HeadersWatcher

/-- A watcher counts as having seen what holds when it starts. -/
def subscribe (w : ResponseWriter) : HeadersWatcher := ⟨w.headers.version⟩

def hasChanged (watcher : HeadersWatcher) (w : ResponseWriter) : Bool :=
  watcher.seen != w.headers.version

end HeadersWatcher
end PackRelay
