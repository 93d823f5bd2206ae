import PackRelay.Clock.Run
import PackRelay.Response.Writer

/-! A response in the hands of one caller, who gives up what takes too long, and of those who watch for
its status. -/
namespace PackRelay.ResponseWriter

inductive Command
  | write (bs : Bytes)
  | writeAll (bs : Bytes)
  | flush
  | subscribe
  | watch (watcher : Nat)
  deriving DecidableEq, Repr

inductive Reply
  | wrote (count : Nat)
  | done
  | failed (e : IoError)
  /-- It took longer than the caller waits. -/
  | blocked
  | watcher (index : Nat)
  | seen (changed value : Bool)
  deriving DecidableEq, Repr

structure Session where
  now : Nat := 0
  writer : ResponseWriter
  watchers : List HeadersWatcher

namespace Session

/-- How long the caller waits, in milliseconds. -/
def patience : Nat := 1000

def start (sink : Sink) : Session :=
  let writer : ResponseWriter := { sink }
  { writer, watchers := [.subscribe writer] }

def drive {τ α : Type} (s : Session) (count : Nat) (poll : Nat → τ → Poll τ (Except IoError α))
    (writer : τ → ResponseWriter) (start : τ) (ok : α → Reply) : Option (Reply × Session) :=
  let stop := s.now + patience
  let poll (now : Nat) (t : τ) : Poll τ (Option (Except IoError α)) :=
    match poll now t with
    | .ready a t => .ready (some a) t
    | .more t => .more t
    | .waiting t alarm => if stop ≤ now then .ready none t else .waiting t (earlier alarm (some stop))
    | .crashed t => .crashed t
  match run .idle poll (4 * count + 64) s.now start with
  | .finished time result t =>
    let reply := match result with | none => .blocked | some (.ok a) => ok a | some (.error e) => .failed e
    some (reply, { s with now := time, writer := writer t })
  | _ => none

def perform (s : Session) : Command → Option (Reply × Session)
  | .write bs => s.drive bs.length (fun now w => w.pollWrite now bs) id s.writer .wrote
  | .writeAll bs =>
    s.drive bs.length (fun now (p : Bytes × ResponseWriter) => p.2.pollWriteAll now bs.length p.1) (·.2)
      (bs, s.writer) fun _ => .done
  | .flush => s.drive 0 (fun now w => w.pollFlush now) id s.writer fun _ => .done
  | .subscribe =>
    some (.watcher s.watchers.length, { s with watchers := s.watchers ++ [.subscribe s.writer] })
  | .watch i =>
    match s.watchers[i]? with
    | none => none
    | some watcher =>
      some (.seen (watcher.hasChanged s.writer) s.writer.headersSent,
        { s with watchers := s.watchers.set i (.subscribe s.writer) })

end Session
end PackRelay.ResponseWriter
