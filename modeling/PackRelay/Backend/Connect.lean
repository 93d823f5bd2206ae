import PackRelay.Backend.ConnectError
import PackRelay.Context.Basic
import PackRelay.Stream.Connection

/-! Dialing a backend under a context and for a limited time. A context that is over comes first, then
an address that names no place; only then is anything dialed, and once. -/
namespace PackRelay

inductive DialAnswer
  | connected (c : Connection)
  | failed (e : IoError)
  | never

/-- What a dial meets, once its delay is over. -/
structure Dial where
  delay : Nat := 0
  answer : DialAnswer

inductive Connecting
  | fresh
  /-- The place that is dialed, when the dial's delay is over, and when the dial is given up. -/
  | dialing (place : Address) (wake : Option Nat) (limit : Nat)
  deriving DecidableEq, Repr

namespace Connecting

/-- What a dial has come to so far: its answer, or when to look again. -/
def progress (dial : Dial) (now : Nat) (wake : Option Nat) : Except (Option Nat) (Except IoError Connection) :=
  match pause now dial.delay wake, dial.answer with
  | some t, _ => .error (some t)
  | none, .connected c => .ok (.ok c)
  | none, .failed e => .ok (.error e)
  | none, .never => .error none

def poll (d : Descriptor) (patience : Duration) (dial : Dial) (now : Nat) :
    Context × Connecting → Poll (Context × Connecting) (Except ConnectError Connection)
  | (ctx, .fresh) =>
    match ctx.check now, d.place with
    | (.error r, ctx), _ => .ready (.error (.cancelled r)) (ctx, .fresh)
    | (.ok (), ctx), .error e => .ready (.error (.address e)) (ctx, .fresh)
    | (.ok (), ctx), .ok place => .more (ctx, .dialing place none (now + patience.millisUp))
  | (ctx, .dialing place wake limit) =>
    match ctx.signal, progress dial now wake with
    | some r, _ => .ready (.error (.cancelled r)) (ctx, .dialing place wake limit)
    | none, .ok (.ok c) => .ready (.ok c) (ctx, .dialing place wake limit)
    | none, .ok (.error e) => .ready (.error (.io place.text e)) (ctx, .dialing place wake limit)
    | none, .error t =>
      if limit ≤ now then .ready (.error (.timeout place.text patience)) (ctx, .dialing place wake limit)
      else .waiting (ctx, .dialing place (t.or wake) limit) (earlier t (some limit))

/-- The place whose dialing a step has begun. -/
def begun : Connecting → Connecting → List Address
  | .fresh, .dialing place _ _ => [place]
  | _, _ => []

end Connecting
end PackRelay
