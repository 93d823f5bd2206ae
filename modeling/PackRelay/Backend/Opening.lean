import PackRelay.Backend.Connect
import PackRelay.Wire.Frame

/-! Opening a connection to a backend. It is dialed, and then sent the hello that says which kind of
connection it is. -/
namespace PackRelay

structure Destination where
  descriptor : Descriptor
  patience : Duration
  dial : Dial
  hello : Bytes

inductive OpeningError
  | cancelled (reason : CancelReason)
  | connect (e : ConnectError)
  | wire (e : Wire.Error)
  deriving DecidableEq, Repr

inductive Opening
  | dialing (k : Connecting)
  | greeting (w : Wire.Writing) (c : Connection)

namespace Opening

def begun : Opening → Opening → List Address
  | .dialing k, .dialing k' => Connecting.begun k k'
  | _, _ => []

def connection? : Opening → Option Connection
  | .dialing _ => none
  | .greeting _ c => some c

def pollDialing (d : Destination) (now : Nat) (ctx : Context) (k : Connecting) :
    Poll (Context × Opening) (Except OpeningError Connection) :=
  (Connecting.poll d.descriptor d.patience d.dial now (ctx, k)).into
    (fun (ctx, k) => (ctx, .dialing k)) fun result (ctx, k) =>
      match result with
      | .error e => .ready (.error (.connect e)) (ctx, .dialing k)
      | .ok c =>
        match Wire.frame d.hello with
        | .error e => .ready (.error (.wire e)) (ctx, .greeting (.sending []) c)
        | .ok bs => .more (ctx, .greeting (.sending bs) c)

def pollGreeting (now : Nat) (ctx : Context) (w : Wire.Writing) (c : Connection) :
    Poll (Context × Opening) (Except OpeningError Connection) :=
  (ctx.guard (w, c.sink) (w.poll now c.sink)).into
    (fun (w, s) => (ctx, .greeting w (c.setSink s))) fun result (w, s) =>
      let o : Opening := .greeting w (c.setSink s)
      match result with
      | .error r => .ready (.error (.cancelled r)) (ctx, o)
      | .ok (.error e) => .ready (.error (.wire e)) (ctx, o)
      | .ok (.ok ()) => .ready (.ok (c.setSink s)) (ctx, o)

def poll (d : Destination) (now : Nat) (ctx : Context) (o : Opening) :
    Poll (Context × Opening) (Except OpeningError Connection) :=
  match o with
  | .dialing k => pollDialing d now ctx k
  | .greeting w c => pollGreeting now ctx w c

end Opening
end PackRelay
