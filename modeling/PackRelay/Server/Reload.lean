import PackRelay.Server.Basic

/-! A server at work. What is published waits until the server gets to it; requests, and the exchanges
that serve them, go on in between. -/
namespace PackRelay

structure Operation where
  server : Server
  /-- Published and not applied so far, the oldest first. -/
  updates : List Config := []
  /-- In the order in which their requests came. -/
  exchanges : List (Http.Serving WiredBackend) := []

inductive Occurrence
  | notice (n : FileNotice)
  /-- The server gets to the oldest update, if there is one. -/
  | update
  | request (now : Nat) (r : Http.Request) (id : SidechannelId) (callDial channelDial : Dial)
  | deed (exchange : Nat) (d : Http.Deed)

namespace Operation

def start (c : Config) : Operation := { server := .ofConfig c }

/-- A request that is not accepted is answered at once and leaves nothing behind. -/
def occur (o : Operation) : Occurrence → Operation
  | .notice n => { o with updates := o.updates ++ n.published?.toList }
  | .update =>
    match o.updates with
    | [] => o
    | c :: rest => { o with server := o.server.apply c, updates := rest }
  | .request now r id callDial channelDial =>
    match o.server.accept now r id callDial channelDial with
    | .error _ => o
    | .ok v => { o with exchanges := o.exchanges ++ [v] }
  | .deed exchange d =>
    { o with exchanges := o.exchanges.modify exchange fun v => v.act WiredBackend.backend d }

def follow (o : Operation) (os : List Occurrence) : Operation := os.foldl occur o

end Operation
end PackRelay
