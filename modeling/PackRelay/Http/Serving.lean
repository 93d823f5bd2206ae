import PackRelay.Backend.Locator
import PackRelay.Backend.Wired
import PackRelay.Exchange.Basic
import PackRelay.Http.Headers
import PackRelay.Http.Reply

/-! A request that is being served by an exchange, whose response goes through a pipe. The answer is settled as
soon as a write of the response is begun, and at the latest when the exchange is over. Until then the request
keeps the exchange alive, and from then on the response's body does: whoever lets go of the one or the other
cancels the exchange. -/
namespace PackRelay

namespace Pipe

/-- How many octets it holds at most. -/
def capacity : Nat := 64 * 1024

def broken : IoError := ⟨.brokenPipe, "broken pipe"⟩

/-- What writes meet when so many octets were taken out at the other end, if anybody is still there. -/
def plan (taken : Nat) (watched : Bool) : SinkPlan where
  write _ accepted :=
    if !watched then { answer := .fail broken }
    else if accepted < taken + capacity then { answer := .accept (some (taken + capacity - accepted)) }
    else { answer := .hang }

end Pipe

/-- An exchange whose response meets what a plan says, from now on. -/
def Exchange.facing {κ : Type} (x : Exchange κ) (plan : SinkPlan) : Exchange κ :=
  let w := x.outbound.response
  { x with outbound := { x.outbound with response := w.setSink { w.sink with plan } } }

namespace Http

structure Request where
  method : String
  target : String
  headers : Headers
  body : Source

/-- How an exchange was over. -/
inductive Exit
  | returned (r : Report)
  | crashed

inductive Answer
  /-- Success, with a body of all that the response accepts. -/
  | streaming
  | whole (r : Reply)
  deriving DecidableEq, Repr

/-- Where the client of a request stands, and what it has got. -/
inductive Client
  | waiting
  | answered (r : Reply)
  | reading (got : Bytes)
  /-- Has read a body to its end. -/
  | finished (got : Bytes)
  /-- Went away, before there was an answer or with a part of a body. -/
  | left (got : Option Bytes)
  deriving DecidableEq, Repr

namespace Client

/-- Whether it keeps the exchange alive. -/
def keeps : Client → Bool
  | .waiting | .reading _ => true
  | .answered _ | .finished _ | .left _ => false

/-- The answer as far as it has come. -/
def reply? : Client → Option Reply
  | .waiting => none
  | .answered r => some r
  | .reading got | .finished got => some (.relayed got)
  | .left got => got.map .relayed

/-- How much of what was relayed it has got. -/
def taken : Client → Nat
  | .reading got | .finished got | .left (some got) => got.length
  | .waiting | .answered _ | .left none => 0

def leave : Client → Client
  | .reading got => .left (some got)
  | _ => .left none

end Client

structure Serving (κ : Type) where
  exchange : Exchange κ
  time : Nat
  client : Client := .waiting
  /-- When nobody kept the exchange alive any more. -/
  gone : Option Nat := none
  exit : Option Exit := none

/-- What happens next: whose turn it is, or that time passes. -/
inductive Deed
  | work (turns : Turns)
  /-- The request is answered, if the answer is settled. -/
  | notice
  /-- The exchange's context is looked after. -/
  | watch
  /-- The client reads so much, if there is so much. -/
  | take (room : Nat)
  | leave
  | pass (ms : Nat)

namespace Serving

variable {κ : Type}

def start (controller : DeadlineController) (patience : Duration) (now : Nat) (target : Target) (r : Request)
    (id : SidechannelId) (callDial channelDial : Dial) : Serving WiredBackend where
  exchange := .fresh (controller.begin now)
    (.ofRequest target.backend patience target.repository r.headers.gitProtocol target.gitConfigOptions id callDial
      channelDial)
    r.body { plan := Pipe.plan 0 true }
  time := now

def context (v : Serving κ) : Context := v.exchange.ctx

/-- What the response accepted. -/
def relayed (v : Serving κ) : Bytes := v.exchange.outbound.response.sink.written

def headersSent (v : Serving κ) : Bool := v.exchange.outbound.response.headersSent

def pipe (v : Serving κ) : SinkPlan := Pipe.plan v.client.taken v.client.keeps

/-- The answer, as soon as it is settled. A write that was begun comes before anything else. -/
def settled? (v : Serving κ) : Option Answer :=
  if v.headersSent then some .streaming
  else v.exit.map fun
    | .returned r =>
      match r.outcome with
      | .ok _ => .streaming
      | .error e => .whole (.failure e)
    | .crashed => .whole .internalError

/-- From now on nobody keeps the exchange alive. -/
def letGo (c : Client) (v : Serving κ) : Serving κ := { v with client := c, gone := some v.time }

/-- After a step of the exchange. -/
def after (b : Backend κ) (v : Serving κ) : Poll (Exchange κ) Report → Serving κ
  | .ready r x => { v with exchange := x, exit := some (.returned r) }
  | .more x | .waiting x _ => { v with exchange := x }
  | .crashed x => { v with exchange := x.release b, exit := some .crashed }

def work (b : Backend κ) (turns : Turns) (v : Serving κ) : Serving κ :=
  if v.exit.isSome then v else v.after b ((v.exchange.facing v.pipe).poll b turns v.time)

def notice (v : Serving κ) : Serving κ :=
  match v.client, v.settled? with
  | .waiting, some .streaming => { v with client := .reading [] }
  | .waiting, some (.whole r) => v.letGo (.answered r)
  | _, _ => v

def watch (v : Serving κ) : Serving κ :=
  if v.exit.isSome then v
  else match v.context.watch (v.gone.map .requestGone) v.time with
    | some ctx => { v with exchange := { v.exchange with ctx } }
    | none => v

/-- The pipe is at its end once it is empty and nobody is left who writes. -/
def take (room : Nat) (v : Serving κ) : Serving κ :=
  match v.client with
  | .reading got =>
    match v.relayed.drop got.length with
    | [] => if v.exit.isSome then v.letGo (.finished got) else v
    | rest => { v with client := .reading (got ++ rest.take room) }
  | _ => v

def leave (v : Serving κ) : Serving κ := if v.client.keeps then v.letGo v.client.leave else v

/-- A deadline does not pass before it was noticed. -/
def pass (ms : Nat) (v : Serving κ) : Serving κ :=
  if v.exit.isSome || v.context.cancelled || v.time + ms ≤ v.context.tick then { v with time := v.time + ms } else v

def act (b : Backend κ) (v : Serving κ) : Deed → Serving κ
  | .work turns => v.work b turns
  | .notice => v.notice
  | .watch => v.watch
  | .take room => v.take room
  | .leave => v.leave
  | .pass ms => v.pass ms

def follow (b : Backend κ) (v : Serving κ) (deeds : List Deed) : Serving κ := deeds.foldl (act b) v

end Serving
end Http
end PackRelay
