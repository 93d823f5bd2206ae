import PackRelay.Context.Basic

/-! Several contexts of one controller side by side, and a caller who begins, cancels and awaits
them. Whenever the caller waits, every context's watcher runs. A wait may also be begun and left
pending while other things are done, and be polled again from time to time. -/
namespace PackRelay.Context

inductive Action
  | timeout
  | setTimeout (micros : Nat)
  | begin (name parent : String)
  | cancel (name : String) (r : CancelReason)
  | cancelParent (parent : String)
  | settle
  | advance (ms : Nat)
  | check (name : String)
  | state (name : String)
  | cancelled (name : String)
  | wait (name : String) (ms : Nat)
  /-- Polls a pending wait for a context to be cancelled. -/
  | pollCancelled (name : String)
  /-- Polls a pending wait under a context, until some time. -/
  | pollWait (name : String) (stop : Nat)
  /-- A guard that cancels the context when it is dropped. -/
  | guard (name guard : String)
  | dropGuard (guard : String)
  deriving DecidableEq, Repr

inductive Answer
  /-- There is nothing to say, or not yet. -/
  | nothing
  | micros (n : Nat)
  | begun (timeout deadline : Nat)
  | checked (r : Except CancelReason Unit)
  | status (cancelled : Bool) (reason : Option CancelReason)
  | reason (r : CancelReason)
  | waited (r : Except CancelReason Unit)
  | existed (b : Bool)
  deriving Repr

/-- A context and the token of the request that it belongs to. -/
structure Bound where
  ctx : Context
  parent : String
  deriving DecidableEq, Repr

structure World where
  now : Nat := 0
  controller : DeadlineController
  contexts : List (String × Bound) := []
  /-- The parents that were cancelled. -/
  gone : List String := []
  guards : List (String × String) := []

namespace World

def find? (w : World) (name : String) : Option Context := (w.contexts.lookup name).map Bound.ctx

def update (name : String) (f : Context → Context) (w : World) : World :=
  { w with contexts := w.contexts.map fun (n, b) => if n = name then (n, { b with ctx := f b.ctx }) else (n, b) }

def outside (w : World) (b : Bound) : Option Interruption :=
  if w.gone.contains b.parent then some (.requestGone 0) else none

def watched (w : World) (now : Nat) (b : Bound) : Bound :=
  { b with ctx := (b.ctx.watch (w.outside b) now).getD b.ctx }

def settleAt (now : Nat) (w : World) : World :=
  { w with contexts := w.contexts.map fun (n, b) => (n, w.watched now b) }

def isDue (now : Nat) (w : World) : Bool := w.contexts.any fun (_, b) => (b.ctx.watch (w.outside b) now).isSome

def beside : Background World where
  act now w := if w.isDue now then some (w.settleAt now) else none
  alarm now w := w.contexts.foldl (fun a (_, b) => earlier a (b.ctx.alarm (w.outside b) now)) none

def waitOn {α : Type} (w : World) (poll : Nat → World → Poll World α) : Option (α × World) :=
  match run beside poll (4 * w.contexts.length + 16) w.now w with
  | .finished time a w => some (a, { w with now := time })
  | _ => none

def sleep (w : World) (ms : Nat) : Option (Unit × World) :=
  let stop := w.now + ms
  w.waitOn fun now w => if stop ≤ now then .ready () w else .waiting w (some stop)

/-- Waits under a context, which is looked at before the clock. -/
def pollWait (name : String) (stop now : Nat) (w : World) : Poll World (Except CancelReason Unit) :=
  match (w.find? name).bind Context.signal with
  | some r => .ready (.error r) w
  | none => if stop ≤ now then .ready (.ok ()) w else .waiting w (some stop)

def pollCancelled (name : String) (w : World) : Poll World CancelReason :=
  match (w.find? name).bind Context.signal with
  | some r => .ready r w
  | none => .waiting w none

/-- What a poll of a pending wait says. -/
def pending {α : Type} (answer : α → Answer) : Poll World α → Answer
  | .ready a _ => answer a
  | _ => .nothing

def dropGuard (guard : String) (w : World) : World :=
  match w.guards.lookup guard with
  | some name => { w.update name (.cancel .done) with guards := w.guards.filter (·.1 ≠ guard) }
  | none => w

def perform (w : World) : Action → Option (Answer × World)
  | .timeout => some (.micros w.controller.timeout, w)
  | .setTimeout n => some (.nothing, { w with controller := w.controller.setTimeout n })
  | .begin name parent =>
    let ctx := w.controller.begin w.now
    some (.begun ctx.timeout (ctx.deadline - micros w.now),
      { w with contexts := (name, ⟨ctx, parent⟩) :: w.contexts.filter (·.1 ≠ name) })
  | .cancel name r => some (.nothing, w.update name (Context.cancel r))
  | .cancelParent parent => some (.nothing, { w with gone := parent :: w.gone })
  | .settle => some (.nothing, w.settleAt w.now)
  | .advance ms => (w.sleep ms).map fun (_, w) => (.nothing, w.settleAt w.now)
  | .check name =>
    (w.find? name).map fun c => (.checked (c.check w.now).1, w.update name fun c => (c.check w.now).2)
  | .state name => (w.find? name).map fun c => (.status c.cancelled c.reason, w)
  | .cancelled name => (w.waitOn fun _ w => w.pollCancelled name).map fun (r, w) => (.reason r, w)
  | .wait name ms =>
    (w.waitOn fun now' w' => w'.pollWait name (w.now + ms) now').map fun (r, w) => (.waited r, w)
  | .pollCancelled name => (w.find? name).map fun _ => (pending .reason (w.pollCancelled name), w)
  | .pollWait name stop =>
    (w.find? name).map fun _ => (pending .waited (w.pollWait name stop w.now), w)
  | .guard name guard => some (.nothing, { w.dropGuard guard with guards := (guard, name) :: (w.dropGuard guard).guards })
  | .dropGuard guard => some (.existed (w.guards.lookup guard).isSome, w.dropGuard guard)

end World
end PackRelay.Context
