import PackRelay.Clock.Run
import PackRelay.Context.Reason

/-! The context of one exchange: when it has to be over, and why it was cancelled if it was. Times are
in microseconds here; the clock moves in milliseconds. -/
namespace PackRelay

/-- A cancellation from outside that comes at some time, and what it means. -/
structure Interruption where
  time : Nat
  reason : CancelReason
  deriving DecidableEq, Repr

def Interruption.requestGone (time : Nat) : Interruption := ⟨time, .clientAborted⟩

structure Context where
  timeout : Nat
  deadline : Nat
  reason : Option CancelReason := none
  cancelled : Bool := false
  deriving DecidableEq, Repr

namespace Context

/-- A moment of the clock in microseconds. -/
def micros (now : Nat) : Nat := now * 1000

def start (now timeout : Nat) : Context := ⟨timeout, micros now + timeout, none, false⟩

/-- Only the first reason is recorded. -/
def cancel (r : CancelReason) (c : Context) : Context :=
  { c with reason := c.reason.or (some r), cancelled := true }

def signal (c : Context) : Option CancelReason := if c.cancelled then some (c.reason.getD .done) else none

/-- A deadline that has passed counts even if nobody has noticed it yet. -/
def check (now : Nat) (c : Context) : Except CancelReason Unit × Context :=
  let c := if !c.cancelled && c.deadline ≤ micros now then c.cancel .deadlineExceeded else c
  match c.signal with
  | some r => (.error r, c)
  | none => (.ok (), c)

/-- The moment of the clock at which the deadline is noticed. -/
def tick (c : Context) : Nat := (c.deadline + 999) / 1000

/-- What the watcher does when it gets to run: it notices a cancellation from outside, or that the time
is over. A watcher that finds both at once might record either of them; this one always takes the
cancellation from outside. -/
def watch (outside : Option Interruption) (now : Nat) (c : Context) : Option Context :=
  if c.cancelled then none
  else match outside.filter (·.time ≤ now) with
    | some i => some (c.cancel i.reason)
    | none => if c.tick ≤ now then some (c.cancel .deadlineExceeded) else none

def alarm (outside : Option Interruption) (now : Nat) (c : Context) : Option Nat :=
  if c.cancelled then none
  else earlier ((outside.map (·.time)).filter (now < ·)) ((some c.tick).filter (now < ·))

def beside {σ : Type} (get : σ → Context) (set : Context → σ → σ) (outside : Option Interruption) :
    Background σ where
  act now s := ((get s).watch outside now).map (set · s)
  alarm now s := (get s).alarm outside now

/-- A step of something that stops, before it does anything, once the context is cancelled. -/
@[inline] def guard {σ α : Type} (c : Context) (s : σ) (p : Poll σ α) : Poll σ (Except CancelReason α) :=
  match c.signal with
  | some r => .ready (.error r) s
  | none => p.map .ok id

end Context

structure DeadlineController where
  /-- Microseconds. -/
  timeout : Nat
  deriving DecidableEq, Repr

namespace DeadlineController

def maxTimeout : Nat := Nat.pow 2 64 - 1

def ofMicros (n : Nat) : DeadlineController := ⟨min n maxTimeout⟩

/-- Contexts that began before keep their time. -/
def setTimeout (n : Nat) (_ : DeadlineController) : DeadlineController := ofMicros n

def begin (now : Nat) (d : DeadlineController) : Context := .start now d.timeout

end DeadlineController
end PackRelay
