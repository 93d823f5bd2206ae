/-! One step of a task. A task makes progress, ends, crashes, or waits: for a time that it names, or
for something else to change. -/
namespace PackRelay

inductive Poll (σ α : Type)
  | ready (value : α) (state : σ)
  /-- Progress was made and the task runs on. -/
  | more (state : σ)
  | waiting (state : σ) (alarm : Option Nat)
  | crashed (state : σ)

def earlier : Option Nat → Option Nat → Option Nat
  | none, b => b
  | a, none => a
  | some a, some b => some (min a b)

namespace Poll

variable {σ τ α β : Type}

/-- A step of a part as a step of the whole: `put` places the part's state, `next` goes on from the
part's value. -/
@[inline] def into (p : Poll σ α) (put : σ → τ) (next : α → σ → Poll τ β) : Poll τ β :=
  match p with
  | .ready a s => next a s
  | .more s => .more (put s)
  | .waiting s alarm => .waiting (put s) alarm
  | .crashed s => .crashed (put s)

def map (f : α → β) (put : σ → τ) (p : Poll σ α) : Poll τ β := p.into put fun a s => .ready (f a) (put s)

def within (put : σ → τ) (p : Poll σ α) : Poll τ α := p.into put fun a s => .ready a (put s)

def state : Poll σ α → σ
  | .ready _ s | .more s | .waiting s _ | .crashed s => s

/-- Two tasks on one state side by side. The second gets its turn whenever the first has nothing to do;
both are over when each is. -/
def both (first second : σ → Poll σ Unit) (s : σ) : Poll σ Unit :=
  match first s with
  | .ready _ s => second s
  | .more s => .more s
  | .crashed s => .crashed s
  | .waiting s alarm =>
    match second s with
    | .ready _ s => .waiting s alarm
    | .more s => .more s
    | .crashed s => .crashed s
    | .waiting s other => .waiting s (earlier alarm other)

def all : List (σ → Poll σ Unit) → σ → Poll σ Unit
  | [], s => .ready () s
  | first :: others, s => both first (all others) s

end Poll

/-- Whether a wait that begins at the first poll is over: at `wake` if it has begun, else after
`delay`. If it is not, the time at which it will be. -/
def pause (now delay : Nat) : Option Nat → Option Nat
  | none => if delay = 0 then none else some (now + delay)
  | some wake => if wake ≤ now then none else some wake

end PackRelay
