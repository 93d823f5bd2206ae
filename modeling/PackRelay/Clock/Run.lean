import PackRelay.Clock.Poll

/-! Running a task. Time stands still while the task or anything beside it can act, and then moves
straight to the next moment that somebody waits for. -/
namespace PackRelay

/-- What goes on beside a task whenever it waits. -/
structure Background (σ : Type) where
  /-- What happens at this time, if anything does. -/
  act : Nat → σ → Option σ
  /-- When the next thing will happen by itself. -/
  alarm : Nat → σ → Option Nat

def Background.idle {σ : Type} : Background σ := ⟨fun _ _ => none, fun _ _ => none⟩

inductive Run (σ α : Type)
  | finished (time : Nat) (value : α) (state : σ)
  | crashed (time : Nat) (state : σ)
  /-- Everybody waits and nobody for a time. -/
  | stuck (time : Nat) (state : σ)
  /-- The steps that were granted are used up. -/
  | unfinished (time : Nat) (state : σ)

namespace Run

variable {σ α : Type}

def time : Run σ α → Nat
  | .finished t _ _ | .crashed t _ | .stuck t _ | .unfinished t _ => t

def state : Run σ α → σ
  | .finished _ _ s | .crashed _ s | .stuck _ s | .unfinished _ s => s

def value? : Run σ α → Option α
  | .finished _ a _ => some a
  | _ => none

def view {τ : Type} (f : σ → τ) : Run σ α → Run τ α
  | .finished t a s => .finished t a (f s)
  | .crashed t s => .crashed t (f s)
  | .stuck t s => .stuck t (f s)
  | .unfinished t s => .unfinished t (f s)

end Run

/-- Runs a task from a time on, for at most as many steps as are granted. -/
def run {σ α : Type} (beside : Background σ) (poll : Nat → σ → Poll σ α) : Nat → Nat → σ → Run σ α
  | 0, now, s => .unfinished now s
  | steps + 1, now, s =>
    match poll now s with
    | .ready a s => .finished now a s
    | .more s => run beside poll steps now s
    | .crashed s => .crashed now s
    | .waiting s alarm =>
      match beside.act now s with
      | some s => run beside poll steps now s
      | none =>
        match earlier alarm (beside.alarm now s) with
        | some t => run beside poll steps (max t (now + 1)) s
        | none => .stuck now s

end PackRelay
