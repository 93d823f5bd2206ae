import PackRelay.Proofs.Clock.Poll
import PackRelay.Stream.Sink
import Mathlib.Data.Prod.Lex
import Mathlib.Order.Lattice.Nat

/-! What one step can do to a sink. Writing all of some octets takes a piece of them, tries again
after an interruption, waits, or ends; flushes and shutdowns leave what was written alone. -/
namespace PackRelay

namespace Sink

variable {now : Nat} {bs rest : Bytes} {s s' : Sink}

@[simp] theorem written_accept (s : Sink) (bs : Bytes) :
    (s.accept bs).written = s.written ++ bs := by
  simp [written, accept]

@[simp] theorem written_turnDown (s : Sink) : s.turnDown.written = s.written := rfl

def Interrupts (t : WriteTurn) : Prop := ∃ e, t.answer = .fail e ∧ e.kind = .interrupted

/-- All that one step of writing everything can do. -/
inductive WriteStep (s : Sink) (bs : Bytes) : Poll (Bytes × Sink) (Except IoError Unit) → Prop
  | nothing : bs = [] → WriteStep s bs (.ready (.ok ()) ([], s))
  | takesAll : WriteStep s bs (.ready (.ok ()) ([], s.accept bs))
  | takes (k : Nat) : 0 < k → k < bs.length →
    WriteStep s bs (.more (bs.drop k, s.accept (bs.take k)))
  | retries :
    Interrupts (s.plan.write s.writeTurns s.accepted) → WriteStep s bs (.more (bs, s.turnDown))
  | fails (e : IoError) (s' : Sink) :
    s' = s.turnDown ∨ s' = s.accept [] → WriteStep s bs (.ready (.error e) (bs, s'))
  | waits (wake alarm : Option Nat) :
    WriteStep s bs (.waiting (bs, { s with writeWake := wake }) alarm)
  | crashes :
    (s.plan.write s.writeTurns s.accepted).answer = .crash → WriteStep s bs (.crashed (bs, s))

theorem writeStep_accept {piece : Bytes} (begins : piece <+: bs) :
    WriteStep s bs (match (Except.ok piece.length : Except IoError Nat) with
      | .ok 0 => .ready (.error .writeZero) (bs, s.accept piece)
      | .ok n =>
        match bs.drop n with
        | [] => .ready (.ok ()) ([], s.accept piece)
        | rest => .more (rest, s.accept piece)
      | .error e =>
        if e.kind = .interrupted then .more (bs, s.accept piece) else .ready (.error e)
          (bs, s.accept piece)) := by
  obtain ⟨rest, rfl⟩ := begins
  cases piece with
  | nil => exact .fails .writeZero (s.accept []) (.inr rfl)
  | cons b piece =>
    cases rest with
    | nil => simpa using WriteStep.takesAll
    | cons c rest =>
      have step := (WriteStep.takes (piece.length + 1) (by omega) (by simp) :
        WriteStep s (b :: piece ++ c :: rest) _)
      simpa using step

theorem pollWriteAll_step (now : Nat) (bs : Bytes) (s : Sink) :
    WriteStep s bs (s.pollWriteAll now bs) := by
  cases bs with
  | nil => exact .nothing rfl
  | cons b bs =>
    simp only [pollWriteAll, List.isEmpty_cons, Bool.false_eq_true, if_false, pollWrite]
    cases pause now (s.plan.write s.writeTurns s.accepted).delay s.writeWake with
    | some t => exact .waits (some t) (some t)
    | none =>
      cases answer : (s.plan.write s.writeTurns s.accepted).answer with
      | accept most =>
        cases most with
        | none => exact writeStep_accept (List.prefix_refl _)
        | some n => exact writeStep_accept (List.take_prefix n _)
      | refuse => exact .fails .writeZero s.turnDown (.inl rfl)
      | fail e =>
        simp only [Poll.into_ready]
        split
        · exact .retries ⟨e, answer, by assumption⟩
        · exact .fails e s.turnDown (.inl rfl)
      | hang => exact .waits s.writeWake none
      | crash => exact .crashes answer

/-- Differs at most in what its writing side did. -/
def OnlyWrites (s s' : Sink) : Prop :=
  s' = { s with
    chunks := s'.chunks, accepted := s'.accepted, writeTurns := s'.writeTurns, writeWake :=
      s'.writeWake }

theorem OnlyWrites.plan (only : s.OnlyWrites s') : s'.plan = s.plan := by rw [only]

theorem OnlyWrites.flushes (only : s.OnlyWrites s') : s'.flushes = s.flushes := by rw [only]

theorem OnlyWrites.shutdowns (only : s.OnlyWrites s') : s'.shutdowns = s.shutdowns := by rw [only]

/-- Differs at most in how flushes and shutdowns went. -/
def OnlyFinishes (s s' : Sink) : Prop :=
  s' = { s with
    flushes := s'.flushes, flushTurns := s'.flushTurns, flushWake := s'.flushWake
    shutdowns := s'.shutdowns, shutdownTurns := s'.shutdownTurns, shutdownWake := s'.shutdownWake }

theorem OnlyFinishes.plan (only : s.OnlyFinishes s') : s'.plan = s.plan := by rw [only]

theorem OnlyFinishes.written (only : s.OnlyFinishes s') : s'.written = s.written := by
  rw [only]
  rfl

variable {p : Poll (Bytes × Sink) (Except IoError Unit)}

theorem WriteStep.onlyWrites (h : WriteStep s bs p) : s.OnlyWrites p.state.2 := by
  cases h with
  | fails e s' h => rcases h with rfl | rfl <;> rfl
  | _ => rfl

/-- No octet is lost or written twice, however far writing gets. -/
theorem WriteStep.written (h : WriteStep s bs p) :
    p.state.2.written ++ p.state.1 = s.written ++ bs := by
  cases h with
  | nothing h => simp [Poll.state, h]
  | takesAll => simp [Poll.state]
  | takes k _ _ => simp [Poll.state]
  | fails e s' h => rcases h with rfl | rfl <;> simp [Poll.state]
  | _ => rfl

theorem WriteStep.rest_nil (h : WriteStep s bs (.ready (.ok ()) (rest, s'))) : rest = [] := by
  cases h <;> rfl

/-- How many writes in a row are still going to be interrupted. -/
noncomputable def stubborn (s : Sink) : Nat :=
  sInf { k | ¬ Interrupts (s.plan.write (s.writeTurns + k) s.accepted) }

end Sink

/-- Nobody who writes is interrupted for ever. -/
def SinkPlan.Settles (plan : SinkPlan) : Prop :=
  ∀ turns accepted, ∃ k, ¬ Sink.Interrupts (plan.write (turns + k) accepted)

theorem SinkPlan.settles_accepting : ({} : SinkPlan).Settles :=
  fun _ _ => ⟨0, fun ⟨_, is, _⟩ => nomatch is⟩

/-- No operation crashes. -/
structure SinkPlan.Calm (plan : SinkPlan) : Prop where
  write : ∀ turns accepted, (plan.write turns accepted).answer ≠ .crash
  flush : ∀ turns, (plan.flush turns).answer ≠ .crash
  shutdown : ∀ turns, (plan.shutdown turns).answer ≠ .crash

namespace Sink

variable {bs : Bytes} {s : Sink} {p : Poll (Bytes × Sink) (Except IoError Unit)}
    {q : Poll Sink (Except IoError Unit)}

theorem stubborn_turnDown (settles : s.plan.Settles)
    (h : Interrupts (s.plan.write s.writeTurns s.accepted)) :
    s.turnDown.stubborn < s.stubborn := by
  have found : ¬ Interrupts (s.plan.write (s.writeTurns + s.stubborn) s.accepted) :=
    Nat.sInf_mem (settles s.writeTurns s.accepted)
  have positive : 0 < s.stubborn := by
    apply Nat.pos_of_ne_zero
    intro zero
    rw [zero] at found
    exact found h
  have fits : s.turnDown.stubborn ≤ s.stubborn - 1 := by
    apply Nat.sInf_le
    have shift : s.writeTurns + 1 + (s.stubborn - 1) = s.writeTurns + s.stubborn := by omega
    simpa only [turnDown, Set.mem_ofPred_eq, shift] using found
  omega

noncomputable def writeRank (p : Bytes × Sink) : ℕ ×ₗ ℕ := toLex (p.1.length, p.2.stubborn)

theorem WriteStep.lowers (h : WriteStep s bs p) (settles : s.plan.Settles) :
    p.Lowers writeRank (bs, s) := by
  cases h with
  | takes k some_taken some_left =>
    refine Prod.Lex.toLex_lt_toLex.2 (.inl ?_)
    simp only [List.length_drop]
    omega
  | retries h => exact Prod.Lex.toLex_lt_toLex.2 (.inr ⟨rfl, stubborn_turnDown settles h⟩)
  | waits wake alarm => exact le_refl (writeRank (bs, s))
  | _ => trivial

inductive FlushStep (s : Sink) : Poll Sink (Except IoError Unit) → Prop
  | done : FlushStep s (.ready (.ok ()) (s.flushed true))
  | fails (e : IoError) : FlushStep s (.ready (.error e) (s.flushed false))
  | waits (wake alarm : Option Nat) : FlushStep s (.waiting { s with flushWake := wake } alarm)
  | crashes : (s.plan.flush s.flushTurns).answer = .crash → FlushStep s (.crashed s)

theorem FlushStep.only (h : FlushStep s q) : s.OnlyFinishes q.state := by cases h <;> rfl

theorem pollFlush_step (now : Nat) (s : Sink) : FlushStep s (s.pollFlush now) := by
  simp only [pollFlush]
  cases pause now (s.plan.flush s.flushTurns).delay s.flushWake with
  | some t => exact .waits (some t) (some t)
  | none =>
    cases answer : (s.plan.flush s.flushTurns).answer with
    | done => exact .done
    | fail e => exact .fails e
    | hang => exact .waits s.flushWake none
    | crash => exact .crashes answer

inductive ShutdownStep (s : Sink) : Poll Sink (Except IoError Unit) → Prop
  | done : ShutdownStep s (.ready (.ok ()) (s.shutDown true))
  | fails (e : IoError) : ShutdownStep s (.ready (.error e) (s.shutDown false))
  | waits (wake alarm : Option Nat) :
    ShutdownStep s (.waiting { s with shutdownWake := wake } alarm)
  | crashes : (s.plan.shutdown s.shutdownTurns).answer = .crash → ShutdownStep s (.crashed s)

theorem ShutdownStep.only (h : ShutdownStep s q) : s.OnlyFinishes q.state := by cases h <;> rfl

theorem pollShutdown_step (now : Nat) (s : Sink) : ShutdownStep s (s.pollShutdown now) := by
  simp only [pollShutdown]
  cases pause now (s.plan.shutdown s.shutdownTurns).delay s.shutdownWake with
  | some t => exact .waits (some t) (some t)
  | none =>
    cases answer : (s.plan.shutdown s.shutdownTurns).answer with
    | done => exact .done
    | fail e => exact .fails e
    | hang => exact .waits s.shutdownWake none
    | crash => exact .crashes answer

end Sink
end PackRelay
