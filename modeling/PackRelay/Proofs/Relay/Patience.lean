import PackRelay.Proofs.Clock.Alone
import PackRelay.Proofs.Relay.Directions

/-! Relays as tasks of their own. What a relay does next depends on its own source and its own sink
alone, and as long as it waits nothing changes there. -/
namespace PackRelay

open Poll

variable {now : Nat} {alarm : Option Nat}

theorem Source.patient (room : Nat) : Patient fun now (s : Source) => s.poll now room := by
  intro now s s' alarm step u le early
  obtain ⟨events, wake, chunks⟩ := s
  cases events with
  | nil => cases step
  | cons e rest =>
    cases e with
    | delay ms =>
      simp only [Source.poll] at step
      cases pending : pause now ms wake with
      | none => rw [pending] at step; cases step
      | some t =>
        rw [pending] at step
        cases step
        simp only [Source.poll, pause_early pending early]
    | hang | awaitShutdown | awaitWritten count =>
      cases step
      rfl
    | data bs => cases bs <;> cases step
    | error e | crash | echo skip stop => cases step

namespace Sink

theorem pollWriteAll_patient :
    Patient fun now (p : Bytes × Sink) => p.2.pollWriteAll now p.1 := by
  intro now p q alarm step u le early
  obtain ⟨bs, s⟩ := p
  cases bs with
  | nil => cases step
  | cons b bs =>
    simp only [pollWriteAll, List.isEmpty_cons, Bool.false_eq_true, if_false, pollWrite] at step ⊢
    cases pending : pause now (s.plan.write s.writeTurns s.accepted).delay s.writeWake with
    | some t =>
      rw [pending] at step
      cases step
      simp only [List.isEmpty_cons, Bool.false_eq_true, if_false, pause_early pending early,
        into_waiting]
    | none =>
      rw [pending] at step
      simp only at step
      cases answer : (s.plan.write s.writeTurns s.accepted).answer with
      | hang =>
        rw [answer] at step
        cases step
        simp only [List.isEmpty_cons, Bool.false_eq_true, if_false, pause_stays pending le, answer,
          into_waiting]
      | crash => rw [answer] at step; cases step
      | accept most =>
        simp only [answer, into_ready] at step
        repeat' split at step
        all_goals cases step
      | refuse | fail e =>
        simp only [answer, into_ready] at step
        repeat' split at step
        all_goals cases step

theorem pollFlush_patient : Patient pollFlush := by
  intro now s s' alarm step u le early
  simp only [pollFlush] at step ⊢
  cases pending : pause now (s.plan.flush s.flushTurns).delay s.flushWake with
  | some t =>
    rw [pending] at step
    cases step
    simp only [pause_early pending early]
  | none =>
    rw [pending] at step
    simp only at step
    cases answer : (s.plan.flush s.flushTurns).answer <;> rw [answer] at step <;> cases step
    simp only [pause_stays pending le, answer]

theorem pollShutdown_patient : Patient pollShutdown := by
  intro now s s' alarm step u le early
  simp only [pollShutdown] at step ⊢
  cases pending : pause now (s.plan.shutdown s.shutdownTurns).delay s.shutdownWake with
  | some t =>
    rw [pending] at step
    cases step
    simp only [pause_early pending early]
  | none =>
    rw [pending] at step
    simp only at step
    cases answer : (s.plan.shutdown s.shutdownTurns).answer <;> rw [answer] at step <;> cases step
    simp only [pause_stays pending le, answer]

end Sink

namespace Flow

theorem poll_patient (k : Kind) {finish : Nat → Sink → Poll Sink (Except IoError Unit)}
    (patient : Patient finish) :
    Patient fun now (m : Flow) => m.poll k now (m.source.poll now relayBuffer) (finish now m.sink) := by
  intro now m m' alarm step u le early
  obtain ⟨source, sink, stage, bytes⟩ := m
  cases stage with
  | reading =>
    simp only [poll] at step
    cases polled : source.poll now relayBuffer with
    | waiting source' a =>
      rw [polled] at step
      cases step
      simp only [poll, Source.patient relayBuffer polled u le early, into_waiting]
    | ready outcome source' =>
      rw [polled] at step
      simp only [into_ready] at step
      split at step <;> cases step
    | _ => rw [polled] at step; cases step
  | writing rest size =>
    simp only [poll] at step
    cases polled : sink.pollWriteAll now rest with
    | waiting q a =>
      rw [polled] at step
      cases step
      have again : q.2.pollWriteAll u q.1 = .waiting q _ :=
        Sink.pollWriteAll_patient (s := (rest, sink)) polled u le early
      simp only [poll, again, into_waiting]
    | ready outcome q =>
      rw [polled] at step
      simp only [into_ready] at step
      split at step <;> cases step
    | _ => rw [polled] at step; cases step
  | finishing =>
    simp only [poll] at step
    cases polled : finish now sink with
    | waiting sink' a =>
      rw [polled] at step
      cases step
      simp only [poll, patient polled u le early, into_waiting]
    | ready outcome sink' =>
      rw [polled] at step
      simp only [into_ready] at step
      split at step <;> cases step
    | _ => rw [polled] at step; cases step

end Flow

/-- It depends on what is written to the same stream. -/
def ReadEvent.prompted : ReadEvent → Bool
  | .awaitShutdown | .awaitWritten _ | .echo _ _ => true
  | _ => false

/-- Nothing that is read depends on what is written. -/
def Source.Unprompted (s : Source) : Prop := ∀ e ∈ s.events, e.prompted = false

theorem Source.Unprompted.skip {s : Source} (unprompted : s.Unprompted) : s.skip.Unprompted :=
  fun e there => unprompted e (List.mem_of_mem_drop there)

theorem Source.Unprompted.step {s : Source} {room : Nat} {p : Poll Source (Except IoError Bytes)}
    (unprompted : s.Unprompted) (step : s.ReadStep false room p) : p.state.Unprompted := by
  cases step with
  | ends _ | waits _ _ | crashes _ => exact unprompted
  | gives b bs rest events =>
    simp only [state, read]
    split
    · exact unprompted.skip
    · exact List.forall_mem_cons.2 ⟨rfl, unprompted.skip⟩
  | skips _ _ _ _ _ | fails _ _ _ => exact unprompted.skip
  | echoes _ _ _ looped _ _ => cases looped

theorem Connection.pollRead_eq {k : Connection} (unprompted : k.source.Unprompted) (now room : Nat) :
    k.pollRead now room = (k.source.poll now room).within k.setSource := by
  have first : ∀ e rest, k.source.events = e :: rest → e.prompted = false := fun e rest is =>
    unprompted e (is ▸ List.mem_cons_self)
  unfold pollRead
  split
  · cases first _ _ (by assumption)
  · cases first _ _ (by assumption)
  · cases first _ _ (by assumption)
  · rfl

theorem Flow.unprompted_poll (k : Kind) {f : Poll Sink (Except IoError Unit)} {m : Flow}
    (unprompted : m.source.Unprompted) (now : Nat) :
    (m.poll k now (m.source.poll now relayBuffer) f).state.source.Unprompted := by
  obtain ⟨source, sink, stage, bytes⟩ := m
  cases stage with
  | reading =>
    have kept := unprompted.step (source.poll_step false now relayBuffer)
    simp only [poll]
    cases polled : source.poll now relayBuffer with
    | ready outcome source' =>
      rw [polled] at kept
      simp only [into_ready]
      split <;> exact kept
    | _ =>
      rw [polled] at kept
      exact kept
  | writing rest size =>
    simp only [poll]
    cases sink.pollWriteAll now rest with
    | ready outcome q => cases outcome <;> exact unprompted
    | _ => exact unprompted
  | finishing =>
    cases f with
    | ready outcome q => cases outcome <;> exact unprompted
    | _ => exact unprompted

/-- When nothing that is read depends on what is written, the relay depends on its flow alone. -/
def Outbound.task (now : Nat) (p : Flow × Watched Bool) :
    Poll (Flow × Watched Bool) (Option RelayError) :=
  moves now (p.1.source.poll now relayBuffer) p

theorem Flow.commits_of_waiting {k : Kind} {r : Poll Source (Except IoError Bytes)}
    {f : Poll Sink (Except IoError Unit)} {m m' : Flow}
    (waits : m.poll k now r f = .waiting m' alarm) : m'.stage.commits = m.stage.commits := by
  obtain ⟨source, sink, stage, bytes⟩ := m
  cases stage <;> simp only [poll, Poll.into] at waits <;> split at waits
  all_goals first
    | cases waits <;> rfl
    | split at waits <;> cases waits

theorem Outbound.task_patient : Patient task := by
  intro now p q alarm step u le early
  simp only [task, moves] at step ⊢
  cases polled : p.1.poll outflow now (p.1.source.poll now relayBuffer) (p.1.sink.pollFlush now) with
  | waiting m a =>
    rw [polled] at step
    cases step
    have same := Flow.commits_of_waiting polled
    have again := Flow.poll_patient outflow Sink.pollFlush_patient polled u le early
    simp only at again
    simp only [again, within, into_waiting, same, Stage.commits_commits]
  | _ => rw [polled] at step; cases step

end PackRelay
