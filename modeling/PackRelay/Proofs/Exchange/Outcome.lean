import PackRelay.Proofs.Exchange.Ending

/-! What an exchange comes to. The reason of its cancellation decides, and within it the one
failure that there can be; nothing that merely followed from a cancellation is ever reported. -/
namespace PackRelay.Scene

open Exchange
open WiredBackend renaming backend → wired

theorem blame_eq_match (r : Results) (summary : Summary) :
    r.blame.map (fun () => summary) = match r.failures with
      | [] => .ok summary
      | e :: _ => .error e.blamed := by
  unfold Results.blame
  cases r.failures <;> rfl

/-- An exchange comes to what its cancellation from outside says; else to what its only failure
makes of it; else it is a success. No cancellation is ever reported as a failure of the
transport. -/
theorem outcome_of_reason (s : Scene) {n t : Nat} {report : Report} {x : Exchange WiredBackend}
    (ended : s.after n = .finished t report x) :
    (x.results.joined.filter (fun e => !e.isCancellation)).length ≤ 1 ∧ x.results.failures.length ≤
    1 ∧
      (∃ reason, x.ctx.reason = some reason ∧ report.outcome = match reason with
        | .deadlineExceeded => .error (.deadlineExceeded (.ofMicros s.controller.timeout))
        | .clientAborted => .error (.clientAborted none)
        | .done => match x.results.failures with
          | [] => .ok ⟨s.id, x.results.bytesIn, x.results.bytesOut⟩
          | e :: _ => .error e.blamed) ∧
      ∀ e, report.outcome = .error (.transport e) → e.told = none := by
  obtain ⟨x₁, y, _, sound, ending, rfl, rfl⟩ := ending_of_finished ended
  have id := ending.id sound
  have timeout : y.ctx.timeout = s.controller.timeout := (ending.kept sound).timeout
  have outcome : ∃ reason, y.ctx.reason.or (some .done) = some reason ∧
      (y.report wired).outcome = match reason with
        | .deadlineExceeded => .error (.deadlineExceeded (.ofMicros s.controller.timeout))
        | .clientAborted => .error (.clientAborted none)
        | .done => match y.results.failures with
          | [] => .ok ⟨s.id, y.results.bytesIn, y.results.bytesOut⟩
          | e :: _ => .error e.blamed := by
    have summary : wired.callId y.backend = s.id := id
    simp only [Exchange.report, Observed.resolve, summary, timeout]
    cases reason : y.ctx.reason with
    | none =>
      refine ⟨.done, rfl, ?_⟩
      simp only [ending.blame_eq sound (.inl reason)]
      exact blame_eq_match y.results _
    | some r =>
      refine ⟨r, rfl, ?_⟩
      cases r with
      | deadlineExceeded => rfl
      | clientAborted =>
        simp only [ending.client_none sound reason]
        rfl
      | done =>
        simp only [ending.blame_eq sound (.inr reason)]
        exact blame_eq_match y.results _
  have joined := ending.joined_le sound
  have failures := ending.failures_le sound
  refine ⟨joined, failures, outcome, fun e is => ?_⟩
  obtain ⟨reason, _, same⟩ := outcome
  rw [same] at is
  cases reason with
  | deadlineExceeded => cases is
  | clientAborted => cases is
  | done =>
    simp only at is
    split at is
    · cases is
    · rename_i f rest failed
      have untold : f.told = none := by
        have listed : f ∈ y.results.failures := by simp [failed]
        simpa using (List.mem_filter.1 listed).2
      rw [TransportError.blamed_transport (Except.error.inj is)]
      exact untold

/-- A client that fails on the way gets that very failure back, and nothing of the cancellations that
followed from it. -/
theorem outcome_of_broken : ∃ n t report x, broken.after n = .finished t report x ∧
    x.results.failures.length ≤ 1 ∧
    report.outcome = .error (.clientAborted (some (.clientRead ⟨.connectionReset, "reset"⟩))) ∧
    ∀ e, report.outcome = .error (.transport e) → e.told = none := by
  have ran : (broken.after 16).value?.isSome = true ∧
      (broken.after 16).state.ctx.reason = some .done ∧
      (broken.after 16).state.results.failures =
        [.relay (.clientRead ⟨.connectionReset, "reset"⟩)] := by decide +kernel
  obtain ⟨returned, done, failed⟩ := ran
  obtain ⟨t, report, x, ended⟩ := Run.finished_of_value returned
  rw [ended] at done failed
  obtain ⟨_, once, ⟨reason, recorded, outcome⟩, untold⟩ := outcome_of_reason broken ended
  obtain rfl : reason = .done := Option.some.inj (recorded.symm.trans done)
  have failed : x.results.failures = [.relay (.clientRead ⟨.connectionReset, "reset"⟩)] := failed
  rw [failed] at outcome
  exact ⟨16, t, report, x, ended, once, outcome, untold⟩

end PackRelay.Scene
