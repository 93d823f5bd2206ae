import PackRelay.Clock.Run
import PackRelay.Proofs.Clock.Poll
import Mathlib.Order.WellFounded

/-! Runs of a task. The moments of a run are where it stands after each number of steps. What
every turn keeps holds at all of them; a run that ends does so from one of them; and a run ends if
its turns lower a rank as long as time stands still, and time stays below some limit. -/
namespace PackRelay

/-- Where one turn of a run leads. -/
inductive Goes {σ α : Type} (beside : Background σ) (poll : Nat → σ → Poll σ α) :
    Nat → σ → Nat → σ → Prop
  | more {now s s'} : poll now s = .more s' → Goes beside poll now s now s'
  | acts {now s s₁ alarm s'} :
    poll now s = .waiting s₁ alarm → beside.act now s₁ = some s' → Goes beside poll now s now s'
  | sleeps {now s s' alarm t} :
    poll now s = .waiting s' alarm → beside.act now s' = none →
      earlier alarm (beside.alarm now s') = some t → Goes beside poll now s (max t (now + 1)) s'

variable {σ α ρ : Type} {beside : Background σ} {poll : Nat → σ → Poll σ α} {n now now' t : Nat}
    {s s' x : σ}

theorem Goes.le (h : Goes beside poll now s now' s') : now ≤ now' := by
  cases h with
  | more _ => exact le_rfl
  | acts _ _ => exact le_rfl
  | sleeps _ _ _ => omega

theorem Run.finished_of_value {r : Run σ α} (there : r.value?.isSome = true) :
    ∃ t a x, r = .finished t a x := by
  cases r with
  | finished t a x => exact ⟨t, a, x, rfl⟩
  | _ => cases there

@[simp] theorem Run.time_view {τ : Type} (f : σ → τ) (r : Run σ α) : (r.view f).time = r.time := by
  cases r <;> rfl

@[simp] theorem Run.state_view {τ : Type} (f : σ → τ) (r : Run σ α) :
    (r.view f).state = f r.state := by
  cases r <;> rfl

theorem Goes.run_succ (h : Goes beside poll now s now' s') (n : Nat) :
    run beside poll (n + 1) now s = run beside poll n now' s' := by
  cases h with
  | more h => simp only [run, h]
  | acts h act => simp only [run, h, act]
  | sleeps h idle due => simp only [run, h, idle, due]

theorem run_succ_cases (beside : Background σ) (poll : Nat → σ → Poll σ α) (n now : Nat) (s : σ) :
    (∃ now' s', Goes beside poll now s now' s') ∨
    (∃ a x, poll now s = .ready a x ∧ run beside poll (n + 1) now s = .finished now a x) ∨
    (∃ x, poll now s = .crashed x ∧ run beside poll (n + 1) now s = .crashed now x) ∨
    (∃ x alarm, poll now s = .waiting x alarm ∧ beside.act now x = none ∧
      earlier alarm (beside.alarm now x) = none ∧ run beside poll (n + 1) now s =
        .stuck now x) := by
  cases h : poll now s with
  | ready a x => exact .inr (.inl ⟨a, x, rfl, by simp only [run, h]⟩)
  | more x => exact .inl ⟨now, x, .more h⟩
  | crashed x => exact .inr (.inr (.inl ⟨x, rfl, by simp only [run, h]⟩))
  | waiting x alarm =>
    cases act : beside.act now x with
    | some s' => exact .inl ⟨now, s', .acts h act⟩
    | none =>
      cases due : earlier alarm (beside.alarm now x) with
      | some t => exact .inl ⟨_, x, .sleeps h act due⟩
      | none => exact .inr (.inr (.inr ⟨x, alarm, rfl, act, due, by simp only [run, h, act, due]⟩))

theorem run_keeps {I : Nat → σ → Prop}
    (turn : ∀ now s now' s', I now s → Goes beside poll now s now' s' → I now' s') (start : I now s)
    (reached : run beside poll n now s = .unfinished t x) : I t x := by
  induction n generalizing now s with
  | zero =>
    cases reached
    exact start
  | succ n ih =>
    rcases run_succ_cases beside poll n now s with ⟨now', s', goes⟩ | ⟨_, _, _, h⟩ | ⟨_, _, h⟩ |
      ⟨_, _, _, _, _, h⟩
    · exact ih (turn now s now' s' start goes) (goes.run_succ n ▸ reached)
    all_goals rw [h] at reached; cases reached

/-- What the last step of a run makes of it. -/
inductive Last {σ α : Type} (beside : Background σ) (poll : Nat → σ → Poll σ α) (t : Nat) (s : σ) :
    Run σ α → Prop
  | finished {a : α} {s' : σ} : poll t s = .ready a s' → Last beside poll t s (.finished t a s')
  | crashed {s' : σ} : poll t s = .crashed s' → Last beside poll t s (.crashed t s')
  | stuck {s' : σ} {alarm : Option Nat} :
    poll t s = .waiting s' alarm → beside.act t s' = none → earlier alarm (beside.alarm t s') =
      none →
      Last beside poll t s (.stuck t s')

theorem run_last {r : Run σ α} (concluded : run beside poll n now s = r)
    (done : ∀ t x, r ≠ .unfinished t x) :
    ∃ k t s₁, run beside poll k now s = .unfinished t s₁ ∧ Last beside poll t s₁ r := by
  induction n generalizing now s with
  | zero => exact absurd concluded.symm (done now s)
  | succ n ih =>
    rcases run_succ_cases beside poll n now s with
      ⟨now', s', goes⟩ | ⟨_, _, last, h⟩ | ⟨_, last, h⟩ | ⟨_, _, last, idle, due, h⟩
    · obtain ⟨k, t, s₁, reached, last⟩ := ih (goes.run_succ n ▸ concluded)
      exact ⟨k + 1, t, s₁, (goes.run_succ k).trans reached, last⟩
    all_goals
      rw [h] at concluded
      subst concluded
    · exact ⟨0, now, s, rfl, .finished last⟩
    · exact ⟨0, now, s, rfl, .crashed last⟩
    · exact ⟨0, now, s, rfl, .stuck last idle due⟩

theorem run_add {k : Nat} (reached : run beside poll k now s = .unfinished t x) (m : Nat) :
    run beside poll (k + m) now s = run beside poll m t x := by
  induction k generalizing now s with
  | zero =>
    cases reached
    rw [Nat.zero_add]
  | succ k ih =>
    rcases run_succ_cases beside poll k now s with ⟨now', s', goes⟩ | ⟨_, _, _, h⟩ | ⟨_, _, h⟩ |
      ⟨_, _, _, _, _, h⟩
    · rw [Nat.succ_add, goes.run_succ]
      exact ih (goes.run_succ k ▸ reached)
    all_goals rw [h] at reached; cases reached

theorem run_over {r : Run σ α} (concluded : run beside poll n now s = r)
    (done : ∀ t x, r ≠ .unfinished t x) (m : Nat) :
    run beside poll (n + m) now s = r := by
  induction n generalizing now s with
  | zero => exact absurd concluded.symm (done now s)
  | succ n ih =>
    rw [Nat.succ_add]
    rcases run_succ_cases beside poll n now s with ⟨now', s', goes⟩ | ⟨_, _, last, h⟩ |
      ⟨_, last, h⟩ | ⟨_, _, last, idle, due, h⟩
    · rw [goes.run_succ]
      exact ih (goes.run_succ n ▸ concluded)
    · rw [← concluded, h]
      simp only [run, last]
    · rw [← concluded, h]
      simp only [run, last]
    · rw [← concluded, h]
      simp only [run, last, idle, due]

/-- What a run looks like to whoever sees only a part of its state, when that part goes its own
way. -/
theorem run_view {τ : Type} (f : σ → τ) {beside' : Background τ} {poll' : Nat → τ → Poll τ α}
    (acts : ∀ now s, (beside.act now s).map f = beside'.act now (f s))
    (alarms : ∀ now s, beside.alarm now s = beside'.alarm now (f s))
    (polls : ∀ now s, (poll now s).map id f = poll' now (f s)) (n now : Nat) (s : σ) :
    (run beside poll n now s).view f = run beside' poll' n now (f s) := by
  induction n generalizing now s with
  | zero => rfl
  | succ n ih =>
    have same := polls now s
    cases step : poll now s with
    | ready a s' =>
      rw [step] at same
      simp only [run, step, ← same, Poll.map, Poll.into_ready]
      rfl
    | more s' =>
      rw [step] at same
      simp only [run, step, ← same, Poll.map, Poll.into_more]
      exact ih now s'
    | crashed s' =>
      rw [step] at same
      simp only [run, step, ← same, Poll.map, Poll.into_crashed]
      rfl
    | waiting s' alarm =>
      rw [step] at same
      have same_act := acts now s'
      simp only [run, step, ← same, Poll.map, Poll.into_waiting, ← same_act, ← alarms]
      cases beside.act now s' with
      | some s'' => exact ih now s''
      | none =>
        simp only [Option.map_none]
        cases earlier alarm (beside.alarm now s') with
        | some t => exact ih _ s'
        | none => rfl

section Kept

variable {I : σ → Prop} {R : σ → σ → Prop} (refl : ∀ s, R s s)
    (trans : ∀ {s s' s''}, R s s' → R s' s'' → R s s'')
    (polls : ∀ now s, I s → I (poll now s).state ∧ R s (poll now s).state)
    (acts : ∀ now s s', I s → beside.act now s = some s' → I s' ∧ R s s') (start : I s)

include refl trans polls acts start

theorem run_keeps_from (m now : Nat) :
    I (run beside poll m now s).state ∧ R s (run beside poll m now s).state := by
  induction m generalizing now s with
  | zero => exact ⟨start, refl s⟩
  | succ m ih =>
    have step := polls now s start
    simp only [run]
    cases polled : poll now s with
    | ready a s' => rwa [polled] at step
    | crashed s' => rwa [polled] at step
    | more s' =>
      rw [polled] at step
      have later := ih step.1 now
      exact ⟨later.1, trans step.2 later.2⟩
    | waiting s' alarm =>
      rw [polled] at step
      simp only
      cases act : beside.act now s' with
      | some s'' =>
        have acted := acts now s' s'' step.1 act
        have later := ih acted.1 now
        exact ⟨later.1, trans step.2 (trans acted.2 later.2)⟩
      | none =>
        simp only
        cases earlier alarm (beside.alarm now s') with
        | some t =>
          have later := ih step.1 (max t (now + 1))
          exact ⟨later.1, trans step.2 later.2⟩
        | none => exact step

/-- What every step of a task and all that goes on beside it keep, a run keeps however far it gets,
and from any of its moments on. -/
theorem run_onward {m : Nat} (le : n ≤ m) :
    I (run beside poll n now s).state ∧
      R (run beside poll n now s).state (run beside poll m now s).state := by
  have there := (run_keeps_from refl trans polls acts start n now).1
  obtain ⟨d, rfl⟩ := Nat.exists_eq_add_of_le le
  by_cases done : ∀ t x, run beside poll n now s ≠ .unfinished t x
  · rw [run_over rfl done d]
    exact ⟨there, refl _⟩
  · push Not at done
    obtain ⟨t, x, here⟩ := done
    rw [run_add here d]
    rw [here] at there ⊢
    exact ⟨there, (run_keeps_from refl trans polls acts there d t).2⟩

end Kept

/-- A run is over within the steps that it was granted when each of its turns uses up a part of
them. -/
theorem run_finishes {I : Nat → σ → Prop} {D : α → σ → Prop} (left : Nat → σ → Nat)
    (turn : ∀ now s, I now s → (∃ a x, poll now s = .ready a x ∧ D a x) ∨
      ∃ now' s', Goes beside poll now s now' s' ∧ I now' s' ∧ left now' s' < left now s)
    (start : I now s) (enough : left now s < n) :
    ∃ t a x, run beside poll n now s = .finished t a x ∧ D a x := by
  induction n generalizing now s with
  | zero => cases enough
  | succ n ih =>
    rcases turn now s start with ⟨a, x, last, done⟩ | ⟨now', s', goes, kept, fewer⟩
    · exact ⟨now, a, x, by simp only [run, last], done⟩
    · rw [goes.run_succ]
      exact ih kept (by omega)

/-- A run ends when what its turns keep makes each of them lower a rank as long as time stands
still, leaves nobody asleep for ever, and holds only up to some time. -/
theorem run_ends [Preorder ρ] [WellFoundedLT ρ] {I : Nat → σ → Prop} (rank : σ → ρ) (limit : Nat)
    (turn : ∀ now s now' s', I now s → Goes beside poll now s now' s' → I now' s')
    (bounded : ∀ now s, I now s → now ≤ limit)
    (lowers : ∀ now s, I now s → (poll now s).Lowers rank s)
    (acts : ∀ now s s₁ alarm s', I now s → poll now s = .waiting s₁ alarm → beside.act now s₁ =
      some s' →
      rank s' < rank s)
    (awake : ∀ now s s₁ alarm, I now s → poll now s = .waiting s₁ alarm → beside.act now s₁ = none →
      earlier alarm (beside.alarm now s₁) ≠ none)
    (start : I now s) :
    ∃ n t, (∃ a x, run beside poll n now s = .finished t a x) ∨
      (∃ x, run beside poll n now s = .crashed t x) := by
  -- Progress and action lower the rank; sleep keeps it and uses up time.
  suffices ends : ∀ (r : ρ) (d now : Nat) (s : σ), rank s ≤ r → limit - now ≤ d → I now s →
      ∃ n t, (∃ a x, run beside poll n now s = .finished t a x) ∨
        (∃ x, run beside poll n now s = .crashed t x) from
    ends (rank s) (limit - now) now s le_rfl le_rfl start
  intro r
  induction r using WellFoundedLT.induction with
  | ind r lower =>
    intro d
    induction d with
    | zero => ?_
    | succ d later => ?_
    all_goals
      intro now s below left here
      have lowered := lowers now s here
      rcases run_succ_cases beside poll 0 now s with
        ⟨now', s', goes⟩ | ⟨a, x, _, h⟩ | ⟨x, _, h⟩ | ⟨x, alarm, waits, idle, due, _⟩
      · have kept := turn now s now' s' here goes
        suffices next : ∃ n t, (∃ a x, run beside poll n now' s' = .finished t a x) ∨
            (∃ x, run beside poll n now' s' = .crashed t x) by
          obtain ⟨n, t, h⟩ := next
          refine ⟨n + 1, t, ?_⟩
          rwa [goes.run_succ]
        cases goes with
        | more h =>
          rw [h] at lowered
          exact lower (rank s') (lt_of_lt_of_le lowered below) _ now s' le_rfl le_rfl kept
        | acts h act =>
          have lowered := acts now s _ _ s' here h act
          exact lower (rank s') (lt_of_lt_of_le lowered below) _ now s' le_rfl le_rfl kept
        | sleeps h idle due =>
          rw [h] at lowered
          have := bounded _ _ kept
          first
            | omega
            | exact later _ s' (le_trans lowered below) (by omega) kept
      · exact ⟨1, now, .inl ⟨a, x, h⟩⟩
      · exact ⟨1, now, .inr ⟨x, h⟩⟩
      · exact absurd due (awake now s x alarm here waits idle)

end PackRelay
