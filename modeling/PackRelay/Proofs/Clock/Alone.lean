import PackRelay.Proofs.Clock.Poll
import Mathlib.Order.Lattice.Nat

/-! A task that nobody disturbs. At every moment it goes on until it rests, and where it stands at the
beginning of a moment says where it stands at the beginning of the next one. Who polls it more often,
or between its alarms, changes nothing. -/
namespace PackRelay.Poll

variable {σ α : Type} {poll : Nat → σ → Poll σ α} {now t start : Nat} {s s' r r' s₀ : σ}
    {alarm : Option Nat}

/-- Where a task comes to rest if time stands still. -/
inductive Settles (poll : Nat → σ → Poll σ α) (now : Nat) : σ → σ → Prop
  | waits {s s' : σ} (alarm : Option Nat) : poll now s = .waiting s' alarm → Settles poll now s s'
  | halted {s s' : σ} (a : α) : poll now s = .ready a s' → Settles poll now s s'
  | more {s s₁ s' : σ} : poll now s = .more s₁ → Settles poll now s₁ s' → Settles poll now s s'

theorem Settles.of_more (settles : Settles poll now s r) (step : poll now s = .more s') :
    Settles poll now s' r := by
  cases settles with
  | waits _ waits => rw [step] at waits; cases waits
  | halted _ halted => rw [step] at halted; cases halted
  | more more rest =>
    rw [step] at more
    cases more
    exact rest

theorem Settles.of_waiting (settles : Settles poll now s r) (step : poll now s = .waiting s' alarm) :
    r = s' := by
  cases settles with
  | waits _ waits => rw [step] at waits; cases waits; rfl
  | halted _ halted => rw [step] at halted; cases halted
  | more more _ => rw [step] at more; cases more

theorem Settles.of_ready {a : α} (settles : Settles poll now s r) (step : poll now s = .ready a s') :
    r = s' := by
  cases settles with
  | waits _ waits => rw [step] at waits; cases waits
  | halted _ halted => rw [step] at halted; cases halted; rfl
  | more more _ => rw [step] at more; cases more

theorem Settles.unique (one : Settles poll now s r) (two : Settles poll now s r') : r = r' := by
  induction one with
  | waits _ step => exact (two.of_waiting step).symm
  | halted _ step => exact (two.of_ready step).symm
  | more step _ ih => exact ih (two.of_more step)

/-- Where a task that is left to itself stands at the beginning of each moment. -/
inductive Alone (poll : Nat → σ → Poll σ α) (start : Nat) (s₀ : σ) : Nat → σ → Prop
  | start : Alone poll start s₀ start s₀
  | tick {now : Nat} {s s' : σ} :
    Alone poll start s₀ now s → Settles poll now s s' → Alone poll start s₀ (now + 1) s'

theorem Alone.le (alone : Alone poll start s₀ t s) : start ≤ t := by
  induction alone with
  | start => exact le_rfl
  | tick _ _ ih => exact Nat.le_succ_of_le ih

theorem Alone.unique (one : Alone poll start s₀ t s) (two : Alone poll start s₀ t s') : s = s' := by
  induction one generalizing s' with
  | start =>
    cases two with
    | start => rfl
    | tick before _ => exact absurd before.le (Nat.not_succ_le_self _)
  | tick before settles ih =>
    cases two with
    | start => exact absurd before.le (Nat.not_succ_le_self _)
    | tick before' settles' =>
      cases ih before'
      exact settles.unique settles'

/-- On the way from where the task stood at the beginning of the moment to where it comes to rest. -/
def Follows (poll : Nat → σ → Poll σ α) (start : Nat) (s₀ : σ) (now : Nat) (s : σ) : Prop :=
  ∃ p, Alone poll start s₀ now p ∧ ∀ r, Settles poll now s r → Settles poll now p r

theorem Alone.follows (alone : Alone poll start s₀ now s) : Follows poll start s₀ now s :=
  ⟨s, alone, fun _ settles => settles⟩

theorem Follows.more (follows : Follows poll start s₀ now s) (step : poll now s = .more s') :
    Follows poll start s₀ now s' := by
  obtain ⟨p, alone, leads⟩ := follows
  exact ⟨p, alone, fun r settles => leads r (.more step settles)⟩

/-- Time passes over a task that rests. -/
theorem Follows.passes (follows : Follows poll start s₀ now s)
    (rests : ∀ u, now ≤ u → u < t → Settles poll u s s) {u : Nat} (after : now < u) (le : u ≤ t) :
    Alone poll start s₀ u s := by
  obtain ⟨p, alone, leads⟩ := follows
  induction after with
  | refl => exact .tick alone (leads s (rests now le_rfl le))
  | step past ih =>
    exact .tick (ih (Nat.le_of_succ_le le)) (rests _ (Nat.le_of_succ_le past) le)

/-- No time for which a task would wait has come. -/
def Early (alarm : Option Nat) (now u : Nat) : Prop := u = now ∨ ∀ t, alarm = some t → u < t

theorem pause_early {delay delay' u : Nat} {wake : Option Nat} (waits : pause now delay wake = some t)
    (early : Early (some t) now u) : pause u delay' (some t) = some t := by
  have before : u < t := by
    rcases early with rfl | early
    · exact pause_past waits
    · exact early t rfl
  simp only [pause, if_neg (Nat.not_le.2 before)]

/-- A task that waits waits on, whoever polls it, until the time comes that it named. -/
def Patient (poll : Nat → σ → Poll σ α) : Prop :=
  ∀ {now s s' alarm}, poll now s = .waiting s' alarm →
    ∀ u, now ≤ u → Early alarm now u → poll u s' = .waiting s' alarm

theorem Follows.waits (follows : Follows poll start s₀ now s) (patient : Patient poll)
    (step : poll now s = .waiting s' alarm) : Follows poll start s₀ now s' := by
  obtain ⟨p, alone, leads⟩ := follows
  refine ⟨p, alone, fun r settles => leads r ?_⟩
  rw [settles.of_waiting (patient step now le_rfl (.inl rfl))]
  exact .waits alarm step

/-- Rests until some time, or for good. -/
def Rests (poll : Nat → σ → Poll σ α) (now : Nat) (alarm : Option Nat) (s : σ) : Prop :=
  ∀ u, now ≤ u → Early alarm now u → Settles poll u s s

theorem Patient.rests (patient : Patient poll) (step : poll now s = .waiting s' alarm) :
    Rests poll now alarm s' :=
  fun u le early => .waits alarm (patient step u le early)

theorem Rests.mono {other : Option Nat} (rests : Rests poll now alarm s)
    (sooner : ∀ t, alarm = some t → ∃ u ≤ t, other = some u) : Rests poll now other s := by
  refine fun u le early => rests u le ?_
  rcases early with same | early
  · exact .inl same
  · refine .inr fun t is => ?_
    obtain ⟨w, before, is⟩ := sooner t is
    exact lt_of_lt_of_le (early w is) before

theorem Rests.earlier_left {other : Option Nat} (rests : Rests poll now alarm s) :
    Rests poll now (earlier alarm other) s := by
  refine rests.mono fun t is => ?_
  subst is
  cases other with
  | none => exact ⟨t, le_rfl, rfl⟩
  | some u => exact ⟨min t u, min_le_left t u, rfl⟩

theorem Rests.earlier_right {other : Option Nat} (rests : Rests poll now alarm s) :
    Rests poll now (earlier other alarm) s := by
  refine rests.mono fun t is => ?_
  subst is
  cases other with
  | none => exact ⟨t, le_rfl, rfl⟩
  | some u => exact ⟨min u t, min_le_right u t, rfl⟩

/-- A step of a task that is polled again after it is over. -/
def once (poll : Nat → σ → Poll σ α) (now : Nat) : σ × Bool → Poll (σ × Bool) Unit
  | (s, true) => .ready () (s, true)
  | (s, false) => (poll now s).into (·, false) fun _ s => .more (s, true)

theorem once_waiting {p q : σ × Bool} (step : once poll now p = .waiting q alarm) :
    p.2 = false ∧ q.2 = false ∧ poll now p.1 = .waiting q.1 alarm := by
  obtain ⟨s, halted⟩ := p
  cases halted with
  | true => cases step
  | false =>
    simp only [once] at step
    cases polled : poll now s with
    | waiting s' a =>
      rw [polled] at step
      cases step
      exact ⟨rfl, rfl, rfl⟩
    | _ => rw [polled] at step; cases step

theorem once_ready {p q : σ × Bool} (step : once poll now p = .ready () q) : p.2 = true := by
  obtain ⟨s, halted⟩ := p
  cases halted with
  | true => rfl
  | false =>
    simp only [once] at step
    cases polled : poll now s <;> rw [polled] at step <;> cases step

theorem Patient.once (patient : Patient poll) : Patient (once poll) := by
  intro now p q alarm step u le early
  obtain ⟨_, going, polled⟩ := once_waiting step
  obtain ⟨s, halted⟩ := q
  cases going
  simp only [Poll.once, patient polled u le early, into_waiting]

theorem rests_over {p : σ × Bool} (halted : p.2 = true) : Rests (once poll) now none p := by
  obtain ⟨s, _⟩ := p
  cases halted
  exact fun _ _ _ => .halted () rfl

end PackRelay.Poll
