import PackRelay.Context.Basic
import PackRelay.Proofs.Clock.Run

/-! What a context says, and how it comes to say it. The first reason stays; until there is one the
deadline is not behind, because the watcher is awake by then. -/
namespace PackRelay.Context

variable {c : Context} {r : CancelReason} {now : Nat} {outside : Option Interruption}

@[simp] theorem cancelled_cancel (c : Context) (r : CancelReason) :
    (c.cancel r).cancelled = true := rfl

@[simp] theorem reason_cancel (c : Context) (r : CancelReason) :
    (c.cancel r).reason = c.reason.or (some r) := rfl

/-- A context is cancelled when it has a reason. -/
def Coherent (c : Context) : Prop := c.cancelled = c.reason.isSome

theorem Coherent.cancel (c : Context) (r : CancelReason) : (c.cancel r).Coherent := by
  cases h : c.reason <;> simp [Coherent, h]

theorem Coherent.signal (h : c.Coherent) : c.signal = c.reason := by
  unfold Coherent at h
  cases reason : c.reason <;> simp [Context.signal, h, reason]

theorem off_of_silent (silent : c.signal = none) : c.cancelled = false := by
  cases off : c.cancelled with
  | false => rfl
  | true => simp [signal, off] at silent

theorem check_cases (now : Nat) (c : Context) :
    (c.signal = none ∧ c.check now = (.ok (), c)) ∨
    ∃ r c', c'.signal = some r ∧ c.check now = (.error r, c') ∧
      (c' = c ∨ c.signal = none ∧ c.deadline ≤ micros now ∧ c' = c.cancel .deadlineExceeded) := by
  cases off : c.cancelled with
  | true =>
    have stopped : c.signal = some (c.reason.getD .done) := by simp [signal, off]
    exact .inr ⟨_, c, stopped, by simp [check, off, stopped], .inl rfl⟩
  | false =>
    have silent : c.signal = none := by simp [signal, off]
    by_cases late : c.deadline ≤ micros now
    · exact .inr ⟨_, c.cancel .deadlineExceeded, rfl, by simp [check, signal, off, late],
        .inr ⟨silent, late, rfl⟩⟩
    · exact .inl ⟨silent, by simp [check, signal, off, late]⟩

theorem guard_of_signal {σ α : Type} (stopped : c.signal = some r) (s : σ) (p : Poll σ α) :
    c.guard s p = .ready (.error r) s := by simp only [guard, stopped]

theorem guard_of_silent {σ α : Type} (silent : c.signal = none) (s : σ) (p : Poll σ α) :
    c.guard s p = p.map .ok id := by simp only [guard, silent]

theorem guard_state {σ α : Type} {I : σ → Prop} (c : Context) {s : σ} {p : Poll σ α} (here : I s)
    (there : I p.state) : I (c.guard s p).state := by
  unfold guard
  split
  · exact here
  · cases p <;> exact there

theorem watch_cases {c' : Context} (h : c.watch outside now = some c') :
    c.cancelled = false ∧
    ((∃ i, outside = some i ∧ i.time ≤ now ∧ c' = c.cancel i.reason) ∨
      (c.tick ≤ now ∧ c' = c.cancel .deadlineExceeded)) := by
  unfold watch at h
  cases off : c.cancelled with
  | true => simp [off] at h
  | false =>
    refine ⟨rfl, ?_⟩
    simp only [off, Bool.false_eq_true, if_false] at h
    cases came : outside.filter (·.time ≤ now) with
    | some i =>
      obtain ⟨is, due⟩ := Option.filter_eq_some_iff.1 came
      simp only [came, Option.some.injEq] at h
      exact .inl ⟨i, is, by simpa using due, h.symm⟩
    | none =>
      simp only [came] at h
      split at h
      · exact .inr ⟨by assumption, (Option.some.inj h).symm⟩
      · cases h

theorem watch_reason {c' : Context} (seen : c.watch outside now = some c') : c'.reason ≠ none := by
  obtain ⟨_, ⟨i, _, _, rfl⟩ | ⟨_, rfl⟩⟩ := watch_cases seen <;> simp [cancel]

theorem alarm_of_idle (off : c.cancelled = false) (idle : c.watch outside now = none) :
    now < c.tick ∧ ∃ t ≤ c.tick, c.alarm outside now = some t := by
  have early : now < c.tick := by
    simp only [watch, off, Bool.false_eq_true, if_false] at idle
    split at idle
    · cases idle
    · split at idle
      · cases idle
      · omega
  refine ⟨early, ?_⟩
  simp only [alarm, off, Bool.false_eq_true, if_false, Option.filter_some, early, decide_true,
    if_true]
  cases (outside.map (·.time)).filter (now < ·) with
  | none => exact ⟨c.tick, le_rfl, rfl⟩
  | some t => exact ⟨min t c.tick, min_le_right t c.tick, rfl⟩

/-- How often a context may still have to be looked at. -/
def looks (outside : Option Interruption) (now : Nat) (c : Context) : Nat :=
  if c.cancelled then 0 else if (c.watch outside now).isSome then 1 else 2

theorem looks_watch {c' : Context} (seen : c.watch outside now = some c') :
    c'.looks outside now < c.looks outside now := by
  obtain ⟨off, ⟨_, _, _, rfl⟩ | ⟨_, rfl⟩⟩ := watch_cases seen <;> simp [looks, off, seen]

theorem looks_later (idle : c.watch outside now = none) (later : Nat) :
    c.looks outside later ≤ c.looks outside now := by
  simp only [looks, idle]
  split
  · exact le_rfl
  · split <;> simp

/-- A context is awake by the time that it waits for. -/
theorem looks_alarm {t : Nat} (idle : c.watch outside now = none)
    (due : c.alarm outside now = some t) :
    now < t ∧ c.looks outside t < c.looks outside now := by
  cases off : c.cancelled with
  | true => simp [alarm, off] at due
  | false =>
    simp only [alarm, off, Bool.false_eq_true, if_false] at due
    have past : now < t ∧ (c.watch outside t).isSome := by
      rcases earlier_cases due with due | due <;> obtain ⟨is, past⟩ := Option.filter_eq_some_iff.1 due
      · obtain ⟨i, rfl, rfl⟩ := Option.map_eq_some_iff.1 is
        exact ⟨of_decide_eq_true past, by simp [watch, off, Option.filter_some]⟩
      · cases is
        refine ⟨of_decide_eq_true past, ?_⟩
        simp only [watch, off, Bool.false_eq_true, if_false, le_refl, if_true]
        split <;> rfl
    simp [looks, off, idle, past]

/-- A later state of a context: what it said first stays. -/
structure Heeds (c c' : Context) : Prop where
  reason : ∀ r, c.reason = some r → c'.reason = some r
  coherent : c.Coherent → c'.Coherent

namespace Heeds

variable {c' c'' : Context}

theorem refl (c : Context) : c.Heeds c := ⟨fun _ is => is, id⟩

theorem trans (one : c.Heeds c') (two : c'.Heeds c'') : c.Heeds c'' :=
  ⟨fun r is => two.reason r (one.reason r is), fun was => two.coherent (one.coherent was)⟩

theorem cancel (c : Context) (r : CancelReason) : c.Heeds (c.cancel r) :=
  ⟨fun q is => by rw [reason_cancel, is, Option.some_or], fun _ => .cancel c r⟩

theorem check (now : Nat) (c : Context) : c.Heeds (c.check now).2 := by
  rcases check_cases now c with ⟨_, same⟩ | ⟨r, c', _, same, rfl | ⟨_, _, rfl⟩⟩
  · rw [same]
    exact refl c
  · rw [same]
    exact refl c'
  · rw [same]
    exact cancel c .deadlineExceeded

theorem watch (seen : c.watch outside now = some c') : c.Heeds c' := by
  obtain ⟨_, ⟨i, _, _, rfl⟩ | ⟨_, rfl⟩⟩ := watch_cases seen
  · exact cancel c i.reason
  · exact cancel c .deadlineExceeded

end Heeds

/-- What holds of a context at every moment, when it began as `c₀` and its request leaves at
`gone`. -/
structure Kept (c₀ : Context) (gone : Option Nat) (now : Nat) (c : Context) : Prop where
  timeout : c.timeout = c₀.timeout
  deadline : c.deadline = c₀.deadline
  coherent : c.Coherent
  early : c.cancelled = false → now ≤ c₀.tick
  late : c.reason = some .deadlineExceeded → c₀.deadline ≤ micros now
  left : c.reason = some .clientAborted → ∃ t, gone = some t ∧ t ≤ now ∧ t ≤ c₀.tick

namespace Kept

variable {c₀ c' : Context} {gone : Option Nat}

theorem tick (h : Kept c₀ gone now c) : c.tick = c₀.tick := by simp only [Context.tick, h.deadline]

theorem cancel (h : Kept c₀ gone now c)
    (late : r = .deadlineExceeded → c.reason = none → c₀.deadline ≤ micros now)
    (left : r = .clientAborted → c.reason = none → ∃ t, gone = some t ∧ t ≤ now ∧ t ≤ c₀.tick) :
    Kept c₀ gone now (c.cancel r) where
  timeout := h.timeout
  deadline := h.deadline
  coherent := .cancel c r
  early off := by cases off
  late := by
    cases reason : c.reason with
    | none => simpa [reason] using late
    | some _ => simpa [reason] using h.late
  left := by
    cases reason : c.reason with
    | none => simpa [reason] using left
    | some _ => simpa [reason] using h.left

theorem done (h : Kept c₀ gone now c) : Kept c₀ gone now (c.cancel .done) :=
  h.cancel (fun is => by cases is) (fun is => by cases is)

theorem check (h : Kept c₀ gone now c) : Kept c₀ gone now (c.check now).2 := by
  rcases check_cases now c with ⟨_, same⟩ | ⟨r, c', _, same, rfl | ⟨_, late, rfl⟩⟩
  · rwa [same]
  · rwa [same]
  · rw [same]
    exact h.cancel (fun _ _ => h.deadline ▸ late) (fun is => by cases is)

theorem watch (h : Kept c₀ gone now c) (seen : c.watch (gone.map .requestGone) now = some c') :
    Kept c₀ gone now c' := by
  obtain ⟨off, ⟨i, is, due, rfl⟩ | ⟨due, rfl⟩⟩ := watch_cases seen
  · obtain ⟨t, left, rfl⟩ := Option.map_eq_some_iff.1 is
    exact h.cancel (fun is => by cases is) (fun _ _ => ⟨t, left, due, le_trans due (h.early off)⟩)
  · refine h.cancel (fun _ _ => ?_) (fun is => by cases is)
    rw [h.tick] at due
    simp only [Context.tick] at due
    simp only [micros]
    omega

theorem sleep {later : Nat} (h : Kept c₀ gone now c) (le : now ≤ later)
    (early : c.cancelled = false → later ≤ c₀.tick) :
    Kept c₀ gone later c where
  timeout := h.timeout
  deadline := h.deadline
  coherent := h.coherent
  early := early
  late concluded := le_trans (h.late concluded) (Nat.mul_le_mul_right 1000 le)
  left concluded := by
    obtain ⟨t, is, past, before⟩ := h.left concluded
    exact ⟨t, is, le_trans past le, before⟩

end Kept

theorem kept_start (now timeout : Nat) (gone : Option Nat) :
    Kept (start now timeout) gone now (start now timeout) where
  timeout := rfl
  deadline := rfl
  coherent := rfl
  early _ := by
    simp only [tick, start, micros]
    omega
  late reason := by cases reason
  left reason := by cases reason

end PackRelay.Context
