import PackRelay.Proofs.Context.Caller

/-! Why a context was cancelled. From its beginning on, through whatever its callers do and however
time passes, it is cancelled exactly when a reason is recorded; the first reason stays, everybody is
told that one, and nothing but its cause records it. -/
namespace PackRelay.Context

variable {c c' : Context} {now : Nat} {r : CancelReason}

theorem signal_cancel (c : Context) (r : CancelReason) :
    (c.cancel r).signal = some (c.reason.getD r) := by
  cases reason : c.reason <;> simp [signal, reason]

theorem Coherent.check (coherent : c.Coherent) (now : Nat) :
    ((c.check now).1 = .ok () ↔ c.reason = none ∧ micros now < c.deadline) ∧
    (∀ r, (c.check now).1 = .error r ↔ (c.check now).2.reason = some r) ∧
    (c.reason = none → c.deadline ≤ micros now →
      (c.check now).1 = .error .deadlineExceeded) := by
  have told := coherent.signal
  rcases c.check_cases now with ⟨silent, same⟩ | ⟨q, c', stopped, same, rfl | ⟨silent, late, rfl⟩⟩
  · have off := off_of_silent silent
    rw [silent] at told
    have early : micros now < c.deadline := by
      by_contra late
      simp [Context.check, off, Nat.not_lt.1 late, signal_cancel] at same
    simp [same, ← told, early]
  · rw [stopped] at told
    simp [same, ← told]
  · rw [silent] at told
    rw [signal_cancel, ← told, Option.getD_none, Option.some.injEq] at stopped
    subst stopped
    simp [same, ← told, late, eq_comm]

namespace World

variable {w w' v v' : World} {a : Action} {b b' : Bound} {name parent : String} {σ α : Type}
    {actions : List Action} {log : List (Action × Answer)}

def reason? (w : World) (name : String) : Option CancelReason := (w.find? name).bind Context.reason

/-- A later state of the same context. -/
structure Same (b b' : Bound) : Prop where
  heeds : b.ctx.Heeds b'.ctx
  parent : b'.parent = b.parent
  timeout : b'.ctx.timeout = b.ctx.timeout
  deadline : b'.ctx.deadline = b.ctx.deadline

theorem Same.refl (b : Bound) : Same b b := ⟨.refl _, rfl, rfl, rfl⟩

theorem Same.trans {b'' : Bound} (one : Same b b') (two : Same b' b'') : Same b b'' :=
  ⟨one.heeds.trans two.heeds, two.parent.trans one.parent, two.timeout.trans one.timeout,
    two.deadline.trans one.deadline⟩

theorem same_watched (w : World) (u : Nat) (b : Bound) : Same b (w.watched u b) := by
  simp only [watched]
  cases seen : b.ctx.watch (w.outside b) u with
  | none => exact .refl b
  | some c =>
    have heeds : b.ctx.Heeds c := .watch seen
    obtain ⟨_, ⟨i, _, _, rfl⟩ | ⟨_, rfl⟩⟩ := watch_cases seen <;> exact ⟨heeds, rfl, rfl, rfl⟩

theorem Touches.same (touches : Touches w a w' name b b') : Same b b' := by
  cases touches with
  | leaves => exact .refl b
  | cancels r _ => exact ⟨.cancel b.ctx r, rfl, rfl, rfl⟩
  | drops _ => exact ⟨.cancel b.ctx .done, rfl, rfl, rfl⟩
  | checks _ =>
    have heeds : b.ctx.Heeds (b.ctx.check w.now).2 := .check w.now b.ctx
    rcases b.ctx.check_cases w.now with ⟨_, same⟩ | ⟨r, c', _, same, rfl | ⟨_, _, rfl⟩⟩ <;>
      (rw [same] at heeds ⊢; exact ⟨heeds, rfl, rfl, rfl⟩)
  | watches u _ => exact same_watched w u b

theorem follow_same (ran : w.follow actions = some (log, w'))
    (other : ∀ p, .begin name p ∉ actions) (there : w.contexts.lookup name = some b) :
    ∃ b', w'.contexts.lookup name = some b' ∧ Same b b' := by
  induction actions generalizing w b log with
  | nil =>
    cases ran
    exact ⟨b, there, .refl b⟩
  | cons a rest ih =>
    obtain ⟨r, v, log', performed, followed, rfl⟩ := follow_cons ran
    obtain ⟨b₁, there₁, touches⟩ := perform_touches performed
      (fun p is => other p (is ▸ List.mem_cons_self)) there
    obtain ⟨b', there', same⟩ :=
      ih followed (fun p listed => other p (List.mem_cons_of_mem a listed)) there₁
    exact ⟨b', there', touches.same.trans same⟩

theorem follow_append {before rest : List Action} {log' : List (Action × Answer)}
    (ran : w.follow (before ++ rest) = some (log, w')) (first : w.follow before = some (log', v)) :
    ∃ log'', v.follow rest = some (log'', w') := by
  induction before generalizing w log log' with
  | nil =>
    cases first
    exact ⟨log, ran⟩
  | cons a before ih =>
    obtain ⟨r, x, logx, performed, followed, rfl⟩ := follow_cons ran
    obtain ⟨r', x', logx', performed', followed', rfl⟩ := follow_cons first
    rw [performed] at performed'
    cases performed'
    exact ih followed followed'

theorem follow_onward (ran : w.follow actions = some (log, w')) :
    w.now ≤ w'.now ∧ ∀ p, p ∈ w'.gone ↔ p ∈ w.gone ∨ .cancelParent p ∈ actions := by
  induction actions generalizing w log with
  | nil =>
    cases ran
    exact ⟨le_rfl, by simp⟩
  | cons a rest ih =>
    obtain ⟨r, v, log', performed, followed, rfl⟩ := follow_cons ran
    obtain ⟨le, gone⟩ := perform_onward performed
    obtain ⟨later, all_gone⟩ := ih followed
    refine ⟨le_trans le later, fun p => ?_⟩
    rw [all_gone p]
    rcases gone with same | ⟨q, rfl, same⟩
    · have not_this : ∀ q, a = .cancelParent q → p = q → p ∈ v.gone := by
        rintro q rfl rfl
        cases performed
        exact List.mem_cons_self
      rw [same] at not_this ⊢
      simp only [List.mem_cons]
      constructor
      · rintro (there | there)
        · exact .inl there
        · exact .inr (.inr there)
      · rintro (there | is | there)
        · exact .inl there
        · exact .inl (not_this p is.symm rfl)
        · exact .inr there
    · simp only [same, List.mem_cons, Action.cancelParent.injEq]
      tauto

/-- What may record a reason for a context that is cancelled for the first time. -/
inductive Cause (w : World) (a : Action) (w' : World) (name : String) (b : Bound) :
    CancelReason → Prop
  | explicit (r : CancelReason) : a = .cancel name r → Cause w a w' name b r
  | late : b.ctx.deadline ≤ micros w'.now → Cause w a w' name b .deadlineExceeded
  | gone : b.parent ∈ w.gone → Cause w a w' name b .clientAborted
  | dropped : w.drops name a → Cause w a w' name b .done

theorem Touches.cause (touches : Touches w a w' name b b') (le : w.now ≤ w'.now)
    (before : b.ctx.reason = none) (after : b'.ctx.reason = some r) : Cause w a w' name b r := by
  cases touches with
  | leaves =>
    rw [before] at after
    cases after
  | cancels q is =>
    simp only [reason_cancel, before, Option.none_or, Option.some.injEq] at after
    exact after ▸ .explicit q is
  | drops dropped =>
    simp only [reason_cancel, before, Option.none_or, Option.some.injEq] at after
    exact after ▸ .dropped dropped
  | checks _ =>
    rcases b.ctx.check_cases w.now with ⟨_, same⟩ | ⟨q, c', _, same, rfl | ⟨_, late, rfl⟩⟩
    · rw [same, before] at after
      cases after
    · rw [same, before] at after
      cases after
    · rw [same] at after
      simp only [reason_cancel, before, Option.none_or, Option.some.injEq] at after
      exact after ▸ .late (le_trans late (Nat.mul_le_mul_right 1000 le))
  | watches u past =>
    simp only [watched] at after
    cases seen : b.ctx.watch (w.outside b) u with
    | none =>
      rw [seen, Option.getD_none, before] at after
      cases after
    | some c =>
      rw [seen, Option.getD_some] at after
      obtain ⟨_, ⟨i, is, _, rfl⟩ | ⟨due, rfl⟩⟩ := watch_cases seen
      · simp only [reason_cancel, before, Option.none_or, Option.some.injEq] at after
        unfold outside at is
        split at is
        · rename_i gone
          cases is
          exact after ▸ .gone (by simpa using gone)
        · cases is
      · simp only [reason_cancel, before, Option.none_or, Option.some.injEq] at after
        refine after ▸ .late ?_
        simp only [tick, micros] at due ⊢
        omega

/-- A reason that is there in the end and was not at first was recorded by one of the actions. -/
theorem recorded_by (ran : w.follow actions = some (log, w'))
    (other : ∀ p, .begin name p ∉ actions) (there : w.contexts.lookup name = some b)
    (before : b.ctx.reason = none) (after : w'.reason? name = some r) :
    ∃ done a rest log₁ v b₁ q v', actions = done ++ a :: rest ∧
      w.follow done = some (log₁, v) ∧ v.perform a = some (q, v') ∧
      v.contexts.lookup name = some b₁ ∧ Same b b₁ ∧ v'.now ≤ w'.now ∧
      Cause v a v' name b₁ r := by
  induction actions generalizing w b log with
  | nil =>
    cases ran
    simp [reason?, find?, there, before] at after
  | cons a rest ih =>
    obtain ⟨q, v, log', performed, followed, rfl⟩ := follow_cons ran
    have other_rest : ∀ p, .begin name p ∉ rest := fun p listed =>
      other p (List.mem_cons_of_mem a listed)
    obtain ⟨b₁, there₁, touches⟩ := perform_touches performed
      (fun p is => other p (is ▸ List.mem_cons_self)) there
    cases reason : b₁.ctx.reason with
    | some r₁ =>
      obtain ⟨b', there', same⟩ := follow_same followed other_rest there₁
      have stays : b'.ctx.reason = some r₁ := same.heeds.reason r₁ reason
      simp only [reason?, find?, there', Option.map_some, Option.bind_some, stays,
        Option.some.injEq] at after
      subst after
      exact ⟨[], a, rest, [], w, b, q, v, rfl, rfl, performed, there, .refl b,
        (follow_onward followed).1, touches.cause (perform_onward performed).1 before reason⟩
    | none =>
      obtain ⟨done, a', rest', log₁, x, b₂, q', x', rfl, first, then_this, there₂, same, le, cause⟩ :=
        ih followed other_rest there₁ reason
      refine ⟨a :: done, a', rest', (a, q) :: log₁, x, b₂, q', x', rfl, ?_, then_this, there₂,
        touches.same.trans same, le, cause⟩
      simp only [follow, performed, Option.bind_some, first, Option.map_some]

/-- A future that is run under a context: the context is looked at before it. -/
def pollUnder (name : String) (future : Nat → σ → Poll σ α) (now : Nat) (p : World × σ) :
    Poll (World × σ) (Except CancelReason α) :=
  let step := (future now p.2).within (p.1, ·)
  match p.1.find? name with
  | some c => c.guard p step
  | none => step.map .ok id

/-- The watchers, next to a future. -/
def besideFuture : Background (World × σ) where
  act now p := (beside.act now p.1).map (·, p.2)
  alarm now p := beside.alarm now p.1

/-- An operation that can be cancelled says whether a reason is recorded in the end, and which. -/
def Reports {β : Type} (w : World) (name : String) (v : Except CancelReason β) : Prop :=
  ((∃ a, v = .ok a) ↔ w.reason? name = none) ∧ ∀ r, v = .error r ↔ w.reason? name = some r

/-- Whoever asks is told the same reason, at once, and nothing is done for it. -/
structure Tells (w : World) (name : String) (r : CancelReason) : Prop where
  check : ∃ w', w.perform (.check name) = some (.checked (.error r), w')
  state : w.perform (.state name) = some (.status true (some r), w)
  cancelled : w.perform (.cancelled name) = some (.reason r, w)
  wait : ∀ ms, w.perform (.wait name ms) = some (.waited (.error r), w)
  /-- And whoever was waiting since before. -/
  pollCancelled : w.perform (.pollCancelled name) = some (.reason r, w)
  pollWait : ∀ stop, w.perform (.pollWait name stop) = some (.waited (.error r), w)
  /-- The future is as it was, and no time has passed. -/
  future : ∀ {σ α : Type} (poll : Nat → σ → Poll σ α) (f : σ) (n : Nat),
    run besideFuture (pollUnder name poll) (n + 1) w.now (w, f) = .finished w.now (.error r) (w, f)

theorem reports_iff {β : Type} {v : Except CancelReason β} :
    w.Reports name v ↔ ∀ r, v = .error r ↔ w.reason? name = some r := by
  refine ⟨And.right, fun each => ⟨?_, each⟩⟩
  cases v with
  | ok a =>
    refine ⟨fun _ => ?_, fun _ => ⟨a, rfl⟩⟩
    cases recorded : w.reason? name with
    | none => rfl
    | some r => cases (each r).2 recorded
  | error r => simp [(each r).1 rfl]

theorem find?_of_lookup (there : w.contexts.lookup name = some b) : w.find? name = some b.ctx := by
  rw [find?, there, Option.map_some]

theorem reason?_of_lookup (there : w.contexts.lookup name = some b) :
    w.reason? name = b.ctx.reason := by
  rw [reason?, find?_of_lookup there, Option.bind_some]

theorem signal_of_lookup (there : w.contexts.lookup name = some b) (coherent : b.ctx.Coherent) :
    (w.find? name).bind signal = w.reason? name := by
  rw [find?_of_lookup there, Option.bind_some, coherent.signal, reason?_of_lookup there]

/-- A check succeeds in time, and records by itself that the time is over. -/
theorem check_reports (there : w.contexts.lookup name = some b) (coherent : b.ctx.Coherent) :
    ∃ v w', w.perform (.check name) = some (.checked v, w') ∧ w'.Reports name v ∧
      (v = .ok () ↔ b.ctx.reason = none ∧ micros w.now < b.ctx.deadline) ∧
      (b.ctx.reason = none → b.ctx.deadline ≤ micros w.now → v = .error .deadlineExceeded) := by
  obtain ⟨in_time, each, late⟩ := coherent.check w.now
  refine ⟨(b.ctx.check w.now).1, w.update name fun c => (c.check w.now).2, ?_, ?_, in_time, late⟩
  · rw [perform, find?_of_lookup there, Option.map_some]
  · have after : (w.update name fun c => (c.check w.now).2).contexts.lookup name =
        some { b with ctx := (b.ctx.check w.now).2 } := by
      rw [lookup_update, there, Option.map_some, if_pos rfl]
    rw [reports_iff, reason?_of_lookup after]
    exact each

/-- A context that is there and says what it is. -/
def Sound (w : World) (name : String) : Prop :=
  ∃ b, w.contexts.lookup name = some b ∧ b.ctx.Coherent

theorem Sound.signal (sound : w.Sound name) : (w.find? name).bind Context.signal = w.reason? name := by
  obtain ⟨b, there, coherent⟩ := sound
  exact signal_of_lookup there coherent

theorem Sound.isSome (sound : w.Sound name) : (w.find? name).isSome := by
  obtain ⟨b, there, _⟩ := sound
  rw [find?_of_lookup there, Option.isSome_some]

theorem Sound.settleAt (sound : w.Sound name) (u : Nat) : (w.settleAt u).Sound name := by
  obtain ⟨b, there, coherent⟩ := sound
  refine ⟨w.watched u b, by rw [lookup_settleAt, there, Option.map_some], ?_⟩
  exact (same_watched w u b).heeds.coherent coherent

theorem Sound.moment (sound : w.Sound name) (k : Nat) : (w.moment k).2.Sound name := by
  cases k with
  | zero => exact sound
  | succ k => exact sound.settleAt _

theorem wait_reports (sound : w.Sound name) (ms : Nat) :
    ∃ v w', w.perform (.wait name ms) = some (.waited v, w') ∧ w'.Reports name v ∧
      w'.now ≤ w.now + ms ∧ (v = .ok () → w'.now = w.now + ms) := by
  obtain ⟨v, w', performed⟩ := pollWait_isSome w name ms
  refine ⟨v, w', performed, ?_⟩
  simp only [perform, Option.map_eq_some_iff, Prod.mk.injEq, Answer.waited.injEq] at performed
  obtain ⟨⟨_, _⟩, waited, rfl, rfl⟩ := performed
  obtain ⟨k, halted, rfl⟩ := waitOn_over (waits_pollWait name (w.now + ms)) waited
  have in_time : (w.moment k).1 ≤ w.now + ms := by
    rw [moment_time]
    cases k with
    | zero => omega
    | succ k =>
      obtain ⟨alarm, waiting⟩ := halted.before k (Nat.lt_succ_self k)
      simp only [pollWait, moment_time] at waiting
      split at waiting
      · cases waiting
      · split at waiting
        · cases waiting
        · omega
  have ready := halted.ready
  rw [pollWait, (sound.moment k).signal] at ready
  have same : ({ (w.moment k).2 with now := (w.moment k).1 } : World).reason? name =
    (w.moment k).2.reason? name := rfl
  rw [reports_iff, same]
  cases recorded : (w.moment k).2.reason? name with
  | some r =>
    simp only [recorded] at ready
    cases ready
    simp [eq_comm, in_time]
  | none =>
    simp only [recorded] at ready
    split at ready
    · cases ready
      simp only [reduceCtorEq, implies_true, true_and]
      exact ⟨in_time, fun _ => by omega⟩
    · cases ready

theorem cancelled_reports (sound : w.Sound name) :
    ∃ r w', w.perform (.cancelled name) = some (.reason r, w') ∧ w'.reason? name = some r := by
  obtain ⟨r, w', performed⟩ := pollCancelled_isSome sound.isSome
  refine ⟨r, w', performed, ?_⟩
  simp only [perform, Option.map_eq_some_iff, Prod.mk.injEq, Answer.reason.injEq] at performed
  obtain ⟨⟨_, _⟩, waited, rfl, rfl⟩ := performed
  obtain ⟨k, halted, rfl⟩ := waitOn_over (waits_pollCancelled name) waited
  have ready := halted.ready
  rw [pollCancelled, (sound.moment k).signal] at ready
  split at ready
  · rename_i recorded
    cases ready
    exact recorded
  · cases ready

/-- Where the future gets to, nothing happens to the contexts. -/
theorem pollUnder_world (name : String) (poll : Nat → σ → Poll σ α) (now : Nat) (p : World × σ) :
    (pollUnder name poll now p).state.1 = p.1 := by
  have step : ((poll now p.2).within (p.1, ·)).state.1 = p.1 := by cases poll now p.2 <;> rfl
  unfold pollUnder
  split
  · exact guard_state (I := fun q : World × σ => q.1 = p.1) _ rfl step
  · cases poll now p.2 <;> rfl

/-- Whatever is run under a context says in the end what the context says. -/
theorem future_reports (sound : w.Sound name) {poll : Nat → σ → Poll σ α} {f g : σ} {n t : Nat}
    {v : Except CancelReason α} {x : World}
    (ran : run besideFuture (pollUnder name poll) n w.now (w, f) = .finished t v (x, g)) :
    x.Reports name v := by
  obtain ⟨k, u, ⟨y, h⟩, reached, last⟩ := run_last ran fun _ _ is => nomatch is
  have kept : (y, h).1.Sound name := by
    refine run_keeps (I := fun _ p => p.1.Sound name) (fun now p now' p' here goes => ?_) sound reached
    have same := pollUnder_world name poll now p
    cases goes with
    | more step | sleeps step _ _ =>
      rw [step] at same
      exact same ▸ here
    | acts step act =>
      rw [step] at same
      obtain ⟨z, acted, rfl⟩ := Option.map_eq_some_iff.1 act
      simp only [beside, Option.ite_none_right_eq_some, Option.some.injEq] at acted
      obtain ⟨_, rfl⟩ := acted
      rw [← same] at here
      exact here.settleAt now
  cases last with
  | finished ready =>
    obtain ⟨b, there, coherent⟩ := kept
    have here : y.find? name = some b.ctx := find?_of_lookup there
    have told := coherent.signal
    rw [reports_iff]
    simp only [pollUnder, here] at ready
    cases recorded : b.ctx.reason with
    | some r =>
      rw [recorded] at told
      rw [guard_of_signal told] at ready
      cases ready
      rw [reason?_of_lookup there, recorded]
      simp
    | none =>
      rw [recorded] at told
      rw [guard_of_silent told] at ready
      cases step : poll t h with
      | ready a h' =>
        rw [step] at ready
        cases ready
        rw [reason?_of_lookup there, recorded]
        simp
      | more _ | waiting _ _ | crashed _ =>
        rw [step] at ready
        cases ready

theorem tells (there : w.contexts.lookup name = some b) (coherent : b.ctx.Coherent)
    (recorded : b.ctx.reason = some r) : w.Tells name r := by
  have told : b.ctx.signal = some r := coherent.signal.trans recorded
  have here : w.find? name = some b.ctx := find?_of_lookup there
  refine ⟨?_, ?_, ?_, fun ms => ?_, ?_, fun stop => ?_, fun poll f n => ?_⟩
  · have stays : (b.ctx.check w.now).2.reason = some r := (Heeds.check w.now b.ctx).reason r recorded
    have stopped := ((coherent.check w.now).2.1 r).2 stays
    refine ⟨w.update name fun c => (c.check w.now).2, ?_⟩
    rw [perform, here, Option.map_some, stopped]
  · have on : b.ctx.cancelled = true := by rw [coherent, recorded, Option.isSome_some]
    rw [perform, here, Option.map_some, on, recorded]
  · simp only [perform, waitOn, run, pollCancelled, here, Option.bind_some, told, Option.map_some]
  · simp only [perform, waitOn, run, pollWait, here, Option.bind_some, told, Option.map_some]
  · simp only [perform, pollCancelled, here, Option.bind_some, told, Option.map_some, pending]
  · simp only [perform, pollWait, here, Option.bind_some, told, Option.map_some, pending]
  · simp only [run, pollUnder, here, guard_of_signal told]

/-- What each way to ask about a context or to run something under it comes to, when the context is
`c` now. -/
structure Observed (w : World) (name : String) (c : Context) : Prop where
  /-- A check succeeds in time, and records by itself that the time is over. -/
  check : ∃ v w', w.perform (.check name) = some (.checked v, w') ∧ w'.Reports name v ∧
    (v = .ok () ↔ c.reason = none ∧ micros w.now < c.deadline) ∧
    (c.reason = none → c.deadline ≤ micros w.now → v = .error .deadlineExceeded)
  state : w.perform (.state name) = some (.status c.reason.isSome c.reason, w)
  cancelled : ∃ r w', w.perform (.cancelled name) = some (.reason r, w') ∧ w'.reason? name = some r
  wait : ∀ ms, ∃ v w', w.perform (.wait name ms) = some (.waited v, w') ∧ w'.Reports name v ∧
    w'.now ≤ w.now + ms ∧ (v = .ok () → w'.now = w.now + ms)
  /-- Who has been waiting for it is still waiting unless a reason is recorded. -/
  pollCancelled : w.perform (.pollCancelled name) =
    some ((c.reason.map Answer.reason).getD .nothing, w)
  /-- Who has been waiting under it until some time is told the reason that was recorded meanwhile,
  whoever recorded it, and else whether the time has come. -/
  pollWait : ∀ stop, w.perform (.pollWait name stop) = some (match c.reason with
    | some r => .waited (.error r)
    | none => if stop ≤ w.now then .waited (.ok ()) else .nothing, w)
  /-- A future that was begun under the context and is polled again. -/
  polled : ∀ {σ α : Type} (poll : Nat → σ → Poll σ α) (f : σ),
    pollUnder name poll w.now (w, f) = match c.reason with
      | some r => .ready (.error r) (w, f)
      | none => ((poll w.now f).within (w, ·)).map .ok id
  /-- Whatever is run under the context, however long it takes. -/
  future : ∀ {σ α : Type} {poll : Nat → σ → Poll σ α} {f g : σ} {n t : Nat}
    {v : Except CancelReason α} {x : World},
    run besideFuture (pollUnder name poll) n w.now (w, f) = .finished t v (x, g) → x.Reports name v

theorem observed (there : w.contexts.lookup name = some b) (coherent : b.ctx.Coherent) :
    w.Observed name b.ctx where
  check := check_reports there coherent
  state := by rw [perform, find?_of_lookup there, Option.map_some, coherent]
  cancelled := cancelled_reports ⟨b, there, coherent⟩
  wait := wait_reports ⟨b, there, coherent⟩
  pollCancelled := by
    rw [perform, World.pollCancelled, find?_of_lookup there, Option.map_some, Option.bind_some,
      coherent.signal]
    cases b.ctx.reason <;> rfl
  pollWait stop := by
    rw [perform, World.pollWait, find?_of_lookup there, Option.map_some, Option.bind_some,
      coherent.signal]
    cases b.ctx.reason with
    | some r => rfl
    | none => by_cases past : stop ≤ w.now <;> simp [past, pending]
  polled poll f := by
    cases reason : b.ctx.reason <;>
      simp only [pollUnder, find?_of_lookup there, guard, coherent.signal, reason]
  future := future_reports ⟨b, there, coherent⟩

theorem caused (ran : w.follow actions = some (log, w')) (once : ∀ p, .begin name p ∉ actions)
    (there : w.contexts.lookup name = some b) (before : b.ctx.reason = none)
    (after : w'.reason? name = some r) :
    .cancel name r ∈ actions ∨ (r = .deadlineExceeded ∧ b.ctx.deadline ≤ micros w'.now) ∨
      (r = .clientAborted ∧ (b.parent ∈ w.gone ∨ .cancelParent b.parent ∈ actions)) ∨
      (r = .done ∧ ∃ before a rest log' v, actions = before ++ a :: rest ∧
        w.follow before = some (log', v) ∧ v.drops name a) := by
  obtain ⟨done, a, rest, log₁, v, b₁, q, v', rfl, first, _, _, same, le, cause⟩ :=
    recorded_by ran once there before after
  cases cause with
  | explicit r is => exact .inl (by simp [is])
  | late late =>
    rw [same.deadline] at late
    exact .inr (.inl ⟨rfl, le_trans late (Nat.mul_le_mul_right 1000 le)⟩)
  | gone gone =>
    rw [same.parent, (follow_onward first).2] at gone
    exact .inr (.inr (.inl ⟨rfl, gone.imp_right (List.mem_append_left _)⟩))
  | dropped dropped => exact .inr (.inr (.inr ⟨rfl, done, a, rest, log₁, v, rfl, first, dropped⟩))

theorem lookup_begin {w₀ : World} {begun : Answer}
    (begins : w₀.perform (.begin name parent) = some (begun, w)) :
    w.contexts.lookup name = some ⟨w₀.controller.begin w₀.now, parent⟩ ∧ w.gone = w₀.gone := by
  cases begins
  exact ⟨List.lookup_cons_self, rfl⟩

/-- From its beginning on a context is cancelled exactly when a reason is recorded, the first one
stays, and everybody is told that one. Only the clock at the deadline, the request that is gone or a
guard that is dropped records a reason that nobody gave explicitly. -/
theorem one_reason (w₀ : World) (name parent : String) (actions : List Action) {w₁ : World}
    {begun : Answer} (begins : w₀.perform (.begin name parent) = some (begun, w₁))
    (ran : w₁.follow actions = some (log, w)) (once : ∀ p, .begin name p ∉ actions) :
    ∃ c, w.find? name = some c ∧ c.deadline = micros w₀.now + w₀.controller.timeout ∧
      (c.cancelled = true ↔ c.reason ≠ none) ∧
      (∀ before rest log' v r, actions = before ++ rest → w₁.follow before = some (log', v) →
        v.reason? name = some r → c.reason = some r) ∧
      (∀ r, c.reason = some r → w.Tells name r) ∧ w.Observed name c ∧
      ∀ r, c.reason = some r → .cancel name r ∈ actions ∨
        (r = .deadlineExceeded ∧ c.deadline ≤ micros w.now) ∨
        (r = .clientAborted ∧ (parent ∈ w₀.gone ∨ .cancelParent parent ∈ actions)) ∨
        (r = .done ∧ ∃ before a rest log' v, actions = before ++ a :: rest ∧
          w₁.follow before = some (log', v) ∧ v.drops name a) := by
  obtain ⟨start, gone⟩ := lookup_begin begins
  obtain ⟨b, there, since⟩ := follow_same ran once start
  have coherent : b.ctx.Coherent := since.heeds.coherent rfl
  refine ⟨b.ctx, find?_of_lookup there, since.deadline, ?_, ?_, ?_, observed there coherent, ?_⟩
  · rw [coherent, Option.isSome_iff_ne_none]
  · rintro before rest log' v r rfl first recorded
    obtain ⟨b₁, there₁, _⟩ := follow_same first
      (fun p listed => once p (List.mem_append_left _ listed)) start
    obtain ⟨_, onward⟩ := follow_append ran first
    obtain ⟨b₂, there₂, later⟩ := follow_same onward
      (fun p listed => once p (List.mem_append_right _ listed)) there₁
    cases there.symm.trans there₂
    exact later.heeds.reason r (reason?_of_lookup there₁ ▸ recorded)
  · exact fun r recorded => tells there coherent recorded
  · intro r recorded
    rw [← gone, since.deadline]
    exact caused ran once start rfl ((reason?_of_lookup there).trans recorded)

/-- A wait is pending when the request goes away. -/
theorem one_reason_request_gone :
    ∃ begun w₁ log w,
      (World.mk 0 (.ofMicros 5000) [] [] []).perform (.begin "fetch" "request") = some (begun, w₁) ∧
      w₁.follow [.check "fetch", .advance 3, .pollWait "fetch" 4, .cancelParent "request", .settle,
        .pollWait "fetch" 4, .wait "fetch" 1, .advance 9] = some (log, w) ∧
      log.filterMap (fun e => match e with | (.pollWait _ _, r) => some r | _ => none) =
        [.nothing, .waited (.error .clientAborted)] ∧
      w.reason? "fetch" = some .clientAborted ∧ w.Tells "fetch" .clientAborted := by
  refine ⟨_, _, _, _, rfl, rfl, rfl, rfl, ?_⟩
  obtain ⟨c, found, _, _, _, tells, _⟩ :=
    one_reason ⟨0, .ofMicros 5000, [], [], []⟩ "fetch" "request"
      [.check "fetch", .advance 3, .pollWait "fetch" 4, .cancelParent "request", .settle,
        .pollWait "fetch" 4, .wait "fetch" 1, .advance 9] rfl rfl (by simp)
  cases found
  exact tells _ rfl

end World
end PackRelay.Context
