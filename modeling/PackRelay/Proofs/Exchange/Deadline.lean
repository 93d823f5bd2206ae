import PackRelay.Proofs.Exchange.Outcome
import PackRelay.Proofs.Exchange.Progress

/-! The deadline of an exchange. It is over by then, but for the second that closing may take; it
is reported only when it has come, and always when nothing else ended the exchange before; and
what failed first is what counts, even if the deadline passes while the sidechannel is still
closed. -/
namespace PackRelay.Scene

open Exchange
open WiredBackend renaming backend → wired

variable {s : Scene} {now t n k : Nat} {x x' y : Exchange WiredBackend} {a : Report}
    {r : CancelReason}

/-- A step beside the exchange's controller, which others set to what `calls` says. -/
def pollAttended (s : Scene) (calls : Nat → DeadlineController × Exchange WiredBackend → Option Nat)
    (now : Nat) (p : DeadlineController × Exchange WiredBackend) :
    Poll (DeadlineController × Exchange WiredBackend) Report :=
  (s.next now p.2).within fun x => ((calls now p).elim p.1 p.1.setTimeout, x)

def attended (s : Scene) (calls : Nat → DeadlineController × Exchange WiredBackend → Option Nat)
    (steps : Nat) :
    Run (DeadlineController × Exchange WiredBackend) Report :=
  let beside := Context.beside (fun p => p.2.ctx) (fun ctx p => (p.1, { p.2 with ctx }))
    (s.gone.map .requestGone)
  match run beside (s.pollAttended calls) steps s.start (s.controller, s.exchange) with
  | .crashed t (d, x) => .crashed t (d, x.release wired)
  | r => r

/-- Whatever the controller is set to meanwhile, the exchange goes as it goes. -/
theorem attended_view (s : Scene)
    (calls : Nat → DeadlineController × Exchange WiredBackend → Option Nat) (n : Nat) :
    (s.attended calls n).view Prod.snd = s.after n := by
  have same : (run (Context.beside (fun p => p.2.ctx) (fun ctx p => (p.1, { p.2 with ctx }))
    (s.gone.map .requestGone))
      (s.pollAttended calls) n s.start (s.controller, s.exchange)).view Prod.snd = s.bare n := by
    apply run_view
    · intro now p
      simp only [beside, Context.beside, Option.map_map]
      rfl
    · intro now p
      rfl
    · intro now p
      unfold pollAttended
      cases s.next now p.2 <;> rfl
  rw [after_eq, ← same]
  simp only [attended]
  generalize run _ (s.pollAttended calls) n s.start (s.controller, s.exchange) = ran
  cases ran <;> rfl

theorem tick_eq {D : Nat} (whole : s.controller.timeout = D * 1000) :
    s.context.tick = s.start + D := by
  simp only [Context.tick, context, DeadlineController.begin, Context.start, Context.micros, whole]
  omega

theorem ofMicros_thousand (D : Nat) : Duration.ofMicros (D * 1000) = .ofMillis D := by
  simp [Duration.ofMicros, Duration.ofMillis, Nat.mul_assoc]

theorem outcome_deadline {τ : Duration} :
    (y.report wired).outcome = .error (.deadlineExceeded τ) ↔
      y.ctx.reason = some .deadlineExceeded ∧ τ = .ofMicros y.ctx.timeout := by
  have unblamed : ∀ o : Observed, o.blame ≠ .error (.deadlineExceeded τ) := by
    intro o
    unfold Observed.blame
    split <;> exact fun is => nomatch is
  simp only [Exchange.report, Observed.resolve]
  cases reason : y.ctx.reason with
  | none =>
    have := unblamed y.results.observed
    cases blame : y.results.observed.blame <;> simp_all [Except.map]
  | some r =>
    cases r with
    | deadlineExceeded => simp [Except.map, eq_comm]
    | clientAborted => simp [Except.map]
    | done =>
      have := unblamed y.results.observed
      cases blame : y.results.observed.blame <;> simp_all [Except.map]

theorem failures_of_done (sound : s.Sound now x) (done : x.ctx.reason = some .done) :
    x.results.failures ≠ [] := by
  obtain ⟨e, only⟩ := sound.account.once done
  rw [only]
  exact List.cons_ne_nil e []

theorem done_of_failures (sound : s.Sound now x) (failed : x.results.failures ≠ []) :
    x.ctx.reason = some .done := by
  have account := sound.account
  cases reason : x.ctx.reason with
  | none =>
    exact absurd (by rw [Results.failures, account.errors, account.quiet reason]; rfl) failed
  | some r =>
    by_cases done : r = .done
    · rw [done]
    · exact absurd (account.outside r reason done) failed

theorem failed_before (reached : s.Reaches now x) (done : x.ctx.reason = some .done) :
    ∃ k t y, s.after k = .unfinished t y ∧ t ≤ s.context.tick ∧ y.results.failures ≠ [] := by
  refine (keeps (I := fun now x => s.Reaches now x ∧ (x.ctx.reason = some .done →
    ∃ k t y, s.after k = .unfinished t y ∧ t ≤ s.context.tick ∧ y.results.failures ≠ []))
    (fun now x now' x' here turn => ?_) ⟨⟨0, rfl⟩, fun is => nomatch is⟩ reached).2 done
  obtain ⟨reached, earlier⟩ := here
  have sound := sound_of_reaches reached
  have reached' := reached.turn turn
  refine ⟨reached', fun done => ?_⟩
  cases reason : x.ctx.reason with
  | some r => exact earlier ((sound.quiet_turn reason turn).reason.symm.trans done)
  | none =>
    have failed := failures_of_done (sound_of_reaches reached') done
    have on_time : now ≤ s.context.tick := by
      refine sound.ctx.early ?_
      rw [sound.ctx.coherent, reason]
      rfl
    have still : now' = now := by
      cases turn with
      | looks _ | more _ _ | acts _ _ _ => rfl
      | sleeps _ step _ _ =>
        have pace := sound.pace
        rw [step] at pace
        cases pace with
        | waits _ _ _ _ _ ctx | lingers _ _ _ _ _ _ ctx =>
          rw [ctx, reason] at done
          cases done
    obtain ⟨k, here⟩ := reached'
    exact ⟨k, now', x', here, still ▸ on_time, failed⟩

theorem Ending.done_before (sound : s.Sound now x) (ending : s.Ending now x y)
    (done : y.ctx.reason = some .done) :
    x.ctx.reason = some .done := by
  cases ending with
  | start o e q call untouched step opens _ =>
    exact absurd done (sound.told_opening untouched step).2
  | dial o e q channel untouched step opens _ =>
    exact absurd done (sound.told_opening untouched step).2
  | close c c' v phase relays _ _ _ step => exact done

theorem Ending.no_failures (sound : s.Sound now x) (ending : s.Ending now x y) {q : CancelReason}
    (cancelled : y.ctx.reason = some q) (outside : q ≠ .done) : y.results.failures = [] := by
  rcases ending.account sound with account | lone
  · exact account.outside q cancelled outside
  · apply List.filter_eq_nil_iff.2
    intro e there
    rw [lone.told e there, cancelled]
    exact Bool.false_ne_true

theorem late_of_deadline {D : Nat} {τ : Duration} (whole : s.controller.timeout = D * 1000)
    (concluded : s.after n = .finished t a x) (late : a.outcome = .error (.deadlineExceeded τ)) :
    s.start + D ≤ t ∧ τ = .ofMillis D := by
  obtain ⟨x₁, y, reached, sound, ending, rfl, rfl⟩ := ending_of_finished concluded
  have kept := ending.kept sound
  obtain ⟨reason, rfl⟩ := outcome_deadline.1 late
  have come := kept.late reason
  constructor
  · simp only [context, DeadlineController.begin, Context.start, Context.micros, whole] at come
    omega
  · rw [kept.timeout]
    exact (congrArg Duration.ofMicros whole).trans (ofMicros_thousand D)

theorem deadline_of_nothing (concluded : s.after n = .finished t a x)
    (unfailed : ∀ k, (s.after k).time ≤ s.context.tick → (s.after k).state.results.failures = [])
    (stays : ∀ g, s.gone = some g → s.context.tick < g)
    (unfinished : t ≤ s.context.tick → ∀ summary, a.outcome ≠ .ok summary) :
    a.outcome = .error (.deadlineExceeded (.ofMicros s.controller.timeout)) := by
  obtain ⟨x₁, y, reached, sound, ending, rfl, rfl⟩ := ending_of_finished concluded
  have kept := ending.kept sound
  cases reason : y.ctx.reason with
  | none =>
    have on_time : t ≤ s.context.tick := by
      refine kept.early ?_
      rw [kept.coherent, reason]
      rfl
    have none_failed := unfailed n (by rw [concluded]; exact on_time)
    rw [concluded] at none_failed
    have none_failed : y.results.failures = [] := none_failed
    refine absurd ?_ (unfinished on_time ⟨y.backend.id, y.results.bytesIn, y.results.bytesOut⟩)
    have blame := ending.blame_eq sound (.inl reason)
    simp only [Exchange.report, Observed.resolve, reason, blame, Results.blame, none_failed]
    rfl
  | some r =>
    cases r with
    | deadlineExceeded => exact outcome_deadline.2 ⟨reason, by rw [kept.timeout]; rfl⟩
    | clientAborted =>
      obtain ⟨g, gone, _, before⟩ := kept.left reason
      exact absurd before (Nat.not_le.2 (stays g gone))
    | done =>
      obtain ⟨k, t', y', here, on_time, failed⟩ :=
        failed_before reached (ending.done_before sound reason)
      refine absurd ?_ failed
      have none_failed := unfailed k (by rw [here]; exact on_time)
      rwa [here] at none_failed

theorem failure_counts (concluded : s.after n = .finished t a x)
    (failed : (s.after k).state.results.failures ≠ []) :
    t ≤ (s.after k).time + Sidechannel.closePatience ∧ ∀ τ,
      a.outcome ≠ .error (.deadlineExceeded τ) := by
  have done : ∀ t x, s.after n ≠ .unfinished t x := by
    rw [concluded]
    intro _ _ is
    cases is
  by_cases finished : ∀ t x, s.after k ≠ .unfinished t x
  · rw [after_unique finished done, concluded] at failed ⊢
    refine ⟨Nat.le_add_right _ _, fun τ late => ?_⟩
    obtain ⟨x₁, y, reached, sound, ending, rfl, rfl⟩ := ending_of_finished concluded
    have none_failed : y.results.failures = [] :=
      ending.no_failures sound (outcome_deadline.1 late).1 CancelReason.noConfusion
    exact failed none_failed
  · push Not at finished
    obtain ⟨t₀, x₀, here⟩ := finished
    have sound := sound_of_reaches ⟨k, here⟩
    rw [here] at failed ⊢
    obtain ⟨m, rfl⟩ : ∃ m, n = k + m := by
      refine Nat.exists_eq_add_of_le (Nat.le_of_not_le fun le => ?_)
      obtain ⟨m, rfl⟩ := Nat.exists_eq_add_of_le le
      exact done t₀ x₀ ((after_over done m).symm.trans here)
    have came := comes_from
      (I := fun now y => s.Sound now y ∧ y.ctx.reason = some .done ∧ Prompt t₀ now y)
      (fun now y now' y' kept turn => by
        obtain ⟨sound, reason, prompt⟩ := kept
        have reason' := (sound.quiet_turn reason turn).reason.trans reason
        refine ⟨sound.turn turn, reason', sound.prompt prompt turn fun off => ?_⟩
        have coherent := (sound.turn turn).ctx.coherent
        rw [Context.Coherent, off, reason'] at coherent
        cases coherent)
      here ⟨sound, done_of_failures sound failed, prompt_now ⟨k, here⟩⟩ m
    rw [concluded] at came
    cases came with
    | concluded kept ends =>
      obtain ⟨sound, reason, prompt⟩ := kept
      cases ends with
      | finished step =>
        refine ⟨prompt.le, fun τ late => ?_⟩
        obtain ⟨y, ending, rfl, _⟩ := sound.ending step
        have same := (ending.quiet sound reason).reason.trans reason
        rw [(outcome_deadline.1 late).1] at same
        cases same

/-- An exchange keeps its deadline. It is over by then, with a second more for closing; it says
that the deadline was exceeded only if it was, with the time that it was given, and always if
nothing else ended it by then; and once something has failed it is over within a second and says
so. -/
theorem deadline_kept (s : Scene) {D : Nat} (whole : s.controller.timeout = D * 1000)
    (settles : s.Settles) :
    (∃ n t, t ≤ s.start + D + 1000 ∧
      ((∃ a x, s.after n = .finished t a x) ∨ (∃ x, s.after n = .crashed t x) ∧ ¬ s.Calm)) ∧
    (∀ calls n, (s.attended calls n).view Prod.snd = s.after n) ∧
    ∀ n t a x, s.after n = .finished t a x →
      (∀ τ, a.outcome = .error (.deadlineExceeded τ) → s.start + D ≤ t ∧ τ = .ofMillis D) ∧
      ((∀ k, (s.after k).time ≤ s.start + D → (s.after k).state.results.failures = []) →
        (∀ g, s.gone = some g → s.start + D < g) →
        (t ≤ s.start + D → ∀ summary, a.outcome ≠ .ok summary) →
        a.outcome = .error (.deadlineExceeded (.ofMillis D))) ∧
      ∀ k, (s.after k).state.results.failures ≠ [] →
        t ≤ (s.after k).time + 1000 ∧ ∀ τ, a.outcome ≠ .error (.deadlineExceeded τ) := by
  have tick := tick_eq whole
  refine ⟨?_, s.attended_view, fun n t a x concluded =>
    ⟨fun τ late => late_of_deadline whole concluded late, ?_, ?_⟩⟩
  · rw [← tick]
    exact s.ends settles
  · intro unfailed stays unfinished
    rw [← tick] at unfailed stays unfinished
    have late := deadline_of_nothing concluded unfailed stays unfinished
    rwa [whole, ofMicros_thousand] at late
  · exact fun k failed => failure_counts concluded failed

def mute : Scene := { brief with channelListener := .accepts [.hang] {} }

theorem mute_settles : mute.Settles where
  call c answer := by
    cases answer
    exact SinkPlan.settles_accepting
  channel c answer := by
    cases answer
    exact SinkPlan.settles_accepting
  response := SinkPlan.settles_accepting

theorem unfailed_of_finished (concluded : s.after n = .finished t a x)
    (unfailed : ∀ k ≤ n, (s.after k).state.results.failures = []) (k : Nat) :
    (s.after k).state.results.failures = [] := by
  rcases Nat.le_total k n with le | le
  · exact unfailed k le
  · obtain ⟨d, rfl⟩ := Nat.exists_eq_add_of_le le
    rw [after_over (by simp [concluded]) d]
    exact unfailed n le_rfl

/-- A sidechannel that never says anything is given up after five seconds. -/
theorem deadline_kept_mute : mute.controller.timeout = 5000 * 1000 ∧ mute.Settles ∧
    (∃ n t, t ≤ 6000 ∧ ((∃ a x, mute.after n = .finished t a x) ∨
        (∃ x, mute.after n = .crashed t x) ∧ ¬ mute.Calm)) ∧
    ∃ n a x, mute.after n = .finished 5000 a x ∧
      a.outcome = .error (.deadlineExceeded (.ofMillis 5000)) := by
  have ran : (mute.after 22).value?.isSome = true ∧ (mute.after 22).time = 5000 ∧
      ((mute.after 22).value?.map fun a => a.outcome.toOption) = some none ∧
      ∀ k ≤ 22, (mute.after k).state.results.failures = [] := by decide +kernel
  obtain ⟨returned, time, unsuccessful, unfailed⟩ := ran
  obtain ⟨t, a, x, concluded⟩ := Run.finished_of_value returned
  rw [concluded] at time unsuccessful
  obtain rfl : t = 5000 := time
  obtain ⟨in_time, _, told⟩ := deadline_kept mute (D := 5000) rfl mute_settles
  obtain ⟨_, late, _⟩ := told 22 5000 a x concluded
  have late := late (fun k _ => unfailed_of_finished concluded unfailed k)
    (fun g gone => nomatch gone)
    fun _ summary ok => by simp [Run.value?, ok, Except.toOption] at unsuccessful
  exact ⟨rfl, mute_settles, in_time, 22, a, x, concluded, late⟩

end PackRelay.Scene
