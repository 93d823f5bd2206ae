import PackRelay.Backend.Wired
import PackRelay.Proofs.Backend.Opening
import PackRelay.Proofs.Clock.Run
import PackRelay.Proofs.Context.Basic

/-! Connecting to a backend. A context that is over comes first, then an address that names no place;
otherwise the place is dialed, once, and what comes first decides: the end of the context, the dial, or
the time that it is granted. -/
namespace PackRelay

namespace Context

variable {c : Context} {outside : Option Interruption} {now : Nat}

/-- The moment at which a context is going to be cancelled. -/
def ending (outside : Option Interruption) (c : Context) : Nat :=
  match outside with
  | none => c.tick
  | some i => min i.time c.tick

/-- Why it is going to be cancelled. Who cancels it at the very moment of its deadline comes first. -/
def cause (outside : Option Interruption) (c : Context) : CancelReason :=
  match outside with
  | none => .deadlineExceeded
  | some i => if i.time ≤ c.tick then i.reason else .deadlineExceeded

theorem ending_le_tick (outside : Option Interruption) (c : Context) : c.ending outside ≤ c.tick := by
  cases outside with
  | none => exact le_rfl
  | some i => exact Nat.min_le_right i.time c.tick

theorem watch_before (off : c.cancelled = false) (early : now < c.ending outside) :
    c.watch outside now = none ∧ c.alarm outside now = some (c.ending outside) := by
  cases outside with
  | none =>
    simp only [ending] at early
    simp [watch, alarm, off, early, earlier, ending, Nat.not_le.2 early]
  | some i =>
    simp only [ending, Nat.lt_min] at early
    simp [watch, alarm, off, early, earlier, ending, Option.filter_some, Nat.not_le.2 early.1,
      Nat.not_le.2 early.2]

theorem watch_from (off : c.cancelled = false) (due : c.ending outside ≤ now) (in_time : now ≤ c.tick) :
    c.watch outside now = some (c.cancel (c.cause outside)) := by
  cases outside with
  | none => simp [watch, off, cause, show c.tick ≤ now from due]
  | some i =>
    by_cases came : i.time ≤ now
    · simp [watch, off, cause, Option.filter_some, came, came.trans in_time]
    · have late : c.tick ≤ now := by
        simp only [ending] at due
        omega
      have undue : ¬ i.time ≤ c.tick := fun le => came (le.trans late)
      simp [watch, off, cause, Option.filter_some, came, late, undue]

end Context

/-- Its answer does not come until after this time, if it comes at all. -/
def Dial.Outlasts (start t : Nat) (dial : Dial) : Prop := dial.answer = .never ∨ t < start + dial.delay

namespace Connecting

/-- An attempt to connect, with the places that were dialed on the way. -/
structure Attempt where
  ctx : Context
  connecting : Connecting := .fresh
  dialed : List Address := []

def Attempt.poll (d : Descriptor) (patience : Duration) (dial : Dial) (now : Nat) (a : Attempt) :
    Poll Attempt (Except ConnectError Connection) :=
  (Connecting.poll d patience dial now (a.ctx, a.connecting)).within fun (ctx, connecting) =>
    { ctx, connecting, dialed := a.dialed ++ begun a.connecting connecting }

/-- Connecting with nobody around but whoever may cancel the context. -/
def connect (d : Descriptor) (patience : Duration) (dial : Dial) (outside : Option Interruption)
    (steps start : Nat) (ctx : Context) : Run Attempt (Except ConnectError Connection) :=
  run (Context.beside Attempt.ctx (fun ctx a => { a with ctx }) outside) (Attempt.poll d patience dial)
    steps start { ctx }

variable {d : Descriptor} {patience : Duration} {dial : Dial} {outside : Option Interruption}
    {ctx : Context} {place : Address} {start now t limit : Nat} {wake : Option Nat}

/-- The wait for a dial that began at this time, as it stands later. -/
def Timely (dial : Dial) (start now : Nat) (wake : Option Nat) : Prop :=
  wake = some (start + dial.delay) ∨ wake = none ∧ (now = start ∨ dial.delay = 0)

theorem Timely.pause_eq (timely : Timely dial start now wake) (le : start ≤ now) :
    pause now dial.delay wake = if start + dial.delay ≤ now then none else some (start + dial.delay) := by
  rcases timely with rfl | ⟨rfl, rfl | prompt⟩
  · rfl
  · have started : now + dial.delay ≤ now ↔ dial.delay = 0 := by omega
    simp only [pause, started]
  · simp [pause, prompt, le]

/-- A dial that is still awaited says when it will be over, unless it never will. -/
theorem Timely.progress_outlasts (timely : Timely dial start now wake) (le : start ≤ now)
    (outlasts : dial.Outlasts start now) :
    ∃ t, progress dial now wake = .error t ∧
      (t = some (start + dial.delay) ∧ now < start + dial.delay ∨ t = none ∧ dial.answer = .never) ∧
      ∀ later, Timely dial start later (t.or wake) := by
  rw [progress, timely.pause_eq le]
  by_cases waits : start + dial.delay ≤ now
  · have never := outlasts.resolve_right (Nat.not_lt.2 waits)
    refine ⟨none, by simp [waits, never], .inr ⟨rfl, never⟩, fun later => ?_⟩
    rcases timely with rfl | ⟨rfl, same⟩
    · exact .inl rfl
    · exact .inr ⟨rfl, .inr (by omega)⟩
  · exact ⟨_, by simp [waits], .inl ⟨rfl, Nat.not_le.1 waits⟩, fun _ => .inl rfl⟩

/-- An attempt that dials a place. -/
def Attempt.dialing (ctx : Context) (place : Address) (wake : Option Nat) (limit : Nat) : Attempt :=
  ⟨ctx, .dialing place wake limit, [place]⟩

theorem poll_answered {v : Except IoError Connection} (silent : ctx.signal = none)
    (answered : progress dial now wake = .ok v) :
    (Attempt.dialing ctx place wake limit).poll d patience dial now =
      .ready (v.mapError (.io place.text)) (.dialing ctx place wake limit) := by
  cases v <;>
    simp [Attempt.poll, Attempt.dialing, Connecting.poll, silent, answered, Poll.within, begun,
      Except.mapError]

theorem poll_gives_up (silent : ctx.signal = none) {alarm : Option Nat}
    (pending : progress dial now wake = .error alarm) (late : limit ≤ now) :
    (Attempt.dialing ctx place wake limit).poll d patience dial now =
      .ready (.error (.timeout place.text patience)) (.dialing ctx place wake limit) := by
  simp [Attempt.poll, Attempt.dialing, Connecting.poll, silent, pending, late, Poll.within, begun]

theorem poll_waits (silent : ctx.signal = none) {alarm : Option Nat}
    (pending : progress dial now wake = .error alarm) (early : now < limit) :
    (Attempt.dialing ctx place wake limit).poll d patience dial now =
      .waiting (.dialing ctx place (alarm.or wake) limit) (earlier alarm (some limit)) := by
  simp [Attempt.poll, Attempt.dialing, Connecting.poll, silent, pending, Nat.not_le.2 early,
    Poll.within, begun]

theorem poll_stopped {r : CancelReason} (stopped : ctx.signal = some r) :
    (Attempt.dialing ctx place wake limit).poll d patience dial now =
      .ready (.error (.cancelled r)) (.dialing ctx place wake limit) := by
  simp [Attempt.poll, Attempt.dialing, Connecting.poll, stopped, Poll.within, begun]

/-- The moment at which the context ends an attempt that began at this time. -/
def stop (outside : Option Interruption) (start : Nat) (ctx : Context) : Nat :=
  max start (ctx.ending outside)

/-- What the attempt to dial a place comes to, and when: whatever comes first. The dial is looked at
before the time that it is granted, and both before the context changes. -/
inductive First (patience : Duration) (dial : Dial) (outside : Option Interruption) (start : Nat)
    (ctx : Context) (place : Address) : Nat → Except ConnectError Connection → Context → Prop
  | connects (c : Connection) :
    dial.answer = .connected c → start + dial.delay ≤ stop outside start ctx →
      start + dial.delay ≤ start + patience.millisUp →
      First patience dial outside start ctx place (start + dial.delay) (.ok c) ctx
  | fails (e : IoError) :
    dial.answer = .failed e → start + dial.delay ≤ stop outside start ctx →
      start + dial.delay ≤ start + patience.millisUp →
      First patience dial outside start ctx place (start + dial.delay) (.error (.io place.text e)) ctx
  | stops :
    dial.Outlasts start (stop outside start ctx) → stop outside start ctx < start + patience.millisUp →
      First patience dial outside start ctx place (stop outside start ctx)
        (.error (.cancelled (ctx.cause outside))) (ctx.cancel (ctx.cause outside))
  | gives_up :
    dial.Outlasts start (start + patience.millisUp) →
      start + patience.millisUp ≤ stop outside start ctx →
      First patience dial outside start ctx place (start + patience.millisUp)
        (.error (.timeout place.text patience)) ctx

/-- Beside an attempt, the context may be cancelled. -/
def Attempt.beside (outside : Option Interruption) : Background Attempt :=
  Context.beside Attempt.ctx (fun ctx a => { a with ctx }) outside

/-- A time up to which nothing has come that ends the attempt. -/
structure Lasts (patience : Duration) (dial : Dial) (outside : Option Interruption) (start : Nat)
    (ctx : Context) (now : Nat) (wake : Option Nat) : Prop where
  le : start ≤ now
  timely : Timely dial start now wake
  in_time : now ≤ start + patience.millisUp
  going : now ≤ stop outside start ctx
  unanswered : dial.answer = .never ∨ now ≤ start + dial.delay

/-- A time at which something comes that does. -/
def Decides (patience : Duration) (dial : Dial) (outside : Option Interruption) (start : Nat)
    (ctx : Context) (now : Nat) : Prop :=
  now = start + patience.millisUp ∨ now = stop outside start ctx ∨
    dial.answer ≠ .never ∧ now = start + dial.delay

/-- Until then time passes, straight to the next moment that anybody waits for. -/
theorem Attempt.goes_on (d : Descriptor) (place : Address) (off : ctx.cancelled = false)
    (lasts : Lasts patience dial outside start ctx now wake)
    (undecided : ¬ Decides patience dial outside start ctx now) :
    ∃ now' wake', Goes (beside outside) (Attempt.poll d patience dial) now
        (.dialing ctx place wake (start + patience.millisUp)) now'
        (.dialing ctx place wake' (start + patience.millisUp)) ∧
      Lasts patience dial outside start ctx now' wake' ∧
      (Decides patience dial outside start ctx now' ∨ start + dial.delay ≤ now') ∧
      (start + dial.delay ≤ now → Decides patience dial outside start ctx now') := by
  simp only [Decides, not_or] at undecided ⊢
  obtain ⟨le, timely, in_time, going, unanswered⟩ := lasts
  replace in_time : now < start + patience.millisUp := Nat.lt_of_le_of_ne in_time undecided.1
  replace going : now < stop outside start ctx := Nat.lt_of_le_of_ne going undecided.2.1
  have outlasts : dial.Outlasts start now := by
    by_cases never : dial.answer = .never
    · exact .inl never
    · exact .inr (Nat.lt_of_le_of_ne (unanswered.resolve_left never) fun same =>
        undecided.2.2 ⟨never, same⟩)
  have silent : ctx.signal = none := by simp [Context.signal, off]
  have early : now < ctx.ending outside := by
    simp only [stop] at going
    omega
  have here : stop outside start ctx = ctx.ending outside := by
    simp only [stop]
    omega
  obtain ⟨idle, alarm⟩ := Context.watch_before off early
  obtain ⟨t, pending, is, timely'⟩ := timely.progress_outlasts le outlasts
  have goes : ∀ next, now < next →
      earlier (earlier t (some (start + patience.millisUp))) (some (ctx.ending outside)) =
        some next →
      Goes (beside outside) (Attempt.poll d patience dial) now
        (.dialing ctx place wake (start + patience.millisUp)) next
        (.dialing ctx place (t.or wake) (start + patience.millisUp)) := by
    intro next later due
    have sleeps : Goes (beside outside) (Attempt.poll d patience dial) now
        (.dialing ctx place wake (start + patience.millisUp)) (max next (now + 1))
        (.dialing ctx place (t.or wake) (start + patience.millisUp)) :=
      .sleeps (poll_waits silent pending in_time)
        (by simp [beside, Context.beside, dialing, idle])
        (by simpa [beside, Context.beside, dialing, alarm] using due)
    rwa [Nat.max_eq_left (Nat.succ_le_of_lt later)] at sleeps
  rcases is with ⟨rfl, waits⟩ | ⟨rfl, never⟩
  · refine ⟨_, _, goes _ ?_ rfl, ⟨?_, timely' _, ?_, ?_, .inr ?_⟩, ?_, ?_⟩
    all_goals omega
  · refine ⟨_, _, goes _ ?_ rfl, ⟨?_, timely' _, ?_, ?_, .inl never⟩, .inl ?_, fun _ => ?_⟩
    all_goals omega

/-- The place was dialed, once, and this came first. -/
def Attempt.Comes (patience : Duration) (dial : Dial) (outside : Option Interruption) (start : Nat)
    (ctx : Context) (place : Address) (made : Run Attempt (Except ConnectError Connection)) : Prop :=
  ∃ t v a, made = .finished t v a ∧ First patience dial outside start ctx place t v a.ctx ∧
    a.dialed = [place]

theorem Attempt.comes_of_ready {v : Except ConnectError Connection} {a a' : Attempt}
    (step : a.poll d patience dial now = .ready v a')
    (first : First patience dial outside start ctx place now v a'.ctx) (once : a'.dialed = [place])
    (n : Nat) :
    Comes patience dial outside start ctx place
      (run (beside outside) (Attempt.poll d patience dial) (n + 1) now a) :=
  ⟨now, v, a', by simp only [run, step], first, once⟩

/-- The dial has come to its end. -/
theorem Attempt.comes_answered (off : ctx.cancelled = false)
    (lasts : Lasts patience dial outside start ctx (start + dial.delay) wake)
    (answers : dial.answer ≠ .never) (n : Nat) :
    Comes patience dial outside start ctx place
      (run (beside outside) (Attempt.poll d patience dial) (n + 1) (start + dial.delay)
        (.dialing ctx place wake (start + patience.millisUp))) := by
  obtain ⟨le, timely, in_time, going, -⟩ := lasts
  have silent : ctx.signal = none := by simp [Context.signal, off]
  have waited : pause (start + dial.delay) dial.delay wake = none := by
    rw [timely.pause_eq le, if_pos le_rfl]
  cases answer : dial.answer with
  | never => exact absurd answer answers
  | connected c =>
    have answered : progress dial (start + dial.delay) wake = .ok (.ok c) := by
      simp [progress, waited, answer]
    exact comes_of_ready (poll_answered silent answered) (.connects c answer going in_time) rfl _
  | failed e =>
    have answered : progress dial (start + dial.delay) wake = .ok (.error e) := by
      simp [progress, waited, answer]
    exact comes_of_ready (poll_answered silent answered) (.fails e answer going in_time) rfl _

/-- The context has come to its end, and is cancelled before the attempt is looked at again. -/
theorem Attempt.comes_stopped (off : ctx.cancelled = false) (unreasoned : ctx.reason = none)
    (undue : start < ctx.tick)
    (lasts : Lasts patience dial outside start ctx (stop outside start ctx) wake)
    (outlasts : dial.Outlasts start (stop outside start ctx))
    (early : stop outside start ctx < start + patience.millisUp) (n : Nat) :
    Comes patience dial outside start ctx place
      (run (beside outside) (Attempt.poll d patience dial) (n + 2) (stop outside start ctx)
        (.dialing ctx place wake (start + patience.millisUp))) := by
  have silent : ctx.signal = none := by simp [Context.signal, off]
  obtain ⟨t, pending, -, -⟩ := lasts.timely.progress_outlasts lasts.le outlasts
  have due : ctx.ending outside ≤ stop outside start ctx := Nat.le_max_right _ _
  have soon : stop outside start ctx ≤ ctx.tick :=
    Nat.max_le.2 ⟨Nat.le_of_lt undue, ctx.ending_le_tick outside⟩
  have act := Context.watch_from off due soon
  have stopped : (ctx.cancel (ctx.cause outside)).signal = some (ctx.cause outside) := by
    rw [(Context.Coherent.cancel ctx _).signal, Context.reason_cancel, unreasoned, Option.none_or]
  have goes : Goes (beside outside) (Attempt.poll d patience dial) (stop outside start ctx)
      (.dialing ctx place wake (start + patience.millisUp)) (stop outside start ctx)
      (.dialing (ctx.cancel (ctx.cause outside)) place (t.or wake) (start + patience.millisUp)) :=
    .acts (poll_waits silent pending early) (by simp [beside, Context.beside, dialing, act])
  rw [goes.run_succ]
  exact comes_of_ready (poll_stopped stopped) (.stops outlasts early) rfl _

/-- What decides also ends the attempt: at once, or once the context has been cancelled. -/
theorem Attempt.comes_to_end (off : ctx.cancelled = false) (unreasoned : ctx.reason = none)
    (undue : start < ctx.tick) (lasts : Lasts patience dial outside start ctx now wake)
    (decides : Decides patience dial outside start ctx now) (n : Nat) :
    Comes patience dial outside start ctx place
      (run (beside outside) (Attempt.poll d patience dial) (n + 2) now
        (.dialing ctx place wake (start + patience.millisUp))) := by
  by_cases outlasts : dial.Outlasts start now
  · by_cases up : start + patience.millisUp ≤ now
    · obtain rfl : now = start + patience.millisUp := Nat.le_antisymm lasts.in_time up
      have silent : ctx.signal = none := by simp [Context.signal, off]
      obtain ⟨t, pending, -, -⟩ := lasts.timely.progress_outlasts lasts.le outlasts
      exact comes_of_ready (poll_gives_up silent pending up) (.gives_up outlasts lasts.going) rfl _
    · have stops : now = stop outside start ctx := by
        rcases decides with late | stops | ⟨answers, comes⟩
        · exact absurd (Nat.le_of_eq late.symm) up
        · exact stops
        · exact absurd comes (Nat.ne_of_lt (outlasts.resolve_left answers))
      subst stops
      exact comes_stopped off unreasoned undue lasts outlasts (Nat.not_le.1 up) n
  · have answers : dial.answer ≠ .never := fun never => outlasts (.inl never)
    have due : start + dial.delay ≤ now := Nat.not_lt.1 fun before => outlasts (.inr before)
    obtain rfl : now = start + dial.delay :=
      Nat.le_antisymm (lasts.unanswered.resolve_left answers) due
    exact comes_answered off lasts answers (n + 1)

/-- An alarm for an answer that never comes may go off on the way, but only once. -/
theorem Attempt.comes (off : ctx.cancelled = false) (unreasoned : ctx.reason = none)
    (undue : start < ctx.tick) (n : Nat) :
    Comes patience dial outside start ctx place
      (run (beside outside) (Attempt.poll d patience dial) (n + 4) start
        (.dialing ctx place none (start + patience.millisUp))) := by
  have lasts : Lasts patience dial outside start ctx start none :=
    ⟨le_rfl, .inr ⟨rfl, .inl rfl⟩, by omega, Nat.le_max_left _ _, .inr (by omega)⟩
  by_cases now : Decides patience dial outside start ctx start
  · exact comes_to_end off unreasoned undue lasts now (n + 2)
  obtain ⟨t₁, w₁, goes₁, lasts₁, soon, -⟩ := goes_on d place off lasts now
  rw [goes₁.run_succ]
  by_cases there : Decides patience dial outside start ctx t₁
  · exact comes_to_end off unreasoned undue lasts₁ there (n + 1)
  obtain ⟨t₂, w₂, goes₂, lasts₂, -, last⟩ := goes_on d place off lasts₁ there
  rw [goes₂.run_succ]
  exact comes_to_end off unreasoned undue lasts₂ (last (soon.resolve_left there)) n

end Connecting

namespace WiredBackend

variable {now : Nat} {ctx : Context} {b : WiredBackend} {k : Connecting} {e : ConnectError}
    {p : Context × WiredBackend}

end WiredBackend

end PackRelay
