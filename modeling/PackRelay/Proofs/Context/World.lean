import PackRelay.Context.World
import PackRelay.Proofs.Context.Basic
import PackRelay.Proofs.Lookup

/-! What goes on among contexts while their caller waits. The moments that a waiting caller may get
to see follow one another: time comes to a point, then every watcher looks at its context, then time
goes on. A wait is over at the first of them at which it can be. -/
namespace PackRelay.Context

variable {c c' : Context} {outside : Option Interruption} {now later : Nat}

theorem watch_idle (off : c.cancelled = false) (early : now < c.tick)
    (stays : ∀ i, outside = some i → now < i.time) : c.watch outside now = none := by
  have nobody : outside.filter (·.time ≤ now) = none := by
    cases outside with
    | none => rfl
    | some i => simp [Option.filter_some, stays i rfl]
  simp [watch, off, nobody, Nat.not_le.2 early]

theorem watch_off (on : c.cancelled = true) : c.watch outside now = none := by
  simp [watch, on]

/-- Whoever looked at a context has nothing more to see there. -/
theorem watch_watched (seen : c.watch outside now = some c') : c'.watch outside later = none := by
  obtain ⟨_, ⟨i, _, _, rfl⟩ | ⟨_, rfl⟩⟩ := watch_cases seen <;> exact watch_off rfl

namespace World

variable {w w' x : World} {b : Bound} {name : String} {t u : Nat}

@[simp] theorem now_settleAt (u : Nat) (w : World) : (w.settleAt u).now = w.now := rfl

@[simp] theorem gone_settleAt (u : Nat) (w : World) : (w.settleAt u).gone = w.gone := rfl

@[simp] theorem guards_settleAt (u : Nat) (w : World) : (w.settleAt u).guards = w.guards := rfl

@[simp] theorem controller_settleAt (u : Nat) (w : World) :
    (w.settleAt u).controller = w.controller := rfl

@[simp] theorem lookup_settleAt (u : Nat) (w : World) (name : String) :
    (w.settleAt u).contexts.lookup name = (w.contexts.lookup name).map (w.watched u) :=
  lookup_map (fun _ b => w.watched u b) w.contexts name

@[simp] theorem lookup_update (name other : String) (f : Context → Context) (w : World) :
    (w.update other f).contexts.lookup name = (w.contexts.lookup name).map fun b =>
      if name = other then { b with ctx := f b.ctx } else b := by
  have same : (w.update other f).contexts = w.contexts.map fun p =>
      (p.1, if p.1 = other then { p.2 with ctx := f p.2.ctx } else p.2) := by
    simp only [update]
    refine List.map_congr_left fun p _ => ?_
    split <;> rfl
  rw [same]
  exact lookup_map (fun n b => if n = other then { b with ctx := f b.ctx } else b) w.contexts name

/-- Who is gone at all is gone for every watcher. -/
theorem outside_time {i : Interruption} (there : w.outside b = some i) : i.time = 0 := by
  unfold outside at there
  split at there
  · cases there
    rfl
  · cases there

theorem watched_watched (le : t ≤ u) (b : Bound) :
    w.watched u (w.watched t b) = w.watched u b := by
  cases seen : b.ctx.watch (w.outside b) t with
  | none =>
    simp only [watched, seen, Option.getD_none]
  | some c =>
    have after : w.watched t b = { b with ctx := c } := by simp only [watched, seen, Option.getD_some]
    have idle : c.watch (w.outside b) u = none := watch_watched seen
    have same : b.ctx.watch (w.outside b) u = some c := by
      obtain ⟨off, ⟨i, is, due, rfl⟩ | ⟨due, rfl⟩⟩ := watch_cases seen
      · simp [watch, off, is, Option.filter_some, le_trans due le]
      · cases came : (w.outside b).filter (·.time ≤ u) with
        | none => simp [watch, off, came, le_trans due le]
        | some i =>
          -- Somebody who is gone by then would have been noticed first.
          obtain ⟨is, _⟩ := Option.filter_eq_some_iff.1 came
          have early : (w.outside b).filter (·.time ≤ t) = some i := by
            simp [is, Option.filter_some, outside_time is]
          simp [watch, off, early] at seen
          simp [watch, off, came, seen]
    have outside_same : w.outside { b with ctx := c } = w.outside b := rfl
    rw [after]
    simp only [watched, outside_same, idle, same, Option.getD_none, Option.getD_some]

theorem settleAt_settleAt (le : t ≤ u) (w : World) :
    (w.settleAt t).settleAt u = w.settleAt u := by
  simp only [settleAt, List.map_map, World.mk.injEq, true_and, and_true]
  refine List.map_congr_left fun p _ => ?_
  exact congrArg (p.1, ·) (watched_watched le p.2)

theorem settleAt_eq_self (idle : ∀ p ∈ w.contexts, p.2.ctx.watch (w.outside p.2) u = none) :
    w.settleAt u = w := by
  have same : w.contexts.map (fun p => (p.1, w.watched u p.2)) = w.contexts := by
    refine (List.map_congr_left fun p there => ?_).trans (List.map_id _)
    simp only [watched, idle p there, Option.getD_none]
    rfl
  unfold settleAt
  rw [same]

theorem isDue_eq_false : w.isDue u = false ↔
    ∀ p ∈ w.contexts, p.2.ctx.watch (w.outside p.2) u = none := by
  simp only [isDue, List.any_eq_false, Option.not_isSome_iff_eq_none]

theorem isDue_settleAt (w : World) (u : Nat) : (w.settleAt u).isDue u = false := by
  refine isDue_eq_false.2 fun p there => ?_
  obtain ⟨q, _, rfl⟩ := List.mem_map.1 there
  have outside_same : (w.settleAt u).outside (w.watched u q.2) = w.outside q.2 := rfl
  rw [outside_same]
  simp only [watched]
  cases seen : q.2.ctx.watch (w.outside q.2) u with
  | none => exact seen
  | some c => exact watch_watched seen

/-- Who sleeps among contexts is woken when one of them runs out of time, and by nothing else. -/
theorem alarm_eq (w : World) (b : Bound) (now : Nat) :
    b.ctx.alarm (w.outside b) now =
      if b.ctx.cancelled = false ∧ now < b.ctx.tick then some b.ctx.tick else none := by
  have past : ((w.outside b).map (·.time)).filter (now < ·) = none := by
    cases there : w.outside b with
    | none => rfl
    | some i => simp [Option.filter_some, outside_time there]
  cases off : b.ctx.cancelled with
  | true => simp [alarm, off]
  | false =>
    by_cases early : now < b.ctx.tick
    · simp [alarm, off, past, early, earlier, Option.filter_some]
    · simp [alarm, off, past, early, earlier, Option.filter_some]

/-- What a caller who waits gets to see, in order: the clock at some point and then, before it goes
on, the contexts as their watchers leave them there. -/
def moment (w : World) : Nat → Nat × World
  | 0 => (w.now, w)
  | k + 1 => (w.now + (k + 1) / 2, w.settleAt (w.now + k / 2))

theorem moment_time (w : World) (k : Nat) : (w.moment k).1 = w.now + k / 2 := by
  cases k <;> simp [moment]

theorem settleAt_moment {k : Nat} (le : w.now + k / 2 ≤ u) :
    (w.moment k).2.settleAt u = w.settleAt u := by
  cases k with
  | zero => rfl
  | succ k => exact settleAt_settleAt (by omega) w

variable {α : Type} {poll : Nat → World → Poll World α} {a : α} {k : Nat}

/-- A caller who only waits: until a point in time, or for a context. -/
structure Waits (poll : Nat → World → Poll World α) : Prop where
  cases : ∀ now x, (∃ a, poll now x = .ready a x) ∨ ∃ alarm, poll now x = .waiting x alarm
  stays : ∀ {now x alarm t}, poll now x = .waiting x alarm → now ≤ t →
    (∀ stop, alarm = some stop → t < stop) → poll t x = .waiting x alarm
  wakes : ∀ {now x stop}, poll now x = .waiting x (some stop) →
    now < stop ∧ ∃ a, poll stop x = .ready a x

/-- The wait is over at this moment and was not before. -/
structure Over (poll : Nat → World → Poll World α) (w : World) (a : α) (k : Nat) : Prop where
  ready : poll (w.moment k).1 (w.moment k).2 = .ready a (w.moment k).2
  before : ∀ j < k, ∃ alarm, poll (w.moment j).1 (w.moment j).2 = .waiting (w.moment j).2 alarm

theorem Over.unique {a' : α} {k' : Nat} (halted : Over poll w a k) (halted' : Over poll w a' k') :
    k = k' ∧ a = a' := by
  have same : k = k' := by
    rcases Nat.lt_trichotomy k k' with lt | same | lt
    · obtain ⟨alarm, waits⟩ := halted'.before k lt
      simp [halted.ready] at waits
    · exact same
    · obtain ⟨alarm, waits⟩ := halted.before k' lt
      simp [halted'.ready] at waits
  subst same
  have ready := halted.ready
  rw [halted'.ready] at ready
  cases ready
  exact ⟨rfl, rfl⟩

/-- The caller still waits, and has come to one of the moments. -/
def Awaits (poll : Nat → World → Poll World α) (w : World) (now : Nat) (x : World) : Prop :=
  ∃ k, w.moment k = (now, x) ∧
    ∀ j < k, ∃ alarm, poll (w.moment j).1 (w.moment j).2 = .waiting (w.moment j).2 alarm

theorem Awaits.act (awaits : Awaits poll w t x) {alarm : Option Nat}
    (waits : poll t x = .waiting x alarm) (due : x.isDue t = true) :
    Awaits poll w t (x.settleAt t) := by
  obtain ⟨k, is, before⟩ := awaits
  have time : t = w.now + k / 2 := by rw [← moment_time w k, is]
  have here : x = (w.moment k).2 := by rw [is]
  refine ⟨k + 1, ?_, fun j below => ?_⟩
  · -- Where the watchers have looked before, nothing is due any more.
    have fresh : (k + 1) / 2 = k / 2 := by
      cases k with
      | zero => rfl
      | succ j =>
        by_contra settled
        have seen : x = w.settleAt t := by
          rw [here, time]
          simp only [moment]
          congr 2
          omega
        rw [seen, isDue_settleAt] at due
        cases due
    rw [here, settleAt_moment (le_of_eq time.symm)]
    simp only [moment, time, fresh]
  · rcases Nat.lt_succ_iff_lt_or_eq.1 below with lt | rfl
    · exact before j lt
    · rw [is]
      exact ⟨alarm, waits⟩

theorem settleAt_of_early (idle : x.isDue t = false)
    (early : ∀ p ∈ x.contexts, p.2.ctx.cancelled = false → u < p.2.ctx.tick) :
    x.settleAt u = x := by
  refine settleAt_eq_self fun p there => ?_
  have idle := isDue_eq_false.1 idle p there
  cases off : p.2.ctx.cancelled with
  | true => exact watch_off off
  | false =>
    refine watch_idle off (early p there off) fun i is => ?_
    simp [watch, off, is, Option.filter_some, outside_time is] at idle

theorem Awaits.sleep (waits : Waits poll) (awaits : Awaits poll w t x) {alarm : Option Nat}
    (waiting : poll t x = .waiting x alarm) (idle : x.isDue t = false) (past : t < u)
    (before_stop : ∀ stop, alarm = some stop → u ≤ stop)
    (early : ∀ p ∈ x.contexts, p.2.ctx.cancelled = false → u ≤ p.2.ctx.tick) :
    Awaits poll w u x := by
  obtain ⟨k, is, before⟩ := awaits
  have time : t = w.now + k / 2 := by rw [← moment_time w k, is]
  have here : x = (w.moment k).2 := by rw [is]
  have same : ∀ v, t ≤ v → v < u → w.settleAt v = x := fun v le lt => by
    rw [← settleAt_moment (k := k) (time ▸ le), ← here]
    exact settleAt_of_early idle fun p there off => lt_of_lt_of_le lt (early p there off)
  -- Nothing changes at the moments that are slept through.
  have still : ∀ j, k < j → j ≤ 2 * (u - w.now) → w.moment j = (w.now + j / 2, x) := by
    intro j lt le
    obtain ⟨i, rfl⟩ := Nat.exists_eq_succ_of_ne_zero (Nat.ne_of_gt (Nat.zero_lt_of_lt lt))
    simp only [moment, Prod.mk.injEq, true_and]
    exact same _ (by omega) (by omega)
  refine ⟨2 * (u - w.now), ?_, fun j below => ?_⟩
  · rw [still _ (by omega) le_rfl, Prod.mk.injEq]
    exact ⟨by omega, rfl⟩
  · rcases Nat.lt_trichotomy j k with lt | rfl | lt
    · exact before j lt
    · rw [is]
      exact ⟨alarm, waiting⟩
    · rw [still j lt (le_of_lt below)]
      refine ⟨alarm, waits.stays waiting (by omega) fun stop there => ?_⟩
      have := before_stop stop there
      omega

theorem alarm_none : (beside.alarm t x = none) ↔
    ∀ p ∈ x.contexts, p.2.ctx.cancelled = false → p.2.ctx.tick ≤ t := by
  simp only [beside, (foldl_earlier _ _ none).1, true_and, alarm_eq, ite_eq_right_iff, reduceCtorEq,
    imp_false, not_and, Nat.not_lt]

theorem alarm_some (due : beside.alarm t x = some u) (idle : x.isDue t = false) :
    (∃ p ∈ x.contexts, p.2.ctx.cancelled = false ∧ p.2.ctx.tick = u) ∧ t < u ∧
      ∀ p ∈ x.contexts, p.2.ctx.cancelled = false → u ≤ p.2.ctx.tick := by
  obtain ⟨first, _, least⟩ := (foldl_earlier _ _ none).2 u due
  simp only [alarm_eq, Option.ite_none_right_eq_some, reduceCtorEq, false_or, Option.some.injEq]
    at first least
  obtain ⟨p, listed, ⟨off, early⟩, rfl⟩ := first
  refine ⟨⟨p, listed, off, rfl⟩, early, fun q there off => least q there _ ⟨⟨off, ?_⟩, rfl⟩⟩
  have idle := isDue_eq_false.1 idle q there
  simp only [watch, off, Bool.false_eq_true, if_false] at idle
  split at idle
  · cases idle
  · split at idle
    · cases idle
    · omega

/-- How one turn of waiting goes. -/
theorem Awaits.turn (waits : Waits poll) (awaits : Awaits poll w t x) {t' : Nat} {x' : World}
    (goes : Goes beside poll t x t' x') : Awaits poll w t' x' := by
  rcases waits.cases t x with ⟨a, ready⟩ | ⟨alarm, waiting⟩
  · cases goes with
    | more is | acts is _ | sleeps is _ _ => simp [ready] at is
  · cases goes with
    | more is => simp [waiting] at is
    | acts is act =>
      rw [waiting] at is
      cases is
      simp only [beside, Option.ite_none_right_eq_some, Option.some.injEq] at act
      obtain ⟨due, rfl⟩ := act
      exact awaits.act waiting due
    | @sleeps _ _ u is idle due =>
      rw [waiting] at is
      cases is
      have idle : x.isDue t = false := by simpa [beside] using idle
      have stop_past : ∀ stop, alarm = some stop → t < stop := fun stop is =>
        (waits.wakes (is ▸ waiting)).1
      have tick_past : ∀ p ∈ x.contexts, p.2.ctx.cancelled = false → t < p.2.ctx.tick ∧
          u ≤ p.2.ctx.tick := by
        intro p there off
        cases others : beside.alarm t x with
        | none =>
          have passed := alarm_none.1 others p there off
          have idle := isDue_eq_false.1 idle p there
          obtain ⟨early, _⟩ := alarm_of_idle off idle
          omega
        | some v =>
          obtain ⟨_, past, least⟩ := alarm_some others idle
          have first := earlier_le due (.inr others)
          have := least p there off
          omega
      refine awaits.sleep waits waiting idle (by omega) (fun stop is => ?_) fun p there off => ?_
      · have := stop_past stop is
        have := earlier_le due (.inl is)
        omega
      · have := tick_past p there off
        omega

/-- A caller who is done with waiting was so at the first moment that allowed it. -/
theorem waitOn_over (waits : Waits poll) (finished : w.waitOn poll = some (a, w')) :
    ∃ k, Over poll w a k ∧ w' = { (w.moment k).2 with now := (w.moment k).1 } := by
  unfold waitOn at finished
  cases ran : run beside poll (4 * w.contexts.length + 16) w.now w with
  | finished t v x =>
    rw [ran] at finished
    cases finished
    obtain ⟨n, t₁, x₁, reached, last⟩ := run_last ran fun _ _ is => nomatch is
    have awaits : Awaits poll w t₁ x₁ := run_keeps (I := Awaits poll w)
      (fun _ _ _ _ here goes => here.turn waits goes) ⟨0, rfl, fun _ below => nomatch below⟩ reached
    cases last with
    | finished ready =>
      rcases waits.cases t x₁ with ⟨v', here⟩ | ⟨alarm, here⟩
      · rw [here] at ready
        cases ready
        obtain ⟨k, is, before⟩ := awaits
        exact ⟨k, ⟨by rw [is]; exact here, before⟩, by rw [is]⟩
      · simp [here] at ready
  | crashed t x => simp [ran] at finished
  | stuck t x => simp [ran] at finished
  | unfinished t x => simp [ran] at finished

theorem countP_map_lt {ι : Type} {p : ι → Bool} {f : ι → ι} (l : List ι)
    (fewer : ∀ i, p (f i) = true → p i = true) (one : ∃ i ∈ l, p i = true ∧ p (f i) = false) :
    (l.map f).countP p < l.countP p := by
  have least : ∀ l : List ι, (l.map f).countP p ≤ l.countP p := fun l => by
    rw [List.countP_map]
    exact List.countP_mono_left fun i _ => fewer i
  induction l with
  | nil =>
    obtain ⟨i, there, _⟩ := one
    cases there
  | cons i l ih =>
    obtain ⟨j, listed, was, is⟩ := one
    simp only [List.map_cons, List.countP_cons]
    have rest := least l
    rcases List.mem_cons.1 listed with rfl | there
    · simp only [was, is, Bool.false_eq_true, if_false, if_true]
      omega
    · have less := ih ⟨j, there, was, is⟩
      cases kept : p (f i) with
      | false =>
        simp only [Bool.false_eq_true, if_false]
        exact lt_of_lt_of_le less (Nat.le_add_right _ _)
      | true =>
        simp only [fewer i kept, if_true]
        exact Nat.add_lt_add_right less 1

def running (x : World) : Nat := x.contexts.countP fun p => !p.2.ctx.cancelled

theorem running_settleAt (due : x.isDue t = true) : (x.settleAt t).running < x.running := by
  refine countP_map_lt x.contexts (fun p on => ?_) ?_
  · simp only [Bool.not_eq_true'] at on ⊢
    cases off : p.2.ctx.cancelled with
    | false => rfl
    | true => simp [watched, watch_off off, off] at on
  · obtain ⟨p, there, seen⟩ := List.any_eq_true.1 due
    obtain ⟨c, is⟩ := Option.isSome_iff_exists.1 seen
    refine ⟨p, there, ?_⟩
    obtain ⟨off, ⟨_, _, _, rfl⟩ | ⟨_, rfl⟩⟩ := watch_cases is <;> simp [watched, is, off]

/-- How many turns a wait may still take. -/
def left (poll : Nat → World → Poll World α) (t : Nat) (x : World) : Nat :=
  match poll t x with
  | .ready _ _ => 0
  | _ => 2 * x.running + if x.isDue t then 1 else 2

/-- The sleeper is woken by its own alarm or finds something to be due. -/
theorem left_woken (waits : Waits poll) {alarm : Option Nat} (waiting : poll t x = .waiting x alarm)
    (idle : x.isDue t = false) (first : earlier alarm (beside.alarm t x) = some u) :
    left poll (max u (t + 1)) x < 2 * x.running + 2 := by
  rcases earlier_cases first with stop | other
  · obtain ⟨past, a, ready⟩ := waits.wakes (stop ▸ waiting)
    rw [Nat.max_eq_left past]
    simp [left, ready]
  · obtain ⟨⟨p, there, off, tick⟩, past, _⟩ := alarm_some other idle
    rw [Nat.max_eq_left past]
    have due : x.isDue u = true := by
      by_contra none_due
      have idle := isDue_eq_false.1 (Bool.eq_false_iff.2 none_due) p there
      have := (alarm_of_idle off idle).1
      omega
    unfold left
    split
    · omega
    · simp [due]

theorem left_turn (waits : Waits poll)
    (awake : poll t x = .waiting x none → ∃ p ∈ x.contexts, p.2.ctx.cancelled = false) :
    (∃ a, poll t x = .ready a x) ∨
      ∃ t' x', Goes beside poll t x t' x' ∧ (x' = x ∨ x' = x.settleAt t) ∧
        left poll t' x' < left poll t x := by
  rcases waits.cases t x with ready | ⟨alarm, waiting⟩
  · exact .inl ready
  · refine .inr ?_
    cases due : x.isDue t with
    | true =>
      refine ⟨t, x.settleAt t, .acts waiting (by simp [beside, due]), .inr rfl, ?_⟩
      have fewer := running_settleAt due
      simp only [left, waiting, due, isDue_settleAt, if_true]
      split
      · omega
      · simp only [Bool.false_eq_true, if_false]
        omega
    | false =>
      obtain ⟨u, first⟩ : ∃ u, earlier alarm (beside.alarm t x) = some u := by
        refine Option.ne_none_iff_exists'.1 fun nobody => ?_
        obtain ⟨rfl, others⟩ := earlier_eq_none.1 nobody
        obtain ⟨p, there, off⟩ := awake waiting
        have passed := alarm_none.1 others p there off
        have early := (alarm_of_idle off (isDue_eq_false.1 due p there)).1
        omega
      refine ⟨max u (t + 1), x, .sleeps waiting (by simp [beside, due]) first, .inl rfl, ?_⟩
      have woken := left_woken waits waiting due first
      simpa only [left, waiting, due, Bool.false_eq_true, if_false] using woken

/-- A wait for a point in time, or for a context that is there, comes to its end. -/
theorem waitOn_isSome {P : World → Prop} (waits : Waits poll)
    (keeps : ∀ u x, P x → P (x.settleAt u))
    (awake : ∀ t x, P x → poll t x = .waiting x none →
      ∃ p ∈ x.contexts, p.2.ctx.cancelled = false)
    (start : P w) : ∃ a w', w.waitOn poll = some (a, w') := by
  have turn : ∀ t x, P x → (∃ a x', poll t x = .ready a x' ∧ True) ∨
      ∃ t' x', Goes beside poll t x t' x' ∧ P x' ∧ left poll t' x' < left poll t x := by
    intro t x here
    rcases left_turn waits (awake t x here) with ⟨a, ready⟩ | ⟨t', x', goes, same, less⟩
    · exact .inl ⟨a, x, ready, trivial⟩
    · refine .inr ⟨t', x', goes, ?_, less⟩
      rcases same with rfl | rfl
      · exact here
      · exact keeps t x here
  have enough : left poll w.now w < 4 * w.contexts.length + 16 := by
    have : w.running ≤ w.contexts.length := List.countP_le_length
    unfold left
    split
    · omega
    · split <;> omega
  obtain ⟨t, a, x, ran, _⟩ := run_finishes (left poll) turn start enough
  exact ⟨a, { x with now := t }, by rw [waitOn, ran]⟩

end World
end PackRelay.Context
