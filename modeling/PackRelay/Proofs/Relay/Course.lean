import PackRelay.Proofs.Relay.Carried
import PackRelay.Relay.Run

/-! The course of a relay, from turn to turn. Between two turns the context may be cancelled and the
other direction may go about its work, at any moment; whatever happens, what was carried is
accounted for, and the error that a relay ends with is what stopped it. -/
namespace PackRelay

/-- A direction of relaying, with the flow that it works on. -/
structure Relay (ρ : Type) where
  kind : Flow.Kind
  finish : Flow.Finish kind
  poll : Context → Nat → ρ → Sidechannel → Poll (ρ × Sidechannel) RelayResult
  flow : ρ → Sidechannel → Flow
  /-- The sidechannel is still open for this direction. -/
  usable : Sidechannel → Prop
  stops : ∀ {ctx r c}, ctx.signal = some r → usable c → ∀ now i,
    ∃ v, poll ctx now i c = .ready v (i, c) ∧ v.bytes = (flow i c).bytes ∧ v.error = some (.cancelled r)
  flows : ∀ {ctx c}, ctx.signal = none → usable c → ∀ now i, ∃ read,
    (flow i c).source.ReadStep kind.loop relayBuffer read ∧
      (poll ctx now i c).map RelayResult.error (fun p => flow p.1 p.2) =
        (flow i c).poll kind now read (finish.poll now (flow i c).sink)
  bytes : ∀ {ctx now i c v p}, ctx.signal = none → usable c → poll ctx now i c = .ready v p →
    v.bytes = (flow p.1 p.2).bytes
  keeps : ∀ {ctx now i c}, ctx.signal = none → usable c → ∀ p,
    poll ctx now i c = .more p ∨ (∃ alarm, poll ctx now i c = .waiting p alarm) → usable p.2

namespace Relay

variable {ρ : Type} {R : Relay ρ} {start last r r' x : Relaying ρ} {turns : List (Relaying ρ)}
    {v : RelayResult} {now : Nat}

def flowOf (R : Relay ρ) (r : Relaying ρ) : Flow := R.flow r.relay r.channel

def turn (R : Relay ρ) (now : Nat) (r : Relaying ρ) : Poll (Relaying ρ) RelayResult :=
  (R.poll r.ctx now r.relay r.channel).within r.place

/-- What others may do between two turns. -/
structure Aside (R : Relay ρ) (r r' : Relaying ρ) : Prop where
  relay : r'.relay = r.relay
  flow : R.flowOf r' = R.flowOf r
  usable : R.usable r.channel → R.usable r'.channel
  ctx : r'.ctx = r.ctx ∨ ∃ reason, r'.ctx = r.ctx.cancel reason

/-- Where a relay stands after some turns, and where it stood at each of them, the latest first. -/
inductive Course (R : Relay ρ) (start : Relaying ρ) : List (Relaying ρ) → Relaying ρ → Prop
  | start : Course R start [] start
  | aside {turns : List (Relaying ρ)} {r r' : Relaying ρ} :
    Course R start turns r → R.Aside r r' → Course R start turns r'
  | goes {turns : List (Relaying ρ)} {r r' : Relaying ρ} (now : Nat) :
    Course R start turns r → R.turn now r = .more r' → Course R start (r :: turns) r'
  | waits {turns : List (Relaying ρ)} {r r' : Relaying ρ} (now : Nat) (alarm : Option Nat) :
    Course R start turns r → R.turn now r = .waiting r' alarm → Course R start (r :: turns) r'

/-- After some turns, one last turn ends it. -/
def Ends (R : Relay ρ) (start : Relaying ρ) (turns : List (Relaying ρ)) (last : Relaying ρ)
    (v : RelayResult) (x : Relaying ρ) : Prop :=
  Course R start turns last ∧ ∃ now, R.turn now last = .ready v x

/-- A relay fails with what its streams met, unless it was cancelled; then it does nothing more. -/
inductive Cause (R : Relay ρ) (last x : Relaying ρ) : RelayError → Prop
  | cancelled (reason : CancelReason) :
    last.ctx.reason = some reason → x = last → Cause R last x (.cancelled reason)
  | fails (e : RelayError) :
    last.ctx.signal = none → Flow.Fails R.finish (R.flowOf last) e → Cause R last x e

/-- How a relay that began at `start` accounts for what it did. -/
structure Accounts (R : Relay ρ) (start : Relaying ρ) (turns : List (Relaying ρ))
    (last : Relaying ρ) (v : RelayResult) (x : Relaying ρ) : Prop where
  /-- The octets of the chunks that were passed on in full are counted. -/
  carried : ∃ passed piece, Flow.Carried (R.flowOf start) passed piece (R.flowOf x) ∧
    v.bytes = passed.flatten.length
  accepted : ∃ delivered accepted,
    (R.flowOf x).source.delivered = (R.flowOf start).source.delivered ++ delivered ∧
      (R.flowOf x).sink.written = (R.flowOf start).sink.written ++ accepted ∧
      accepted <+: delivered ∧ v.bytes ≤ accepted.length ∧
      accepted.length < v.bytes + relayBuffer ∧ (v.error = none → accepted.length = v.bytes)
  /-- Finishing is attempted only behind the end, with every octet written. -/
  attempted : ∀ r ∈ last :: turns, (R.flowOf r).stage = .finishing →
    (R.flowOf r).source.events = [] ∧ Flow.WrittenAll (R.flowOf start) (R.flowOf r)
  /-- Whoever was stopped by something else did not attempt it before. -/
  attempted_last : ∀ r ∈ last :: turns, (R.flowOf r).stage = .finishing →
    (R.flowOf last).stage = .finishing
  /-- What was delivered by some turn was delivered in the end. -/
  grows : ∀ r ∈ last :: turns, (R.flowOf r).source.delivered <+: (R.flowOf x).source.delivered
  finished_once : R.finish.turns (R.flowOf x).sink ≤ R.finish.turns (R.flowOf start).sink + 1
  unfinished : (R.flowOf last).stage ≠ .finishing →
    (R.flowOf start).sink.OnlyWrites (R.flowOf x).sink
  clean : v.error = none ↔ (R.flowOf x).source.events = [] ∧
    Flow.WrittenAll (R.flowOf start) (R.flowOf x) ∧
    R.kind.finished (R.flowOf x).sink = R.kind.finished (R.flowOf start).sink + 1
  cause : ∀ e, v.error = some e → Cause R last x e

/-- An earlier moment of a course. -/
structure Precedes (R : Relay ρ) (start q r : Relaying ρ) : Prop where
  carried : ∃ passed piece, Flow.Carried (R.flowOf start) passed piece (R.flowOf q)
  stays : (R.flowOf q).stage = .finishing → (R.flowOf r).stage = .finishing
  delivered : (R.flowOf q).source.delivered <+: (R.flowOf r).source.delivered

/-- What holds between two turns. -/
structure Going (R : Relay ρ) (start : Relaying ρ) (turns : List (Relaying ρ)) (r : Relaying ρ) :
    Prop where
  coherent : r.ctx.Coherent
  usable : R.usable r.channel
  carried : ∃ passed piece, Flow.Carried (R.flowOf start) passed piece (R.flowOf r)
  pending : Flow.Pending R.finish (R.flowOf start) (R.flowOf r)
  before : ∀ q ∈ turns, Precedes R start q r

/-- What a turn that is not stopped does to the flow. -/
theorem turn_step (silent : r.ctx.signal = none) (usable : R.usable r.channel) (now : Nat) :
    ∃ read, (R.flowOf r).source.ReadStep R.kind.loop relayBuffer read ∧
      (R.turn now r).map RelayResult.error R.flowOf =
        (R.flowOf r).poll R.kind now read (R.finish.poll now (R.flowOf r).sink) ∧
      Flow.Step R.kind (R.flowOf r) ((R.turn now r).map RelayResult.error R.flowOf) := by
  obtain ⟨read, step, same⟩ := R.flows silent usable now r.relay
  have turns : (R.turn now r).map RelayResult.error R.flowOf =
      (R.flowOf r).poll R.kind now read (R.finish.poll now (R.flowOf r).sink) := by
    rw [flowOf, ← same, turn]
    cases R.poll r.ctx now r.relay r.channel <;> rfl
  refine ⟨read, step, turns, turns ▸ ?_⟩
  exact Flow.poll_step step (R.finish.step now _) (fun _ => R.finish.settled) now

theorem turn_stopped {reason : CancelReason} (stopped : r.ctx.signal = some reason)
    (usable : R.usable r.channel) (now : Nat) :
    ∃ v, R.turn now r = .ready v r ∧ v.bytes = (R.flowOf r).bytes ∧
      v.error = some (.cancelled reason) := by
  obtain ⟨v, polled, bytes, error⟩ := R.stops stopped usable now r.relay
  exact ⟨v, by rw [turn, polled]; rfl, bytes, error⟩

/-- A turn after which the relay runs on. -/
def Ongoing (R : Relay ρ) (now : Nat) (r r' : Relaying ρ) : Prop :=
  R.turn now r = .more r' ∨ ∃ alarm, R.turn now r = .waiting r' alarm

theorem Ongoing.polled (ongoing : R.Ongoing now r r') :
    ∃ p, r' = r.place p ∧ (R.poll r.ctx now r.relay r.channel = .more p ∨
      ∃ alarm, R.poll r.ctx now r.relay r.channel = .waiting p alarm) := by
  simp only [Ongoing, turn] at ongoing
  cases polled : R.poll r.ctx now r.relay r.channel with
  | more p =>
    simp only [polled, Poll.within, Poll.into_more] at ongoing
    rcases ongoing with is | ⟨_, is⟩ <;> cases is
    exact ⟨p, rfl, .inl rfl⟩
  | waiting p alarm =>
    simp only [polled, Poll.within, Poll.into_waiting] at ongoing
    rcases ongoing with is | ⟨_, is⟩ <;> cases is
    exact ⟨p, rfl, .inr ⟨_, rfl⟩⟩
  | _ => simp [polled, Poll.within] at ongoing

/-- A relay that is stopped does not go on. -/
theorem Going.silent (going : Going R start turns r) (ongoing : R.Ongoing now r r') :
    r.ctx.signal = none := by
  by_contra stopped
  obtain ⟨reason, stopped⟩ := Option.ne_none_iff_exists'.1 stopped
  obtain ⟨v, ended, -⟩ := turn_stopped stopped going.usable now
  rcases ongoing with is | ⟨_, is⟩ <;> cases ended.symm.trans is

theorem Going.precedes (going : Going R start turns r) :
    ∀ q ∈ r :: turns, Precedes R start q r := by
  intro q there
  rcases List.mem_cons.1 there with rfl | there
  · exact ⟨going.carried, id, List.prefix_refl _⟩
  · exact going.before q there

theorem Going.turn (going : Going R start turns r) (ongoing : R.Ongoing now r r') :
    Going R start (r :: turns) r' := by
  have silent := going.silent ongoing
  obtain ⟨p, placed, polled⟩ := ongoing.polled
  obtain ⟨-, -, -, step⟩ := turn_step silent going.usable now
  obtain ⟨passed, piece, carried⟩ := going.carried
  have state : ((R.turn now r).map RelayResult.error R.flowOf).state = R.flowOf r' := by
    rcases ongoing with is | ⟨_, is⟩ <;> rw [is] <;> rfl
  have pending := step.pending going.pending
    (fun m' crash => by rcases ongoing with is | ⟨_, is⟩ <;> rw [is] at crash <;> cases crash)
    (fun e m' ready => by rcases ongoing with is | ⟨_, is⟩ <;> rw [is] at ready <;> cases ready)
  have stays := step.stays
  have delivered := step.delivered_prefix
  rw [state] at pending stays delivered
  refine ⟨?_, ?_, state ▸ step.carried carried, pending, ?_⟩
  · rw [placed]
    exact going.coherent
  · rw [placed]
    exact R.keeps silent going.usable p polled
  · intro q there
    have earlier := going.precedes q there
    exact ⟨earlier.carried, fun finishing => stays (earlier.stays finishing),
      earlier.delivered.trans delivered⟩

theorem Going.aside (going : Going R start turns r) (aside : R.Aside r r') :
    Going R start turns r' where
  coherent := by
    rcases aside.ctx with same | ⟨reason, same⟩ <;> rw [same]
    · exact going.coherent
    · exact .cancel r.ctx reason
  usable := aside.usable going.usable
  carried := aside.flow ▸ going.carried
  pending := aside.flow ▸ going.pending
  before q there := by
    have earlier := going.before q there
    exact ⟨earlier.carried, aside.flow ▸ earlier.stays, aside.flow ▸ earlier.delivered⟩

variable (coherent : start.ctx.Coherent) (usable : R.usable start.channel)
    (reading : (R.flowOf start).stage = .reading)

include coherent usable reading

theorem Course.going (course : Course R start turns r) : Going R start turns r := by
  induction course with
  | start => exact ⟨coherent, usable, ⟨[], [], .start reading⟩, .refl _ _, fun q there => nomatch there⟩
  | aside _ aside ih => exact ih.aside aside
  | goes now _ more ih => exact ih.turn (.inl more)
  | waits now alarm _ waits ih => exact ih.turn (.inr ⟨alarm, waits⟩)

omit coherent usable reading

/-- The account that follows from how the last turn went. -/
theorem Going.accounts (going : Going R start turns last) (counted : (R.flowOf start).bytes = 0)
    (carried : ∃ passed piece, Flow.Carried (R.flowOf start) passed piece (R.flowOf x))
    (delivered : (R.flowOf last).source.delivered <+: (R.flowOf x).source.delivered)
    (bytes : v.bytes = (R.flowOf x).bytes)
    (finished_once : R.finish.turns (R.flowOf x).sink ≤ R.finish.turns (R.flowOf start).sink + 1)
    (unfinished : (R.flowOf last).stage ≠ .finishing →
      (R.flowOf start).sink.OnlyWrites (R.flowOf x).sink)
    (well : v.error = none → (R.flowOf x).stage = .finishing ∧
      R.kind.finished (R.flowOf x).sink = R.kind.finished (R.flowOf start).sink + 1)
    (failed : v.error ≠ none →
      R.kind.finished (R.flowOf x).sink = R.kind.finished (R.flowOf start).sink)
    (cause : ∀ e, v.error = some e → Cause R last x e) : Accounts R start turns last v x := by
  obtain ⟨passed, piece, carried⟩ := carried
  have total : v.bytes = passed.flatten.length := by rw [bytes, carried.bytes, counted, Nat.zero_add]
  have here := going.precedes
  refine ⟨⟨passed, piece, carried, total⟩,
    ⟨_, _, carried.delivered, carried.written, ?_, ?_, ?_, fun ok => ?_⟩, ?_,
    fun r there => (here r there).stays, fun r there => (here r there).delivered.trans delivered,
    finished_once, unfinished, ⟨fun ok => ?_, ?_⟩, cause⟩
  · exact ⟨(R.flowOf x).stage.rest, by simp only [List.append_assoc]⟩
  · rw [total, List.length_append]
    exact Nat.le_add_right _ _
  · have short := carried.piece_lt
    rw [total, List.length_append]
    omega
  · have none_in_hand := carried.idle (by rw [(well ok).1]; rfl)
    rw [total, none_in_hand, List.append_nil]
  · intro r there stage
    obtain ⟨_, _, carried⟩ := (here r there).carried
    exact ⟨carried.ended stage, carried.written_all stage⟩
  · obtain ⟨stage, once⟩ := well ok
    exact ⟨carried.ended stage, carried.written_all stage, once⟩
  · rintro ⟨-, -, once⟩
    by_contra bad
    have := failed bad
    omega

include coherent usable reading

theorem Ends.accounts (counted : (R.flowOf start).bytes = 0) (ends : R.Ends start turns last v x) :
    Accounts R start turns last v x := by
  obtain ⟨course, now, ended⟩ := ends
  have going := course.going coherent usable reading
  have pending := going.pending
  cases signal : last.ctx.signal with
  | some reason =>
    obtain ⟨w, stopped, bytes, error⟩ := turn_stopped signal going.usable now
    cases stopped.symm.trans ended
    refine going.accounts counted going.carried (List.prefix_refl _) bytes ?_ pending.writes
      (fun ok => by rw [error] at ok; cases ok) (fun _ => pending.finished) fun e is => ?_
    · rw [pending.turns]
      exact Nat.le_succ _
    · cases error.symm.trans is
      exact .cancelled reason (going.coherent.signal.symm.trans signal) rfl
  | none =>
    obtain ⟨read, reads, polled, step⟩ := turn_step signal going.usable now
    obtain ⟨passed, piece, carried⟩ := going.carried
    rw [ended] at step polled
    have step : Flow.Step R.kind (R.flowOf last) (.ready v.error (R.flowOf x)) := step
    have polled : .ready v.error (R.flowOf x) = (R.flowOf last).poll R.kind now read _ := polled
    have bytes : v.bytes = (R.flowOf x).bytes := by
      simp only [turn] at ended
      cases result : R.poll last.ctx now last.relay last.channel with
      | ready w p =>
        rw [result] at ended
        cases ended
        exact R.bytes signal going.usable result
      | _ => rw [result] at ended; cases ended
    have going_on : ∀ m', Poll.ready v.error (R.flowOf x) ≠ .crashed m' := fun _ crash => by cases crash
    have writes : (R.flowOf last).stage ≠ .finishing →
        Flow.Pending R.finish (R.flowOf start) (R.flowOf x) :=
      fun other => step.pending pending going_on fun _ _ _ => other
    refine going.accounts counted (step.carried carried) step.delivered_prefix bytes ?_
      (fun other => ?_) (fun ok => ?_) (fun bad => ?_) fun e is => ?_
    · by_cases finishing : (R.flowOf last).stage = .finishing
      · rw [step.answered finishing, pending.turns]
      · rw [(writes finishing).turns]
        exact Nat.le_succ _
    · exact (writes other).writes fun finishing => other (step.ready_stage.1 finishing)
    · rw [ok] at step
      obtain ⟨stage, -, once⟩ := step.ended_well
      exact ⟨stage, by rw [once, pending.finished]⟩
    · exact (step.finished fun m' is => bad (Poll.ready.inj is).1).trans pending.finished
    · rw [is] at polled
      exact .fails e signal (Flow.poll_fails reads polled.symm)

omit coherent usable reading

/-- A run of a relay on its own is one course of it. -/
theorem ends_of_run {outside : Option Interruption} {n t : Nat}
    (finished : run (Relaying.beside outside) R.turn n now start = .finished t v x) :
    ∃ turns last, R.Ends start turns last v x := by
  obtain ⟨m, u, last, reached, final⟩ := run_last finished (fun _ _ h => by cases h)
  have course : ∃ turns, Course R start turns last := by
    refine run_keeps (I := fun _ r => ∃ turns, Course R start turns r) ?_ ⟨[], .start⟩ reached
    rintro now r now' r' ⟨turns, course⟩ goes
    cases goes with
    | more polled => exact ⟨_, course.goes now polled⟩
    | @acts r₁ alarm _ polled act =>
      obtain ⟨ctx, seen, rfl⟩ := Option.map_eq_some_iff.1 act
      have cancelled : ∃ reason, ctx = r₁.ctx.cancel reason := by
        obtain ⟨-, ⟨i, -, -, is⟩ | ⟨-, is⟩⟩ := Context.watch_cases seen
        · exact ⟨i.reason, is⟩
        · exact ⟨_, is⟩
      exact ⟨_, (course.waits now _ polled).aside ⟨rfl, rfl, id, .inr cancelled⟩⟩
    | sleeps polled _ _ => exact ⟨_, course.waits now _ polled⟩
  obtain ⟨turns, course⟩ := course
  cases final with
  | finished polled => exact ⟨turns, last, course, _, polled⟩

end Relay
end PackRelay
