import PackRelay.Proofs.Backend.StandIn
import PackRelay.Proofs.Exchange.Halves
import PackRelay.Proofs.Exchange.Delivery

/-! Exchanges that are set up alike. Until the sidechannel is open they go step by step together, each
step at the same time; the one is then the other with its own streams put in. -/
namespace PackRelay

namespace Listener

/-- What is read from whoever was dialed. -/
def reads : Listener → List ReadEvent
  | .accepts events _ => events
  | _ => []

/-- What becomes of what is written to whoever was dialed. -/
def writes : Listener → SinkPlan
  | .accepts _ plan => plan
  | _ => {}

/-- Both are dialed alike, and take so many octets and a flush alike. -/
def GreetsAs (count : Nat) : Listener → Listener → Prop
  | .accepts _ p, .accepts _ q => p.AgreesOn count q
  | .fails e, .fails f => f = e
  | .silent, .silent => True
  | _, _ => False

variable {count : Nat} {l l' : Listener}

theorem GreetsAs.refl (count : Nat) (l : Listener) : GreetsAs count l l := by
  cases l with
  | accepts _ _ => exact ⟨fun _ _ _ => rfl, rfl⟩
  | fails e => exact rfl
  | silent => trivial

theorem GreetsAs.answer (greets : GreetsAs count l l') :
    l'.answer = l.answer.standIn (.ofEvents l'.reads) l'.writes := by
  cases l <;> cases l' <;> cases greets <;> rfl

theorem GreetsAs.alike {d : Destination} (greets : GreetsAs (d.hello.length + 4) l l')
    (answer : d.dial.answer = l.answer) : Opening.Alike d l'.writes := by
  intro c is
  rw [answer] at is
  cases l with
  | accepts events plan =>
    cases is
    cases l' with
    | accepts _ _ => exact ⟨rfl, rfl, greets⟩
    | fails _ | silent => cases greets
  | fails _ | silent => cases is

end Listener

namespace Scene

open Exchange
open WiredBackend renaming backend → wired

/-- Scenes that differ in their turns and in what their streams do, but meet both hellos alike. -/
structure SetsUpAs (s s' : Scene) : Prop where
  same : s' = { s with
    turns := s'.turns, callListener := s'.callListener, channelListener := s'.channelListener
    body := s'.body, response := s'.response }
  call : s.callListener.GreetsAs (s.callHello.length + 4) s'.callListener
  channel : s.channelListener.GreetsAs (s.channelHello.length + 4) s'.channelListener

/-- An exchange as it would be in this scene, before anything is relayed. -/
def standIn (s : Scene) (x : Exchange WiredBackend) : Exchange WiredBackend where
  ctx := x.ctx
  backend := { s.backend with
    call := x.backend.call.standIn (.ofEvents s.callListener.reads) s.callListener.writes
    channel := x.backend.channel.standIn (.ofEvents s.channelListener.reads) s.channelListener.writes
    dialed := x.backend.dialed }
  inbound := s.exchange.inbound
  outbound := s.exchange.outbound
  channel := x.channel.map fun c => { c with
    connection := c.connection.standIn (.ofEvents s.channelListener.reads) s.channelListener.writes }
  phase := x.phase
  results := x.results

variable {s s' : Scene} {now now' : Nat} {x x' : Exchange WiredBackend} {o : Opening}

theorem SetsUpAs.destinations (sets : s.SetsUpAs s') :
    s'.backend.callDestination = s.backend.callDestination.standIn (.ofEvents s'.callListener.reads)
        s'.callListener.writes ∧
      s'.backend.channelDestination = s.backend.channelDestination.standIn
        (.ofEvents s'.channelListener.reads) s'.channelListener.writes := by
  have call := sets.call.answer
  have channel := sets.channel.answer
  rw [sets.same]
  constructor
  · simp only [backend, WiredBackend.ofRequest, WiredBackend.callDestination, Destination.standIn, call]
  · simp only [backend, WiredBackend.ofRequest, WiredBackend.channelDestination, Destination.standIn,
      channel, WiredBackend.id]

theorem standIn_release (y : Exchange WiredBackend) (unopened : y.channel = none) :
    (s'.standIn y).release wired = s'.standIn (y.release wired) := by
  simp only [standIn, Exchange.release, Exchange.cancel, unopened, wired, WiredBackend.release,
    WiredBackend.withCall, WiredBackend.withChannel, CallLine.drop_standIn, ChannelLine.drop_standIn,
    Option.map_none]

theorem SetsUpAs.id (sets : s.SetsUpAs s') (sound : s.Sound now x) :
    (s'.standIn x).backend.id = x.backend.id := by
  rw [sound.backend]
  simp only [standIn]
  rw [sets.same]
  rfl

/-- Who was not opened comes to the same end. -/
theorem conclude_standIn (unopened : x.channel = none)
    (id : (s'.standIn x).backend.id = x.backend.id) :
    (s'.standIn x).conclude wired = (x.conclude wired).map (fun v => v) s'.standIn := by
  have reports : (s'.standIn x).report wired = x.report wired := by
    simp only [report, wired, id]
    rfl
  simp only [conclude, reports, standIn_release x unopened, Poll.map, Poll.into_ready]

theorem pollDialing_standIn {d : Destination} {source : Source} {plan : SinkPlan}
    (early : Opening.Early d plan o) (now : Nat) (ctx : Context) :
    pollDialing (d.standIn source plan) now ctx (o.standIn source plan) =
      (pollDialing d now ctx o).into (fun (ctx, o) => (ctx, o.standIn source plan))
        fun result (ctx, o) =>
          .ready (result.map (Connection.standIn source plan)) (ctx, o.standIn source plan) := by
  have same := Opening.poll_standIn early source now ctx
  cases o with
  | greeting w c => exact same
  | dialing k =>
    cases k with
    | dialing place wake limit => exact same
    | fresh =>
      simp only [pollDialing, Opening.standIn]
      rcases ctx.check_cases now with ⟨_, checked⟩ | ⟨r, ctx', _, checked, _⟩
      · rw [checked]
        exact same
      · rw [checked]
        rfl

theorem poll_standIn_starting (sets : s.SetsUpAs s') (sound : s.Sound now x)
    (phase : x.phase = .starting) (call : x.backend.call = .opening o)
    (untouched : s.Untouched x)
    (early : Opening.Early s.backend.callDestination s'.callListener.writes o) :
    s'.poll now (s'.standIn x) = (s.poll now x).map (fun v => v) s'.standIn := by
  have there : (s'.standIn x).backend.call =
      .opening (o.standIn (.ofEvents s'.callListener.reads) s'.callListener.writes) := by
    simp only [standIn, call, CallLine.standIn]
  have same : (s'.standIn x).backend.callDestination = s.backend.callDestination.standIn
      (.ofEvents s'.callListener.reads) s'.callListener.writes := sets.destinations.1
  have ctx : (s'.standIn x).ctx = x.ctx := rfl
  have id := sets.id sound
  simp only [Scene.poll]
  rw [poll_starting_eq phase call, poll_starting_eq (x := s'.standIn x) phase there,
    sound.destinations.1, same, ctx, Opening.poll_standIn early]
  have noted : ∀ q : Context × Opening,
      (s'.standIn x).setBackend (q.1, ((s'.standIn x).backend.noting
        (o.standIn (.ofEvents s'.callListener.reads) s'.callListener.writes)
        (q.2.standIn (.ofEvents s'.callListener.reads) s'.callListener.writes)).withCall
          (.opening (q.2.standIn (.ofEvents s'.callListener.reads) s'.callListener.writes))) =
      s'.standIn (x.setBackend (q.1, (x.backend.noting o q.2).withCall (.opening q.2))) := fun q => by
    simp only [WiredBackend.noting, Opening.begun_standIn]
    rfl
  cases o.poll s.backend.callDestination now x.ctx with
  | ready result q =>
    cases result with
    | ok c => rfl
    | error e =>
      have dropped := (CallLine.opening q.2).drop_standIn (.ofEvents s'.callListener.reads)
        s'.callListener.writes
      have moved : ((s'.standIn x).setBackend (q.1, (s'.standIn x).backend.withCall
          (CallLine.opening (q.2.standIn (.ofEvents s'.callListener.reads)
            s'.callListener.writes)).drop)).failedStart (.ofOpening e) =
          s'.standIn ((x.setBackend (q.1, x.backend.withCall
            (CallLine.opening q.2).drop)).failedStart (.ofOpening e)) := by
        rw [← CallLine.standIn, dropped]
        rfl
      exact (congrArg (Exchange.conclude wired) moved).trans
        (conclude_standIn untouched.channel id)
  | more q => exact congrArg Poll.more (noted q)
  | waiting q alarm => exact congrArg (Poll.waiting · alarm) (noted q)
  | crashed q => exact congrArg Poll.crashed (noted q)

theorem poll_standIn_opening (sets : s.SetsUpAs s') (sound : s.Sound now x)
    (phase : x.phase = .opening) (channel : x.backend.channel = .opening o)
    (untouched : s.Untouched x)
    (early : Opening.Early s.backend.channelDestination s'.channelListener.writes o) :
    s'.poll now (s'.standIn x) = (s.poll now x).map (fun v => v) s'.standIn := by
  have there : (s'.standIn x).backend.channel =
      .opening (o.standIn (.ofEvents s'.channelListener.reads) s'.channelListener.writes) := by
    simp only [standIn, channel, ChannelLine.standIn]
  have same : (s'.standIn x).backend.channelDestination = s.backend.channelDestination.standIn
      (.ofEvents s'.channelListener.reads) s'.channelListener.writes := sets.destinations.2
  have ctx : (s'.standIn x).ctx = x.ctx := rfl
  have id := sets.id sound
  simp only [Scene.poll]
  rw [poll_opening_eq phase channel, poll_opening_eq (x := s'.standIn x) phase there,
    sound.destinations.2, same, ctx, pollDialing_standIn early]
  have noted : ∀ q : Context × Opening,
      (s'.standIn x).setBackend (q.1, ((s'.standIn x).backend.noting
        (o.standIn (.ofEvents s'.channelListener.reads) s'.channelListener.writes)
        (q.2.standIn (.ofEvents s'.channelListener.reads) s'.channelListener.writes)).withChannel
          (.opening (q.2.standIn (.ofEvents s'.channelListener.reads) s'.channelListener.writes))) =
      s'.standIn (x.setBackend (q.1, (x.backend.noting o q.2).withChannel (.opening q.2))) :=
    fun q => by
      simp only [WiredBackend.noting, Opening.begun_standIn]
      rfl
  cases pollDialing s.backend.channelDestination now x.ctx o with
  | ready result q =>
    cases result with
    | ok c =>
      simp only [Poll.into_ready, Except.map, opened, id]
      rfl
    | error e =>
      have dropped := (ChannelLine.opening q.2).drop_standIn (.ofEvents s'.channelListener.reads)
        s'.channelListener.writes
      have moved : ((s'.standIn x).setBackend (q.1, (s'.standIn x).backend.withChannel
          (ChannelLine.opening (q.2.standIn (.ofEvents s'.channelListener.reads)
            s'.channelListener.writes)).drop)).failedDial (.ofOpening e) =
          s'.standIn ((x.setBackend (q.1, x.backend.withChannel
            (ChannelLine.opening q.2).drop)).failedDial (.ofOpening e)) := by
        rw [← ChannelLine.standIn, dropped]
        rfl
      exact (congrArg (Exchange.conclude wired) moved).trans
        (conclude_standIn untouched.channel id)
  | more q => exact congrArg Poll.more (noted q)
  | waiting q alarm => exact congrArg (Poll.waiting · alarm) (noted q)
  | crashed q => exact congrArg Poll.crashed (noted q)

/-- Whichever hello is being sent, it is not sent yet. -/
structure Early (s s' : Scene) (x : Exchange WiredBackend) : Prop where
  call : ∀ o, x.backend.call = .opening o →
    Opening.Early s.backend.callDestination s'.callListener.writes o
  channel : ∀ o, x.backend.channel = .opening o →
    Opening.Early s.backend.channelDestination s'.channelListener.writes o

theorem early_start (s s' : Scene) : Early s s' s.exchange where
  call o is := by cases is; trivial
  channel o is := by cases is; trivial

theorem Sound.early (sound : s.Sound now x) (sets : s.SetsUpAs s') (early : Early s s' x)
    (unopened : ¬ Opened x) (ongoing : ∀ a x', s.poll now x ≠ .ready a x') :
    Early s s' (s.poll now x).state := by
  simp only [Scene.poll] at ongoing ⊢
  cases sound.stands with
  | starting o phase call _ _ _ =>
    obtain ⟨p, step, same⟩ := poll_starting phase call (s.turns now x) now
    rw [sound.destinations.1] at step
    have next := step.early (sets.call.alike rfl) (early.call o call)
    rw [same] at ongoing ⊢
    cases p with
    | ready result q =>
      cases result with
      | ok c => exact ⟨fun _ is => (by cases is), early.channel⟩
      | error e => exact absurd rfl (ongoing _ _)
    | more q | waiting q alarm | crashed q =>
      exact ⟨fun _ is => by cases is; exact next fun _ _ is => (by cases is), early.channel⟩
  | opening k o phase _ _ channel _ _ =>
    obtain ⟨p, step, same⟩ := poll_opening phase channel (s.turns now x) now
    rw [sound.destinations.2] at step
    have next := step.early (sets.channel.alike rfl) (early.channel o channel)
    rw [same] at ongoing ⊢
    cases p with
    | ready result q =>
      cases result with
      | ok c => exact ⟨early.call, fun _ is => by cases is⟩
      | error e => exact absurd rfl (ongoing _ _)
    | more q | waiting q alarm | crashed q =>
      exact ⟨early.call, fun _ is => by cases is; exact next fun _ _ is => by cases is⟩
  | relaying c phase _ _ _ => exact absurd (.inl phase) unopened
  | closing c phase _ _ _ _ _ => exact absurd (.inr phase) unopened

theorem Sound.early_turn (sound : s.Sound now x) (sets : s.SetsUpAs s') (early : Early s s' x)
    (unopened : ¬ Opened x) (turn : s.Turn now x now' x') : Early s s' x' := by
  rcases turn.state with ⟨ctx, rfl⟩ | ⟨ongoing, is⟩
  · exact ⟨early.call, early.channel⟩
  · have kept := sound.early sets early unopened ongoing
    rcases is with rfl | ⟨ctx, rfl⟩
    · exact kept
    · exact ⟨kept.call, kept.channel⟩

theorem Sound.poll_standIn (sound : s.Sound now x) (sets : s.SetsUpAs s') (early : Early s s' x)
    (unopened : ¬ Opened x) :
    s'.poll now (s'.standIn x) = (s.poll now x).map (fun v => v) s'.standIn := by
  cases sound.stands with
  | starting o phase call _ _ untouched =>
    exact poll_standIn_starting sets sound phase call untouched (early.call o call)
  | opening k o phase _ _ channel _ untouched =>
    exact poll_standIn_opening sets sound phase channel untouched (early.channel o channel)
  | relaying c phase _ _ _ => exact absurd (.inl phase) unopened
  | closing c phase _ _ _ _ _ => exact absurd (.inr phase) unopened

theorem Sound.crashed_unopened (sound : s.Sound now x) (unopened : ¬ Opened x)
    (step : s.poll now x = .crashed x') : x'.channel = none := by
  simp only [Scene.poll] at step
  cases sound.stands with
  | starting o phase call _ _ untouched =>
    obtain ⟨p, _, same⟩ := poll_starting phase call (s.turns now x) now
    rw [same] at step
    cases p with
    | ready result q => cases result <;> cases step
    | crashed q => cases step; exact untouched.channel
    | _ => cases step
  | opening k o phase _ _ channel _ untouched =>
    obtain ⟨p, _, same⟩ := poll_opening phase channel (s.turns now x) now
    rw [same] at step
    cases p with
    | ready result q => cases result <;> cases step
    | crashed q => cases step; exact untouched.channel
    | _ => cases step
  | relaying c phase _ _ _ => exact absurd (.inl phase) unopened
  | closing c phase _ _ _ _ _ => exact absurd (.inr phase) unopened

theorem SetsUpAs.exchange (sets : s.SetsUpAs s') : s'.exchange = s'.standIn s.exchange := by
  have context : s'.context = s.context := by rw [sets.same]; rfl
  simp only [standIn, Scene.exchange, fresh, context]
  rfl

theorem SetsUpAs.gone (sets : s.SetsUpAs s') : s'.gone = s.gone := by rw [sets.same]

/-- Nothing cancels the context before some time, except that the exchange comes to its end. -/
def Undisturbed (s : Scene) (t : Nat) : Prop :=
  ∀ n, (s.after n).time < t →
    (s.after n).state.ctx.reason = none ∨ ∃ u a y, s.after n = .finished u a y

theorem Undisturbed.unseen {n t u : Nat} (undisturbed : s.Undisturbed t)
    (here : s.after n = .unfinished u x) (before : u < t) : s.look u x = none := by
  refine Option.eq_none_iff_forall_ne_some.2 fun y found => ?_
  have next := after_look here found
  obtain ⟨ctx, seen, rfl⟩ := look_eq_some found
  have calm := undisturbed (n + 1)
  rw [next] at calm
  rcases calm before with is | ⟨_, _, _, is⟩
  · exact Context.watch_reason seen is
  · cases is

/-- A step that both take, if the watcher finds nothing before it. -/
theorem SetsUpAs.step (sets : s.SetsUpAs s') (sound : s.Sound now x) (early : Early s s' x)
    (unopened : ¬ Opened x) (unseen : s.look now x = none)
    (unseen' : s'.look now (s'.standIn x) = none) :
    settled (run (Exchange.beside s'.gone) s'.next 1 now (s'.standIn x)) =
      (settled (run (Exchange.beside s.gone) s.next 1 now x)).view s'.standIn := by
  simp only [run, next_of_unseen unseen, next_of_unseen unseen',
    sound.poll_standIn sets early unopened, sets.gone]
  cases step : s.poll now x with
  | ready a y => rfl
  | more y => rfl
  | crashed y =>
    have unopened : y.channel = none := sound.crashed_unopened unopened step
    exact congrArg (Run.crashed now) (standIn_release y unopened)
  | waiting y alarm =>
    have alarms : (Exchange.beside s.gone).alarm now (s'.standIn y) =
        (Exchange.beside s.gone).alarm now y := rfl
    have acts : (Exchange.beside s.gone).act now (s'.standIn y) =
        ((Exchange.beside s.gone).act now y).map s'.standIn := by
      have seen : (s'.standIn y).ctx = y.ctx := rfl
      simp only [Exchange.beside, Context.beside, seen, Option.map_map]
      rfl
    simp only [Poll.map, Poll.into_waiting, acts, alarms]
    cases (Exchange.beside s.gone).act now y with
    | some z => rfl
    | none =>
      simp only [Option.map_none]
      cases earlier alarm ((Exchange.beside s.gone).alarm now y) <;> rfl

/-- Both go together until the sidechannel is open, as long as nothing cancels either of them. -/
theorem SetsUpAs.together (sets : s.SetsUpAs s') {n t : Nat} (one : s.Undisturbed t)
    (two : s'.Undisturbed t) (before : ∀ m < n, (s.after m).time < t)
    (unopened : ∀ m < n, ∀ u x, s.after m = .unfinished u x → ¬ Opened x) :
    s'.after n = (s.after n).view s'.standIn ∧
      ∀ u x, s.after n = .unfinished u x → Early s s' x := by
  induction n with
  | zero =>
    have start : s'.start = s.start := by rw [sets.same]
    refine ⟨?_, fun u x is => ?_⟩
    · have here : s'.after 0 = .unfinished s'.start s'.exchange := rfl
      rw [here, start, sets.exchange]
      rfl
    · cases is
      exact early_start s s'
  | succ n ih =>
    obtain ⟨same, early⟩ := ih (fun m less => before m (Nat.lt_succ_of_lt less))
      fun m less => unopened m (Nat.lt_succ_of_lt less)
    by_cases done : ∀ u x, s.after n ≠ .unfinished u x
    · have done' : ∀ u x, s'.after n ≠ .unfinished u x := by
        rw [same]
        cases there : s.after n with
        | unfinished u x => exact absurd there (done u x)
        | _ => exact fun _ _ is => nomatch is
      rw [after_over done 1, after_over done' 1]
      exact ⟨same, fun u x is => absurd is (done u x)⟩
    · push Not at done
      obtain ⟨u, x, here⟩ := done
      have sound := sound_of_reaches ⟨n, here⟩
      have unopened := unopened n (Nat.lt_succ_self n) u x here
      have early := early u x here
      have before : u < t := by
        have before := before n (Nat.lt_succ_self n)
        rwa [here] at before
      have here' : s'.after n = .unfinished u (s'.standIn x) := by rw [same, here]; rfl
      constructor
      · rw [after_eq, bare, run_add (after_unfinished.1 here') 1, after_eq, bare,
          run_add (after_unfinished.1 here) 1]
        exact sets.step sound early unopened (one.unseen here before) (two.unseen here' before)
      · intro v y next
        rcases after_succ here with ⟨now', x', turn, there⟩ | ends
        · rw [next] at there
          cases there
          exact sound.early_turn sets early unopened turn
        · rw [next] at ends
          cases ends

theorem SetsUpAs.refl (s : Scene) : s.SetsUpAs s where
  same := rfl
  call := .refl _ _
  channel := .refl _ _

end Scene
end PackRelay
