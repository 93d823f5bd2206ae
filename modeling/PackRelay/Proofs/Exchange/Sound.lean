import PackRelay.Proofs.Exchange.Joint

/-! What holds at every moment of an exchange, whatever phase it is in. -/
namespace PackRelay

namespace Scene

open Exchange WiredBackend

/-- Nothing was relayed yet. -/
structure Untouched (s : Scene) (x : Exchange WiredBackend) : Prop where
  channel : x.channel = none
  inbound : x.inbound = s.exchange.inbound
  outbound : x.outbound = s.exchange.outbound
  results : x.results = {}

/-- Where an exchange stands in each of its phases. -/
inductive Stands (s : Scene) (x : Exchange WiredBackend) : Prop
  | starting (o : Opening) :
    x.phase = .starting → x.backend.call = .opening o → o.Sound s.backend.callDestination →
      x.backend.channel = .opening (.dialing .fresh) → s.Untouched x → Stands s x
  | opening (k : Connection) (o : Opening) :
    x.phase = .opening → x.backend.call = .listening .start k →
      Opening.Greeted s.backend.callDestination k →
      x.backend.channel = .opening o → o.Sound s.backend.channelDestination → s.Untouched x →
        Stands s x
  | relaying (c : Sidechannel) :
    x.phase = .relaying → s.Relays x c → c.isOpen = true → c.closeLimit = none → Stands s x
  | closing (c : Sidechannel) :
    x.phase = .closing → s.Relays x c → x.results.inbound.isSome → x.results.outbound.isSome →
      x.results.reply.isSome →
      (c.isOpen = c.closeLimit.isNone) → Stands s x

structure Sound (s : Scene) (now : Nat) (x : Exchange WiredBackend) : Prop where
  backend : x.backend = { s.backend with
    call := x.backend.call, channel := x.backend.channel, dialed := x.backend.dialed }
  ctx : Context.Kept s.context s.gone now x.ctx
  account : Account x.ctx.reason x.results
  stands : s.Stands x

variable {s : Scene} {x : Exchange WiredBackend} {now : Nat} {c : Sidechannel}

theorem Sound.of_joint (joint : Joint s now x c) : s.Sound now x :=
  ⟨joint.backend, joint.ctx, joint.account,
    .relaying c joint.phase joint.relays joint.is_open joint.unlimited⟩

theorem Sound.joint (sound : s.Sound now x) (phase : x.phase = .relaying) (relays : s.Relays x c)
    (is_open : c.isOpen = true) (unlimited : c.closeLimit = none) : Joint s now x c :=
  ⟨phase, sound.backend, sound.ctx, sound.account, relays, is_open, unlimited⟩

theorem Sound.destinations (sound : s.Sound now x) :
    x.backend.callDestination = s.backend.callDestination ∧ x.backend.channelDestination =
      s.backend.channelDestination := by
  rw [sound.backend]
  exact ⟨rfl, rfl⟩

theorem greeted_written {d : Destination} {l : Listener} {k : Connection}
    (listens : d.dial.answer = l.answer) (greeted : Opening.Greeted d k) :
    Wire.frame d.hello = .ok k.sink.written ∧ k.source.delivered = [] ∧ k.sink.shutdowns = 0 ∧
      ∃ k₀, l.answer = .connected k₀ ∧ k.source = k₀.source ∧ k.sink.plan = k₀.sink.plan := by
  obtain ⟨k₀, bs, answer, framed, source, written, shutdowns, plan⟩ := greeted
  rw [listens] at answer
  obtain ⟨events, plan₀, rfl, rfl⟩ := Listener.answer_connected answer
  refine ⟨?_, by rw [source]; rfl, shutdowns, _, answer, source, plan⟩
  rw [framed, written]
  rfl

theorem sound_start (s : Scene) : s.Sound s.start s.exchange where
  backend := rfl
  ctx := Context.kept_start s.start s.controller.timeout s.gone
  account :=
    ⟨rfl, rfl, fun _ there => (List.not_mem_nil there).elim, fun _ => rfl,
      fun _ is _ => (nomatch is), fun is => (nomatch is)⟩
  stands := .starting (.dialing .fresh) rfl rfl trivial rfl ⟨rfl, rfl, rfl, rfl⟩

theorem Sound.lines {call : CallLine} {channel : ChannelLine} {dialed : List Address}
    {phase : ExchangePhase} {x' : Exchange WiredBackend} (sound : s.Sound now x)
    (same : x' = { x with backend := { x.backend with call, channel, dialed }, phase })
    (stands : s.Stands x') :
    s.Sound now x' := by
  subst same
  refine ⟨?_, sound.ctx, sound.account, stands⟩
  simp only
  rw [sound.backend]

theorem Sound.starting {o : Opening} (sound : s.Sound now x) (starting : x.phase = .starting)
    (call : x.backend.call = .opening o) (opens : o.Sound s.backend.callDestination)
    (channel : x.backend.channel = .opening (.dialing .fresh)) (untouched : s.Untouched x)
    (ongoing : ∀ a x', s.poll now x ≠ .ready a x') : s.Sound now (s.poll now x).state := by
  obtain ⟨p, step, same⟩ := poll_starting starting call (s.turns now x) now
  rw [sound.destinations.1] at step
  simp only [Scene.poll] at ongoing ⊢
  rw [same] at ongoing ⊢
  have going : ∀ q : Context × Opening, q.1 = x.ctx → q.2.Sound s.backend.callDestination →
      s.Sound now (x.setBackend (q.1, (x.backend.noting o q.2).withCall (.opening q.2))) := by
    intro q ctx kept
    refine sound.lines (by rw [ctx]; rfl) ?_
    exact .starting q.2 starting rfl kept channel
      ⟨untouched.channel, untouched.inbound, untouched.outbound, untouched.results⟩
  have kept := step.sound opens
  have ctx := step.context_eq
  cases p with
  | ready value q =>
    cases value with
    | error e => exact absurd rfl (ongoing _ _)
    | ok k =>
      have greeted := step.greeted opens
      refine sound.lines (by rw [← ctx fun _ _ is => by cases is]; rfl) ?_
      exact .opening k (.dialing .fresh) rfl rfl greeted channel trivial
        ⟨untouched.channel, untouched.inbound, untouched.outbound, untouched.results⟩
  | more q => exact going q (ctx fun _ _ is => by cases is) (kept fun _ _ is => by cases is)
  | waiting q alarm =>
    exact going q (ctx fun _ _ is => by cases is) (kept fun _ _ is => by cases is)
  | crashed q => exact going q (ctx fun _ _ is => by cases is) (kept fun _ _ is => by cases is)

theorem feeds_start {k : Connection} (greeted : Opening.Greeted s.backend.channelDestination k) :
    s.Feeds s.exchange.inbound k.sink false none := by
  obtain ⟨framed, _, shutdowns, k₀, answer, _, plan⟩ :=
    greeted_written (l := s.channelListener) rfl greeted
  constructor
  case flows =>
    refine ⟨_, framed, ⟨?_, rfl, ?_⟩, ?_, ?_, fun _ => shutdowns⟩
    · simp only [Inbound.flow]
      rfl
    · intro is
      cases is
    · intro v is
      cases is
    · intro v is
      cases is
  case plan => exact ⟨k₀, answer, plan⟩
  case whole => rfl
  case errors => exact fun _ => rfl
  case closed => simp
  case calm => exact fun calm => calm.body

theorem draws_start {k : Connection} (greeted : Opening.Greeted s.backend.channelDestination k) :
    s.Draws s.exchange.outbound k.source none := by
  obtain ⟨_, delivered, _, k₀, answer, source, _⟩ :=
    greeted_written (l := s.channelListener) rfl greeted
  constructor
  case flows =>
    refine ⟨⟨?_, ?_, ?_⟩, ?_, ?_, fun _ => rfl⟩
    · simp only [Outbound.flow, delivered]
      rfl
    · simp only [Outbound.flow, delivered]
      rfl
    · intro is
      cases is
    · intro v is
      cases is
    · intro v is
      cases is
  case plan => rfl
  case calm => exact fun calm => source ▸ (calm.channel k₀ answer).1

theorem Sound.relaying {k k' : Connection} {ctx : Context} (sound : s.Sound now x)
    (kept : ctx = x.ctx) (call : x.backend.call = .listening .start k)
    (greeted : Opening.Greeted s.backend.callDestination k)
    (greeted' : Opening.Greeted s.backend.channelDestination k') (untouched : s.Untouched x) :
    Joint s now
      { (x.setBackend (ctx, x.backend.withChannel .handedOut)).setChannel
          { id := x.backend.id, connection := k' } with
        phase := .relaying } { id := x.backend.id, connection := k' } := by
  subst kept
  obtain ⟨framed, delivered, _, k₁, answer, source, _⟩ :=
    greeted_written (l := s.callListener) rfl greeted
  refine ⟨rfl, ?_, sound.ctx, sound.account, ⟨rfl, rfl, ?_, ?_, ?_⟩, rfl, rfl⟩
  · simp only [setChannel, setBackend, WiredBackend.withChannel]
    rw [sound.backend]
  · simp only [setChannel, setBackend, untouched.inbound, untouched.results]
    exact feeds_start greeted'
  · simp only [setChannel, setBackend, untouched.outbound, untouched.results]
    exact draws_start greeted'
  · simp only [setChannel, setBackend, WiredBackend.withChannel, call, untouched.results]
    apply Hears.listening
    · refine ⟨?_, rfl⟩
      rw [delivered]
      rfl
    · exact framed
    · exact fun calm => source ▸ (calm.call k₁ answer).1

theorem Sound.opening {k : Connection} {o : Opening} (sound : s.Sound now x)
    (opening : x.phase = .opening) (call : x.backend.call = .listening .start k)
    (greeted : Opening.Greeted s.backend.callDestination k)
    (channel : x.backend.channel = .opening o) (opens : o.Sound s.backend.channelDestination)
    (untouched : s.Untouched x) (ongoing : ∀ a x', s.poll now x ≠ .ready a x') :
    s.Sound now (s.poll now x).state := by
  obtain ⟨p, step, same⟩ := poll_opening opening channel (s.turns now x) now
  rw [sound.destinations.2] at step
  simp only [Scene.poll] at ongoing ⊢
  rw [same] at ongoing ⊢
  have going : ∀ q : Context × Opening, q.1 = x.ctx → q.2.Sound s.backend.channelDestination →
      s.Sound now (x.setBackend (q.1, (x.backend.noting o q.2).withChannel (.opening q.2))) := by
    intro q ctx kept
    refine sound.lines (by rw [ctx]; rfl) ?_
    exact .opening k q.2 opening call greeted rfl kept
      ⟨untouched.channel, untouched.inbound, untouched.outbound, untouched.results⟩
  have kept := step.sound opens
  have ctx := step.context_eq
  cases p with
  | ready value q =>
    cases value with
    | error e => exact absurd rfl (ongoing _ _)
    | ok k' =>
      have kept := ctx fun _ _ is => (nomatch is)
      exact .of_joint (sound.relaying kept call greeted (step.greeted opens) untouched)
  | more q => exact going q (ctx fun _ _ is => by cases is) (kept fun _ _ is => by cases is)
  | waiting q alarm =>
    exact going q (ctx fun _ _ is => by cases is) (kept fun _ _ is => by cases is)
  | crashed q => exact going q (ctx fun _ _ is => by cases is) (kept fun _ _ is => by cases is)

theorem Sound.relaying_on (joint : Joint s now x c) (ongoing : ∀ a x', s.poll now x ≠ .ready a x') :
    s.Sound now (s.poll now x).state := by
  have there := joint_participants (s.turns now x) ⟨c, joint⟩
  simp only [Scene.poll, Exchange.poll, joint.phase, pollRelaying] at ongoing ⊢
  cases step : x.pollParticipants WiredBackend.backend (s.turns now x) now with
  | ready _ x' =>
    obtain ⟨rfl, inbound, outbound, reply⟩ := participants_over joint step
    exact ⟨joint.backend, joint.ctx, joint.account,
      .closing c rfl ⟨joint.relays.channel, joint.relays.handedOut, joint.relays.feeds,
        joint.relays.draws,
        joint.relays.hears⟩ inbound outbound reply (by rw [joint.is_open, joint.unlimited]; rfl)⟩
  | more x' =>
    rw [step] at there
    obtain ⟨c', joint'⟩ := there
    exact .of_joint joint'
  | waiting x' alarm =>
    rw [step] at there
    obtain ⟨c', joint'⟩ := there
    exact .of_joint joint'
  | crashed x' =>
    rw [step] at there
    obtain ⟨c', joint'⟩ := there
    exact .of_joint joint'

theorem Feeds.waits {i : Inbound} {sink sink' : Sink} {closed : Bool} {v : Option RelayResult}
    (feeds : s.Feeds i sink closed v) (only : sink.OnlyFinishes sink')
    (same : sink'.shutdowns = sink.shutdowns) :
    s.Feeds i sink' closed v where
  flows := by
    obtain ⟨hello, framed, flows⟩ := feeds.flows
    refine ⟨hello, framed, ⟨?_, flows.sound.counted, flows.sound.ended⟩, flows.bytes, ?_, ?_⟩
    · have written := flows.sound.written
      simp only [Inbound.flow] at written ⊢
      rwa [only.written]
    · have well := flows.well
      simp only [Inbound.flow, inflow] at well ⊢
      rwa [same]
    · have unfinished := flows.unfinished
      simp only [Inbound.flow, inflow] at unfinished ⊢
      rwa [same]
  plan := by
    obtain ⟨k, answer, plan⟩ := feeds.plan
    exact ⟨k, answer, only.plan.trans plan⟩
  whole := feeds.whole
  errors := feeds.errors
  closed := feeds.closed
  calm := feeds.calm

theorem Sound.closing (sound : s.Sound now x) (closing : x.phase = .closing) (relays : s.Relays x c)
    (inbound : x.results.inbound.isSome) (outbound : x.results.outbound.isSome)
    (reply : x.results.reply.isSome)
    (held : c.isOpen = c.closeLimit.isNone) (ongoing : ∀ a x', s.poll now x ≠ .ready a x') :
    s.Sound now (s.poll now x).state := by
  obtain ⟨p, step, same⟩ := poll_closing closing relays.channel (s.turns now x) now
  simp only [Scene.poll] at ongoing ⊢
  rw [same] at ongoing ⊢
  have waits : ∀ q, c.connection.sink.ShutdownStep q → (∀ s', q ≠ .ready (.ok ()) s') →
      s.Sound now (x.setChannel (c.setSink q.state)) := by
    intro q shut unfinished
    exact ⟨sound.backend, sound.ctx, sound.account, .closing (c.setSink q.state) closing
      ⟨rfl, relays.handedOut, relays.feeds.waits shut.only (inflow.finish_not_ok shut unfinished),
        relays.draws,
        relays.hears⟩ inbound outbound reply held⟩
  cases step with
  | givesUp limited held =>
    exact ⟨sound.backend, sound.ctx, sound.account, .closing (c.giveUp now) closing
      ⟨rfl, relays.handedOut, relays.feeds, relays.draws, relays.hears⟩ inbound outbound reply rfl⟩
  | closed _ _ => exact absurd rfl (ongoing _ _)
  | halfClosed _ _ _ => exact absurd rfl (ongoing _ _)
  | ends _ _ _ _ _ _ => exact absurd rfl (ongoing _ _)
  | waits limit sink alarm limited half shut early => exact waits _ shut fun _ is => (nomatch is)
  | crashes limit sink limited half shut => exact waits _ shut fun _ is => (nomatch is)

theorem Sound.poll (sound : s.Sound now x) (ongoing : ∀ a x', s.poll now x ≠ .ready a x') :
    s.Sound now (s.poll now x).state := by
  cases sound.stands with
  | starting o phase call opens channel untouched =>
    exact sound.starting phase call opens channel untouched ongoing
  | opening k o phase call greeted channel opens untouched =>
    exact sound.opening phase call greeted channel opens untouched ongoing
  | relaying c phase relays is_open unlimited =>
    exact .relaying_on (sound.joint phase relays is_open unlimited) ongoing
  | closing c phase relays inbound outbound reply held =>
    exact sound.closing phase relays inbound outbound reply held ongoing

theorem Sound.watch {ctx : Context} (sound : s.Sound now x)
    (seen : x.ctx.watch (s.gone.map .requestGone) now = some ctx) : s.Sound now { x with ctx } := by
  refine ⟨sound.backend, sound.ctx.watch seen, ?_, ?_⟩
  · obtain ⟨off, came⟩ := Context.watch_cases seen
    have account := sound.account
    have none_yet : x.ctx.reason = none := by
      have coherent := sound.ctx.coherent
      rw [Context.Coherent, off] at coherent
      exact Option.not_isSome_iff_eq_none.1 (by simp [← coherent])
    rw [none_yet] at account
    rcases came with ⟨i, is, _, rfl⟩ | ⟨_, rfl⟩
    · obtain ⟨t, _, rfl⟩ := Option.map_eq_some_iff.1 is
      simpa [none_yet, Interruption.requestGone] using account.cancelled (q := .clientAborted)
        (by decide)
    · simpa [none_yet] using account.cancelled (q := .deadlineExceeded) (by decide)
  · cases sound.stands with
    | starting o phase call opens channel untouched =>
      exact .starting o phase call opens channel
        ⟨untouched.channel, untouched.inbound, untouched.outbound, untouched.results⟩
    | opening k o phase call greeted channel opens untouched =>
      exact .opening k o phase call greeted channel opens
        ⟨untouched.channel, untouched.inbound, untouched.outbound, untouched.results⟩
    | relaying c phase relays is_open unlimited =>
      exact .relaying c phase ⟨relays.channel, relays.handedOut, relays.feeds, relays.draws,
        relays.hears⟩ is_open unlimited
    | closing c phase relays inbound outbound reply held =>
      exact .closing c phase ⟨relays.channel, relays.handedOut, relays.feeds, relays.draws,
        relays.hears⟩ inbound outbound
        reply held

/-- A context that was cancelled has nothing new to be found. -/
theorem Sound.unseen {r : CancelReason} (sound : s.Sound now x) (recorded : x.ctx.reason = some r)
    (outside : Option Interruption) (t : Nat) : x.ctx.watch outside t = none := by
  have coherent := sound.ctx.coherent
  rw [Context.Coherent, recorded] at coherent
  simp [Context.watch, coherent]

theorem Sound.sleep {alarm : Option Nat} {t : Nat} (sound : s.Sound now x)
    (idle : (beside s.gone).act now x = none)
    (due : earlier alarm ((beside s.gone).alarm now x) = some t) : s.Sound (max t (now + 1)) x := by
  refine ⟨sound.backend, sound.ctx.sleep (by omega) fun off => ?_, sound.account, sound.stands⟩
  have idle : x.ctx.watch (s.gone.map .requestGone) now = none := by
    simpa [beside, Context.beside] using idle
  obtain ⟨early, t', before, rings⟩ := Context.alarm_of_idle off idle
  have rings : (beside s.gone).alarm now x = some t' := rings
  rw [sound.ctx.tick] at early before
  rw [rings] at due
  cases alarm with
  | none =>
    cases due
    omega
  | some a =>
    cases due
    omega

theorem Sound.turn {now' : Nat} {x' : Exchange WiredBackend} (sound : s.Sound now x)
    (turn : s.Turn now x now' x') :
    s.Sound now' x' := by
  have kept := sound.poll
  cases turn with
  | looks found =>
    obtain ⟨ctx, seen, rfl⟩ := look_eq_some found
    exact sound.watch seen
  | more _ step =>
    rw [step] at kept
    exact kept fun _ _ is => nomatch is
  | acts _ step act =>
    rw [step] at kept
    obtain ⟨ctx, seen, rfl⟩ := Option.map_eq_some_iff.1 act
    exact (kept fun _ _ is => nomatch is).watch seen
  | sleeps _ step idle due =>
    rw [step] at kept
    exact (kept fun _ _ is => nomatch is).sleep idle due

/-- At every moment of every exchange all of it holds. -/
theorem sound_of_reaches (reached : s.Reaches now x) : s.Sound now x :=
  keeps (fun _ _ _ _ sound turn => sound.turn turn) s.sound_start reached

end Scene
end PackRelay
