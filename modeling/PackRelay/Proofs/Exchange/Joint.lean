import PackRelay.Proofs.Exchange.Account
import PackRelay.Proofs.Exchange.Steps

/-! What holds while the participants of an exchange run side by side: of its context, of its
results, and of every octet on its way. Each of them keeps it, so they do in whatever order they
get their turns. -/
namespace PackRelay

namespace Scene

def callHello (s : Scene) : Bytes := s.backend.callDestination.hello

def channelHello (s : Scene) : Bytes := s.backend.channelDestination.hello

/-- Nothing that the exchange does to its streams crashes. -/
structure Calm (s : Scene) : Prop where
  call : ∀ c, s.callListener.answer = .connected c → c.source.Calm ∧ c.sink.plan.Calm
  channel : ∀ c, s.channelListener.answer = .connected c → c.source.Calm ∧ c.sink.plan.Calm
  body : (Source.ofEvents s.body).Calm
  response : s.response.Calm

def Called (s : Scene) (c : Connection) : Prop := Wire.frame s.callHello = .ok c.sink.written

/-- Where the inbound relay stands, with its end of the sidechannel. -/
structure Feeds (s : Scene) (i : Inbound) (sink : Sink) (closed : Bool)
    (result : Option RelayResult) : Prop where
  flows : ∃ hello, Wire.frame s.channelHello = .ok hello ∧ (i.flow sink).Flows inflow hello result
  plan : ∃ c, s.channelListener.answer = .connected c ∧ sink.plan = c.sink.plan
  whole : i.body.delivered ++ i.body.delivers = (Source.ofEvents s.body).delivers
  errors : (∀ v, result = some v → v.error = none) → i.body.errors = (Source.ofEvents s.body).errors
  closed : closed = true ↔ ∃ v, result = some v ∧ v.error = none
  calm : s.Calm → i.body.Calm

/-- Where the outbound relay stands, with its end of the sidechannel. -/
structure Draws (s : Scene) (o : Outbound) (source : Source) (result : Option RelayResult) :
    Prop where
  flows : (o.flow source).Flows outflow [] result
  plan : o.response.sink.plan = s.response
  calm : s.Calm → source.Calm

/-- Where the wait for the reply stands. -/
inductive Hears (s : Scene) : CallLine → Option (Except CallError Unit) → Prop
  | listening (r : Wire.Reading) (c : Connection) :
    r.Sound c.source.delivered → s.Called c → (s.Calm → c.source.Calm) →
      Hears s (.listening r c) none
  | answered (c : Connection) (v : Except CallError Unit) :
    s.Called c → (v = .ok () → Wire.Frames Wire.CallReply.decode c.source.delivered .ok) →
      (∀ e, v = .error e → e.told = none →
      ¬ Wire.Frames Wire.CallReply.decode c.source.delivered .ok) →
      Hears s (.dropped (some c)) (some v)

/-- Where an exchange stands whose sidechannel is open. -/
structure Relays (s : Scene) (x : Exchange WiredBackend) (c : Sidechannel) : Prop where
  channel : x.channel = some c
  handedOut : x.backend.channel = .handedOut
  feeds : s.Feeds x.inbound c.connection.sink c.writeClosed x.results.inbound
  draws : s.Draws x.outbound c.connection.source x.results.outbound
  hears : s.Hears x.backend.call x.results.reply

variable {s : Scene} {i : Inbound} {o : Outbound} {sink : Sink} {source : Source} {m : Flow}
  {p : Poll Flow (Option RelayError)} {e : Option RelayError} {r : CancelReason}

theorem Feeds.plan_calm {closed : Bool} {v : Option RelayResult} (feeds : s.Feeds i sink closed v)
    (calm : s.Calm) : sink.plan.Calm := by
  obtain ⟨k, answer, plan⟩ := feeds.plan
  exact plan ▸ (calm.channel k answer).2

theorem Feeds.goes_on (feeds : s.Feeds i sink false none) (step : Flow.Step inflow (i.flow sink) p)
    (ongoing : ∀ e m, p ≠ .ready e m) : s.Feeds (.ofFlow p.state) p.state.sink false none where
  flows := by
    obtain ⟨hello, framed, flows⟩ := feeds.flows
    exact ⟨hello, framed, by simpa using step.goes_on flows ongoing⟩
  plan := by
    obtain ⟨k, answer, plan⟩ := feeds.plan
    exact ⟨k, answer, step.plan.trans plan⟩
  whole := (step.whole rfl).trans feeds.whole
  errors none_failed := (step.errors rfl fun e m => ongoing (some e) m).trans
    (feeds.errors none_failed)
  closed := feeds.closed
  calm calm := (step.calm (feeds.calm calm) (feeds.plan_calm calm)).1

theorem Feeds.comes_to_end (feeds : s.Feeds i sink false none)
    (step : Flow.Step inflow (i.flow sink) (.ready e m)) :
    s.Feeds (.ofFlow m) m.sink e.isNone (some ((Inbound.ofFlow m).result e)) where
  flows := by
    obtain ⟨hello, framed, flows⟩ := feeds.flows
    exact ⟨hello, framed, by simpa using step.comes_to_end flows rfl rfl⟩
  plan := by
    obtain ⟨k, answer, plan⟩ := feeds.plan
    exact ⟨k, answer, step.plan.trans plan⟩
  whole := (step.whole rfl).trans feeds.whole
  errors none_failed := by
    have ok : e = none := none_failed _ rfl
    subst ok
    exact (step.errors rfl fun e m is => by cases is).trans (feeds.errors fun v is => by cases is)
  closed := by cases e <;> simp [Inbound.result]
  calm calm := (step.calm (feeds.calm calm) (feeds.plan_calm calm)).1

theorem Feeds.stopped (feeds : s.Feeds i sink false none) :
    s.Feeds i sink false (some (i.result (some (.cancelled r)))) where
  flows := by
    obtain ⟨hello, framed, flows⟩ := feeds.flows
    exact ⟨hello, framed, flows.stopped rfl (Option.some_ne_none _)⟩
  plan := feeds.plan
  whole := feeds.whole
  errors none_failed := absurd (none_failed _ rfl) (Option.some_ne_none _)
  closed := by simp [Inbound.result]
  calm := feeds.calm

theorem Draws.goes_on (draws : s.Draws o source none) (step : Flow.Step outflow (o.flow source) p)
    (ongoing : ∀ e m, p ≠ .ready e m) (headers : Watched Bool) (count : Nat) :
    s.Draws (.ofFlow headers count p.state) p.state.source none where
  flows := by simpa using step.goes_on draws.flows ongoing
  plan := step.plan.trans draws.plan
  calm calm := (step.calm (draws.calm calm) (draws.plan ▸ calm.response)).1

theorem Draws.comes_to_end (draws : s.Draws o source none)
    (step : Flow.Step outflow (o.flow source) (.ready e m)) (headers : Watched Bool) (count : Nat) :
    s.Draws (.ofFlow headers count m) m.source (some ((Outbound.ofFlow headers count m).result e)) where
  flows := by simpa using step.comes_to_end draws.flows rfl rfl
  plan := step.plan.trans draws.plan
  calm calm := (step.calm (draws.calm calm) (draws.plan ▸ calm.response)).1

theorem Draws.stopped (draws : s.Draws o source none) :
    s.Draws o source (some (o.result (some (.cancelled r)))) :=
  ⟨draws.flows.stopped rfl (Option.some_ne_none _), draws.plan, draws.calm⟩

end Scene

namespace Exchange

open WiredBackend renaming backend → wired

variable {s : Scene} {x : Exchange WiredBackend} {now : Nat} {c : Sidechannel}

/-- What holds while the participants run side by side. -/
structure Joint (s : Scene) (now : Nat) (x : Exchange WiredBackend) (c : Sidechannel) : Prop where
  phase : x.phase = .relaying
  backend : x.backend = { s.backend with
    call := x.backend.call, channel := x.backend.channel, dialed := x.backend.dialed }
  ctx : Context.Kept s.context s.gone now x.ctx
  account : Account x.ctx.reason x.results
  relays : s.Relays x c
  is_open : c.isOpen = true
  unlimited : c.closeLimit = none

theorem Joint.unclosed (joint : Joint s now x c) (going : x.results.inbound = none) :
    c.writeClosed = false := by
  cases closed : c.writeClosed with
  | false => rfl
  | true =>
    obtain ⟨v, is, _⟩ := joint.relays.feeds.closed.1 closed
    rw [going] at is
    cases is

theorem kept_unless (kept : Context.Kept s.context s.gone now x.ctx) (ok : Bool) :
    Context.Kept s.context s.gone now (x.cancelUnless ok).ctx := by
  cases ok with
  | true => exact kept
  | false => exact kept.done

theorem reason_unless (ok : Bool) :
    (x.cancelUnless ok).ctx.reason = if ok then x.ctx.reason else x.ctx.reason.or (some .done) := by
  cases ok <;> rfl

/-- Who ends with an error is told why, or is the first to fail. -/
def Fair (x : Exchange WiredBackend) (e : TransportError) : Prop :=
  (e.told.isSome ∧ e.isCancellation = true ∧ x.ctx.reason ≠ none) ∨
    (e.told = none ∧ e.isCancellation = false ∧ x.ctx.reason = none)

theorem fair_cancelled {r : CancelReason} (kept : Context.Kept s.context s.gone now x.ctx)
    (stopped : x.ctx.signal = some r) : x.ctx.reason ≠ none := by
  rw [kept.coherent.signal] at stopped
  rw [stopped]
  exact Option.some_ne_none r

theorem fair_untold {e : TransportError} (kept : Context.Kept s.context s.gone now x.ctx)
    (silent : x.ctx.signal = none) (untold : e.told = none) : x.Fair e :=
  .inr ⟨untold, e.isCancellation_of_untold untold, kept.coherent.signal.symm.trans silent⟩

theorem fed_self (channel : x.channel = some c) (unclosed : c.writeClosed = false) :
    x.fed c false (x.inbound.flow c.connection.sink) = x := by
  obtain ⟨ctx, b, ⟨body, bytes, phase⟩, o, _, _, results⟩ := x
  obtain ⟨id, k, isOpen, writeClosed, count, limit⟩ := c
  cases channel
  cases unclosed
  cases phase <;> rfl

theorem drawn_self (channel : x.channel = some c) :
    x.drawn c x.outbound.response.headers x.outbound.response.bytesWritten
      (x.outbound.flow c.connection.source) = x := by
  obtain ⟨ctx, b, i, ⟨response, bytes, phase⟩, _, _, results⟩ := x
  cases channel
  cases phase <;> rfl

theorem account_note {r : Results} {e : Option TransportError} {ok : Bool}
    (account : Account x.ctx.reason x.results)
    (joins : x.results.Joins r e) (fair : ∀ t, e = some t → x.Fair t) (agrees : e.isNone = ok) :
    Account (x.cancelUnless ok).ctx.reason r := by
  have noted := account.joins joins fair
  rwa [reason_unless, ← agrees]

theorem Joint.fed {m : Flow} (joint : Joint s now x c)
    (feeds : s.Feeds (.ofFlow m) m.sink false x.results.inbound) :
    Joint s now (x.fed c false m) (c.fed m.sink false) :=
  ⟨joint.phase, joint.backend, joint.ctx, joint.account,
    ⟨rfl, joint.relays.handedOut, feeds, joint.relays.draws, joint.relays.hears⟩, joint.is_open,
      joint.unlimited⟩

theorem Joint.noteInbound {m : Flow} {v : RelayResult} {closed : Bool} (joint : Joint s now x c)
    (going : x.results.inbound = none) (feeds : s.Feeds (.ofFlow m) m.sink closed (some v))
    (fair : ∀ e, v.error = some e → x.Fair (.relay e)) :
    Joint s now ((x.fed c closed m).noteInbound v) (c.fed m.sink closed) where
  phase := by cases ok : v.isOk <;> simp only [Exchange.noteInbound, ok] <;> exact joint.phase
  backend := by cases ok : v.isOk <;> simp only [Exchange.noteInbound, ok] <;> exact joint.backend
  ctx := kept_unless (x := x.fed c closed m) joint.ctx v.isOk
  account := by
    refine account_note (x := x.fed c closed m) joint.account (Results.joins_inbound going v) ?_ ?_
    · intro t is
      obtain ⟨e, error, rfl⟩ := Option.map_eq_some_iff.1 is
      exact fair e error
    · simp [RelayResult.isOk]
  relays := by
    have relays := joint.relays
    cases ok : v.isOk <;> simp only [Exchange.noteInbound, ok] <;>
      exact ⟨rfl, relays.handedOut, feeds, relays.draws, relays.hears⟩
  is_open := joint.is_open
  unlimited := joint.unlimited

theorem Joint.drawn {m : Flow} {headers : Watched Bool} {count : Nat} (joint : Joint s now x c)
    (draws : s.Draws (.ofFlow headers count m) m.source x.results.outbound) :
    Joint s now (x.drawn c headers count m) (c.drawn m.source) :=
  ⟨joint.phase, joint.backend, joint.ctx, joint.account,
    ⟨rfl, joint.relays.handedOut, joint.relays.feeds, draws, joint.relays.hears⟩, joint.is_open,
      joint.unlimited⟩

theorem Joint.noteOutbound {m : Flow} {headers : Watched Bool} {count : Nat} {v : RelayResult}
    (joint : Joint s now x c)
    (going : x.results.outbound = none) (draws : s.Draws (.ofFlow headers count m) m.source (some v))
    (fair : ∀ e, v.error = some e → x.Fair (.relay e)) :
    Joint s now ((x.drawn c headers count m).noteOutbound v) (c.drawn m.source) where
  phase := by cases ok : v.isOk <;> simp only [Exchange.noteOutbound, ok] <;> exact joint.phase
  backend := by cases ok : v.isOk <;> simp only [Exchange.noteOutbound, ok] <;> exact joint.backend
  ctx := kept_unless (x := x.drawn c headers count m) joint.ctx v.isOk
  account := by
    refine account_note (x := x.drawn c headers count m) joint.account
      (Results.joins_outbound going v) ?_ ?_
    · intro t is
      obtain ⟨e, error, rfl⟩ := Option.map_eq_some_iff.1 is
      exact fair e error
    · simp [RelayResult.isOk]
  relays := by
    have relays := joint.relays
    cases ok : v.isOk <;> simp only [Exchange.noteOutbound, ok] <;>
      exact ⟨rfl, relays.handedOut, relays.feeds, draws, relays.hears⟩
  is_open := joint.is_open
  unlimited := joint.unlimited

theorem Joint.heard {q : Wire.Reading × Connection} (joint : Joint s now x c)
    (hears : s.Hears (.listening q.1 q.2) x.results.reply) : Joint s now (x.heard q) c :=
  ⟨joint.phase, by rw [Exchange.heard, joint.backend]; rfl, joint.ctx, joint.account,
    ⟨joint.relays.channel, joint.relays.handedOut, joint.relays.feeds, joint.relays.draws, hears⟩,
      joint.is_open,
    joint.unlimited⟩

theorem Joint.noteReply {q : Wire.Reading × Connection} {v : Except CallError Unit}
    (joint : Joint s now x c)
    (going : x.results.reply = none) (hears : s.Hears (.dropped (some q.2.release)) (some v))
    (fair : ∀ e, v = .error e → x.Fair (.call e)) :
    Joint s now ((x.heard q).hungUp.noteReply v) c where
  phase := by cases ok : v.isOk <;> simp only [Exchange.noteReply, ok] <;> exact joint.phase
  backend := by
    have same := joint.backend
    cases ok : v.isOk <;> simp only [Exchange.noteReply, ok, Exchange.hungUp, Exchange.heard]
      <;> rw [same] <;> rfl
  ctx := kept_unless (x := (x.heard q).hungUp) joint.ctx v.isOk
  account := by
    refine account_note (x := (x.heard q).hungUp) joint.account (Results.joins_reply going v) ?_ ?_
    · intro t is
      cases v with
      | ok _ => cases is
      | error e =>
        cases is
        exact fair e rfl
    · cases v <;> rfl
  relays := by
    have relays := joint.relays
    have handedOut : (x.heard q).hungUp.backend.channel = .handedOut := by
      simp [hungUp, Exchange.heard, WiredBackend.release, WiredBackend.withCall,
        WiredBackend.withChannel, ChannelLine.drop, relays.handedOut]
    cases ok : v.isOk <;> simp only [Exchange.noteReply, ok] <;>
      exact ⟨relays.channel, handedOut, relays.feeds, relays.draws, hears⟩
  is_open := joint.is_open
  unlimited := joint.unlimited

theorem Joint.does (joint : Joint s now x c) (p : Participant) :
    x.Does c p (pollParticipant wired now p x) := by
  have relays := joint.relays
  cases p with
  | inbound =>
    simp only [pollParticipant, onChannel, relays.channel]
    cases going : x.results.inbound with
    | some v =>
      simp only [pollInbound, going, Option.isSome_some, if_true]
      exact .rests .inbound (by simp [Results.ended, going])
    | none =>
      have unclosed := joint.unclosed going
      cases signal : x.ctx.signal with
      | some r =>
        rw [pollInbound_stopped going signal relays.channel joint.is_open unclosed]
        exact .inboundStops r going signal
      | none =>
        rw [pollInbound_eq going signal joint.is_open unclosed now]
        exact .inboundFlows _ going signal (Inbound.task_step now _)
  | outbound =>
    simp only [pollParticipant, onChannel, relays.channel]
    cases going : x.results.outbound with
    | some v =>
      simp only [pollOutbound, going, Option.isSome_some, if_true]
      exact .rests .outbound (by simp [Results.ended, going])
    | none =>
      cases signal : x.ctx.signal with
      | some r =>
        rw [pollOutbound_stopped going signal relays.channel joint.is_open]
        exact .outboundStops r going signal
      | none =>
        obtain ⟨p, headers, count, step, same⟩ := pollOutbound_flow going signal joint.is_open now
        rw [same]
        exact .outboundFlows p headers count going signal step
  | reply =>
    simp only [pollParticipant]
    cases going : x.results.reply with
    | some v =>
      simp only [pollReply, going, Option.isSome_some, if_true]
      exact .rests .reply (by simp [Results.ended, going])
    | none =>
      have hears := relays.hears
      rw [going] at hears
      generalize call : x.backend.call = line at hears
      cases hears with
      | listening reading k sound _ _ =>
        cases signal : x.ctx.signal with
        | some r =>
          rw [pollReply_stopped going signal]
          exact .replyStops r reading k going signal call
        | none =>
          obtain ⟨p, step, same⟩ := pollReply_reading going signal call sound now
          rw [same]
          exact .replyReads reading k p going signal call step

theorem Joint.inbound_stops {r : CancelReason} (joint : Joint s now x c)
    (going : x.results.inbound = none) (stopped : x.ctx.signal = some r) :
    ∃ c', Joint s now (x.noteInbound (x.inbound.result (some (.cancelled r)))) c' := by
  have feeds := joint.relays.feeds
  have unclosed := joint.unclosed going
  rw [going, unclosed] at feeds
  have kept : s.Feeds (.ofFlow (x.inbound.flow c.connection.sink)) c.connection.sink false
      (some (x.inbound.result (some (.cancelled r)))) := by
    rw [Inbound.ofFlow_flow]
    exact feeds.stopped
  have concluded := joint.noteInbound going kept fun e is => by
    cases is
    exact .inl ⟨rfl, rfl, fair_cancelled joint.ctx stopped⟩
  rw [fed_self joint.relays.channel unclosed] at concluded
  exact ⟨_, concluded⟩

theorem Joint.inbound_flows {p : Poll Flow (Option RelayError)} (joint : Joint s now x c)
    (going : x.results.inbound = none) (silent : x.ctx.signal = none)
    (step : Flow.Step inflow (x.inbound.flow c.connection.sink) p) :
    ∃ c', Joint s now (p.into (x.fed c false) fun e m =>
      .more ((x.fed c e.isNone m).noteInbound ((Inbound.ofFlow m).result e)) :
        Poll (Exchange WiredBackend) Unit).state c' := by
  have feeds := joint.relays.feeds
  rw [going, joint.unclosed going] at feeds
  cases p with
  | ready e m =>
    refine ⟨_, joint.noteInbound going (feeds.comes_to_end step) fun e' is => ?_⟩
    cases is
    exact fair_untold joint.ctx silent step.untold
  | more m => exact ⟨_, joint.fed (going ▸ feeds.goes_on step fun _ _ is => by cases is)⟩
  | waiting m alarm => exact ⟨_, joint.fed (going ▸ feeds.goes_on step fun _ _ is => by cases is)⟩
  | crashed m => exact ⟨_, joint.fed (going ▸ feeds.goes_on step fun _ _ is => by cases is)⟩

theorem Joint.outbound_stops {r : CancelReason} (joint : Joint s now x c)
    (going : x.results.outbound = none) (stopped : x.ctx.signal = some r) :
    ∃ c', Joint s now (x.noteOutbound (x.outbound.result (some (.cancelled r)))) c' := by
  have draws := joint.relays.draws
  rw [going] at draws
  have kept : s.Draws (.ofFlow x.outbound.response.headers x.outbound.response.bytesWritten
      (x.outbound.flow c.connection.source)) c.connection.source
      (some (x.outbound.result (some (.cancelled r)))) := by
    rw [Outbound.ofFlow_flow]
    exact draws.stopped
  have concluded := joint.noteOutbound going kept fun e is => by
    cases is
    exact .inl ⟨rfl, rfl, fair_cancelled joint.ctx stopped⟩
  rw [drawn_self joint.relays.channel] at concluded
  exact ⟨_, concluded⟩

theorem Joint.outbound_flows {p : Poll Flow (Option RelayError)} (joint : Joint s now x c)
    (going : x.results.outbound = none) (silent : x.ctx.signal = none)
    (step : Flow.Step outflow (x.outbound.flow c.connection.source) p) (headers : Watched Bool)
    (count : Nat) :
    ∃ c', Joint s now (p.into (x.drawn c headers count) fun e m =>
      .more ((x.drawn c headers count m).noteOutbound ((Outbound.ofFlow headers count m).result e)) :
        Poll (Exchange WiredBackend) Unit).state c' := by
  have draws := joint.relays.draws
  rw [going] at draws
  have goes_on := fun ongoing : ∀ e m, p ≠ .ready e m =>
    joint.drawn (going ▸ draws.goes_on step ongoing headers count)
  cases p with
  | ready e m =>
    refine ⟨_, joint.noteOutbound going (draws.comes_to_end step headers count) fun e' is => ?_⟩
    cases is
    exact fair_untold joint.ctx silent step.untold
  | more m => exact ⟨_, goes_on fun _ _ is => by cases is⟩
  | waiting m alarm => exact ⟨_, goes_on fun _ _ is => by cases is⟩
  | crashed m => exact ⟨_, goes_on fun _ _ is => by cases is⟩

theorem heard_self {reading : Wire.Reading} {k : Connection}
    (call : x.backend.call = .listening reading k) :
    x.heard (reading, k) = x := by
  obtain ⟨ctx, ⟨d, patience, request, callDial, channelDial, _, line, dialed⟩, i, o, channel, phase,
    results⟩ := x
  cases call
  rfl

theorem verdict_untold {v : Except Wire.Error Wire.CallReply} {e : CallError}
    (is : WiredBackend.verdict v = .error e) :
    e.told = none := by
  rcases v with _ | ⟨_ | _⟩ <;> cases is <;> rfl

theorem verdict_ok {v : Except Wire.Error Wire.CallReply} :
    WiredBackend.verdict v = .ok () ↔ v = .ok .ok := by
  rcases v with _ | ⟨_ | _⟩ <;> simp [WiredBackend.verdict]

theorem hears_over {reading : Wire.Reading} {k : Connection} {v : Except Wire.Error Wire.CallReply}
    {q : Wire.Reading × Connection}
    (step : Wire.Reading.Step Wire.CallReply.decode reading k (.ready v q))
    (called : s.Called k) : s.Hears (.dropped (some q.2.release))
    (some (WiredBackend.verdict v)) := by
  cases step with
  | ends a r' source frames =>
    refine .answered _ _ called (fun ok => ?_) fun e is _ other => ?_
    · cases verdict_ok.1 ok
      exact frames
    · cases frames.unique other
      cases is
  | fails e r' source none_frames =>
    exact .answered _ _ called (fun ok => by cases verdict_ok.1 ok) fun _ _ _ => none_frames _

theorem Joint.reply_stops {r : CancelReason} {reading : Wire.Reading} {k : Connection}
    (joint : Joint s now x c) (going : x.results.reply = none) (stopped : x.ctx.signal = some r)
    (call : x.backend.call = .listening reading k) :
    Joint s now (x.hungUp.noteReply (.error (.cancelled r))) c := by
  have hears := joint.relays.hears
  rw [going, call] at hears
  cases hears with
  | listening _ _ _ called _ =>
    have concluded := joint.noteReply (q := (reading, k)) going
      (.answered k.release (.error (.cancelled r)) called
        (fun ok => by cases ok) fun e is told => by cases is; cases told)
      fun e is => by
        cases is
        exact .inl ⟨rfl, rfl, fair_cancelled joint.ctx stopped⟩
    rwa [heard_self call] at concluded

theorem Joint.reply_reads {reading : Wire.Reading} {k : Connection}
    {p : Poll (Wire.Reading × Connection) (Except Wire.Error Wire.CallReply)}
    (joint : Joint s now x c) (going : x.results.reply = none) (silent : x.ctx.signal = none)
    (call : x.backend.call = .listening reading k)
    (step : Wire.Reading.Step Wire.CallReply.decode reading k p) :
    Joint s now (p.into x.heard fun v q =>
      .more ((x.heard q).hungUp.noteReply (WiredBackend.verdict v)) :
        Poll (Exchange WiredBackend) Unit).state c := by
  have hears := joint.relays.hears
  rw [going, call] at hears
  cases hears with
  | listening _ _ _ called calm =>
    cases p with
    | ready v q =>
      exact joint.noteReply going (hears_over step called) fun e is =>
        fair_untold joint.ctx silent (verdict_untold is)
    | more q =>
      cases step with
      | goes r' source kept _ calmly =>
        exact joint.heard (going ▸ .listening r' _ kept called fun scene => calmly (calm scene))
    | waiting q alarm =>
      cases step with
      | waits r' source alarm kept _ calmly =>
        exact joint.heard (going ▸ .listening r' _ kept called fun scene => calmly (calm scene))
    | crashed q =>
      cases step with
      | crashes r' source kept crash =>
        exact joint.heard (going ▸ .listening r' _ kept called fun scene =>
          absurd (calm scene) crash)

theorem joint_participant (p : Participant) (there : ∃ c, Joint s now x c) :
    ∃ c, Joint s now (pollParticipant wired now p x).state c := by
  obtain ⟨c, joint⟩ := there
  have does := joint.does p
  generalize pollParticipant wired now p x = turn at does
  cases does with
  | rests p ended => exact ⟨c, joint⟩
  | inboundStops r going stopped => exact joint.inbound_stops going stopped
  | inboundFlows p going silent step => exact joint.inbound_flows going silent step
  | outboundStops r going stopped => exact joint.outbound_stops going stopped
  | outboundFlows p headers count going silent step =>
    exact joint.outbound_flows going silent step headers count
  | replyStops r reading k going stopped call => exact ⟨c, joint.reply_stops going stopped call⟩
  | replyReads reading k p going silent call step =>
    exact ⟨c, joint.reply_reads going silent call step⟩

theorem joint_participants (turns : Turns) (there : ∃ c, Joint s now x c) :
    ∃ c, Joint s now (x.pollParticipants wired turns now).state c := by
  refine Poll.all_state (I := fun x => ∃ c, Joint s now x c) ?_ there
  exact List.forall_mem_map.2 fun q _ _ there => joint_participant q there

/-- The participants are together over only when each of them is. -/
theorem participants_over {turns : Turns} {x' : Exchange WiredBackend} (joint : Joint s now x c)
    (concluded : x.pollParticipants wired turns now = .ready () x') :
    x' = x ∧ x.results.inbound.isSome ∧ x.results.outbound.isSome ∧ x.results.reply.isSome := by
  obtain ⟨same, each⟩ := Poll.all_ready (List.forall_mem_map.2 fun q _ => still q now) concluded
  have turn : ∀ q, pollParticipant wired now q x = .ready () x := fun q =>
    each _ (List.mem_map.2 ⟨q, turns.complete q, rfl⟩)
  have ended : ∀ q, x.results.ended q = true := by
    intro q
    have does := joint.does q
    rw [turn q] at does
    generalize next : (.ready () x : Poll (Exchange WiredBackend) Unit) = step at does
    cases does with
    | rests q ended => exact ended
    | inboundFlows p _ _ _ | outboundFlows p _ _ _ _ _ | replyReads _ _ p _ _ _ _ =>
      cases p <;> cases next
    | inboundStops _ _ _ | outboundStops _ _ _ | replyStops _ _ _ _ _ _ => cases next
  exact ⟨same, ended .inbound, ended .outbound, ended .reply⟩

end Exchange

end PackRelay
