import PackRelay.Proofs.Backend.Opening
import PackRelay.Proofs.Exchange.Scene
import PackRelay.Proofs.Relay.Directions
import PackRelay.Proofs.Sidechannel.Close

/-! One step of an exchange as one step of whatever has its turn: the opening of a connection, a
relay, or the reading of the reply. Under a context that was cancelled every one of them ends and
touches nothing. -/
namespace PackRelay

namespace Exchange

open WiredBackend renaming backend → wired

variable {x : Exchange WiredBackend} {turns : Turns} {now : Nat} {o : Opening} {c : Sidechannel}
    {r : CancelReason}

def started (x : Exchange WiredBackend) (result : Except OpeningError Connection)
    (q : Context × Opening) :
    Poll (Exchange WiredBackend) Report :=
  match result with
  | .ok c =>
    .more { x.setBackend (q.1, x.backend.withCall (.listening .start c)) with phase := .opening }
  | .error e =>
    ((x.setBackend (q.1, x.backend.withCall (CallLine.opening q.2).drop)).failedStart
      (.ofOpening e)).conclude wired

theorem poll_starting_eq (starting : x.phase = .starting) (call : x.backend.call = .opening o)
    (turns : Turns) (now : Nat) :
    x.poll wired turns now =
      (o.poll x.backend.callDestination now x.ctx).into
        (fun q => x.setBackend (q.1, (x.backend.noting o q.2).withCall (.opening q.2)))
        x.started := by
  simp only [poll, starting, pollStart, wired, WiredBackend.pollStart, call]
  cases o.poll x.backend.callDestination now x.ctx with
  | ready value q => cases value <;> rfl
  | _ => rfl

theorem poll_starting (starting : x.phase = .starting) (call : x.backend.call = .opening o)
    (turns : Turns) (now : Nat) :
    ∃ p, Opening.Step x.backend.callDestination now x.ctx o p ∧
      x.poll wired turns now =
        p.into (fun q => x.setBackend (q.1, (x.backend.noting o q.2).withCall (.opening q.2)))
          x.started :=
  ⟨_, o.poll_step x.backend.callDestination now x.ctx, poll_starting_eq starting call turns now⟩

def opened (x : Exchange WiredBackend) (result : Except OpeningError Connection)
    (q : Context × Opening) :
    Poll (Exchange WiredBackend) Report :=
  match result with
  | .ok c =>
    .more { (x.setBackend (q.1, x.backend.withChannel .handedOut)).setChannel
      { id := x.backend.id, connection := c }
      with phase := .relaying }
  | .error e =>
    ((x.setBackend (q.1, x.backend.withChannel (ChannelLine.opening q.2).drop)).failedDial
      (.ofOpening e)).conclude wired

theorem pollDial_cases {b : WiredBackend} (channel : b.channel = .opening o) (now : Nat)
    (ctx : Context) :
    WiredBackend.pollDial now (ctx, b) = b.pollOpening now o ctx ∨
    ∃ r ctx', o = .dialing .fresh ∧ ctx'.signal = some r ∧ ctx.check now = (.error r, ctx') ∧
      WiredBackend.pollDial now (ctx, b) = .ready (.error (.cancelled r))
        (ctx', b.withChannel (.dropped none)) := by
  simp only [WiredBackend.pollDial, channel]
  cases o with
  | greeting w k => exact .inl rfl
  | dialing k =>
    cases k with
    | dialing place wake limit => exact .inl rfl
    | fresh =>
      rcases ctx.check_cases now with ⟨_, checked⟩ | ⟨r, ctx', stopped, checked, _⟩
      · exact .inl (by rw [checked])
      · exact .inr ⟨r, ctx', rfl, stopped, checked, by rw [checked]⟩

/-- A sidechannel is not dialed at all under a context that is over. -/
def pollDialing (d : Destination) (now : Nat) (ctx : Context) :
    Opening → Poll (Context × Opening) (Except OpeningError Connection)
  | .dialing .fresh =>
    match ctx.check now with
    | (.error r, ctx) => .ready (.error (.cancelled r)) (ctx, .dialing .fresh)
    | (.ok (), ctx) => Opening.poll d now ctx (.dialing .fresh)
  | o => o.poll d now ctx

theorem pollDialing_step (d : Destination) (now : Nat) (ctx : Context) (o : Opening) :
    Opening.Step d now ctx o (pollDialing d now ctx o) := by
  unfold pollDialing
  split
  · rcases ctx.check_cases now with ⟨_, checked⟩ | ⟨r, ctx', stopped, checked, _⟩
    · rw [checked]
      exact Opening.poll_step d now ctx _
    · rw [checked]
      exact .late (.cancelled r) r ctx' stopped checked rfl
  · exact o.poll_step d now ctx

theorem pollDial_eq {b : WiredBackend} (channel : b.channel = .opening o) (now : Nat)
    (ctx : Context) :
    WiredBackend.pollDial now (ctx, b) =
      (pollDialing b.channelDestination now ctx o).into
        (fun q => (q.1, (b.noting o q.2).withChannel (.opening q.2))) fun result q =>
          match result with
          | .error e =>
            .ready (.error (.ofOpening e)) (q.1, b.withChannel (ChannelLine.opening q.2).drop)
          | .ok c => .ready (.ok { id := b.id, connection := c }) (q.1, b.withChannel .handedOut) := by
  simp only [WiredBackend.pollDial, channel]
  cases o with
  | greeting w k => rfl
  | dialing k =>
    cases k with
    | dialing place wake limit => rfl
    | fresh =>
      simp only [pollDialing]
      rcases ctx.check_cases now with ⟨_, checked⟩ | ⟨r, ctx', _, checked, _⟩
      · rw [checked]
        rfl
      · rw [checked]
        rfl

theorem poll_opening_eq (opening : x.phase = .opening) (channel : x.backend.channel = .opening o)
    (turns : Turns) (now : Nat) :
    x.poll wired turns now =
      (pollDialing x.backend.channelDestination now x.ctx o).into
        (fun q => x.setBackend (q.1, (x.backend.noting o q.2).withChannel (.opening q.2)))
        x.opened := by
  simp only [poll, opening, pollOpen, wired, pollDial_eq channel]
  cases pollDialing x.backend.channelDestination now x.ctx o with
  | ready value q => cases value <;> rfl
  | _ => rfl

theorem poll_opening (opening : x.phase = .opening) (channel : x.backend.channel = .opening o)
    (turns : Turns) (now : Nat) :
    ∃ p, Opening.Step x.backend.channelDestination now x.ctx o p ∧
      x.poll wired turns now =
        p.into (fun q => x.setBackend (q.1, (x.backend.noting o q.2).withChannel (.opening q.2)))
          x.opened :=
  ⟨_, pollDialing_step x.backend.channelDestination now x.ctx o,
    poll_opening_eq opening channel turns now⟩

def noteInbound (x : Exchange WiredBackend) (v : RelayResult) : Exchange WiredBackend :=
  { x.cancelUnless v.isOk with results := { x.results with inbound := some v } }

def noteOutbound (x : Exchange WiredBackend) (v : RelayResult) : Exchange WiredBackend :=
  { x.cancelUnless v.isOk with results := { x.results with outbound := some v } }

def noteReply (x : Exchange WiredBackend) (v : Except CallError Unit) : Exchange WiredBackend :=
  { x.cancelUnless v.isOk with results := { x.results with reply := some v } }

theorem setChannel_self (channel : x.channel = some c) : x.setChannel c = x := by
  obtain ⟨ctx, b, i, o, _, phase, results⟩ := x
  cases channel
  rfl

def fed (x : Exchange WiredBackend) (c : Sidechannel) (closed : Bool) (m : Flow) :
    Exchange WiredBackend :=
  { x.setChannel (c.fed m.sink closed) with inbound := .ofFlow m }

theorem pollInbound_eq (going : x.results.inbound = none) (silent : x.ctx.signal = none)
    (is_open : c.isOpen = true) (unclosed : c.writeClosed = false) (now : Nat) :
    x.pollInbound now c =
      (Inbound.task now (x.inbound.flow c.connection.sink)).into (x.fed c false) fun e m =>
        .more ((x.fed c e.isNone m).noteInbound ((Inbound.ofFlow m).result e)) := by
  simp only [pollInbound, going, Option.isSome_none, Bool.false_eq_true, if_false,
    x.inbound.poll_eq silent is_open unclosed]
  cases Inbound.task now (x.inbound.flow c.connection.sink) <;> rfl

theorem pollInbound_stopped (going : x.results.inbound = none) (stopped : x.ctx.signal = some r)
    (channel : x.channel = some c) (is_open : c.isOpen = true) (unclosed : c.writeClosed = false)
    (now : Nat) :
    x.pollInbound now c = .more (x.noteInbound (x.inbound.result (some (.cancelled r)))) := by
  simp only [pollInbound, going, Option.isSome_none, Bool.false_eq_true, if_false,
    x.inbound.poll_stopped stopped is_open unclosed now, Poll.into_ready, setChannel_self channel]
  rfl

def drawn (x : Exchange WiredBackend) (c : Sidechannel) (headers : Watched Bool) (count : Nat)
    (m : Flow) : Exchange WiredBackend :=
  { x.setChannel (c.drawn m.source) with outbound := .ofFlow headers count m }

theorem pollOutbound_eq {read : Poll Source (Except IoError Bytes)} (going : x.results.outbound = none)
    (silent : x.ctx.signal = none) (is_open : c.isOpen = true)
    (same : c.connection.pollRead now relayBuffer = read.within c.connection.setSource) :
    ∃ count, x.pollOutbound now c =
      (Outbound.moves now read
          (x.outbound.flow c.connection.source, x.outbound.response.headers)).into
        (fun (m, headers) => x.drawn c headers count m) fun e (m, headers) =>
          .more ((x.drawn c headers count m).noteOutbound
            ((Outbound.ofFlow headers count m).result e)) := by
  obtain ⟨count, same⟩ := x.outbound.poll_eq silent is_open same
  refine ⟨count, ?_⟩
  simp only [pollOutbound, going, Option.isSome_none, Bool.false_eq_true, if_false, same]
  cases Outbound.moves now read (x.outbound.flow c.connection.source, x.outbound.response.headers)
    <;> rfl

theorem pollOutbound_flow (going : x.results.outbound = none) (silent : x.ctx.signal = none)
    (is_open : c.isOpen = true) (now : Nat) :
    ∃ p headers count, Flow.Step outflow (x.outbound.flow c.connection.source) p ∧
      x.pollOutbound now c = p.into (x.drawn c headers count) fun e m =>
        .more ((x.drawn c headers count m).noteOutbound
            ((Outbound.ofFlow headers count m).result e)) := by
  obtain ⟨read, step, same⟩ := c.connection.pollRead_step now relayBuffer
  obtain ⟨count, same⟩ := pollOutbound_eq going silent is_open same
  let m := x.outbound.flow c.connection.source
  refine ⟨m.poll outflow now read (m.sink.pollFlush now),
    m.stage.commits x.outbound.response.headers, count, Outbound.moves_step step now, ?_⟩
  rw [same, Outbound.moves]
  cases m.poll outflow now read (m.sink.pollFlush now) <;> rfl

theorem pollOutbound_stopped (going : x.results.outbound = none) (stopped : x.ctx.signal = some r)
    (channel : x.channel = some c) (is_open : c.isOpen = true) (now : Nat) :
    x.pollOutbound now c = .more (x.noteOutbound (x.outbound.result (some (.cancelled r)))) := by
  simp only [pollOutbound, going, Option.isSome_none, Bool.false_eq_true, if_false,
    x.outbound.poll_stopped stopped is_open now, Poll.into_ready, setChannel_self channel]
  rfl

def heard (x : Exchange WiredBackend) (q : Wire.Reading × Connection) : Exchange WiredBackend :=
  { x with backend := x.backend.withCall (.listening q.1 q.2) }

def hungUp (x : Exchange WiredBackend) :
    Exchange WiredBackend := { x with backend := x.backend.release }

theorem pollReply_eq {reading : Wire.Reading} {k : Connection} (going : x.results.reply = none)
    (silent : x.ctx.signal = none) (call : x.backend.call = .listening reading k) (now : Nat) :
    x.pollReply wired now = (reading.poll Wire.CallReply.decode now k).into x.heard fun v q =>
      .more ((x.heard q).hungUp.noteReply (WiredBackend.verdict v)) := by
  simp only [pollReply, going, Option.isSome_none, Bool.false_eq_true, if_false, wired,
    WiredBackend.pollReply, call, Context.guard_of_silent silent]
  cases reading.poll Wire.CallReply.decode now k <;> rfl

theorem pollReply_reading {reading : Wire.Reading} {k : Connection} (going : x.results.reply = none)
    (silent : x.ctx.signal = none) (call : x.backend.call = .listening reading k)
    (sound : reading.Sound k.source.delivered) (now : Nat) :
    ∃ p, Wire.Reading.Step Wire.CallReply.decode reading k p ∧
      x.pollReply wired now = p.into x.heard fun v q =>
        .more ((x.heard q).hungUp.noteReply (WiredBackend.verdict v)) :=
  ⟨_, Wire.Reading.poll_step now sound, pollReply_eq going silent call now⟩

theorem pollReply_stopped (going : x.results.reply = none) (stopped : x.ctx.signal = some r)
    (now : Nat) :
    x.pollReply wired now = .more (x.hungUp.noteReply (.error (.cancelled r))) := by
  simp only [pollReply, going, Option.isSome_none, Bool.false_eq_true, if_false,
    Context.guard_of_signal stopped]
  rfl

end Exchange

def Results.ended (r : Results) : Participant → Bool
  | .inbound => r.inbound.isSome
  | .outbound => r.outbound.isSome
  | .reply => r.reply.isSome

namespace Exchange

open WiredBackend renaming backend → wired

variable {x : Exchange WiredBackend} {turns : Turns} {now : Nat} {c : Sidechannel}

/-- All that a participant can do when it has its turn. -/
inductive Does (x : Exchange WiredBackend) (c : Sidechannel) :
    Participant → Poll (Exchange WiredBackend) Unit → Prop
  | rests (p : Participant) : x.results.ended p = true → Does x c p (.ready () x)
  | inboundStops (r : CancelReason) :
    x.results.inbound = none → x.ctx.signal = some r →
      Does x c .inbound (.more (x.noteInbound (x.inbound.result (some (.cancelled r)))))
  | inboundFlows (p : Poll Flow (Option RelayError)) :
    x.results.inbound = none → x.ctx.signal = none →
      Flow.Step inflow (x.inbound.flow c.connection.sink) p →
      Does x c .inbound (p.into (x.fed c false) fun e m =>
        .more ((x.fed c e.isNone m).noteInbound ((Inbound.ofFlow m).result e)))
  | outboundStops (r : CancelReason) :
    x.results.outbound = none → x.ctx.signal = some r →
      Does x c .outbound (.more (x.noteOutbound (x.outbound.result (some (.cancelled r)))))
  | outboundFlows (p : Poll Flow (Option RelayError)) (headers : Watched Bool) (count : Nat) :
    x.results.outbound = none → x.ctx.signal = none →
      Flow.Step outflow (x.outbound.flow c.connection.source) p →
      Does x c .outbound (p.into (x.drawn c headers count) fun e m =>
        .more ((x.drawn c headers count m).noteOutbound ((Outbound.ofFlow headers count m).result e)))
  | replyStops (r : CancelReason) (reading : Wire.Reading) (k : Connection) :
    x.results.reply = none → x.ctx.signal = some r → x.backend.call = .listening reading k →
      Does x c .reply (.more (x.hungUp.noteReply (.error (.cancelled r))))
  | replyReads (reading : Wire.Reading) (k : Connection)
    (p : Poll (Wire.Reading × Connection) (Except Wire.Error Wire.CallReply)) :
    x.results.reply = none → x.ctx.signal = none → x.backend.call = .listening reading k →
      Wire.Reading.Step Wire.CallReply.decode reading k p →
      Does x c .reply (p.into x.heard fun v q =>
        .more ((x.heard q).hungUp.noteReply (WiredBackend.verdict v)))

theorem poll_closing (closing : x.phase = .closing) (channel : x.channel = some c) (turns : Turns)
    (now : Nat) :
    ∃ p, c.CloseStep now p ∧
      x.poll wired turns now = p.into x.setChannel fun _ c => (x.setChannel c).conclude wired := by
  refine ⟨_, c.pollClose_step now, ?_⟩
  simp only [poll, closing, pollClosing, channel]

theorem still {κ : Type} {b : Backend κ} (p : Participant) (now : Nat) :
    Poll.Still (pollParticipant b now p) := by
  intro x x' concluded
  cases p with
  | inbound =>
    simp only [pollParticipant, onChannel] at concluded
    split at concluded
    · simp only [pollInbound] at concluded
      split at concluded
      · cases concluded; rfl
      · simp only [Poll.into] at concluded
        split at concluded <;> cases concluded
    · cases concluded; rfl
  | outbound =>
    simp only [pollParticipant, onChannel] at concluded
    split at concluded
    · simp only [pollOutbound] at concluded
      split at concluded
      · cases concluded; rfl
      · simp only [Poll.into] at concluded
        split at concluded <;> cases concluded
    · cases concluded; rfl
  | reply =>
    simp only [pollParticipant, pollReply] at concluded
    split at concluded
    · cases concluded; rfl
    · simp only [Poll.into] at concluded
      split at concluded <;> cases concluded

end Exchange
end PackRelay
