import PackRelay.Proofs.Exchange.Ending

/-! What an exchange delivers. At every moment, and however it ends, the backend has got a part of
the hello and the body, and the client a part of what the backend sent, in order and once; an
exchange succeeds exactly when both have got all of it and the reply was good. -/
namespace PackRelay

/-- The connection of the sidechannel, whoever holds it. -/
def Exchange.channelConnection? (x : Exchange WiredBackend) : Option Connection :=
  match x.channel with
  | some c => some c.connection
  | none => x.backend.channel.connection?

theorem CallLine.drop_connection (l : CallLine) :
    l.drop.connection? = l.connection? ∨ l.drop.connection? =
      l.connection?.map Connection.release := by
  cases l with
  | opening o => exact .inr rfl
  | listening reading k => exact .inr rfl
  | dropped k => exact .inl rfl

theorem ChannelLine.drop_connection (l : ChannelLine) :
    l.drop.connection? = l.connection? ∨ l.drop.connection? =
      l.connection?.map Connection.release := by
  cases l with
  | opening o => exact .inr rfl
  | handedOut => exact .inl rfl
  | dropped k => exact .inl rfl

theorem Sidechannel.drop_connection (c : Sidechannel) :
    c.drop.connection = c.connection.release := by
  unfold Sidechannel.drop
  split <;> rfl

theorem Exchange.hungUp_connection (x : Exchange WiredBackend) :
    x.hungUp.channelConnection? = x.channelConnection? ∨
      x.hungUp.channelConnection? = x.channelConnection?.map Connection.release := by
  obtain ⟨ctx, b, i, o, channel, phase, results⟩ := x
  cases channel with
  | some c => exact .inl rfl
  | none => exact b.channel.drop_connection

theorem Exchange.released_connection (x : Exchange WiredBackend) :
    (x.release WiredBackend.backend).channelConnection? = x.channelConnection? ∨
      (x.release WiredBackend.backend).channelConnection? =
    x.channelConnection?.map Connection.release := by
  obtain ⟨ctx, b, i, o, channel, phase, results⟩ := x
  cases channel with
  | some c => exact .inr (congrArg some c.drop_connection)
  | none => exact b.channel.drop_connection

namespace Scene

open Exchange
open WiredBackend renaming backend → wired

def bodyBytes (s : Scene) : Bytes := (Source.ofEvents s.body).delivers

/-- Nothing is on its way that does not belong there. -/
structure Partial (s : Scene) (x : Exchange WiredBackend) : Prop where
  sent : ∀ k, x.channelConnection? = some k →
    k.sink.written = [] ∨
      ∃ hello, Wire.frame s.channelHello = .ok hello ∧ k.sink.written <+: hello ++ s.bodyBytes
  received : ∀ k, x.channelConnection? = some k →
    x.outbound.response.sink.written <+: k.source.delivered
  nothing : x.channelConnection? = none → x.outbound.response.sink.written = []

variable {s : Scene} {now t n k : Nat} {x x' y : Exchange WiredBackend} {a : Report}
    {c : Sidechannel}

theorem Untouched.response (untouched : s.Untouched x) : x.outbound.response.sink.written = [] := by
  rw [untouched.outbound]
  rfl

theorem Begun.sent {c : Connection} (begun : Opening.Begun s.backend.channelDestination c) :
    c.sink.written = [] ∨ ∃ hello, Wire.frame s.channelHello = .ok hello ∧
      c.sink.written <+: hello ++ s.bodyBytes := by
  obtain ⟨c₀, answer, _, _, written⟩ := begun
  obtain ⟨events, plan, _, rfl⟩ := Listener.answer_connected (l := s.channelListener) answer
  rcases written with same | ⟨bs, framed, part⟩
  · exact .inl same
  · exact .inr ⟨bs, framed, part.trans (List.prefix_append bs s.bodyBytes)⟩

theorem partial_of_unopened (unopened : x.channel = none)
    (empty : x.outbound.response.sink.written = [])
    (begun : ∀ k, x.backend.channel.connection? = some k →
      Opening.Begun s.backend.channelDestination k) : s.Partial x := by
  have channel : x.channelConnection? = x.backend.channel.connection? := by
    simp only [channelConnection?, unopened]
  refine ⟨fun k there => ?_, fun k _ => ?_, fun _ => empty⟩
  · rw [channel] at there
    exact Begun.sent (begun k there)
  · rw [empty]
    exact List.nil_prefix

theorem Relays.partial (relays : s.Relays x c) : s.Partial x := by
  have channel : x.channelConnection? = some c.connection := by
    simp only [channelConnection?, relays.channel]
  constructor
  · intro k there
    rw [channel] at there
    cases there
    obtain ⟨hello, framed, flows⟩ := relays.feeds.flows
    refine .inr ⟨hello, framed, ?_⟩
    have written := flows.sound.written
    have whole := relays.feeds.whole
    refine ⟨(x.inbound.flow c.connection.sink).stage.rest ++ x.inbound.body.delivers, ?_⟩
    rw [bodyBytes, ← whole, ← List.append_assoc, ← List.append_assoc]
    exact congrArg (· ++ _) written
  · intro k there
    rw [channel] at there
    cases there
    exact ⟨_, relays.draws.flows.sound.written⟩
  · intro none_there
    rw [channel] at none_there
    cases none_there

theorem Sound.partial (sound : s.Sound now x) : s.Partial x := by
  cases sound.stands with
  | starting o phase call opens channel untouched =>
    exact partial_of_unopened untouched.channel untouched.response fun k there => by
      rw [channel] at there; cases there
  | opening k₀ o phase call greeted channel opens untouched =>
    refine partial_of_unopened untouched.channel untouched.response ?_
    intro k there
    rw [channel] at there
    cases o with
    | dialing _ => cases there
    | greeting w k =>
      cases there
      exact opens.begun
  | relaying c phase relays is_open unlimited => exact relays.partial
  | closing c phase relays inbound outbound reply held => exact relays.partial

/-- A state whose streams carried the same. -/
structure Carried (x x' : Exchange WiredBackend) : Prop where
  channel : ∀ k, x'.channelConnection? = some k →
    ∃ k₀, x.channelConnection? = some k₀ ∧ k.sink.written = k₀.sink.written ∧ k.source = k₀.source
  none : x'.channelConnection? = none → x.channelConnection? = none
  response : x'.outbound.response = x.outbound.response

theorem Carried.partial (carried : Carried x x') (here : s.Partial x) : s.Partial x' := by
  constructor
  · intro k there
    obtain ⟨k₀, there₀, written, _⟩ := carried.channel k there
    rw [written]
    exact here.sent k₀ there₀
  · intro k there
    obtain ⟨k₀, there₀, _, source⟩ := carried.channel k there
    rw [source, carried.response]
    exact here.received k₀ there₀
  · intro none_there
    rw [carried.response]
    exact here.nothing (carried.none none_there)

theorem carried_release (x : Exchange WiredBackend) : Carried x (x.release wired) := by
  refine ⟨fun k there => ?_, fun unheld => ?_, rfl⟩
  · rcases released_connection x with same | same <;> rw [same] at there
    · exact ⟨k, there, rfl, rfl⟩
    · obtain ⟨k₀, there₀, rfl⟩ := Option.map_eq_some_iff.1 there
      exact ⟨k₀, there₀, rfl, rfl⟩
  · rcases released_connection x with same | same <;> rw [same] at unheld
    · exact unheld
    · exact Option.map_eq_none_iff.1 unheld

theorem Sidechannel.CloseStep.carried {v : Except SidechannelError Unit} {c' : Sidechannel}
    (step : c.CloseStep now (.ready v c')) :
    c'.connection.sink.written = c.connection.sink.written ∧ c'.connection.source =
      c.connection.source := by
  cases step with
  | closed _ _ => exact ⟨rfl, rfl⟩
  | halfClosed _ _ _ => exact ⟨rfl, rfl⟩
  | ends limit _ q _ _ shut _ => exact ⟨shut.only.written, rfl⟩

theorem Ending.partial (sound : s.Sound now x) (ending : s.Ending now x y) : s.Partial y := by
  cases ending with
  | start o e q call untouched step opens _ =>
    exact Carried.partial (x := x)
      ⟨fun k there => ⟨k, there, rfl, rfl⟩, fun none_there => none_there, rfl⟩ sound.partial
  | dial o e q channel untouched step opens _ =>
    refine partial_of_unopened untouched.channel untouched.response ?_
    intro k there
    obtain ⟨k₀, there₀, rfl⟩ := Option.map_eq_some_iff.1 there
    have begun : Opening.Begun s.backend.channelDestination k₀ := step.connection_begun opens there₀
    exact begun
  | close c c' v phase relays _ _ _ step =>
    have held : x.channelConnection? = some c.connection := by
      simp only [channelConnection?, relays.channel]
    obtain ⟨written, source⟩ := Sidechannel.CloseStep.carried step
    refine Carried.partial ⟨fun k there => ⟨c.connection, held, ?_⟩,
      fun none_there => (nomatch none_there), rfl⟩ sound.partial
    cases there
    exact ⟨written, source⟩

theorem Sound.of_crashed (sound : s.Sound now x) (step : s.poll now x = .crashed x') :
    s.Sound now x' := by
  have kept := sound.poll (by rw [step]; exact fun _ _ is => nomatch is)
  rwa [step] at kept

theorem Sound.of_waiting {alarm : Option Nat} (sound : s.Sound now x)
    (step : s.poll now x = .waiting x' alarm) :
    s.Sound now x' := by
  have kept := sound.poll (by rw [step]; exact fun _ _ is => nomatch is)
  rwa [step] at kept

/-- Whatever becomes of an exchange, all that it sent or delivered belongs there. -/
theorem partial_after (s : Scene) (n : Nat) : s.Partial (s.after n).state :=
  (Invariant.trivial s).after (fun _ _ sound _ => sound.partial)
    (fun _ _ _ sound _ ending => ending.partial sound) (fun x => (carried_release x).partial) n

end Scene
end PackRelay
