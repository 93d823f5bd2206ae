import PackRelay.Proofs.Exchange.Progress

/-! What an exchange has done on its connections stays done. A connection that was dialed is never
exchanged for another or forgotten, and no octet that was written to it is taken back. -/
namespace PackRelay

/-- A later state of a sink. -/
structure Sink.Onward (s s' : Sink) : Prop where
  written : s.written <+: s'.written
  flushes : s.flushes ≤ s'.flushes

namespace Sink.Onward

variable {s s' s'' : Sink} {bs : Bytes}

theorem refl (s : Sink) : s.Onward s := ⟨List.prefix_rfl, le_rfl⟩

theorem trans (one : s.Onward s') (two : s'.Onward s'') : s.Onward s'' :=
  ⟨one.written.trans two.written, le_trans one.flushes two.flushes⟩

theorem of_write {p : Poll (Bytes × Sink) (Except IoError Unit)} (step : s.WriteStep bs p) :
    s.Onward p.state.2 := by
  refine ⟨?_, step.onlyWrites.flushes.ge⟩
  cases step with
  | takesAll => simp [Poll.state]
  | takes k _ _ => simp [Poll.state]
  | fails e s' made => rcases made with rfl | rfl <;> simp [Poll.state]
  | _ => exact List.prefix_rfl

theorem of_flush {p : Poll Sink (Except IoError Unit)} (step : s.FlushStep p) :
    s.Onward p.state := by
  refine ⟨step.only.written ▸ List.prefix_rfl, ?_⟩
  cases step <;> simp [Poll.state, flushed]

theorem of_shutdown {p : Poll Sink (Except IoError Unit)} (step : s.ShutdownStep p) :
    s.Onward p.state := by
  refine ⟨step.only.written ▸ List.prefix_rfl, ?_⟩
  cases step <;> exact le_rfl

theorem of_sending {w : Wire.Writing} {p : Poll (Wire.Writing × Sink) (Except Wire.Error Unit)}
    (step : Wire.Writing.Step s w p) : s.Onward p.state.2 := by
  cases step with
  | sends _ _ _ write | sent _ _ _ write | stalls _ _ _ _ write | sendFails _ _ _ _ write
  | sendCrashes _ _ _ write => exact of_write write
  | flushes _ flush | lingers _ _ flush | flushFails _ _ flush | flushCrashes _ flush =>
    exact of_flush flush

theorem of_inflow {m : Flow} {p : Poll Flow (Option RelayError)} (step : Flow.Step inflow m p) :
    m.sink.Onward p.state.sink := by
  cases step with
  | takes _ _ _ _ _ write | passes _ _ _ _ _ write | stalls _ _ _ _ _ _ write
  | writeFails _ _ _ _ _ _ write | writeCrashes _ _ _ _ _ write => exact of_write write
  | finishes _ _ finish | lingers _ _ _ finish | finishFails _ _ _ finish
  | finishCrashes _ _ finish => exact of_shutdown finish
  | _ => exact refl _

end Sink.Onward

/-- A connection that is there stays, and goes on. -/
def Connection.Stays (before after : Option Connection) : Prop :=
  ∀ k, before = some k → ∃ k', after = some k' ∧ k.sink.Onward k'.sink

namespace Connection.Stays

variable {before between after : Option Connection}

theorem refl (k : Option Connection) : Stays k k := fun k there => ⟨k, there, .refl _⟩

theorem trans (one : Stays before between) (two : Stays between after) : Stays before after := by
  intro k there
  obtain ⟨k', there', first⟩ := one k there
  obtain ⟨k'', there'', second⟩ := two k' there'
  exact ⟨k'', there'', first.trans second⟩

theorem of_released (dropped : after = before ∨ after = before.map Connection.release) :
    Stays before after := by
  intro k there
  rcases dropped with same | same
  · exact ⟨k, same.trans there, .refl k.sink⟩
  · exact ⟨k.release, by rw [same, there]; rfl, ⟨List.prefix_rfl, le_rfl⟩⟩

theorem of_some {k k' : Connection} (onward : k.sink.Onward k'.sink) :
    Stays (some k) (some k') := by
  rintro _ ⟨⟩
  exact ⟨k', rfl, onward⟩

theorem of_none (unheld : before = none) : Stays before after := by
  intro k there
  rw [unheld] at there
  cases there

end Connection.Stays

theorem Opening.Step.stays {d : Destination} {now : Nat} {ctx : Context} {o : Opening}
    {p : Poll (Context × Opening) (Except OpeningError Connection)} (h : Step d now ctx o p) :
    Connection.Stays o.connection? p.state.2.connection? := by
  cases h with
  | sends _ _ _ _ _ step | stalls _ _ _ _ _ _ step | sent _ _ _ _ _ step
  | sendFails _ _ _ _ _ _ step | sendCrashes _ _ _ _ _ step =>
    exact .of_some (.of_sending step)
  | stops _ _ _ _ _ => exact .refl _
  | _ => exact .of_none rfl

theorem Opening.Step.connection_ok {d : Destination} {now : Nat} {ctx : Context} {o : Opening}
    {c : Connection} {q : Context × Opening} (h : Step d now ctx o (.ready (.ok c) q)) :
    q.2.connection? = some c := by
  cases h
  rfl

theorem Sidechannel.CloseStep.onward {now : Nat} {c : Sidechannel}
    {p : Poll Sidechannel (Except SidechannelError Unit)}
    (step : c.CloseStep now p) : c.connection.sink.Onward p.state.connection.sink := by
  cases step with
  | ends _ _ q _ _ shut _ =>
    have onward := Sink.Onward.of_shutdown shut
    exact ⟨onward.written, onward.flushes⟩
  | waits _ _ _ _ _ shut _ | crashes _ _ _ _ shut => exact .of_shutdown shut
  | halfClosed _ _ _ => exact ⟨List.prefix_rfl, le_rfl⟩
  | _ => exact .refl _

namespace Exchange

open WiredBackend renaming backend → wired

/-- A later state of an exchange. -/
structure Later (x x' : Exchange WiredBackend) : Prop where
  dialed : x.backend.dialed <+: x'.backend.dialed
  call : Connection.Stays x.backend.call.connection? x'.backend.call.connection?
  channel : Connection.Stays x.channelConnection? x'.channelConnection?

variable {x x' x'' : Exchange WiredBackend} {c : Sidechannel} {s : Scene} {now : Nat}

theorem Later.refl (x : Exchange WiredBackend) : Later x x :=
  ⟨List.prefix_rfl, .refl _, .refl _⟩

theorem Later.trans (one : Later x x') (two : Later x' x'') : Later x x'' :=
  ⟨one.dialed.trans two.dialed, one.call.trans two.call, one.channel.trans two.channel⟩

theorem later_of_same (backend : x'.backend = x.backend) (channel : x'.channel = x.channel) :
    Later x x' := by
  refine ⟨backend ▸ List.prefix_rfl, backend ▸ .refl _, ?_⟩
  simp only [channelConnection?, backend, channel]
  exact .refl _

theorem later_hungUp (x : Exchange WiredBackend) : Later x x.hungUp :=
  ⟨List.prefix_rfl, .of_released x.backend.call.drop_connection, .of_released x.hungUp_connection⟩

theorem later_release (x : Exchange WiredBackend) : Later x (x.release wired) :=
  ⟨List.prefix_rfl, .of_released x.backend.call.drop_connection,
    .of_released x.released_connection⟩

theorem later_setChannel {d : Sidechannel} (channel : x.channel = some c)
    (onward : c.connection.sink.Onward d.connection.sink) : Later x (x.setChannel d) := by
  refine ⟨List.prefix_rfl, .refl _, ?_⟩
  simp only [channelConnection?, channel, setChannel]
  exact .of_some onward

theorem later_noteInbound (x : Exchange WiredBackend) (v : RelayResult) :
    Later x (x.noteInbound v) := by
  cases ok : v.isOk <;> simp only [noteInbound, ok] <;> exact later_of_same rfl rfl

theorem later_noteOutbound (x : Exchange WiredBackend) (v : RelayResult) :
    Later x (x.noteOutbound v) := by
  cases ok : v.isOk <;> simp only [noteOutbound, ok] <;> exact later_of_same rfl rfl

theorem later_noteReply (x : Exchange WiredBackend) (v : Except CallError Unit) :
    Later x (x.noteReply v) := by
  cases ok : v.isOk <;> simp only [noteReply, ok] <;> exact later_of_same rfl rfl

theorem later_heard {reading reading' : Wire.Reading} {k : Connection} {source : Source}
    (call : x.backend.call = .listening reading k) :
    Later x (x.heard (reading', k.setSource source)) := by
  refine ⟨List.prefix_rfl, ?_, .refl _⟩
  rw [call]
  exact .of_some (.refl k.sink)

theorem Joint.later (joint : Joint s now x c) (p : Participant) :
    Later x (pollParticipant wired now p x).state := by
  have channel := joint.relays.channel
  have does := joint.does p
  generalize pollParticipant wired now p x = turn at does ⊢
  cases does with
  | rests p ended => exact .refl x
  | inboundStops r going stopped => exact later_noteInbound x _
  | inboundFlows p going silent step =>
    have fed : ∀ closed, Later x (x.fed c closed p.state) := fun closed =>
      (later_setChannel channel (d := c.fed p.state.sink closed) (.of_inflow step)).trans
        (later_of_same rfl rfl)
    cases p with
    | ready e m => exact (fed e.isNone).trans (later_noteInbound _ _)
    | more m => exact fed false
    | waiting m alarm => exact fed false
    | crashed m => exact fed false
  | outboundStops r going stopped => exact later_noteOutbound x _
  | outboundFlows p headers count going silent step =>
    have drawn : Later x (x.drawn c headers count p.state) :=
      (later_setChannel channel (d := c.drawn p.state.source) (.refl c.connection.sink)).trans
        (later_of_same rfl rfl)
    cases p with
    | ready e m => exact drawn.trans (later_noteOutbound _ _)
    | more m => exact drawn
    | waiting m alarm => exact drawn
    | crashed m => exact drawn
  | replyStops r reading k going stopped call => exact (later_hungUp x).trans (later_noteReply _ _)
  | replyReads reading k p going silent call step =>
    cases step with
    | ends _ r' source _ | fails _ r' source _ =>
      exact ((later_heard call).trans (later_hungUp _)).trans (later_noteReply _ _)
    | goes r' source _ _ _ | waits r' source _ _ _ _ | crashes r' source _ _ =>
      exact later_heard call

theorem Joint.later_participants (joint : Joint s now x c) (turns : Turns) :
    Later x (x.pollParticipants wired turns now).state := by
  refine (Poll.all_state (I := fun y => (∃ c, Joint s now y c) ∧ Later x y) ?_
    ⟨⟨c, joint⟩, .refl x⟩).2
  refine List.forall_mem_map.2 fun p _ y here => ?_
  obtain ⟨⟨c', joint'⟩, later⟩ := here
  exact ⟨joint_participant p ⟨c', joint'⟩, later.trans (joint'.later p)⟩

end Exchange

namespace Scene

open Exchange
open WiredBackend renaming backend → wired

variable {s : Scene} {now now' t n m : Nat} {x x' y : Exchange WiredBackend} {c : Sidechannel}

theorem later_starting {o : Opening} {line : CallLine} (call : x.backend.call = .opening o)
    (dialed : x.backend.dialed <+: x'.backend.dialed) (is : x'.backend.call = line)
    (stays : Connection.Stays o.connection? line.connection?)
    (same : x'.channelConnection? = x.channelConnection?) : Later x x' := by
  refine ⟨dialed, ?_, same ▸ .refl _⟩
  rw [call, is]
  exact stays

theorem later_opening {o : Opening} (untouched : s.Untouched x)
    (channel : x.backend.channel = .opening o) (dialed : x.backend.dialed <+: x'.backend.dialed)
    (call : x'.backend.call = x.backend.call)
    (stays : Connection.Stays o.connection? x'.channelConnection?) : Later x x' := by
  refine ⟨dialed, call ▸ .refl _, ?_⟩
  have before : x.channelConnection? = o.connection? := by
    simp only [channelConnection?, untouched.channel, channel]
    rfl
  rwa [before]

theorem Sound.later (sound : s.Sound now x) (ongoing : ∀ a x', s.poll now x ≠ .ready a x') :
    Later x (s.poll now x).state := by
  simp only [Scene.poll] at ongoing ⊢
  cases sound.stands with
  | starting o phase call opens channel untouched =>
    obtain ⟨p, step, same⟩ := poll_starting phase call (s.turns now x) now
    rw [same] at ongoing ⊢
    have stays := step.stays
    cases p with
    | ready value q =>
      cases value with
      | error e => exact absurd rfl (ongoing _ _)
      | ok k =>
        have stays : Connection.Stays o.connection? (some k) := step.connection_ok ▸ stays
        exact later_starting call List.prefix_rfl rfl stays rfl
    | more q => exact later_starting call (List.prefix_append _ _) rfl stays rfl
    | waiting q alarm => exact later_starting call (List.prefix_append _ _) rfl stays rfl
    | crashed q => exact later_starting call (List.prefix_append _ _) rfl stays rfl
  | opening k o phase call greeted channel opens untouched =>
    obtain ⟨p, step, same⟩ := poll_opening phase channel (s.turns now x) now
    rw [same] at ongoing ⊢
    have stays := step.stays
    cases p with
    | ready value q =>
      cases value with
      | error e => exact absurd rfl (ongoing _ _)
      | ok k' =>
        have stays : Connection.Stays o.connection? (some k') := step.connection_ok ▸ stays
        exact later_opening untouched channel List.prefix_rfl rfl stays
    | more q | waiting q alarm | crashed q =>
      refine later_opening untouched channel (List.prefix_append _ _) rfl ?_
      simp only [channelConnection?, setBackend, untouched.channel, Poll.into, Poll.state]
      exact stays
  | relaying c phase relays is_open unlimited =>
    have later := (sound.joint phase relays is_open unlimited).later_participants (s.turns now x)
    simp only [Exchange.poll, phase, pollRelaying]
    cases step : x.pollParticipants wired (s.turns now x) now <;> rw [step] at later
    case ready _ x' => exact later.trans (later_of_same rfl rfl)
    all_goals exact later
  | closing c phase relays inbound outbound reply held =>
    obtain ⟨p, step, same⟩ := poll_closing phase relays.channel (s.turns now x) now
    have onward := step.onward
    rw [same] at ongoing ⊢
    cases p with
    | ready v c' => exact absurd rfl (ongoing _ _)
    | _ => exact later_setChannel relays.channel onward

theorem Ending.later (ending : s.Ending now x y) : Later x y := by
  cases ending with
  | start o e q call untouched step opens _ =>
    have stays : Connection.Stays o.connection? (CallLine.opening q.2).drop.connection? :=
      step.stays.trans (.of_released (.inr rfl))
    exact later_starting call List.prefix_rfl rfl stays rfl
  | dial o e q channel untouched step opens _ =>
    refine later_opening untouched channel List.prefix_rfl rfl ?_
    simp only [channelConnection?, setBackend, failedDial, untouched.channel]
    exact step.stays.trans (.of_released (.inr rfl))
  | close c c' v phase relays _ _ _ step =>
    exact later_setChannel relays.channel (step.onward)

theorem Sound.later_turn (sound : s.Sound now x) (turn : s.Turn now x now' x') : Later x x' := by
  rcases turn.state with ⟨ctx, rfl⟩ | ⟨ongoing, rfl | ⟨ctx, rfl⟩⟩
  · exact later_of_same rfl rfl
  · exact sound.later ongoing
  · exact (sound.later ongoing).trans (later_of_same rfl rfl)

theorem Sound.later_last {r : Run (Exchange WiredBackend) Report} (sound : s.Sound now x)
    (ends : s.Ends now x r) : Later x r.state := by
  have later := sound.later
  cases ends with
  | finished step =>
    obtain ⟨y, ending, _, rfl⟩ := sound.ending step
    exact ending.later.trans (later_release y)
  | crashed step =>
    rw [step] at later
    exact (later fun _ _ is => nomatch is).trans (later_release _)
  | stuck step _ _ =>
    rw [step] at later
    exact later fun _ _ is => nomatch is

theorem later_after (s : Scene) (le : n ≤ m) : Later (s.after n).state (s.after m).state := by
  obtain ⟨d, rfl⟩ := Nat.exists_eq_add_of_le le
  by_cases concluded : ∀ t x, s.after n ≠ .unfinished t x
  · rw [after_over concluded d]
    exact .refl _
  · push Not at concluded
    obtain ⟨t, x, here⟩ := concluded
    have came := comes_from (I := fun now y => s.Sound now y ∧ Later x y)
      (fun now y now' y' kept turn =>
        ⟨kept.1.turn turn, kept.2.trans (kept.1.later_turn turn)⟩)
      here ⟨sound_of_reaches ⟨n, here⟩, .refl x⟩ d
    rw [here]
    generalize s.after (n + d) = r at came
    cases came with
    | unfinished kept => exact kept.2
    | concluded kept ends => exact kept.2.trans (kept.1.later_last ends)

end Scene
end PackRelay
