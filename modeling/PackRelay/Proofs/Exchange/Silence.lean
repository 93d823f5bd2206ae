import PackRelay.Proofs.Exchange.Delivery

/-! What an exchange still does once it was cancelled. It dials nothing, reads nothing and writes
nothing; all that is left is to shut the sidechannel down, at most once, and to let go of its
connections. -/
namespace PackRelay

/-- A connection on which nothing moved but, if it was not to be `spared`, so many attempts to
shut it down. -/
structure Connection.Hushed (extra : Nat) (spared : Prop) (c c' : Connection) : Prop where
  source : c'.source = c.source
  sink : c'.sink = { c.sink with
    shutdowns := c'.sink.shutdowns, shutdownTurns := c'.sink.shutdownTurns
    shutdownWake := c'.sink.shutdownWake, released := c'.sink.released }
  attempts : c'.sink.shutdownTurns ≤ c.sink.shutdownTurns + extra
  spared : spared → c'.sink = { c.sink with released := c'.sink.released }

namespace Exchange

open WiredBackend renaming backend → wired

/-- Whether the sidechannel's writing side was shut down by the relay. -/
def halfClosed (x : Exchange WiredBackend) : Bool := x.channel.any Sidechannel.writeClosed

/-- A later state in which nothing else was done, except that closing a sidechannel which was not
half closed attempted to shut it down at most so many times. -/
structure Quiet (extra : Nat) (x x' : Exchange WiredBackend) : Prop where
  reason : x'.ctx.reason = x.ctx.reason
  dialed : x'.backend.dialed = x.backend.dialed
  body : x'.inbound.body = x.inbound.body
  response : x'.outbound.response = x.outbound.response
  closing : x.phase = .closing → x'.phase = .closing
  halfClosed : x'.halfClosed = x.halfClosed
  call : x'.backend.call.connection? = x.backend.call.connection? ∨
    x'.backend.call.connection? = x.backend.call.connection?.map Connection.release
  channel : ∀ k', x'.channelConnection? = some k' → ∃ k, x.channelConnection? = some k ∧
    k.Hushed extra (x.halfClosed = true ∨ x'.phase ≠ .closing) k'
  held : x'.channelConnection? = none → x.channelConnection? = none

end Exchange

namespace Connection.Hushed

variable {extra more : Nat} {spared : Prop} {c c' c'' : Connection}

theorem refl (c : Connection) (spared : Prop) :
    c.Hushed 0 spared c := ⟨rfl, rfl, le_rfl, fun _ => rfl⟩

theorem trans {first second : Prop} (one : c.Hushed extra first c')
    (two : c'.Hushed more second c'')
    (weaker : spared → first ∧ second) : c.Hushed (extra + more) spared c'' where
  source := two.source.trans one.source
  sink := by rw [two.sink, one.sink]
  attempts := by
    have first := one.attempts
    have second := two.attempts
    omega
  spared is := by rw [two.spared (weaker is).2, one.spared (weaker is).1]

theorem mono (hushed : c.Hushed extra spared c') (le : extra ≤ more) : c.Hushed more spared c' :=
  ⟨hushed.source, hushed.sink, le_trans hushed.attempts (Nat.add_le_add_left le _), hushed.spared⟩

theorem release (c : Connection) (spared : Prop) :
    c.Hushed 0 spared c.release := ⟨rfl, rfl, le_rfl, fun _ => rfl⟩

end Connection.Hushed

namespace Exchange

open WiredBackend renaming backend → wired

variable {extra more : Nat} {x x' x'' : Exchange WiredBackend} {c : Sidechannel} {r : CancelReason}
    {s : Scene} {now : Nat}

theorem Quiet.refl (x : Exchange WiredBackend) : Quiet 0 x x :=
  ⟨rfl, rfl, rfl, rfl, id, rfl, .inl rfl, fun k there => ⟨k, there, .refl k _⟩, id⟩

theorem Quiet.mono (quiet : Quiet extra x x') (le : extra ≤ more) : Quiet more x x' where
  __ := quiet
  channel k there := by
    obtain ⟨k₀, there₀, hushed⟩ := quiet.channel k there
    exact ⟨k₀, there₀, hushed.mono le⟩

theorem Quiet.trans (one : Quiet extra x x') (two : Quiet more x' x'') :
    Quiet (extra + more) x x'' where
  reason := two.reason.trans one.reason
  dialed := two.dialed.trans one.dialed
  body := two.body.trans one.body
  response := two.response.trans one.response
  closing is := two.closing (one.closing is)
  halfClosed := two.halfClosed.trans one.halfClosed
  call := by
    rcases two.call with second | second <;> rcases one.call with first | first
      <;> rw [second, first]
    · exact .inl rfl
    · exact .inr rfl
    · exact .inr rfl
    · refine .inr ?_
      cases x.backend.call.connection? <;> rfl
  channel k'' there := by
    obtain ⟨k', there', second⟩ := two.channel k'' there
    obtain ⟨k, there, first⟩ := one.channel k' there'
    refine ⟨k, there, first.trans second fun spared => ?_⟩
    rcases spared with half | early
    · exact ⟨.inl half, .inl (one.halfClosed.trans half)⟩
    · exact ⟨.inr fun closing => early (two.closing closing), .inr early⟩
  held unheld := one.held (two.held unheld)

theorem quiet_noted (recorded : x.ctx.reason = some r) (results : Results) :
    Quiet 0 x { x.cancel .done with results } where
  __ := Quiet.refl x
  reason := by simp only [Exchange.cancel, Context.reason_cancel, recorded, Option.some_or]
  closing := id
  halfClosed := rfl
  call := .inl rfl
  channel k there := ⟨k, there, .refl k _⟩
  held := id

theorem quiet_hungUp (x : Exchange WiredBackend) : Quiet 0 x x.hungUp where
  __ := Quiet.refl x
  call := x.backend.call.drop_connection
  channel k there := by
    rcases x.hungUp_connection with same | same <;> rw [same] at there
    · exact ⟨k, there, .refl k _⟩
    · obtain ⟨k₀, there₀, rfl⟩ := Option.map_eq_some_iff.1 there
      exact ⟨k₀, there₀, .release k₀ _⟩
  held unheld := by
    rcases x.hungUp_connection with same | same <;> rw [same] at unheld
    · exact unheld
    · exact Option.map_eq_none_iff.1 unheld

theorem quiet_release (recorded : x.ctx.reason = some r) : Quiet 0 x (x.release wired) where
  __ := Quiet.refl x
  reason := by simp only [Exchange.release, Exchange.cancel, Context.reason_cancel, recorded,
    Option.some_or]
  halfClosed := by
    simp only [halfClosed, release]
    cases x.channel with
    | none => rfl
    | some c =>
      simp only [Option.map_some, Option.any_some, Sidechannel.drop]
      split <;> rfl
  call := x.backend.call.drop_connection
  channel k there := by
    rcases x.released_connection with same | same <;> rw [same] at there
    · exact ⟨k, there, .refl k _⟩
    · obtain ⟨k₀, there₀, rfl⟩ := Option.map_eq_some_iff.1 there
      exact ⟨k₀, there₀, .release k₀ _⟩
  held unheld := by
    rcases x.released_connection with same | same <;> rw [same] at unheld
    · exact unheld
    · exact Option.map_eq_none_iff.1 unheld

/-- Whoever has a turn among cancelled participants is over and touches nothing. -/
theorem Joint.quiet_participant (joint : Joint s now x c) (recorded : x.ctx.reason = some r)
    (p : Participant) :
    pollParticipant wired now p x = .ready () x ∨ ∃ x', pollParticipant wired now p x = .more x' ∧
      Quiet 0 x x' := by
  have stopped : x.ctx.signal = some r := joint.ctx.coherent.signal.trans recorded
  have does := joint.does p
  generalize pollParticipant wired now p x = turn at does
  cases does with
  | rests p ended => exact .inl rfl
  | inboundStops _ _ _ => exact .inr ⟨_, rfl, quiet_noted recorded _⟩
  | outboundStops _ _ _ => exact .inr ⟨_, rfl, quiet_noted recorded _⟩
  | replyStops _ _ _ _ _ _ =>
    exact .inr ⟨_, rfl, (quiet_hungUp x).trans (quiet_noted (x := x.hungUp) recorded _)⟩
  | inboundFlows _ _ silent _ | outboundFlows _ _ _ _ silent _ | replyReads _ _ _ _ silent _ _ =>
    rw [stopped] at silent
    cases silent

theorem Joint.quiet_participants (joint : Joint s now x c) (recorded : x.ctx.reason = some r)
    (turns : Turns) :
    Quiet 0 x (x.pollParticipants wired turns now).state := by
  refine (Poll.all_state (I := fun y => (∃ c, Joint s now y c) ∧ Quiet 0 x y) ?_
    ⟨⟨c, joint⟩, Quiet.refl x⟩).2
  refine List.forall_mem_map.2 fun q _ y there => ?_
  obtain ⟨⟨c', joint'⟩, quiet⟩ := there
  refine ⟨joint_participant q ⟨c', joint'⟩, ?_⟩
  rcases joint'.quiet_participant (quiet.reason.trans recorded) q with still | ⟨y', goes, next⟩
  · rw [still]
    exact quiet
  · rw [goes]
    exact quiet.trans next

theorem Joint.awake_participants (joint : Joint s now x c) (recorded : x.ctx.reason = some r)
    (turns : Turns)
    {alarm : Option Nat} : x.pollParticipants wired turns now ≠ .waiting x' alarm := by
  intro waits
  have keeps : ∀ p ∈ turns.order.map (pollParticipant wired now), ∀ y : Exchange WiredBackend,
      (∃ c, Joint s now y c) ∧ y.ctx.reason = some r →
      (∃ c, Joint s now (p y).state c) ∧ (p y).state.ctx.reason = some r := by
    refine List.forall_mem_map.2 fun q _ y there => ?_
    obtain ⟨⟨c', joint'⟩, same⟩ := there
    refine ⟨joint_participant q ⟨c', joint'⟩, ?_⟩
    rcases joint'.quiet_participant same q with still | ⟨y', goes, next⟩
    · rw [still]
      exact same
    · rw [goes]
      exact next.reason.trans same
  obtain ⟨p, listed, y, y', a, ⟨⟨c', joint'⟩, same⟩, step⟩ :=
    Poll.all_waiting keeps ⟨⟨c, joint⟩, recorded⟩ waits
  obtain ⟨q, _, rfl⟩ := List.mem_map.1 listed
  rcases joint'.quiet_participant same q with still | ⟨y', goes, _⟩
  · rw [still] at step
    cases step
  · rw [goes] at step
    cases step

end Exchange

namespace Sidechannel.CloseStep

variable {now : Nat} {c c' : Sidechannel} {v : Except SidechannelError Unit}
  {p : Poll Sidechannel (Except SidechannelError Unit)}

theorem hushed_of_shutdown {k : Connection} {spared : Prop} {q : Poll Sink (Except IoError Unit)}
    (step : k.sink.ShutdownStep q) (unspared : ¬ spared) :
    k.Hushed 1 spared (k.setSink q.state) := by
  cases step <;> exact ⟨rfl, rfl, by simp [Poll.state, Connection.setSink, Sink.shutDown],
    fun is => absurd is unspared⟩

theorem writeClosed (step : c.CloseStep now p) : p.state.writeClosed = c.writeClosed := by
  cases step <;> rfl

theorem hushed (step : c.CloseStep now p) (ongoing : ∀ v c', p ≠ .ready v c') :
    c.connection.Hushed 0 (c.writeClosed = true) p.state.connection := by
  cases step with
  | givesUp _ _ => exact .refl c.connection _
  | closed _ _ => exact absurd rfl (ongoing _ _)
  | halfClosed _ _ _ => exact absurd rfl (ongoing _ _)
  | ends _ _ _ _ _ _ _ => exact absurd rfl (ongoing _ _)
  | waits limit sink alarm _ unclosed shut _ =>
    cases shut
    exact ⟨rfl, rfl, le_rfl, fun half => by simp [unclosed] at half⟩
  | crashes limit sink _ unclosed shut =>
    cases shut
    exact .refl c.connection _

theorem hushed_ready (step : c.CloseStep now (.ready v c')) :
    c.connection.Hushed 1 (c.writeClosed = true) c'.connection := by
  cases step with
  | closed _ _ => exact (Connection.Hushed.refl c.connection _).mono (Nat.zero_le 1)
  | halfClosed _ _ _ => exact (Connection.Hushed.release c.connection _).mono (Nat.zero_le 1)
  | ends limit _ q _ unclosed shut _ =>
    have once : c.connection.Hushed 1 (c.writeClosed = true) (c.connection.setSink q.state) :=
      hushed_of_shutdown shut (by simp [unclosed])
    exact once.trans (.release _ (c.writeClosed = true)) fun half => ⟨half, half⟩

end Sidechannel.CloseStep

namespace Scene

open Exchange
open WiredBackend renaming backend → wired

variable {s : Scene} {now now' t : Nat} {x x' y : Exchange WiredBackend} {c c' : Sidechannel}
    {r : CancelReason}

theorem quiet_closing {extra : Nat} (closing : x.phase = .closing) (channel : x.channel = some c)
    (half : c'.writeClosed = c.writeClosed)
    (hushed : c.connection.Hushed extra (c.writeClosed = true) c'.connection) :
    Quiet extra x (x.setChannel c') where
  reason := rfl
  dialed := rfl
  body := rfl
  response := rfl
  closing is := is
  halfClosed := by
    simp only [halfClosed, setChannel, channel, Option.any_some, half]
  call := .inl rfl
  channel k there := by
    cases there
    refine ⟨c.connection, by simp only [channelConnection?, channel], ?_⟩
    have same : x.halfClosed = c.writeClosed := by simp only [halfClosed, channel, Option.any_some]
    refine ⟨hushed.source, hushed.sink, hushed.attempts, fun spared => hushed.spared ?_⟩
    rcases spared with half | early
    · exact same.symm.trans half
    · exact absurd closing early
  held unheld := nomatch unheld

theorem Sound.quiet (sound : s.Sound now x) (recorded : x.ctx.reason = some r)
    (ongoing : ∀ a x', s.poll now x ≠ .ready a x') : Quiet 0 x (s.poll now x).state := by
  have stopped : x.ctx.signal = some r := sound.ctx.coherent.signal.trans recorded
  simp only [Scene.poll] at ongoing ⊢
  cases sound.stands with
  | starting o phase call opens channel untouched =>
    obtain ⟨p, step, same⟩ := poll_starting phase call (s.turns now x) now
    obtain ⟨e, rfl⟩ := step.stopped stopped
    exact absurd same (ongoing _ _)
  | opening k o phase call greeted channel opens untouched =>
    obtain ⟨p, step, same⟩ := poll_opening phase channel (s.turns now x) now
    obtain ⟨e, rfl⟩ := step.stopped stopped
    exact absurd same (ongoing _ _)
  | relaying c phase relays is_open unlimited =>
    have quiet := (sound.joint phase relays is_open unlimited).quiet_participants recorded
      (s.turns now x)
    simp only [Exchange.poll, phase, pollRelaying] at ongoing ⊢
    cases step : x.pollParticipants wired (s.turns now x) now <;> rw [step] at quiet
    case ready _ x' =>
      have turns : Quiet 0 x' { x' with phase := .closing } :=
        ⟨rfl, rfl, rfl, rfl, fun _ => rfl, rfl, .inl rfl, fun k there => ⟨k, there, .refl k _⟩,
          fun unheld => unheld⟩
      exact quiet.trans turns
    all_goals exact quiet
  | closing c phase relays inbound outbound reply held =>
    obtain ⟨p, step, same⟩ := poll_closing phase relays.channel (s.turns now x) now
    rw [same] at ongoing ⊢
    have hushed := step.hushed fun v c' is => ongoing _ _ (by rw [is]; rfl)
    have half := step.writeClosed
    cases p with
    | ready v c' => exact absurd rfl (ongoing _ _)
    | more c' => exact quiet_closing phase relays.channel half hushed
    | waiting c' alarm => exact quiet_closing phase relays.channel half hushed
    | crashed c' => exact quiet_closing phase relays.channel half hushed

theorem Ending.quiet (sound : s.Sound now x) (ending : s.Ending now x y)
    (recorded : x.ctx.reason = some r) :
    Quiet 1 x y := by
  have stopped : x.ctx.signal = some r := sound.ctx.coherent.signal.trans recorded
  cases ending with
  | start o e q call untouched step opens _ =>
    obtain ⟨e', is⟩ := step.stopped stopped
    cases is
    refine ⟨rfl, rfl, rfl, rfl, fun is => is, rfl, .inr ?_, fun k there => ⟨k, there, ?_⟩,
      fun unheld => unheld⟩
    · rw [call]
      rfl
    · exact (Connection.Hushed.refl k _).mono (Nat.zero_le 1)
  | dial o e q channel untouched step opens _ =>
    obtain ⟨e', is⟩ := step.stopped stopped
    cases is
    have before : x.channelConnection? = o.connection? := by
      simp only [channelConnection?, untouched.channel, channel]
      rfl
    have after : ((x.setBackend (x.ctx, x.backend.withChannel
        (ChannelLine.opening o).drop)).failedDial (.ofOpening e)).channelConnection? =
          o.connection?.map Connection.release := by
      simp only [channelConnection?, failedDial, setBackend, untouched.channel]
      rfl
    refine ⟨rfl, rfl, rfl, rfl, fun is => is, rfl, .inl rfl, fun k there => ?_, fun unheld => ?_⟩
    · obtain ⟨k₀, there₀, rfl⟩ := Option.map_eq_some_iff.1 (after ▸ there)
      exact ⟨k₀, before.trans there₀, (Connection.Hushed.release k₀ _).mono (Nat.zero_le 1)⟩
    · exact before.trans (Option.map_eq_none_iff.1 (after ▸ unheld))
  | close c c' v phase relays _ _ _ step =>
    exact quiet_closing phase relays.channel step.writeClosed step.hushed_ready

theorem Sound.quiet_turn (sound : s.Sound now x) (recorded : x.ctx.reason = some r)
    (turn : s.Turn now x now' x') :
    Quiet 0 x x' := by
  have quiet := sound.quiet recorded
  cases turn with
  | looks found =>
    obtain ⟨ctx, seen, _⟩ := look_eq_some found
    cases (sound.unseen recorded _ _).symm.trans seen
  | more _ step =>
    rw [step] at quiet
    exact quiet fun _ _ is => nomatch is
  | acts _ step act =>
    rw [step] at quiet
    obtain ⟨ctx, seen, _⟩ := Option.map_eq_some_iff.1 act
    have reason := (quiet fun _ _ is => nomatch is).reason.trans recorded
    cases ((sound.of_waiting step).unseen reason _ _).symm.trans seen
  | sleeps _ step _ _ =>
    rw [step] at quiet
    exact quiet fun _ _ is => nomatch is

theorem Sound.quiet_last (sound : s.Sound now x) (recorded : x.ctx.reason = some r) {a : Report}
    (step : s.poll now x = .ready a x') : Quiet 1 x x' := by
  obtain ⟨y, ending, _, rfl⟩ := sound.ending step
  have quiet := ending.quiet sound recorded
  exact quiet.trans (quiet_release (quiet.reason.trans recorded))

theorem dialed_reply (now : Nat) (b : WiredBackend) :
    (WiredBackend.pollReply now b).state.dialed = b.dialed := by
  simp only [WiredBackend.pollReply]
  split
  · cases Wire.Reading.poll Wire.CallReply.decode now _ _ <;> rfl
  · rfl

theorem dialed_participant (p : Participant) (now : Nat) (x : Exchange WiredBackend) :
    (pollParticipant wired now p x).state.backend.dialed = x.backend.dialed := by
  cases p with
  | inbound =>
    simp only [pollParticipant, onChannel, pollInbound]
    split
    · split
      · rfl
      · cases x.inbound.poll x.ctx now _ with
        | ready v q => cases ok : v.isOk <;> simp only [Poll.into_ready, ok] <;> rfl
        | _ => rfl
    · rfl
  | outbound =>
    simp only [pollParticipant, onChannel, pollOutbound]
    split
    · split
      · rfl
      · cases x.outbound.poll x.ctx now _ with
        | ready v q => cases ok : v.isOk <;> simp only [Poll.into_ready, ok] <;> rfl
        | _ => rfl
    · rfl
  | reply =>
    simp only [pollParticipant, pollReply, wired, Context.guard]
    split
    · rfl
    · split
      · rfl
      · have same := dialed_reply now x.backend
        generalize WiredBackend.pollReply now x.backend = p at same ⊢
        cases p with
        | ready v b =>
          cases ok : (replied (.ok v)).isOk <;> simp only [Poll.map, Poll.into_ready, ok]
            <;> exact same
        | _ => exact same

theorem dialed_participants (turns : Turns) (now : Nat) (x : Exchange WiredBackend) :
    (x.pollParticipants wired turns now).state.backend.dialed = x.backend.dialed := by
  refine Poll.all_state (I := fun y : Exchange WiredBackend => y.backend.dialed =
    x.backend.dialed) ?_ rfl
  exact List.forall_mem_map.2 fun q _ y same => (dialed_participant q now y).trans same

/-- Only progress under a context that goes on dials anything. -/
theorem Sound.dialed (sound : s.Sound now x) :
    (s.poll now x).state.backend.dialed = x.backend.dialed ∨ ∃ x', s.poll now x = .more x' ∧
    x'.ctx = x.ctx := by
  simp only [Scene.poll]
  cases sound.stands with
  | starting o phase call opens channel untouched =>
    obtain ⟨p, step, same⟩ := poll_starting phase call (s.turns now x) now
    rw [same]
    rcases step.begun with none_begun | ⟨q, rfl⟩
    · refine .inl ?_
      cases p with
      | ready v q => cases v <;> rfl
      | _ =>
        simp [Poll.state, setBackend, WiredBackend.withCall, WiredBackend.noting]
          at none_begun ⊢; exact none_begun
    · exact .inr ⟨_, rfl, rfl⟩
  | opening k o phase call greeted channel opens untouched =>
    obtain ⟨p, step, same⟩ := poll_opening phase channel (s.turns now x) now
    rw [same]
    rcases step.begun with none_begun | ⟨q, rfl⟩
    · refine .inl ?_
      cases p with
      | ready v q => cases v <;> rfl
      | _ =>
        simp [Poll.state, setBackend, WiredBackend.withChannel, WiredBackend.noting]
          at none_begun ⊢; exact none_begun
    · exact .inr ⟨_, rfl, rfl⟩
  | relaying c phase relays is_open unlimited =>
    refine .inl ?_
    have dialed := dialed_participants (s.turns now x) now x
    simp only [Exchange.poll, phase, pollRelaying]
    cases step : x.pollParticipants wired (s.turns now x) now <;> rw [step] at dialed
      <;> exact dialed
  | closing c phase relays inbound outbound reply held =>
    refine .inl ?_
    obtain ⟨p, step, same⟩ := poll_closing phase relays.channel (s.turns now x) now
    rw [same]
    cases p <;> rfl

theorem quiet_from {i : Nat} (here : s.after i = .unfinished t x) (recorded : x.ctx.reason = some r)
    (m : Nat) :
    Quiet 1 x (s.after (i + m)).state := by
  have came := comes_from (I := fun now y => s.Sound now y ∧ Quiet 0 x y)
    (fun now y now' y' kept turn => ⟨kept.1.turn turn,
      kept.2.trans (kept.1.quiet_turn (kept.2.reason.trans recorded) turn)⟩)
    here ⟨sound_of_reaches ⟨i, here⟩, Quiet.refl x⟩ m
  generalize s.after (i + m) = run at came
  cases came with
  | unfinished kept => exact kept.2.mono (Nat.zero_le 1)
  | concluded kept ends =>
    obtain ⟨sound, quiet⟩ := kept
    have recorded := quiet.reason.trans recorded
    have last := sound.quiet recorded
    cases ends with
    | finished step => exact quiet.trans (sound.quiet_last recorded step)
    | crashed step =>
      rw [step] at last
      have both := quiet.trans (last fun _ _ is => nomatch is)
      exact (both.trans (quiet_release (both.reason.trans ‹_›))).mono (Nat.zero_le 1)
    | stuck step _ _ =>
      rw [step] at last
      exact (quiet.trans (last fun _ _ is => nomatch is)).mono (Nat.zero_le 1)

theorem dialed_when_cancelled {k : Nat} (before : (s.after k).state.ctx.reason = none)
    (recorded : (s.after (k + 1)).state.ctx.reason = some r) :
    (s.after (k + 1)).state.backend.dialed = (s.after k).state.backend.dialed := by
  by_cases concluded : ∀ t x, s.after k ≠ .unfinished t x
  · rw [after_over concluded 1]
  · push Not at concluded
    obtain ⟨t, x, here⟩ := concluded
    have dialed := (sound_of_reaches ⟨k, here⟩).dialed
    rw [here] at before ⊢
    have still := fun unmoved :
      ∀ x', s.poll t x ≠ .more x' => dialed.resolve_right fun ⟨x', is, _⟩ => unmoved x' is
    rcases after_succ here with ⟨now', x', turn, next⟩ | ends
    · rw [next] at recorded ⊢
      cases turn with
      | looks found =>
        obtain ⟨ctx, _, rfl⟩ := look_eq_some found
        rfl
      | more _ step =>
        rw [step] at dialed
        refine dialed.resolve_right ?_
        rintro ⟨x'', is, same⟩
        cases is
        exact absurd (recorded.symm.trans ((congrArg Context.reason same).trans before))
          (Option.some_ne_none r)
      | acts _ step act =>
        rw [step] at still
        obtain ⟨ctx, _, rfl⟩ := Option.map_eq_some_iff.1 act
        exact still fun _ is => nomatch is
      | sleeps _ step _ _ =>
        rw [step] at still
        exact still fun _ is => nomatch is
    · generalize s.after (k + 1) = run at ends
      cases ends with
      | finished step | crashed step | stuck step _ _ =>
        rw [step] at still
        exact still fun _ is => nomatch is

/-- Once an exchange was cancelled, by whatever reason, all that is left is to shut its
sidechannel down once at most and to let go of what it holds; and the step that cancelled it
dialed nothing. -/
theorem quiet_once_cancelled (s : Scene) {i : Nat} {r : CancelReason}
    (recorded : (s.after i).state.ctx.reason = some r) :
    (∀ j, i ≤ j → Quiet 1 (s.after i).state (s.after j).state) ∧
      ∀ k, i = k + 1 → (s.after k).state.ctx.reason = none →
        (s.after i).state.backend.dialed = (s.after k).state.backend.dialed := by
  constructor
  · intro j later
    obtain ⟨m, rfl⟩ := Nat.exists_eq_add_of_le later
    by_cases concluded : ∀ t x, s.after i ≠ .unfinished t x
    · rw [after_over concluded m]
      exact (Quiet.refl _).mono (Nat.zero_le 1)
    · push Not at concluded
      obtain ⟨t, x, here⟩ := concluded
      rw [here] at recorded ⊢
      exact quiet_from here recorded m
  · rintro k rfl before
    exact dialed_when_cancelled before recorded

theorem quiet_once_broken : ∃ i, (broken.after i).state.ctx.reason = some .done ∧
    ∀ j, i ≤ j → Quiet 1 (broken.after i).state (broken.after j).state := by
  have recorded : (broken.after 11).state.ctx.reason = some .done := by decide +kernel
  exact ⟨11, recorded, (quiet_once_cancelled broken recorded).1⟩

/-- A request that leaves while its call is started, which is noticed right after that. -/
def deserted : Scene :=
  { brief with
    gone := some 0
    turns := fun _ x => { Turns.inOrder with watched := x.phase == .opening } }

/-- The call was greeted by then, and the sidechannel is never dialed. -/
example : (deserted.after 4).state.phase = .opening ∧ (deserted.after 4).state.ctx.reason = none ∧
    (deserted.after 5).state.ctx.reason = some .clientAborted ∧
    (deserted.after 6).value?.isSome = true ∧ (deserted.after 6).state.backend.dialed.length = 1 := by
  decide +kernel

end Scene
end PackRelay
