import PackRelay.Proofs.Exchange.Pace
import PackRelay.Proofs.Relay.Patience

/-! The two directions of an exchange. Each is a task of its own as long as nothing cancels the
exchange: whoever else has a turn, and in whatever order, changes nothing of what it works on. -/
namespace PackRelay

open Poll

namespace Exchange

open WiredBackend renaming backend → wired

/-- The connection of a sidechannel that was opened. -/
def line (x : Exchange WiredBackend) : Connection :=
  (x.channel.map Sidechannel.connection).getD ⟨.ofEvents [], {}⟩

/-- A participant of an exchange, with all that it works on. -/
structure Half (s : Scene) (σ : Type) where
  who : Participant
  /-- What it works on, and whether it is over. -/
  view : Exchange WiredBackend → σ × Bool
  task : Nat → σ → Poll σ (Option RelayError)
  patient : Patient task
  /-- What it relies on. -/
  fit : σ → Prop
  keeps : ∀ {v}, fit v → ∀ now, fit (task now v).state
  own : ∀ {now x c}, Joint s now x c → x.ctx.signal = none → fit (view x).1 →
    (pollParticipant wired now who x).map (fun u => u) view = once task now (view x)
  others : ∀ {q now x c}, q ≠ who → Joint s now x c → x.ctx.signal = none →
    view (pollParticipant wired now q x).state = view x
  sees : ∀ {x y}, y.inbound = x.inbound → y.outbound = x.outbound → y.results = x.results →
    y.line = x.line → view y = view x
  ended : ∀ {x : Exchange WiredBackend}, x.results.inbound.isSome → x.results.outbound.isSome →
    (view x).2 = true

variable {s : Scene} {now : Nat} {x x' : Exchange WiredBackend} {c : Sidechannel}

theorem line_eq (channel : x.channel = some c) : x.line = c.connection := by
  simp only [line, channel, Option.map_some, Option.getD_some]

def inboundView (x : Exchange WiredBackend) : Flow × Bool :=
  (x.inbound.flow x.line.sink, x.results.inbound.isSome)

def outboundView (x : Exchange WiredBackend) : (Flow × Watched Bool) × Bool :=
  ((x.outbound.flow x.line.source, x.outbound.response.headers), x.results.outbound.isSome)

@[simp] theorem inboundView_fed (x : Exchange WiredBackend) (c : Sidechannel) (closed : Bool)
    (m : Flow) : (x.fed c closed m).inboundView = (m, x.results.inbound.isSome) := by
  simp only [inboundView, fed, setChannel, line, Option.map_some, Option.getD_some, Sidechannel.fed,
    Sidechannel.setSink, Sidechannel.setConnection, Connection.setSink, Inbound.flow_ofFlow]

@[simp] theorem inboundView_noteInbound (x : Exchange WiredBackend) (v : RelayResult) :
    (x.noteInbound v).inboundView = (x.inboundView.1, true) := by
  cases ok : v.isOk <;> simp only [noteInbound, ok] <;> rfl

@[simp] theorem outboundView_drawn (x : Exchange WiredBackend) (c : Sidechannel)
    (headers : Watched Bool) (count : Nat) (m : Flow) :
    (x.drawn c headers count m).outboundView = ((m, headers), x.results.outbound.isSome) := by
  have source : (x.drawn c headers count m).line.source = m.source := rfl
  rw [outboundView, source, drawn, Outbound.flow_ofFlow]
  rfl

@[simp] theorem outboundView_noteOutbound (x : Exchange WiredBackend) (v : RelayResult) :
    (x.noteOutbound v).outboundView = (x.outboundView.1, true) := by
  cases ok : v.isOk <;> simp only [noteOutbound, ok] <;> rfl

theorem Joint.inbound_own (joint : Joint s now x c) (silent : x.ctx.signal = none) :
    (pollParticipant wired now .inbound x).map (fun u => u) inboundView =
      once Inbound.task now x.inboundView := by
  have channel := joint.relays.channel
  simp only [pollParticipant, onChannel, channel]
  cases going : x.results.inbound with
  | some v =>
    simp only [pollInbound, inboundView, going, Option.isSome_some, if_true, once, Poll.map,
      into_ready]
  | none =>
    have here : x.inboundView = (x.inbound.flow c.connection.sink, false) := by
      rw [inboundView, going, line_eq channel]
      rfl
    rw [pollInbound_eq going silent joint.is_open (joint.unclosed going), here]
    simp only [once]
    cases Inbound.task now (x.inbound.flow c.connection.sink) <;>
      simp only [into_ready, into_more, into_waiting, into_crashed, Poll.map, inboundView_fed,
        inboundView_noteInbound, going, Option.isSome_none]

theorem Joint.outbound_own (joint : Joint s now x c) (silent : x.ctx.signal = none)
    (unprompted : x.line.source.Unprompted) :
    (pollParticipant wired now .outbound x).map (fun u => u) outboundView =
      once Outbound.task now x.outboundView := by
  have channel := joint.relays.channel
  simp only [pollParticipant, onChannel, channel]
  cases going : x.results.outbound with
  | some v =>
    simp only [pollOutbound, outboundView, going, Option.isSome_some, if_true, once, Poll.map,
      into_ready]
  | none =>
    rw [line_eq channel] at unprompted
    obtain ⟨count, same⟩ :=
      pollOutbound_eq going silent joint.is_open (c.connection.pollRead_eq unprompted now relayBuffer)
    have here : x.outboundView =
        ((x.outbound.flow c.connection.source, x.outbound.response.headers), false) := by
      rw [outboundView, going, line_eq channel]
      rfl
    have task : Outbound.task now
        (x.outbound.flow c.connection.source, x.outbound.response.headers) =
      Outbound.moves now (c.connection.source.poll now relayBuffer) _ := rfl
    rw [same, here]
    simp only [once]
    rw [task]
    cases Outbound.moves now (c.connection.source.poll now relayBuffer)
        (x.outbound.flow c.connection.source, x.outbound.response.headers) <;>
      simp only [into_ready, into_more, into_waiting, into_crashed, Poll.map, outboundView_drawn,
        outboundView_noteOutbound, going, Option.isSome_none]

theorem Joint.inbound_others {q : Participant} (other : q ≠ .inbound) (joint : Joint s now x c)
    (silent : x.ctx.signal = none) :
    (pollParticipant wired now q x).state.inboundView = x.inboundView := by
  have channel := joint.relays.channel
  have does := joint.does q
  generalize pollParticipant wired now q x = turn at does
  cases does with
  | rests _ _ => rfl
  | inboundStops _ _ _ | inboundFlows _ _ _ _ => exact absurd rfl other
  | outboundStops r _ stopped | replyStops r _ _ _ stopped _ =>
    rw [silent] at stopped
    cases stopped
  | outboundFlows p headers count _ _ _ =>
    have drawn : ∀ m, (x.drawn c headers count m).inboundView = x.inboundView := fun m => by
      rw [inboundView, inboundView, line_eq channel]
      rfl
    cases p with
    | ready e m =>
      rw [← drawn m]
      cases ok : ((Outbound.ofFlow headers count m).result e).isOk <;>
        simp only [into_ready, state, Exchange.noteOutbound, ok] <;> rfl
    | _ => exact drawn _
  | replyReads reading k p _ _ _ _ =>
    cases p with
    | ready v q =>
      cases ok : (WiredBackend.verdict v).isOk <;>
        simp only [into_ready, state, Exchange.noteReply, ok] <;> rfl
    | _ => rfl

theorem Joint.outbound_others {q : Participant} (other : q ≠ .outbound) (joint : Joint s now x c)
    (silent : x.ctx.signal = none) :
    (pollParticipant wired now q x).state.outboundView = x.outboundView := by
  have channel := joint.relays.channel
  have does := joint.does q
  generalize pollParticipant wired now q x = turn at does
  cases does with
  | rests _ _ => rfl
  | outboundStops _ _ _ | outboundFlows _ _ _ _ _ _ => exact absurd rfl other
  | inboundStops r _ stopped | replyStops r _ _ _ stopped _ =>
    rw [silent] at stopped
    cases stopped
  | inboundFlows p _ _ _ =>
    have fed : ∀ closed m, (x.fed c closed m).outboundView = x.outboundView := fun closed m => by
      rw [outboundView, outboundView, line_eq channel]
      rfl
    cases p with
    | ready e m =>
      rw [← fed e.isNone m]
      cases ok : ((Inbound.ofFlow m).result e).isOk <;>
        simp only [into_ready, state, Exchange.noteInbound, ok] <;> rfl
    | _ => exact fed _ _
  | replyReads reading k p _ _ _ _ =>
    cases p with
    | ready v q =>
      cases ok : (WiredBackend.verdict v).isOk <;>
        simp only [into_ready, state, Exchange.noteReply, ok] <;> rfl
    | _ => rfl

def inboundHalf (s : Scene) : Half s Flow where
  who := .inbound
  view := inboundView
  task := Inbound.task
  patient := Flow.poll_patient inflow Sink.pollShutdown_patient
  fit _ := True
  keeps _ _ := trivial
  own joint silent _ := joint.inbound_own silent
  others other joint silent := joint.inbound_others other silent
  sees inbound _ results line := by simp only [inboundView, inbound, results, line]
  ended inbound _ := inbound

def outboundHalf (s : Scene) : Half s (Flow × Watched Bool) where
  who := .outbound
  view := outboundView
  task := Outbound.task
  patient := Outbound.task_patient
  fit p := p.1.source.Unprompted
  keeps {p} unprompted now := by
    have kept := Flow.unprompted_poll outflow (f := p.1.sink.pollFlush now) unprompted now
    simp only [Outbound.task, Outbound.moves]
    cases step : p.1.poll outflow now (p.1.source.poll now relayBuffer) (p.1.sink.pollFlush now) <;>
      rwa [step] at kept
  own joint silent unprompted := joint.outbound_own silent unprompted
  others other joint silent := joint.outbound_others other silent
  sees _ outbound results line := by simp only [outboundView, outbound, results, line]
  ended _ outbound := outbound

namespace Half

variable {σ : Type} {h : Half s σ} {q : Participant} {turns : Turns} {since : Nat} {v₀ : σ × Bool}
    {alarm : Option Nat}

/-- It is where it would be if it had been left to itself since some time. -/
structure Tracks (h : Half s σ) (since : Nat) (v₀ : σ × Bool) (now : Nat)
    (x : Exchange WiredBackend) : Prop where
  fit : h.fit (h.view x).1
  follows : Follows (once h.task) since v₀ now (h.view x)

theorem fit_once {v : σ × Bool} (fit : h.fit v.1) (now : Nat) :
    h.fit (once h.task now v).state.1 := by
  obtain ⟨v, halted⟩ := v
  cases halted with
  | true => exact fit
  | false =>
    have kept := h.keeps fit now
    simp only [once]
    cases step : h.task now v <;> rwa [step] at kept

theorem Tracks.acts (tracks : h.Tracks since v₀ now x) (joint : Joint s now x c)
    (silent : x.ctx.signal = none) (step : pollParticipant wired now q x = .more x') :
    h.Tracks since v₀ now x' := by
  by_cases mine : q = h.who
  · subst mine
    have own := h.own joint silent tracks.fit
    have fit := fit_once tracks.fit now
    rw [step] at own
    rw [← own] at fit
    exact ⟨fit, tracks.follows.more own.symm⟩
  · have same := h.others mine joint silent
    rw [step] at same
    have same : h.view x' = h.view x := same
    exact ⟨same ▸ tracks.fit, same ▸ tracks.follows⟩

theorem Tracks.waits (tracks : h.Tracks since v₀ now x) (joint : Joint s now x c)
    (silent : x.ctx.signal = none) (step : pollParticipant wired now q x = .waiting x' alarm) :
    h.Tracks since v₀ now x' := by
  by_cases mine : q = h.who
  · subst mine
    have own := h.own joint silent tracks.fit
    have fit := fit_once tracks.fit now
    rw [step] at own
    rw [← own] at fit
    exact ⟨fit, tracks.follows.waits (Patient.once h.patient) own.symm⟩
  · have same := h.others mine joint silent
    rw [step] at same
    have same : h.view x' = h.view x := same
    exact ⟨same ▸ tracks.fit, same ▸ tracks.follows⟩

/-- Whoever waits leaves a half where it rests. -/
theorem Tracks.stays {other : Option Nat} (tracks : h.Tracks since v₀ now x)
    (joint : Joint s now x c) (silent : x.ctx.signal = none)
    (rests : Rests (once h.task) now alarm (h.view x))
    (step : pollParticipant wired now q x = .waiting x' other) :
    Rests (once h.task) now alarm (h.view x') := by
  by_cases mine : q = h.who
  · subst mine
    have own := h.own joint silent tracks.fit
    rw [step] at own
    have same := (rests now le_rfl (.inl rfl)).of_waiting own.symm
    exact same ▸ rests
  · have same := h.others mine joint silent
    rw [step] at same
    have same : h.view x' = h.view x := same
    exact same ▸ rests

/-- What goes on before anybody makes progress. -/
def Goes (h : Half s σ) (since : Nat) (v₀ : σ × Bool) (now : Nat) (x : Exchange WiredBackend) :
    Prop :=
  ∃ c, Joint s now x c ∧ x.ctx.signal = none ∧ h.Tracks since v₀ now x

theorem Goes.waits (goes : h.Goes since v₀ now x)
    (step : pollParticipant wired now q x = .waiting x' alarm) : h.Goes since v₀ now x' := by
  obtain ⟨c, joint, silent, tracks⟩ := goes
  obtain ⟨c', joint'⟩ := joint_participant q ⟨c, joint⟩
  rw [step] at joint'
  exact ⟨c', joint', by rw [ctx_waiting step, silent], tracks.waits joint silent step⟩

theorem Tracks.goes (tracks : h.Tracks since v₀ now x) (joint : Joint s now x c)
    (silent : x.ctx.signal = none) (step : x.pollParticipants wired turns now = .more x') :
    h.Tracks since v₀ now x' := by
  obtain ⟨_, listed, y, ⟨c', joint', silent', tracks'⟩, acts⟩ :=
    all_acts (I := h.Goes since v₀ now) (List.forall_mem_map.2 fun q _ => still q now)
      (List.forall_mem_map.2 fun q _ _ _ _ goes step => goes.waits step) ⟨c, joint, silent, tracks⟩
      step
  obtain ⟨q, _, rfl⟩ := List.mem_map.1 listed
  exact tracks'.acts joint' silent' acts

theorem Tracks.passes (tracks : h.Tracks since v₀ now x) (joint : Joint s now x c)
    (silent : x.ctx.signal = none) (step : x.pollParticipants wired turns now = .waiting x' alarm) :
    h.Tracks since v₀ now x' ∧ Rests (once h.task) now alarm (h.view x') := by
  have keeps : ∀ p ∈ turns.order.map (pollParticipant wired now), ∀ y y' a,
      h.Goes since v₀ now y → p y = .waiting y' a → h.Goes since v₀ now y' :=
    List.forall_mem_map.2 fun q _ _ _ _ goes step => goes.waits step
  have still : ∀ p ∈ turns.order.map (pollParticipant wired now), Still p :=
    List.forall_mem_map.2 fun q _ => still q now
  constructor
  · obtain ⟨_, _, _, tracks'⟩ := all_waits still keeps ⟨c, joint, silent, tracks⟩ step
    exact tracks'
  · refine all_rests (Q := fun a y => Rests (once h.task) now a (h.view y)) still keeps ?_
      (fun a b y rests => ⟨rests.earlier_left, rests.earlier_right⟩)
      (List.mem_map.2 ⟨h.who, turns.complete h.who, rfl⟩) ?_ ?_ ⟨c, joint, silent, tracks⟩ step
    · refine List.forall_mem_map.2 fun q _ y y' a b goes rests step => ?_
      obtain ⟨_, joint, silent, tracks⟩ := goes
      exact tracks.stays joint silent rests step
    · rintro y y' a ⟨_, joint, silent, tracks⟩ step
      have own := h.own joint silent tracks.fit
      rw [step] at own
      exact Patient.rests (Patient.once h.patient) own.symm
    · rintro y ⟨_, joint, silent, tracks⟩ step
      have own := h.own joint silent tracks.fit
      rw [step] at own
      exact rests_over (once_ready own.symm)

end Half

end Exchange
namespace Scene

open Exchange
open WiredBackend renaming backend → wired

variable {s : Scene} {now now' since : Nat} {x x' : Exchange WiredBackend} {c : Sidechannel}
    {σ : Type} {h : Half s σ} {v₀ : σ × Bool}

/-- The sidechannel is open, or was. -/
def Opened (x : Exchange WiredBackend) : Prop := x.phase = .relaying ∨ x.phase = .closing

theorem Sound.halfClosed (sound : s.Sound now x) (relays : s.Relays x c)
    (inbound : x.results.inbound.isSome) (going : x.ctx.reason = none) : c.writeClosed = true := by
  have quiet := sound.account.quiet going
  simp only [Results.joined, List.append_eq_nil_iff, Option.toList_eq_nil_iff,
    Option.map_eq_none_iff] at quiet
  obtain ⟨v, is⟩ := Option.isSome_iff_exists.1 inbound
  have well := quiet.1.1
  rw [is] at well
  exact relays.feeds.closed.2 ⟨v, is, well⟩

/-- What one turn makes of a half: it goes on by itself, or time passes over it. -/
structure Proceeds (h : Half s σ) (since : Nat) (v₀ : σ × Bool) (now now' : Nat)
    (x' : Exchange WiredBackend) : Prop where
  opened : Opened x'
  tracks : h.Tracks since v₀ now' x'
  passes : ∀ u, now < u → u ≤ now' → Alone (once h.task) since v₀ u (h.view x')

theorem Proceeds.at_once (opened : Opened x') (tracks : h.Tracks since v₀ now x') :
    Proceeds h since v₀ now now x' :=
  ⟨opened, tracks, fun _ after le => absurd (lt_of_lt_of_le after le) (Nat.lt_irrefl now)⟩

/-- Nobody that waits is to be polled before the time that everybody sleeps until. -/
theorem Proceeds.asleep {t : Nat} (opened : Opened x') (tracks : h.Tracks since v₀ now x')
    (rests : Rests (once h.task) now (some t) (h.view x')) :
    Proceeds h since v₀ now (max t (now + 1)) x' := by
  have still : ∀ u, now ≤ u → u < max t (now + 1) →
      Poll.Settles (once h.task) u (h.view x') (h.view x') := fun u le before => by
    refine rests u le ?_
    rcases Nat.eq_or_lt_of_le le with same | after
    · exact .inl same.symm
    · exact .inr fun w is => by cases is; omega
  have passes : ∀ u, now < u → u ≤ max t (now + 1) → Alone (once h.task) since v₀ u (h.view x') :=
    fun u after le => tracks.follows.passes still after le
  exact ⟨opened, ⟨tracks.fit, (passes _ (by omega) le_rfl).follows⟩, passes⟩

theorem proceeds_relaying (joint : Joint s now x c) (silent : x.ctx.signal = none)
    (tracks : h.Tracks since v₀ now x) (goes : Goes (Exchange.beside s.gone) s.poll now x now' x') :
    Proceeds h since v₀ now now' x' := by
  have there := joint_participants (s.turns now x) ⟨c, joint⟩
  have poll : s.poll now x = x.pollRelaying wired (s.turns now x) now := by
    simp only [Scene.poll, Exchange.poll, joint.phase]
  simp only [pollRelaying] at poll
  cases step : x.pollParticipants wired (s.turns now x) now with
  | crashed y =>
    rw [step] at poll
    cases goes with
    | more is | acts is _ | sleeps is _ _ => rw [poll] at is; cases is
  | ready _ y =>
    obtain ⟨rfl, _⟩ := participants_over joint step
    rw [step] at poll
    cases goes with
    | more is =>
      rw [poll] at is
      cases is
      have same : h.view { y with phase := .closing } = h.view y := h.sees rfl rfl rfl rfl
      exact .at_once (.inr rfl) ⟨same ▸ tracks.fit, same ▸ tracks.follows⟩
    | acts is _ | sleeps is _ _ => rw [poll] at is; cases is
  | more y =>
    rw [step] at poll there
    obtain ⟨c', joint'⟩ := there
    cases goes with
    | more is =>
      rw [poll] at is
      cases is
      exact .at_once (.inl joint'.phase) (tracks.goes joint silent step)
    | acts is _ | sleeps is _ _ => rw [poll] at is; cases is
  | waiting y alarm =>
    rw [step] at poll there
    obtain ⟨c', joint'⟩ := there
    obtain ⟨tracks', rests⟩ := tracks.passes joint silent step
    cases goes with
    | more is => rw [poll] at is; cases is
    | acts is act =>
      rw [poll] at is
      cases is
      obtain ⟨ctx, _, rfl⟩ := Option.map_eq_some_iff.1 act
      have same : h.view { y with ctx } = h.view y := h.sees rfl rfl rfl rfl
      exact .at_once (.inl joint'.phase) ⟨same ▸ tracks'.fit, same ▸ tracks'.follows⟩
    | sleeps is idle due =>
      rw [poll] at is
      cases is
      exact .asleep (.inl joint'.phase) tracks' (due ▸ rests.earlier_left)

theorem proceeds (sound : s.Sound now x) (opened : Opened x) (going : x.ctx.reason = none)
    (tracks : h.Tracks since v₀ now x) (turn : s.Turn now x now' x') :
    Proceeds h since v₀ now now' x' := by
  rcases turn.look_or_goes with ⟨rfl, found⟩ | goes
  · obtain ⟨ctx, _, rfl⟩ := look_eq_some found
    have same : h.view { x with ctx } = h.view x := h.sees rfl rfl rfl rfl
    exact .at_once opened ⟨same ▸ tracks.fit, same ▸ tracks.follows⟩
  cases sound.stands with
  | starting _ phase _ _ _ _ | opening _ _ phase _ _ _ _ _ =>
    rcases opened with is | is <;> rw [phase] at is <;> cases is
  | relaying c phase relays is_open unlimited =>
    exact proceeds_relaying (sound.joint phase relays is_open unlimited)
      (sound.ctx.coherent.signal.trans going) tracks goes
  | closing c phase relays inbound outbound reply held =>
    have half := sound.halfClosed relays inbound going
    obtain ⟨p, step, same⟩ := poll_closing phase relays.channel (s.turns now x) now
    have poll : s.poll now x = p.into x.setChannel fun _ c => (x.setChannel c).conclude wired := same
    cases step with
    | givesUp _ _ =>
      cases goes with
      | more is =>
        rw [poll] at is
        cases is
        have same : h.view (x.setChannel (c.giveUp now)) = h.view x :=
          h.sees rfl rfl rfl (line_eq relays.channel).symm
        exact .at_once (.inr phase) ⟨same ▸ tracks.fit, same ▸ tracks.follows⟩
      | acts is _ | sleeps is _ _ => rw [poll] at is; cases is
    | closed _ _ | halfClosed _ _ _ =>
      cases goes with
      | more is | acts is _ | sleeps is _ _ => rw [poll] at is; cases is
    | ends _ _ _ _ unclosed _ _ | waits _ _ _ _ unclosed _ _ | crashes _ _ _ unclosed _ =>
      rw [half] at unclosed
      cases unclosed

end Scene
end PackRelay
