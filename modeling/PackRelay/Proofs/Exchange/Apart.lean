import PackRelay.Proofs.Exchange.Lockstep
import PackRelay.Proofs.Exchange.Release

/-! The two directions of an exchange do not hold each other up. Until the sidechannel is open, runs
that are set up alike do the same; from then on each direction goes its own way, which only what it
reads from and writes to decides. -/
namespace PackRelay

namespace Exchange

open WiredBackend renaming backend → wired

/-- What the client took, the latest write first, and whether its answer was begun. -/
def received (x : Exchange WiredBackend) : List Bytes × Bool :=
  (x.outbound.response.sink.chunks, x.outbound.response.headersSent)

/-- What the sidechannel's peer took, the latest write first, and how often it was told that this was
all. -/
def sent? (x : Exchange WiredBackend) : Option (List Bytes × Nat) :=
  x.channelConnection?.map fun k => (k.sink.chunks, k.sink.shutdowns)

variable {x : Exchange WiredBackend} {c : Sidechannel}

theorem sent?_release (x : Exchange WiredBackend) : (x.release wired).sent? = x.sent? := by
  rcases released_connection x with same | same
  · simp only [sent?, same]
  · simp only [sent?, same, Option.map_map]
    rfl

theorem received_eq_view (x : Exchange WiredBackend) :
    x.received = (x.outboundView.1.1.sink.chunks, x.outboundView.1.2.value) := rfl

theorem sent?_eq_view (channel : x.channel = some c) :
    x.sent? = some (x.inboundView.1.sink.chunks, x.inboundView.1.sink.shutdowns) := by
  simp only [sent?, channelConnection?, channel, inboundView, line_eq channel, Option.map_some]
  rfl

end Exchange

namespace Scene

open Exchange Poll
open WiredBackend renaming backend → wired

/-- What a run has come to by some time: every step before it is taken, and none after that. -/
def At (s : Scene) (t : Nat) (x : Exchange WiredBackend) : Prop :=
  ∃ n, (∀ m < n, (s.after m).time < t) ∧ (s.after n).state = x ∧
    (t ≤ (s.after n).time ∨ ∀ u y, s.after n ≠ .unfinished u y)

variable {s s' : Scene} {k n t u since : Nat} {x y z : Exchange WiredBackend} {σ : Type}
    {h : Half s σ} {v₀ : σ × Bool}

theorem at_exists (settles : s.Settles) (t : Nat) : ∃ x, s.At t x := by
  obtain ⟨n, u, _, halted⟩ := s.ends settles
  have done : ∃ n, t ≤ (s.after n).time ∨ ∀ u y, s.after n ≠ .unfinished u y := by
    refine ⟨n, .inr fun u y is => ?_⟩
    rcases halted with ⟨_, _, there⟩ | ⟨⟨_, there⟩, _⟩ <;> rw [there] at is <;> cases is
  classical
  exact ⟨_, Nat.find done, fun m less => Nat.lt_of_not_le fun le => Nat.find_min done less (.inl le),
    rfl, Nat.find_spec done⟩

theorem At.unique (one : s.At t x) (two : s.At t y) : x = y := by
  obtain ⟨n, before, rfl, arrived⟩ := one
  obtain ⟨m, before', rfl, arrived'⟩ := two
  -- Whoever arrives first stays.
  have stays : ∀ {i j}, i ≤ j → (t ≤ (s.after i).time ∨ ∀ u y, s.after i ≠ .unfinished u y) →
      (∀ m < j, (s.after m).time < t) → s.after j = s.after i := by
    intro i j le arrived before
    rcases Nat.eq_or_lt_of_le le with rfl | less
    · rfl
    · obtain ⟨d, rfl⟩ := Nat.exists_eq_add_of_le le
      exact after_over (arrived.resolve_left (Nat.not_le.2 (before i less))) d
  rcases Nat.le_total n m with le | le
  · rw [stays le arrived before']
  · rw [stays le arrived' before]

theorem Undisturbed.going (undisturbed : s.Undisturbed t) (reached : s.Reaches u x)
    (before : u < t) : x.ctx.reason = none := by
  obtain ⟨n, here⟩ := reached
  have calm := undisturbed n
  rw [here] at calm
  exact (calm before).resolve_right fun ⟨_, _, _, is⟩ => nomatch is

theorem Undisturbed.whole (undisturbed : s.Undisturbed t) (before : u < t)
    (crashed : s.after n = .crashed u (x.release wired)) : False := by
  have calm := undisturbed n
  rw [crashed] at calm
  rcases calm before with is | ⟨_, _, _, is⟩
  · have reason : (x.release wired).ctx.reason = x.ctx.reason.or (some .done) := rfl
    have is : (x.release wired).ctx.reason = none := is
    rw [reason] at is
    cases reason : x.ctx.reason <;> rw [reason] at is <;> cases is
  · cases is

/-- What is calm when the time has come was calm before. -/
theorem undisturbed_of (calm : (s.after n).state.ctx.reason = none) (late : t ≤ (s.after n).time) :
    s.Undisturbed t := by
  intro m before
  rcases Nat.le_total m n with le | le
  · have heeds : (s.after m).state.ctx.Heeds (s.after n).state.ctx :=
      (handle_after WiredBackend.honest s.held_exchange le).ctx
    refine .inl (Option.eq_none_iff_forall_ne_some.2 fun r is => ?_)
    rw [heeds.reason r is] at calm
    cases calm
  · exact absurd (le_trans late (s.time_mono le)) (Nat.not_le.2 before)

theorem Sound.opened_channel (sound : s.Sound u x) (opened : Opened x) :
    ∃ c, x.channel = some c := by
  cases sound.stands with
  | starting _ phase _ _ _ _ | opening _ _ phase _ _ _ _ _ =>
    rcases opened with is | is <;> rw [phase] at is <;> cases is
  | relaying c _ relays _ _ => exact ⟨c, relays.channel⟩
  | closing c _ relays _ _ _ _ => exact ⟨c, relays.channel⟩

/-- A half where it has come to at some time, and what the exchange looks like then. -/
structure Arrives (h : Half s σ) (since : Nat) (v₀ : σ × Bool) (t : Nat)
    (z x : Exchange WiredBackend) : Prop where
  alone : Alone (once h.task) since v₀ t (h.view z)
  channel : ∃ c, z.channel = some c
  received : x.received = z.received
  sent : x.sent? = z.sent?

/-- An exchange that comes to its end undisturbed has no half that was not over. -/
theorem Sound.arrives_over (sound : s.Sound u z) (opened : Opened z)
    (tracks : h.Tracks since v₀ u z) (undisturbed : s.Undisturbed t) (reached : s.Reaches u z)
    (before : u < t) (ends : s.Ends u z (s.after n)) :
    Arrives h since v₀ t z (s.after n).state := by
  generalize is : s.after n = r at ends
  cases ends with
  | crashed _ => exact (undisturbed.whole before is).elim
  | stuck step idle due => exact absurd due (sound.awake step idle)
  | finished step =>
    obtain ⟨y, ending, _, rfl⟩ := sound.ending step
    cases ending with
    | start _ _ _ _ _ _ _ phase | dial _ _ _ _ _ _ _ phase =>
      rcases opened with is | is <;> rw [phase] at is <;> cases is
    | close c c' v phase relays inbound outbound reply closes =>
      have half := sound.halfClosed relays inbound (undisturbed.going reached before)
      have rests : Rests (once h.task) u none (h.view z) :=
        rests_over (h.ended inbound outbound)
      have same : c'.connection.sink.chunks = c.connection.sink.chunks ∧
          c'.connection.sink.shutdowns = c.connection.sink.shutdowns := by
        cases closes with
        | closed _ _ | halfClosed _ _ _ => exact ⟨rfl, rfl⟩
        | ends _ _ _ _ unclosed _ _ =>
          rw [half] at unclosed
          cases unclosed
      refine ⟨tracks.follows.passes (t := t) ?_ before le_rfl, ⟨c, relays.channel⟩, rfl, ?_⟩
      · exact fun w le _ => rests w le (.inr fun _ is => nomatch is)
      · refine (sent?_release _).trans ?_
        simp only [sent?, channelConnection?, setChannel, relays.channel, Option.map_some, same]

/-- From when the sidechannel is open, a half goes on by itself until it is some time. -/
theorem At.arrives (at_t : s.At t x) (here : s.after k = .unfinished since y) (before : since < t)
    (opened : Opened y) (fit : h.fit (h.view y).1) (undisturbed : s.Undisturbed t) :
    ∃ z, Arrives h since (h.view y) t z x := by
  obtain ⟨n, earlier, rfl, arrived⟩ := at_t
  have later : k < n := by
    refine Nat.lt_of_not_le fun le => ?_
    have early := s.time_mono le
    rw [here] at early
    have halted := arrived.resolve_left (Nat.not_le.2 (lt_of_le_of_lt early before))
    obtain ⟨d, rfl⟩ := Nat.exists_eq_add_of_le le
    exact halted since y (by rw [← after_over halted d, here])
  obtain ⟨d, rfl⟩ := Nat.exists_eq_add_of_lt later
  have start : (s.after (k + d)).time < t := earlier (k + d) (Nat.lt_succ_self _)
  have came := comes_from (I := fun u z => s.Reaches u z ∧
      (u < t → Opened z ∧ h.Tracks since (h.view y) u z))
    (fun u z u' z' ⟨reached, kept⟩ turn => ⟨reached.turn turn, fun less => by
      have before := lt_of_le_of_lt turn.le less
      obtain ⟨opened, tracks⟩ := kept before
      have proceeded := proceeds (sound_of_reaches reached) opened
        (undisturbed.going reached before) tracks turn
      exact ⟨proceeded.opened, proceeded.tracks⟩⟩)
    here ⟨⟨k, here⟩, fun _ => ⟨opened, fit, Alone.start.follows⟩⟩ d
  -- The last moment before the time that matters.
  generalize is : s.after (k + d) = r at came start
  cases came with
  | @unfinished u z kept =>
    obtain ⟨reached, kept⟩ := kept
    obtain ⟨opened, tracks⟩ := kept start
    have sound := sound_of_reaches reached
    rcases after_succ is with ⟨u', z', turn, there⟩ | ends
    · have there : s.after (k + d + 1) = .unfinished u' z' := there
      rw [there] at arrived ⊢
      have late : t ≤ u' := arrived.resolve_right fun halted => halted u' z' rfl
      have proceeded := proceeds sound opened (undisturbed.going reached start) tracks turn
      exact ⟨z', proceeded.passes t start late,
        (sound.turn turn).opened_channel proceeded.opened, rfl, rfl⟩
    · exact ⟨z, sound.arrives_over opened tracks undisturbed reached start ends⟩
  | @concluded u z r kept ends =>
    obtain ⟨reached, kept⟩ := kept
    have before : u < t := by cases ends <;> exact start
    obtain ⟨opened, tracks⟩ := kept before
    have halted : ∀ u z, s.after (k + d) ≠ .unfinished u z := by
      rw [is]
      cases ends <;> exact fun _ _ is => nomatch is
    rw [after_over halted 1, is]
    exact ⟨z, is ▸ (sound_of_reaches reached).arrives_over opened tracks undisturbed reached before
      (is ▸ ends)⟩

theorem line_standIn (s : Scene) (x : Exchange WiredBackend) :
    (s.standIn x).line = (x.channel.map fun c => c.connection.standIn
      (.ofEvents s.channelListener.reads) s.channelListener.writes).getD ⟨.ofEvents [], {}⟩ := by
  cases channel : x.channel <;> simp only [line, standIn, channel] <;> rfl

theorem sent?_standIn (s : Scene) (x : Exchange WiredBackend) : (s.standIn x).sent? = x.sent? := by
  simp only [sent?, channelConnection?, standIn]
  cases x.channel with
  | some c => rfl
  | none =>
    simp only [Option.map_none, ChannelLine.connection_standIn, Option.map_map]
    rfl

theorem received_standIn (s : Scene) (x : Exchange WiredBackend) :
    (s.standIn x).received = ([], false) := rfl

theorem outboundView_standIn (reads : s'.channelListener.reads = s.channelListener.reads)
    (response : s'.response = s.response) (x : Exchange WiredBackend) :
    (s'.standIn x).outboundView = (s.standIn x).outboundView := by
  have source : (s'.standIn x).line.source = (s.standIn x).line.source := by
    rw [line_standIn, line_standIn, reads]
    cases x.channel <;> rfl
  have outbound : s'.exchange.outbound = s.exchange.outbound := by
    simp only [Scene.exchange, fresh, response]
  simp only [outboundView, source]
  simp only [standIn, outbound]

theorem inboundView_standIn (writes : s'.channelListener.writes = s.channelListener.writes)
    (body : s'.body = s.body) (x : Exchange WiredBackend) :
    (s'.standIn x).inboundView = (s.standIn x).inboundView := by
  have sink : (s'.standIn x).line.sink = (s.standIn x).line.sink := by
    rw [line_standIn, line_standIn, writes]
    cases x.channel <;> rfl
  have inbound : s'.exchange.inbound = s.exchange.inbound := by
    simp only [Scene.exchange, fresh, body]
  simp only [inboundView, sink]
  simp only [standIn, inbound]

variable {s₁ s₂ : Scene} {x₁ x₂ : Exchange WiredBackend}

/-- Halves with the same task go the same way once the sidechannel is open. -/
theorem SetsUpAs.arrive (h₁ : Half s₁ σ) (h₂ : Half s₂ σ) (sets : s₁.SetsUpAs s₂)
    (here : s₁.after k = .unfinished since y) (before : since < t)
    (opened : Opened y) (unopened : ∀ m < k, ∀ u z, s₁.after m = .unfinished u z → ¬ Opened z)
    (task : h₂.task = h₁.task) (same : h₂.view (s₂.standIn y) = h₁.view (s₁.standIn y))
    (fit₁ : h₁.fit (h₁.view (s₁.standIn y)).1) (fit₂ : h₂.fit (h₁.view (s₁.standIn y)).1)
    (one : s₁.Undisturbed t) (two : s₂.Undisturbed t) (at₁ : s₁.At t x₁) (at₂ : s₂.At t x₂) :
    ∃ z₁ z₂, h₂.view z₂ = h₁.view z₁ ∧
      Arrives h₁ since (h₁.view (s₁.standIn y)) t z₁ x₁ ∧
      Arrives h₂ since (h₁.view (s₁.standIn y)) t z₂ x₂ := by
  have earlier : ∀ m < k, (s₁.after m).time < t := fun m less => by
    have early := s₁.time_mono less.le
    rw [here] at early
    exact lt_of_le_of_lt early before
  have here₁ : s₁.after k = .unfinished since (s₁.standIn y) := by
    rw [((SetsUpAs.refl s₁).together one one earlier unopened).1, here]
    rfl
  have here₂ : s₂.after k = .unfinished since (s₂.standIn y) := by
    rw [(sets.together one two earlier unopened).1, here]
    rfl
  obtain ⟨z₁, arrives₁⟩ := at₁.arrives (h := h₁) here₁ before opened fit₁ one
  obtain ⟨z₂, arrives₂⟩ := at₂.arrives (h := h₂) here₂ before opened (same ▸ fit₂) two
  rw [same] at arrives₂
  have alone₂ := arrives₂.alone
  rw [task] at alone₂
  exact ⟨z₁, z₂, alone₂.unique arrives₁.alone, arrives₁, arrives₂⟩

/-- As long as the sidechannel is not open, neither the client nor the peer can tell the runs apart.
-/
theorem SetsUpAs.alike_unopened (sets : s₁.SetsUpAs s₂) (one : s₁.Undisturbed t)
    (two : s₂.Undisturbed t)
    (unopened : ∀ k u z, s₁.after k = .unfinished u z → u < t → ¬ Opened z)
    (at₁ : s₁.At t x₁) (at₂ : s₂.At t x₂) :
    x₂.received = x₁.received ∧ x₂.sent? = x₁.sent? := by
  obtain ⟨n, before, rfl, arrived⟩ := at₁
  have unopened : ∀ m < n, ∀ u z, s₁.after m = .unfinished u z → ¬ Opened z :=
    fun m less u z there => by
      have early := before m less
      rw [there] at early
      exact unopened m u z there early
  have together : ∀ m ≤ n, s₂.after m = (s₁.after m).view s₂.standIn := fun m le =>
    (sets.together one two (fun i less => before i (lt_of_lt_of_le less le))
      fun i less => unopened i (lt_of_lt_of_le less le)).1
  have at₂' : s₂.At t (s₂.standIn (s₁.after n).state) := by
    refine ⟨n, fun m less => ?_, ?_, ?_⟩
    · rw [together m less.le, Run.time_view]
      exact before m less
    · rw [together n le_rfl, Run.state_view]
    · rw [together n le_rfl, Run.time_view]
      refine arrived.imp_right fun halted => ?_
      cases there : s₁.after n with
      | unfinished u z => exact absurd there (halted u z)
      | _ => exact fun _ _ is => nomatch is
  have itself : (s₁.after n).state = s₁.standIn (s₁.after n).state := by
    have same := congrArg Run.state ((SetsUpAs.refl s₁).together one one before unopened).1
    rwa [Run.state_view] at same
  cases at₂.unique at₂'
  refine ⟨?_, sent?_standIn s₂ _⟩
  rw [itself, received_standIn, received_standIn]

/-- The two directions do not hold each other up. Take two runs that are set up alike, and any time
before which nothing cancels either of them. If their sidechannels are read alike, and what is read
does not depend on what is written, then however slowly the one or the other takes the request, or if
it takes none of it, the client has got the same by then in the same writes. And if the request and
what becomes of its writes are alike, the backend has got the same by then and was told so, whatever
is sent back and whatever becomes of it. -/
theorem directions_apart (sets : s₁.SetsUpAs s₂) (one : s₁.Undisturbed t)
    (two : s₂.Undisturbed t) :
    (s₁.Settles → ∃ x, s₁.At t x) ∧ (s₂.Settles → ∃ x, s₂.At t x) ∧
      ∀ x₁ x₂, s₁.At t x₁ → s₂.At t x₂ →
        (s₂.channelListener.reads = s₁.channelListener.reads →
          (∀ e ∈ s₁.channelListener.reads, e.prompted = false) → s₂.response = s₁.response →
          x₂.received = x₁.received) ∧
        (s₂.channelListener.writes = s₁.channelListener.writes → s₂.body = s₁.body →
          x₂.sent? = x₁.sent?) := by
  refine ⟨fun settles => at_exists settles t, fun settles => at_exists settles t,
    fun x₁ x₂ at₁ at₂ => ?_⟩
  by_cases opens : ∃ k u y, s₁.after k = .unfinished u y ∧ u < t ∧ Opened y
  case neg =>
    have alike := sets.alike_unopened one two (fun k u y here before opened =>
      opens ⟨k, u, y, here, before, opened⟩) at₁ at₂
    exact ⟨fun _ _ _ => alike.1, fun _ _ => alike.2⟩
  case pos =>
    classical
    obtain ⟨since, y, here, before, opened⟩ := Nat.find_spec opens
    have unopened : ∀ m < Nat.find opens, ∀ u z, s₁.after m = .unfinished u z → ¬ Opened z :=
      fun m less u z there opened => by
        have early := s₁.time_mono less.le
        rw [there, here] at early
        exact Nat.find_min opens less ⟨u, z, there, lt_of_le_of_lt early before, opened⟩
    constructor
    · intro reads unprompted response
      have fit : ((s₁.standIn y).outboundView.1).1.source.Unprompted := by
        simp only [outboundView, line_standIn]
        cases y.channel with
        | none => exact fun e there => nomatch there
        | some c => exact unprompted
      obtain ⟨z₁, z₂, same, arrives₁, arrives₂⟩ := sets.arrive (outboundHalf s₁) (outboundHalf s₂)
        here before opened unopened rfl (outboundView_standIn reads response y) fit fit one two at₁ at₂
      have same : z₂.outboundView = z₁.outboundView := same
      rw [arrives₂.received, arrives₁.received, received_eq_view, received_eq_view, same]
    · intro writes body
      obtain ⟨z₁, z₂, same, arrives₁, arrives₂⟩ := sets.arrive (inboundHalf s₁) (inboundHalf s₂)
        here before opened unopened rfl (inboundView_standIn writes body y) trivial trivial one two
        at₁ at₂
      have same : z₂.inboundView = z₁.inboundView := same
      obtain ⟨c₁, channel₁⟩ := arrives₁.channel
      obtain ⟨c₂, channel₂⟩ := arrives₂.channel
      rw [arrives₂.sent, arrives₁.sent, sent?_eq_view channel₁, sent?_eq_view channel₂, same]

/-- A backend that takes three milliseconds for its answer, and nine for its reply. -/
def leisurely : Scene :=
  { brief with
    callListener := .accepts (.delay 9 :: brief.callListener.reads) {}
    channelListener := .accepts [.delay 3, .data [1, 2, 3]] {} }

/-- The same backend, which takes nothing behind its hello; and the request never ends. -/
def clogged : Scene :=
  { leisurely with
    body := [.data [7, 8], .hang]
    channelListener := .accepts [.delay 3, .data [1, 2, 3]] { write := fun _ accepted =>
      ⟨0, if accepted < brief.channelHello.length + 4 then .accept none else .hang⟩ } }

/-- A backend that says something else and then no more, to a client that takes none of it. -/
def unheard : Scene :=
  { leisurely with
    callListener := .accepts [.hang] {}
    channelListener := .accepts [.delay 2, .data [9], .hang] {}
    response := { write := fun _ _ => ⟨0, .hang⟩ } }

theorem leisurely_settles : leisurely.Settles where
  call c answer := by cases answer; exact SinkPlan.settles_accepting
  channel c answer := by cases answer; exact SinkPlan.settles_accepting
  response := SinkPlan.settles_accepting

theorem directions_apart_clogged :
    (∃ x₁ x₂, leisurely.At 4 x₁ ∧ clogged.At 4 x₂ ∧ x₂.received = x₁.received) ∧
      ∃ x₁ x₂, leisurely.At 4 x₁ ∧ unheard.At 4 x₂ ∧ x₂.sent? = x₁.sent? := by
  have calm : leisurely.Undisturbed 4 := by
    have facts : (leisurely.after 19).state.ctx.reason = none ∧ 4 ≤ (leisurely.after 19).time := by
      decide +kernel
    exact undisturbed_of facts.1 facts.2
  have calm_clogged : clogged.Undisturbed 4 := by
    have facts : (clogged.after 16).state.ctx.reason = none ∧ 4 ≤ (clogged.after 16).time := by
      decide +kernel
    exact undisturbed_of facts.1 facts.2
  have calm_unheard : unheard.Undisturbed 4 := by
    have facts : (unheard.after 16).state.ctx.reason = none ∧ 4 ≤ (unheard.after 16).time := by
      decide +kernel
    exact undisturbed_of facts.1 facts.2
  constructor
  · have sets : leisurely.SetsUpAs clogged := by
      refine ⟨rfl, .refl _ _, fun _ accepted less => ?_, rfl⟩
      exact congrArg (WriteTurn.mk 0) (if_pos less).symm
    have settles : clogged.Settles := by
      refine ⟨leisurely_settles.call, fun c answer => ?_, leisurely_settles.response⟩
      cases answer
      refine fun _ accepted => ⟨0, fun ⟨_, is, _⟩ => ?_⟩
      simp only at is
      split at is <;> cases is
    obtain ⟨arrives₁, arrives₂, apart⟩ := directions_apart sets calm calm_clogged
    obtain ⟨x₁, at₁⟩ := arrives₁ leisurely_settles
    obtain ⟨x₂, at₂⟩ := arrives₂ settles
    exact ⟨x₁, x₂, at₁, at₂, (apart x₁ x₂ at₁ at₂).1 rfl (by decide) rfl⟩
  · have sets : leisurely.SetsUpAs unheard := ⟨rfl, ⟨fun _ _ _ => rfl, rfl⟩, fun _ _ _ => rfl, rfl⟩
    have settles : unheard.Settles := by
      refine ⟨fun c answer => ?_, fun c answer => ?_, fun _ _ => ⟨0, fun ⟨_, is, _⟩ => nomatch is⟩⟩
      · cases answer
        exact SinkPlan.settles_accepting
      · cases answer
        exact SinkPlan.settles_accepting
    obtain ⟨arrives₁, arrives₂, apart⟩ := directions_apart sets calm calm_unheard
    obtain ⟨x₁, at₁⟩ := arrives₁ leisurely_settles
    obtain ⟨x₂, at₂⟩ := arrives₂ settles
    exact ⟨x₁, x₂, at₁, at₂, (apart x₁ x₂ at₁ at₂).2 rfl rfl⟩

end Scene
end PackRelay
