import PackRelay.Proofs.Exchange.Pace

/-! Every exchange comes to its end. As long as time stands still each of its steps leaves less to
be done, and it has no more time than its deadline and the second that closing may take. -/
namespace PackRelay

/-- Nobody who writes is interrupted for ever. -/
structure Scene.Settles (s : Scene) : Prop where
  call : ∀ c, s.callListener.answer = .connected c → c.sink.plan.Settles
  channel : ∀ c, s.channelListener.answer = .connected c → c.sink.plan.Settles
  response : s.response.Settles

def ExchangePhase.left : ExchangePhase → Nat
  | .starting => 3
  | .opening => 2
  | .relaying => 1
  | .closing => 0

namespace Exchange

open WiredBackend renaming backend → wired

def alive (x : Exchange WiredBackend) : Nat := if x.ctx.cancelled then 0 else 1

def holding (x : Exchange WiredBackend) : Nat := if x.channel.any Sidechannel.isOpen then 1 else 0

noncomputable def openingRank (x : Exchange WiredBackend) : ℕ ×ₗ ℕ ×ₗ ℕ ×ₗ ℕ :=
  match x.phase, x.backend.call, x.backend.channel with
  | .starting, .opening o, _ => o.rank
  | .opening, _, .opening o => o.rank
  | _, _, _ => toLex (0, toLex (0, toLex (0, 0)))

noncomputable def inboundRank (x : Exchange WiredBackend) : ℕ ×ₗ (ℕ ×ₗ ℕ) ×ₗ ℕ ×ₗ ℕ ×ₗ ℕ :=
  toLex (if x.results.inbound.isSome then 0 else 1,
    (x.inbound.flow (x.channel.elim {} (·.connection.sink))).rank)

noncomputable def outboundRank (x : Exchange WiredBackend) : ℕ ×ₗ (ℕ ×ₗ ℕ) ×ₗ ℕ ×ₗ ℕ ×ₗ ℕ :=
  toLex (if x.results.outbound.isSome then 0 else 1,
    (x.outbound.flow (x.channel.elim (.ofEvents []) (·.connection.source))).rank)

def replyRank (x : Exchange WiredBackend) : ℕ ×ₗ ℕ ×ₗ ℕ ×ₗ ℕ :=
  match x.backend.call with
  | .listening r k => toLex (1, Wire.Reading.rank (r, k))
  | _ => toLex (0, toLex (0, toLex (0, 0)))

noncomputable def tasks (x : Exchange WiredBackend) :=
  (x.alive, x.holding, x.openingRank, x.inboundRank, x.outboundRank, x.replyRank)

/-- What is left to be done. -/
noncomputable def rank (x : Exchange WiredBackend) := toLex (x.phase.left, x.tasks)

variable {s : Scene} {x x' : Exchange WiredBackend} {now : Nat} {c : Sidechannel}

theorem alive_unless (ok : Bool) : (x.cancelUnless ok).alive ≤ x.alive := by
  cases ok with
  | true => exact le_rfl
  | false => exact Nat.zero_le _

theorem rank_lt_of_left (less : x'.phase.left < x.phase.left) :
    x'.rank < x.rank := Prod.Lex.toLex_lt_toLex.2 (.inl less)

theorem rank_lt_of_tasks (same : x'.phase = x.phase) (less : x'.tasks < x.tasks) :
    x'.rank < x.rank :=
  Prod.Lex.toLex_lt_toLex.2 (.inr ⟨congrArg ExchangePhase.left same, less⟩)

theorem rank_le_of_tasks (same : x'.phase = x.phase) (le : x'.tasks ≤ x.tasks) : x'.rank ≤ x.rank :=
  Prod.Lex.toLex_le_toLex.2 (.inr ⟨congrArg ExchangePhase.left same, le⟩)

theorem tasks_fed (channel : x.channel = some c) (closed : Bool) (m : Flow) :
    (x.fed c closed m).tasks = (x.alive, x.holding, x.openingRank,
      toLex (if x.results.inbound.isSome then 0 else 1, m.rank), x.outboundRank, x.replyRank) := by
  have same : ((Inbound.ofFlow m).flow (c.setSink m.sink).connection.sink).rank = m.rank :=
    congrArg Flow.rank (Inbound.flow_ofFlow m)
  simp only [tasks, fed, setChannel, alive, holding, openingRank, inboundRank, outboundRank,
    replyRank, channel, Option.elim_some, Option.any_some, Sidechannel.fed, same]
  rfl

theorem tasks_drawn (channel : x.channel = some c) (headers : Watched Bool) (count : Nat)
    (m : Flow) :
    (x.drawn c headers count m).tasks = (x.alive, x.holding, x.openingRank, x.inboundRank,
      toLex (if x.results.outbound.isSome then 0 else 1, m.rank), x.replyRank) := by
  have same : ((Outbound.ofFlow headers count m).flow (c.drawn m.source).connection.source).rank =
    m.rank :=
    congrArg Flow.rank (Outbound.flow_ofFlow headers count m)
  simp only [tasks, drawn, setChannel, alive, holding, openingRank, inboundRank, outboundRank,
    replyRank, channel, Option.elim_some, Option.any_some, same]
  rfl

theorem noteInbound_lt {y : Exchange WiredBackend} {rank : ℕ ×ₗ (ℕ ×ₗ ℕ) ×ₗ ℕ ×ₗ ℕ ×ₗ ℕ}
    (going : x.results.inbound = none)
    (left : y.tasks = (x.alive, x.holding, x.openingRank, rank, x.outboundRank, x.replyRank))
    (v : RelayResult) :
    (y.noteInbound v).tasks < x.tasks := by
  simp only [tasks, Prod.mk.injEq] at left
  obtain ⟨alive, holding, opening, _, outbound, reply⟩ := left
  have concluded : (y.noteInbound v).inboundRank < x.inboundRank := by
    refine Prod.Lex.toLex_lt_toLex.2 (.inl ?_)
    simp [noteInbound, going]
  have others : (y.noteInbound v).holding = y.holding ∧ (y.noteInbound v).openingRank =
    y.openingRank ∧
      (y.noteInbound v).outboundRank = y.outboundRank ∧ (y.noteInbound v).replyRank =
        y.replyRank := by
    cases ok : v.isOk <;> simp only [noteInbound, ok] <;> exact ⟨rfl, rfl, rfl, rfl⟩
  obtain ⟨holding', opening', outbound', reply'⟩ := others
  have alive' : (y.noteInbound v).alive ≤ x.alive := alive ▸ alive_unless v.isOk
  simp only [tasks, holding', holding, opening', opening, outbound', outbound, reply', reply]
  exact Prod.mk_lt_mk.2 (.inr ⟨alive',
    by simpa only [Prod.mk_lt_mk_iff_right, Prod.mk_lt_mk_iff_left] using concluded⟩)

theorem noteOutbound_lt {y : Exchange WiredBackend} {rank : ℕ ×ₗ (ℕ ×ₗ ℕ) ×ₗ ℕ ×ₗ ℕ ×ₗ ℕ}
    (going : x.results.outbound = none)
    (left : y.tasks = (x.alive, x.holding, x.openingRank, x.inboundRank, rank, x.replyRank))
    (v : RelayResult) :
    (y.noteOutbound v).tasks < x.tasks := by
  simp only [tasks, Prod.mk.injEq] at left
  obtain ⟨alive, holding, opening, inbound, _, reply⟩ := left
  have concluded : (y.noteOutbound v).outboundRank < x.outboundRank := by
    refine Prod.Lex.toLex_lt_toLex.2 (.inl ?_)
    simp [noteOutbound, going]
  have others : (y.noteOutbound v).holding = y.holding ∧ (y.noteOutbound v).openingRank =
    y.openingRank ∧
      (y.noteOutbound v).inboundRank = y.inboundRank ∧ (y.noteOutbound v).replyRank =
        y.replyRank := by
    cases ok : v.isOk <;> simp only [noteOutbound, ok] <;> exact ⟨rfl, rfl, rfl, rfl⟩
  obtain ⟨holding', opening', inbound', reply'⟩ := others
  have alive' : (y.noteOutbound v).alive ≤ x.alive := alive ▸ alive_unless v.isOk
  simp only [tasks, holding', holding, opening', opening, inbound', inbound, reply', reply]
  exact Prod.mk_lt_mk.2 (.inr ⟨alive',
    by simpa only [Prod.mk_lt_mk_iff_right, Prod.mk_lt_mk_iff_left] using concluded⟩)

theorem Joint.lowers_inbound {p : Poll Flow (Option RelayError)} (joint : Joint s now x c)
    (settles : s.Settles) (going : x.results.inbound = none)
    (step : Flow.Step inflow (x.inbound.flow c.connection.sink) p) :
    (p.into (x.fed c false) fun e m =>
      .more ((x.fed c e.isNone m).noteInbound ((Inbound.ofFlow m).result e)) :
        Poll (Exchange WiredBackend) Unit).Lowers tasks x := by
  have channel := joint.relays.channel
  have here := tasks_fed channel false (x.inbound.flow c.connection.sink)
  rw [fed_self channel (joint.unclosed going)] at here
  obtain ⟨k, answer, plan⟩ := joint.relays.feeds.plan
  have lowers := step.lowers (plan ▸ settles.channel k answer)
  cases p with
  | ready e m => exact noteInbound_lt going (tasks_fed channel e.isNone m) _
  | more m =>
    show (x.fed c false m).tasks < x.tasks
    rw [tasks_fed channel, here]
    simp only [Prod.mk_lt_mk_iff_right, Prod.mk_lt_mk_iff_left]
    exact Prod.Lex.toLex_lt_toLex.2 (.inr ⟨rfl, lowers⟩)
  | waiting m alarm =>
    show (x.fed c false m).tasks ≤ x.tasks
    rw [tasks_fed channel, here]
    exact ⟨le_rfl, le_rfl, le_rfl, Prod.Lex.toLex_le_toLex.2 (.inr ⟨rfl, lowers⟩), le_rfl, le_rfl⟩
  | crashed m => trivial

theorem Joint.lowers_outbound {p : Poll Flow (Option RelayError)} (joint : Joint s now x c)
    (settles : s.Settles) (going : x.results.outbound = none)
    (step : Flow.Step outflow (x.outbound.flow c.connection.source) p) (headers : Watched Bool)
    (count : Nat) :
    (p.into (x.drawn c headers count) fun e m =>
      .more ((x.drawn c headers count m).noteOutbound ((Outbound.ofFlow headers count m).result e)) :
        Poll (Exchange WiredBackend) Unit).Lowers tasks x := by
  have channel := joint.relays.channel
  have here := tasks_drawn channel x.outbound.response.headers
    x.outbound.response.bytesWritten (x.outbound.flow c.connection.source)
  rw [drawn_self channel] at here
  have lowers := step.lowers (joint.relays.draws.plan ▸ settles.response)
  cases p with
  | ready e m => exact noteOutbound_lt going (tasks_drawn channel headers count m) _
  | more m =>
    show (x.drawn c headers count m).tasks < x.tasks
    rw [tasks_drawn channel, here]
    simp only [Prod.mk_lt_mk_iff_right, Prod.mk_lt_mk_iff_left]
    exact Prod.Lex.toLex_lt_toLex.2 (.inr ⟨rfl, lowers⟩)
  | waiting m alarm =>
    show (x.drawn c headers count m).tasks ≤ x.tasks
    rw [tasks_drawn channel, here]
    exact ⟨le_rfl, le_rfl, le_rfl, le_rfl, Prod.Lex.toLex_le_toLex.2 (.inr ⟨rfl, lowers⟩), le_rfl⟩
  | crashed m => trivial

theorem openingRank_of_relaying (relaying : x.phase = .relaying) :
    x.openingRank = toLex (0, toLex (0, toLex (0, 0))) := by
  simp only [openingRank, relaying]

theorem tasks_heard (relaying : x.phase = .relaying) (q : Wire.Reading × Connection) :
    (x.heard q).tasks = (x.alive, x.holding, x.openingRank, x.inboundRank, x.outboundRank,
      toLex (1, Wire.Reading.rank q)) := by
  have opening : (x.heard q).openingRank = x.openingRank :=
    (openingRank_of_relaying (x := x.heard q) relaying).trans
      (openingRank_of_relaying relaying).symm
  simp only [tasks, opening]
  rfl

theorem noteReply_lt {k : Connection} {reading : Wire.Reading} (relaying : x.phase = .relaying)
    (call : x.backend.call = .listening reading k) (q : Wire.Reading × Connection)
    (v : Except CallError Unit) :
    ((x.heard q).hungUp.noteReply v).tasks < x.tasks := by
  have phase : ((x.heard q).hungUp.noteReply v).phase = .relaying := by
    cases ok : v.isOk <;> simp only [noteReply, ok] <;> exact relaying
  have opening := (openingRank_of_relaying phase).trans (openingRank_of_relaying relaying).symm
  have concluded : ((x.heard q).hungUp.noteReply v).replyRank < x.replyRank := by
    have before : x.replyRank = toLex (1, Wire.Reading.rank (reading, k)) := by
      simp only [replyRank, call]
    have after : ((x.heard q).hungUp.noteReply v).replyRank =
      toLex (0, toLex (0, toLex (0, 0))) := by
      cases ok : v.isOk <;> simp only [noteReply, ok] <;> rfl
    rw [before, after]
    exact Prod.Lex.toLex_lt_toLex.2 (.inl Nat.zero_lt_one)
  have others : ((x.heard q).hungUp.noteReply v).holding = x.holding ∧
      ((x.heard q).hungUp.noteReply v).inboundRank = x.inboundRank ∧
      ((x.heard q).hungUp.noteReply v).outboundRank = x.outboundRank := by
    cases ok : v.isOk <;> simp only [noteReply, ok] <;> exact ⟨rfl, rfl, rfl⟩
  obtain ⟨holding, inbound, outbound⟩ := others
  have alive : ((x.heard q).hungUp.noteReply v).alive ≤ x.alive :=
    alive_unless (x := (x.heard q).hungUp) v.isOk
  simp only [tasks, holding, opening, inbound, outbound]
  exact Prod.mk_lt_mk.2 (.inr ⟨alive, by simpa only [Prod.mk_lt_mk_iff_right] using concluded⟩)

theorem Joint.lowers_reply {reading : Wire.Reading} {k : Connection}
    {p : Poll (Wire.Reading × Connection) (Except Wire.Error Wire.CallReply)}
    (joint : Joint s now x c) (call : x.backend.call = .listening reading k)
    (step : Wire.Reading.Step Wire.CallReply.decode reading k p) :
    (p.into x.heard fun v q =>
      .more ((x.heard q).hungUp.noteReply (WiredBackend.verdict v)) :
        Poll (Exchange WiredBackend) Unit).Lowers tasks x := by
  have here := tasks_heard joint.phase (reading, k)
  rw [heard_self call] at here
  cases p with
  | ready v q => exact noteReply_lt joint.phase call q _
  | more q =>
    show (x.heard q).tasks < x.tasks
    rw [tasks_heard joint.phase, here]
    cases step with
    | goes r' source _ less _ =>
      simp only [Prod.mk_lt_mk_iff_right]
      exact Prod.Lex.toLex_lt_toLex.2 (.inr ⟨rfl, less⟩)
  | waiting q alarm =>
    show (x.heard q).tasks ≤ x.tasks
    rw [tasks_heard joint.phase, here]
    cases step with
    | waits r' source alarm _ le _ =>
      exact ⟨le_rfl, le_rfl, le_rfl, le_rfl, le_rfl, Prod.Lex.toLex_le_toLex.2 (.inr ⟨rfl, le⟩)⟩
  | crashed q => trivial

theorem Joint.lowers_participant (joint : Joint s now x c) (settles : s.Settles) (p : Participant) :
    (pollParticipant wired now p x).Lowers tasks x := by
  have channel := joint.relays.channel
  have does := joint.does p
  generalize pollParticipant wired now p x = turn at does ⊢
  cases does with
  | rests p ended => simp [Poll.Lowers]
  | inboundStops r going stopped =>
    have here := tasks_fed channel false (x.inbound.flow c.connection.sink)
    rw [fed_self channel (joint.unclosed going)] at here
    exact noteInbound_lt going here _
  | inboundFlows p going silent step => exact joint.lowers_inbound settles going step
  | outboundStops r going stopped =>
    have here := tasks_drawn channel x.outbound.response.headers
      x.outbound.response.bytesWritten (x.outbound.flow c.connection.source)
    rw [drawn_self channel] at here
    exact noteOutbound_lt going here _
  | outboundFlows p headers count going silent step =>
    exact joint.lowers_outbound settles going step headers count
  | replyStops r reading k going stopped call =>
    have less := noteReply_lt joint.phase call (reading, k) (.error (.cancelled r))
    rwa [heard_self call] at less
  | replyReads reading k p going silent call step => exact joint.lowers_reply call step

theorem Joint.lowers (joint : Joint s now x c) (settles : s.Settles) (turns : Turns) :
    (x.pollParticipants wired turns now).Lowers tasks x := by
  refine Poll.Lowers.all (I := fun x => ∃ c, Joint s now x c) ?_ ?_ ?_ ⟨c, joint⟩
  · exact List.forall_mem_map.2 fun q _ => still q now
  · exact List.forall_mem_map.2 fun q _ _ there => joint_participant q there
  · refine List.forall_mem_map.2 fun q _ x there => ?_
    obtain ⟨c', joint'⟩ := there
    exact joint'.lowers_participant settles q

theorem Joint.calm (joint : Joint s now x c) (calm : s.Calm) (p : Participant) :
    pollParticipant wired now p x ≠ .crashed x' := by
  have relays := joint.relays
  have does := joint.does p
  generalize pollParticipant wired now p x = turn at does
  cases does with
  | rests _ _ | inboundStops _ _ _ | outboundStops _ _ _ | replyStops _ _ _ _ _ _ =>
    intro is
    cases is
  | inboundFlows p going silent step =>
    have none_crashed := (step.calm (relays.feeds.calm calm) (relays.feeds.plan_calm calm)).2
    cases p with
    | crashed m => exact absurd rfl (none_crashed m)
    | _ =>
      intro is
      cases is
  | outboundFlows p headers count going silent step =>
    have none_crashed := (step.calm (relays.draws.calm calm) (relays.draws.plan ▸ calm.response)).2
    cases p with
    | crashed m => exact absurd rfl (none_crashed m)
    | _ =>
      intro is
      cases is
  | replyReads reading k p going silent call step =>
    have hears := relays.hears
    rw [going, call] at hears
    cases hears with
    | listening _ _ _ _ source =>
      cases step with
      | crashes r' source' _ crash => exact absurd (source calm) crash
      | _ =>
        intro is
        cases is

end Exchange

namespace Scene

open Exchange
open WiredBackend renaming backend → wired

variable {s : Scene} {now t : Nat} {x x' : Exchange WiredBackend} {c : Sidechannel}

theorem lowers_participants (joint : Joint s now x c) (settles : s.Settles) :
    (s.poll now x).Lowers Exchange.rank x := by
  have lowers := joint.lowers settles (s.turns now x)
  have there := joint_participants (s.turns now x) ⟨c, joint⟩
  simp only [Scene.poll, Exchange.poll, joint.phase, pollRelaying]
  cases step : x.pollParticipants wired (s.turns now x) now with
  | ready _ x' =>
    show ({ x' with phase := .closing } : Exchange WiredBackend).rank < x.rank
    apply rank_lt_of_left
    rw [joint.phase]
    exact Nat.zero_lt_one
  | more x' =>
    rw [step] at lowers there
    obtain ⟨c', joint'⟩ := there
    exact rank_lt_of_tasks (joint'.phase.trans joint.phase.symm) lowers
  | waiting x' alarm =>
    rw [step] at lowers there
    obtain ⟨c', joint'⟩ := there
    exact rank_le_of_tasks (joint'.phase.trans joint.phase.symm) lowers
  | crashed x' => trivial

theorem lowers_opening {o : Opening} {p : Poll (Context × Opening) (Except OpeningError Connection)}
    {put : Context × Opening → Exchange WiredBackend}
    {next : Except OpeningError Connection → Context × Opening →
      Poll (Exchange WiredBackend) Report}
    (lowers : p.Lowers (fun q => q.2.rank) (x.ctx, o)) (here : x.openingRank = o.rank)
    (kept : (∀ e q, p ≠ .ready (.error e) q) → p.state.1 = x.ctx)
    (phase : ∀ q, (put q).phase = x.phase) (there : ∀ q, q.1 = x.ctx →
      (put q).tasks = (x.alive, x.holding, q.2.rank, x.inboundRank, x.outboundRank, x.replyRank))
    (concluded : ∀ v q, (next v q).Lowers Exchange.rank x) :
    (p.into put next).Lowers Exchange.rank x := by
  have tasks : x.tasks = (x.alive, x.holding, o.rank, x.inboundRank, x.outboundRank,
    x.replyRank) := by
    rw [← here]
    rfl
  cases p with
  | ready v q => exact concluded v q
  | more q =>
    have less : q.2.rank < o.rank := lowers
    refine rank_lt_of_tasks (phase q) ?_
    rw [there q (kept fun _ _ is => by cases is), tasks]
    simpa only [Prod.mk_lt_mk_iff_right, Prod.mk_lt_mk_iff_left] using less
  | waiting q alarm =>
    refine rank_le_of_tasks (phase q) ?_
    rw [there q (kept fun _ _ is => by cases is), tasks]
    exact ⟨le_rfl, le_rfl, lowers, le_rfl, le_rfl, le_rfl⟩
  | crashed q => trivial

theorem Sound.lowers_starting {o : Opening} (sound : s.Sound now x) (phase : x.phase = .starting)
    (call : x.backend.call = .opening o)
    (lowers : ∀ p, Opening.Step s.backend.callDestination now x.ctx o p →
      p.Lowers (fun q => q.2.rank) (x.ctx, o)) :
    (s.poll now x).Lowers Exchange.rank x := by
  obtain ⟨p, step, same⟩ := poll_starting phase call (s.turns now x) now
  rw [sound.destinations.1] at step
  rw [Scene.poll, same]
  refine lowers_opening (lowers p step) ?_ step.context_eq (fun _ => rfl) (fun q kept => ?_) ?_
  · simp only [openingRank, phase, call]
  · simp only [tasks, setBackend, alive, holding, openingRank, inboundRank, outboundRank,
      replyRank, phase, call, kept]
    rfl
  · intro v q
    cases v with
    | error e => trivial
    | ok k =>
      refine rank_lt_of_left ?_
      rw [phase]
      exact Nat.lt_succ_self 2

/-- Every step that does not wait leaves less to do, and who waits finds no more of it. -/
theorem Sound.lowers (sound : s.Sound now x) (settles : s.Settles) :
    (s.poll now x).Lowers Exchange.rank x := by
  cases sound.stands with
  | starting o phase call opens channel untouched =>
    exact sound.lowers_starting phase call fun p step => step.lowers opens settles.call
  | opening k o phase call greeted channel opens untouched =>
    obtain ⟨p, step, same⟩ := poll_opening phase channel (s.turns now x) now
    rw [sound.destinations.2] at step
    rw [Scene.poll, same]
    refine lowers_opening (step.lowers opens settles.channel) ?_ step.context_eq (fun _ => rfl)
      (fun q kept => ?_) ?_
    · simp only [openingRank, phase, channel]
    · simp only [tasks, setBackend, alive, holding, openingRank, inboundRank, outboundRank,
        replyRank, phase, kept]
      rfl
    · intro v q
      cases v with
      | error e => trivial
      | ok k =>
        refine rank_lt_of_left ?_
        rw [phase]
        exact Nat.lt_succ_self 1
  | relaying c phase relays is_open unlimited =>
    exact lowers_participants (sound.joint phase relays is_open unlimited) settles
  | closing c phase relays inbound outbound reply held =>
    obtain ⟨p, step, same⟩ := poll_closing phase relays.channel (s.turns now x) now
    rw [Scene.poll, same]
    have channel := relays.channel
    cases step with
    | givesUp limited held =>
      refine rank_lt_of_tasks rfl
        (Prod.mk_lt_mk.2 (.inr ⟨le_rfl, Prod.mk_lt_mk.2 (.inl ⟨?_, le_of_eq ?_⟩)⟩))
      · simp [holding, setChannel, channel, Sidechannel.giveUp, held]
      · simp only [openingRank, inboundRank, outboundRank, replyRank, setChannel, channel]
        rfl
    | waits limit sink alarm limited half shut early =>
      refine rank_le_of_tasks rfl (le_of_eq ?_)
      cases shut with
      | waits wake alarm =>
        simp only [tasks, alive, holding, openingRank, inboundRank, outboundRank, replyRank,
          setChannel, channel]
        rfl
    | _ => trivial

theorem Sound.calm (sound : s.Sound now x) (calm : s.Calm) : s.poll now x ≠ .crashed x' := by
  cases sound.stands with
  | starting o phase call opens channel untouched =>
    obtain ⟨p, step, same⟩ := poll_starting phase call (s.turns now x) now
    rw [sound.destinations.1] at step
    rw [Scene.poll, same]
    have none_crashed := step.calm opens fun k answer => (calm.call k answer).2
    cases p with
    | ready v q => cases v <;> exact fun is => by cases is
    | crashed q => exact absurd rfl (none_crashed q)
    | _ =>
      intro is
      cases is
  | opening k o phase call greeted channel opens untouched =>
    obtain ⟨p, step, same⟩ := poll_opening phase channel (s.turns now x) now
    rw [sound.destinations.2] at step
    rw [Scene.poll, same]
    have none_crashed := step.calm opens fun k answer => (calm.channel k answer).2
    cases p with
    | ready v q => cases v <;> exact fun is => by cases is
    | crashed q => exact absurd rfl (none_crashed q)
    | _ =>
      intro is
      cases is
  | relaying c phase relays is_open unlimited =>
    have joint := sound.joint phase relays is_open unlimited
    simp only [Scene.poll, Exchange.poll, phase, pollRelaying]
    cases step : x.pollParticipants wired (s.turns now x) now with
    | crashed y =>
      have keeps : ∀ p ∈ (s.turns now x).order.map (pollParticipant wired now), ∀ x,
          (∃ c, Joint s now x c) → ∃ c, Joint s now (p x).state c :=
        List.forall_mem_map.2 fun q _ _ there => joint_participant q there
      obtain ⟨p, listed, y, y', ⟨c', joint'⟩, crash⟩ := Poll.all_crashed keeps ⟨c, joint⟩ step
      obtain ⟨q, _, rfl⟩ := List.mem_map.1 listed
      exact absurd crash (joint'.calm calm q)
    | _ =>
      intro is
      cases is
  | closing c phase relays inbound outbound reply held =>
    obtain ⟨p, step, same⟩ := poll_closing phase relays.channel (s.turns now x) now
    rw [Scene.poll, same]
    cases step with
    | crashes limit sink limited half shut =>
      cases shut with
      | crashes crash => exact absurd crash ((relays.feeds.plan_calm calm).shutdown _)
    | _ =>
      intro is
      cases is

/-- What the watcher finds can be found only once. -/
theorem watch_lowers {outside : Option Interruption} {ctx : Context}
    (seen : x.ctx.watch outside now = some ctx) :
    ({ x with ctx } : Exchange WiredBackend).rank < x.rank := by
  obtain ⟨going, came⟩ := Context.watch_cases seen
  have cancelled : ctx.cancelled = true := by
    rcases came with ⟨i, _, _, rfl⟩ | ⟨_, rfl⟩ <;> rfl
  refine rank_lt_of_tasks rfl (Prod.mk_lt_mk.2 (.inl ⟨?_, le_rfl⟩))
  simp [alive, going, cancelled]

theorem next_lowers (lowers : (s.poll now x).Lowers Exchange.rank x) :
    (s.next now x).Lowers Exchange.rank x := by
  cases found : s.look now x with
  | some y =>
    obtain ⟨ctx, seen, rfl⟩ := look_eq_some found
    rw [next_of_look found]
    exact watch_lowers seen
  | none => rwa [next_of_unseen found]

theorem acts_lowers {alarm : Option Nat} {y : Exchange WiredBackend}
    (le : (s.next now x).Lowers Exchange.rank x) (step : s.next now x = .waiting y alarm)
    (act : (beside s.gone).act now y = some x') : x'.rank < x.rank := by
  rw [step] at le
  obtain ⟨ctx, seen, rfl⟩ := Option.map_eq_some_iff.1 act
  exact lt_of_lt_of_le (watch_lowers seen) le

/-- An exchange comes to its end, and no later than its deadline and the second that closing may
take, if its moments keep something that makes each step leave less to be done. -/
theorem Invariant.ends {I : Exchange WiredBackend → Prop} (inv : s.Invariant I)
    (lowers : ∀ now x, s.Sound now x → I x → (s.poll now x).Lowers Exchange.rank x) :
    ∃ n t, t ≤ s.context.tick + Sidechannel.closePatience ∧
      ((∃ a x, s.after n = .finished t a x) ∨
        ∃ x x', s.after n = .crashed t (x'.release wired) ∧ s.Sound t x ∧ I x ∧
          s.poll t x = .crashed x') := by
  have falls := fun now x (reached : s.Reaches now x) =>
    next_lowers (lowers now x (sound_of_reaches reached) (inv.reached reached))
  obtain ⟨n, t, concluded⟩ := run_ends (I := s.Reaches) Exchange.rank
    (s.context.tick + Sidechannel.closePatience)
    (fun _ _ _ _ reached goes => reached.turn (turn_iff_goes.2 goes))
    (fun _ _ reached => (prompt_deadline reached).le)
    falls
    (fun _ _ _ _ _ reached step act => acts_lowers (falls _ _ reached) step act)
    (fun _ _ _ _ reached step idle =>
      (sound_of_reaches reached).awake (poll_of_next step fun _ is => nomatch is).2 idle) ⟨0, rfl⟩
  rcases concluded with ⟨a, x, finished⟩ | ⟨x, crashed⟩
  · have concluded : s.after n = .finished t a x := after_finished.2 finished
    obtain ⟨y, reached, _⟩ := ended concluded
    exact ⟨n, t, (prompt_deadline reached).le, .inl ⟨a, x, concluded⟩⟩
  · obtain ⟨k, t', y, reached, last⟩ := run_last crashed (fun _ _ is => by cases is)
    have reached : s.Reaches t' y := ⟨k, after_unfinished.2 reached⟩
    cases last with
    | crashed step =>
      exact ⟨n, t, (prompt_deadline reached).le,
        .inr ⟨y, x, by rw [after_eq, bare, crashed]; rfl, sound_of_reaches reached,
          inv.reached reached, (poll_of_next step fun _ is => nomatch is).2⟩⟩

/-- Every exchange comes to its end, and no later than its deadline and the second that closing
may take. -/
theorem ends (s : Scene) (settles : s.Settles) :
    ∃ n t, t ≤ s.context.tick + Sidechannel.closePatience ∧
      ((∃ a x, s.after n = .finished t a x) ∨ (∃ x, s.after n = .crashed t x) ∧ ¬ s.Calm) := by
  obtain ⟨n, t, prompt, concluded⟩ :=
    (Invariant.trivial s).ends fun _ _ sound _ => sound.lowers settles
  refine ⟨n, t, prompt, concluded.imp_right ?_⟩
  rintro ⟨x, x', crashed, sound, _, step⟩
  exact ⟨⟨_, crashed⟩, fun calm => sound.calm calm step⟩

end Scene
end PackRelay
