import PackRelay.Proofs.Exchange.Delivery

/-! When an exchange succeeds. It does exactly if all that it is for was done before anybody
cancelled it from outside: then no participant can fail any more, and what is left takes no
time. -/
namespace PackRelay.Scene

open Exchange
open WiredBackend renaming backend → wired

variable {s : Scene} {now t n k : Nat} {x x' y : Exchange WiredBackend} {a : Report}
    {c : Sidechannel}

/-- All that an exchange is for was done. -/
structure Complete (s : Scene) (x : Exchange WiredBackend) : Prop where
  /-- The call's hello was sent, and the first frame that came back is a good reply. -/
  call : ∃ k, x.backend.call.connection? = some k ∧ s.Called k ∧
    Wire.Frames Wire.CallReply.decode k.source.delivered .ok
  /-- The body was read to its end, and no read of it fails. -/
  body : x.inbound.body.events = [] ∧ (Source.ofEvents s.body).errors = []
  /-- The sidechannel got its hello and all of the body, in order and once, and was shut down; it
  was read to its end, and all that it delivered was written to the response. -/
  channel : ∃ k hello, x.channelConnection? = some k ∧ Wire.frame s.channelHello = .ok hello ∧
    k.sink.written = hello ++ s.bodyBytes ∧ k.sink.isShutDown = true ∧ k.source.events = [] ∧
    x.outbound.response.sink.written = k.source.delivered
  flushed : 0 < x.outbound.response.sink.flushes

structure AllWell (r : Results) : Prop where
  inbound : ∃ v, r.inbound = some v ∧ v.error = none
  outbound : ∃ v, r.outbound = some v ∧ v.error = none
  reply : r.reply = some (.ok ())

theorem Relays.complete (relays : s.Relays x c) (well : AllWell x.results) : s.Complete x := by
  obtain ⟨i, inbound, sent⟩ := well.inbound
  obtain ⟨o, outbound, received⟩ := well.outbound
  have feeds := relays.feeds
  have draws := relays.draws
  have hears := relays.hears
  rw [inbound] at feeds
  rw [outbound] at draws
  rw [well.reply] at hears
  obtain ⟨hello, framed, flows⟩ := feeds.flows
  obtain ⟨stage, shut⟩ := flows.well i rfl sent
  obtain ⟨stage', flushed⟩ := draws.flows.well o rfl received
  have concluded := flows.sound.ended stage
  have concluded : x.inbound.body.events = [] := concluded
  have written := flows.sound.written
  have written' := draws.flows.sound.written
  have whole := feeds.whole
  have errors := feeds.errors fun v is => by cases is; exact sent
  rw [stage] at written
  rw [stage'] at written'
  refine ⟨?_, ⟨concluded, ?_⟩, ⟨c.connection, hello, ?_, framed, ?_, ?_,
    draws.flows.sound.ended stage', ?_⟩, flushed⟩
  · generalize line : x.backend.call = call at hears
    cases hears with
    | answered k v called good _ => exact ⟨k, rfl, called, good rfl⟩
  · rw [← errors, Source.errors, concluded]
    rfl
  · simp only [channelConnection?, relays.channel]
  · have all : x.inbound.body.delivered = s.bodyBytes := by
      rw [bodyBytes, ← whole, Source.delivers, concluded]
      simp
    rw [← all]
    simpa [Stage.rest, Inbound.flow] using written
  · exact decide_eq_true shut
  · simpa [Stage.rest, Outbound.flow] using written'

theorem Relays.sent_of_shutDown (relays : s.Relays x c)
    (shut : c.connection.sink.isShutDown = true) :
    ∃ v, x.results.inbound = some v ∧ v.error = none := by
  obtain ⟨hello, _, flows⟩ := relays.feeds.flows
  by_contra none_well
  have unfinished := flows.unfinished fun v is failed => none_well ⟨v, is, failed⟩
  have unfinished : c.connection.sink.shutdowns = 0 := unfinished
  simp [Sink.isShutDown, unfinished] at shut

theorem Relays.received_of_flushed (relays : s.Relays x c)
    (flushed : 0 < x.outbound.response.sink.flushes) :
    ∃ v, x.results.outbound = some v ∧ v.error = none := by
  by_contra none_well
  have unfinished := relays.draws.flows.unfinished fun v is failed => none_well ⟨v, is, failed⟩
  have unfinished : x.outbound.response.sink.flushes = 0 := unfinished
  omega

theorem Sound.relays_of_complete (sound : s.Sound now x) (complete : s.Complete x) :
    ∃ c, s.Relays x c ∧ c.connection.sink.isShutDown = true := by
  obtain ⟨k, hello, there, _, _, shut, _, _⟩ := complete.channel
  cases sound.stands with
  | starting o phase call opens channel untouched =>
    simp only [channelConnection?, untouched.channel, channel] at there
    cases there
  | opening k₀ o phase call greeted channel opens untouched =>
    simp only [channelConnection?, untouched.channel, channel] at there
    cases o with
    | dialing _ => cases there
    | greeting w k =>
      cases there
      obtain ⟨c₀, answer, _, unfinished, _⟩ := opens.begun
      obtain ⟨events, plan, _, rfl⟩ := Listener.answer_connected (l := s.channelListener) answer
      simp [Sink.isShutDown, unfinished] at shut
  | relaying c phase relays _ _ =>
    simp only [channelConnection?, relays.channel] at there
    cases there
    exact ⟨c, relays, shut⟩
  | closing c phase relays _ _ _ _ =>
    simp only [channelConnection?, relays.channel] at there
    cases there
    exact ⟨c, relays, shut⟩

theorem Relays.replied (relays : s.Relays x c) (complete : s.Complete x) {v : Except CallError Unit}
    (is : x.results.reply = some v) : v = .ok () ∨ ∃ e, v = .error e ∧ e.told ≠ none := by
  obtain ⟨k, there, _, frames⟩ := complete.call
  have hears := relays.hears
  rw [is] at hears
  generalize line : x.backend.call = call at hears there
  cases hears with
  | answered k v called _ bad =>
    cases there
    cases v with
    | ok _ => exact .inl rfl
    | error e => exact .inr ⟨e, rfl, fun told => bad e rfl told frames⟩

theorem Sound.going_of_complete (sound : s.Sound now x) (complete : s.Complete x)
    (undue : x.ctx.reason ≠ some .deadlineExceeded) (present : x.ctx.reason ≠ some .clientAborted) :
    x.ctx.reason = none := by
  obtain ⟨c, relays, shut⟩ := sound.relays_of_complete complete
  obtain ⟨i, inbound, sent⟩ := relays.sent_of_shutDown shut
  obtain ⟨o, outbound, received⟩ := relays.received_of_flushed complete.flushed
  cases reason : x.ctx.reason with
  | none => rfl
  | some r =>
    exfalso
    cases r with
    | deadlineExceeded => exact undue reason
    | clientAborted => exact present reason
    | done =>
      obtain ⟨e, only⟩ := sound.account.once reason
      have listed : e ∈ x.results.failures := by simp [only]
      rw [Results.failures, sound.account.errors] at listed
      obtain ⟨there, untold⟩ := List.mem_filter.1 listed
      simp only [Results.joined, inbound, outbound, Option.bind_some, sent, received,
        Option.map_none, Option.toList_none, List.nil_append, Results.replyError] at there
      split at there
      · rename_i e' is
        cases List.mem_singleton.1 (by simpa using there)
        rcases relays.replied complete is with ok | ⟨e'', same, told⟩
        · cases ok
        · cases same
          simp only [Option.isNone_iff_eq_none] at untold
          exact told untold
      · simp at there

/-- From this moment on the watcher finds nothing between two steps when all is complete. -/
def Unnoticed (s : Scene) (k : Nat) : Prop :=
  ∀ m t x, k ≤ m → s.after m = .unfinished t x → s.Complete x → s.look t x = none

theorem Unnoticed.later {m : Nat} (unnoticed : s.Unnoticed k) (le : k ≤ m) : s.Unnoticed m :=
  fun i t x later => unnoticed i t x (le_trans le later)

theorem Unnoticed.here (unnoticed : s.Unnoticed k) (here : s.after k = .unfinished t x)
    (complete : s.Complete x) : s.look t x = none :=
  unnoticed k t x le_rfl here complete

/-- A complete exchange waits for nothing. A watcher that gets turns only where there is something
to wait for finds nothing then. -/
theorem unnoticed_of_unwatched
    (unwatched : ∀ t x, s.Reaches t x → s.Complete x → (s.turns t x).watched = false) (k : Nat) :
    s.Unnoticed k := by
  intro m t x _ here complete
  simp only [look, Exchange.look, unwatched t x ⟨m, here⟩ complete, Bool.false_eq_true, if_false]

/-- The exchange comes to its end, and is a success. -/
def Succeeds (s : Scene) : Prop :=
  ∃ n t report x summary, s.after n = .finished t report x ∧ report.outcome = .ok summary

theorem Sound.outcome_ok (sound : s.Sound now x) (going : x.ctx.reason = none) (c' : Sidechannel) :
    ∃ summary, ((x.setChannel c').report wired).outcome = .ok summary := by
  have blame := sound.account.blame_eq (.inl going)
  have none_failed : x.results.blame = .ok () := by
    rw [Results.blame, Results.failures, sound.account.errors, sound.account.quiet going]
    rfl
  have resolved : x.results.observed.resolve x.ctx = .ok () := by
    simp only [Observed.resolve, going, blame, none_failed]
  exact ⟨⟨wired.callId x.backend, x.results.bytesIn, x.results.bytesOut⟩,
    by simp only [Exchange.report, setChannel, resolved, Except.map]⟩

theorem succeeds_given_up {limit : Nat} (here : s.after k = .unfinished t x)
    (unnoticed : s.Unnoticed k) (closing : x.phase = .closing) (relays : s.Relays x c)
    (well : AllWell x.results) (going : x.ctx.reason = none) (limited : c.closeLimit = some limit) :
    s.Succeeds := by
  have sound := sound_of_reaches ⟨k, here⟩
  obtain ⟨p, step, same⟩ := poll_closing closing relays.channel (s.turns t x) t
  have half : c.writeClosed = true := relays.feeds.closed.2 well.inbound
  have unseen := unnoticed.here here (relays.complete well)
  cases step with
  | halfClosed _ _ _ =>
    obtain ⟨summary, ok⟩ := sound.outcome_ok going c.letGo
    exact ⟨k + 1, t, _, _, summary, after_ready here unseen same, ok⟩
  | givesUp unlimited _ => rw [limited] at unlimited; cases unlimited
  | closed unlimited _ => rw [limited] at unlimited; cases unlimited
  | ends _ _ _ _ unclosed _ _ => rw [half] at unclosed; cases unclosed
  | waits _ _ _ _ unclosed _ _ => rw [half] at unclosed; cases unclosed
  | crashes _ _ _ unclosed _ => rw [half] at unclosed; cases unclosed

theorem succeeds_closing (here : s.after k = .unfinished t x) (unnoticed : s.Unnoticed k)
    (closing : x.phase = .closing) (relays : s.Relays x c) (well : AllWell x.results)
    (going : x.ctx.reason = none) (held : c.isOpen = c.closeLimit.isNone) : s.Succeeds := by
  cases limited : c.closeLimit with
  | some limit => exact succeeds_given_up here unnoticed closing relays well going limited
  | none =>
    rw [limited] at held
    obtain ⟨p, step, same⟩ := poll_closing closing relays.channel (s.turns t x) t
    cases step with
    | givesUp _ _ =>
      have unseen := unnoticed.here here (relays.complete well)
      exact succeeds_given_up (after_more here unseen same) (unnoticed.later k.le_succ) closing
        (⟨rfl, relays.handedOut, relays.feeds, relays.draws, relays.hears⟩ :
          s.Relays (x.setChannel (c.giveUp t)) _)
        well going rfl
    | closed _ shut => rw [held] at shut; cases shut
    | halfClosed _ is _ => rw [limited] at is; cases is
    | ends _ _ _ is _ _ _ => rw [limited] at is; cases is
    | waits _ _ _ is _ _ _ => rw [limited] at is; cases is
    | crashes _ _ is _ _ => rw [limited] at is; cases is

theorem succeeds_of_well (here : s.after k = .unfinished t x) (unnoticed : s.Unnoticed k)
    (relaying : x.phase = .relaying) (relays : s.Relays x c)
    (well : AllWell x.results) (going : x.ctx.reason = none) (is_open : c.isOpen = true)
    (unlimited : c.closeLimit = none) :
    s.Succeeds := by
  obtain ⟨i, inbound, _⟩ := well.inbound
  obtain ⟨o, outbound, _⟩ := well.outbound
  have each : ∀ p ∈ (s.turns t x).order.map (pollParticipant wired t), p x = .ready () x := by
    refine List.forall_mem_map.2 fun q _ => ?_
    cases q with
    | inbound => simp [pollParticipant, onChannel, relays.channel, pollInbound, inbound]
    | outbound => simp [pollParticipant, onChannel, relays.channel, pollOutbound, outbound]
    | reply => simp [pollParticipant, pollReply, well.reply]
  have step : s.poll t x = .more { x with phase := .closing } := by
    simp only [Scene.poll, Exchange.poll, relaying, pollRelaying, pollParticipants,
      Poll.all_over each]
    rfl
  have unseen := unnoticed.here here (relays.complete well)
  exact succeeds_closing (after_more here unseen step) (unnoticed.later k.le_succ) rfl
    (⟨relays.channel, relays.handedOut, relays.feeds, relays.draws, relays.hears⟩ :
      s.Relays { x with phase := .closing } c)
    well going (by rw [is_open, unlimited]; rfl)

theorem decode_nil : Wire.CallReply.decode [] ≠ .ok .ok := by decide +kernel

/-- When only the reply is missing and all of it has come in, it takes one more step. -/
theorem succeeds_of_reply {i o : RelayResult} (here : s.after k = .unfinished t x)
    (unnoticed : s.Unnoticed k) (joint : Joint s t x c) (inbound : x.results.inbound = some i)
    (sent : i.error = none) (outbound : x.results.outbound = some o) (received : o.error = none)
    (waits : x.results.reply = none) (complete : s.Complete x) (going : x.ctx.reason = none) :
    s.Succeeds := by
  obtain ⟨k₀, there, _, frames⟩ := complete.call
  have relays := joint.relays
  have hears := relays.hears
  rw [waits] at hears
  generalize line : x.backend.call = call at hears there
  cases hears with
  | listening reading k₁ sound called calm =>
    cases there
    obtain ⟨reading', read⟩ := Wire.Reading.poll_framed t sound frames decode_nil
    have silent : x.ctx.signal = none := joint.ctx.coherent.signal.trans going
    have reply : x.pollReply wired t =
      .more ((x.heard (reading', k₀)).hungUp.noteReply (.ok ())) := by
      simp only [pollReply, waits, Option.isSome_none, Bool.false_eq_true, if_false, wired,
        WiredBackend.pollReply, line, Context.guard_of_silent silent, read]
      rfl
    have each : ∀ p ∈ (s.turns t x).order.map (pollParticipant wired t), p x = .ready () x ∨
        p x = .more ((x.heard (reading', k₀)).hungUp.noteReply (.ok ())) := by
      refine List.forall_mem_map.2 fun q _ => ?_
      cases q with
      | inbound =>
        exact .inl (by simp [pollParticipant, onChannel, relays.channel, pollInbound, inbound])
      | outbound =>
        exact .inl (by simp [pollParticipant, onChannel, relays.channel, pollOutbound, outbound])
      | reply => exact .inr reply
    have listed : pollParticipant wired t .reply ∈
      (s.turns t x).order.map (pollParticipant wired t) :=
      List.mem_map.2 ⟨.reply, (s.turns t x).complete .reply, rfl⟩
    have step : s.poll t x = .more ((x.heard (reading', k₀)).hungUp.noteReply (.ok ())) := by
      simp only [Scene.poll, Exchange.poll, joint.phase, pollRelaying, pollParticipants,
        Poll.all_more each listed reply]
      rfl
    obtain ⟨c', next⟩ := joint_participant .reply ⟨c, joint⟩
    rw [show pollParticipant wired t .reply x = _ from reply] at next
    exact succeeds_of_well (after_more here (unnoticed.here here complete) step)
      (unnoticed.later k.le_succ) next.phase next.relays
      ⟨⟨i, inbound, sent⟩, ⟨o, outbound, received⟩, rfl⟩
      going next.is_open next.unlimited

/-- Once all is complete the exchange succeeds, unless it is cancelled from outside. -/
theorem succeeds_of_complete (here : s.after k = .unfinished t x) (unnoticed : s.Unnoticed k)
    (complete : s.Complete x)
    (undue : x.ctx.reason ≠ some .deadlineExceeded) (present : x.ctx.reason ≠ some .clientAborted) :
    s.Succeeds := by
  have sound := sound_of_reaches ⟨k, here⟩
  have going := sound.going_of_complete complete undue present
  obtain ⟨c, relays, shut⟩ := sound.relays_of_complete complete
  obtain ⟨i, inbound, sent⟩ := relays.sent_of_shutDown shut
  obtain ⟨o, outbound, received⟩ := relays.received_of_flushed complete.flushed
  have well : x.results.reply.isSome → AllWell x.results := by
    intro there
    obtain ⟨v, is⟩ := Option.isSome_iff_exists.1 there
    refine ⟨⟨i, inbound, sent⟩, ⟨o, outbound, received⟩, ?_⟩
    rcases relays.replied complete is with rfl | ⟨e, rfl, told⟩
    · exact is
    · have quiet := sound.account.quiet going
      simp [Results.joined, Results.replyError, is] at quiet
  cases sound.stands with
  | starting _ _ _ _ _ untouched =>
    have channel := relays.channel
    rw [untouched.channel] at channel
    cases channel
  | opening _ _ _ _ _ _ _ untouched =>
    have channel := relays.channel
    rw [untouched.channel] at channel
    cases channel
  | relaying c' phase relays' is_open unlimited =>
    cases waits : x.results.reply with
    | some v =>
      exact succeeds_of_well here unnoticed phase relays' (well (by simp [waits])) going is_open
        unlimited
    | none =>
      exact succeeds_of_reply here unnoticed (sound.joint phase relays' is_open unlimited) inbound
        sent outbound received waits complete going
  | closing c' phase relays' _ _ reply held =>
    exact succeeds_closing here unnoticed phase relays' (well reply) going held

theorem allWell_of_quiet {r : Results} (quiet : r.joined = []) (inbound : r.inbound.isSome)
    (outbound : r.outbound.isSome) (reply : r.reply.isSome) : AllWell r := by
  simp only [Results.joined, List.append_eq_nil_iff, Option.toList_eq_nil_iff,
    Option.map_eq_none_iff] at quiet
  obtain ⟨⟨sent, received⟩, replied⟩ := quiet
  obtain ⟨i, inbound⟩ := Option.isSome_iff_exists.1 inbound
  obtain ⟨o, outbound⟩ := Option.isSome_iff_exists.1 outbound
  obtain ⟨v, reply⟩ := Option.isSome_iff_exists.1 reply
  rw [inbound] at sent
  rw [outbound] at received
  refine ⟨⟨i, inbound, sent⟩, ⟨o, outbound, received⟩, ?_⟩
  cases v with
  | ok _ => exact reply
  | error e => simp [Results.replyError, reply] at replied

/-- What is reported as a success was not cancelled from outside. -/
theorem inside_of_ok {summary : Summary} (ok : (y.report wired).outcome = .ok summary) :
    (y.ctx.reason = none ∨ y.ctx.reason = some .done) ∧
      ∃ u, y.results.observed.blame = .ok u := by
  simp only [Exchange.report] at ok
  cases resolved : y.results.observed.resolve y.ctx with
  | error e => rw [resolved] at ok; cases ok
  | ok u =>
    unfold Observed.resolve at resolved
    split at resolved
    · cases resolved
    · cases resolved
    · rename_i due gone
      refine ⟨?_, u, resolved⟩
      cases reason : y.ctx.reason with
      | none => exact .inl rfl
      | some r =>
        cases r with
        | done => exact .inr rfl
        | deadlineExceeded => exact absurd reason due
        | clientAborted => exact absurd reason gone

/-- At the end of a success nothing had failed, and nothing was cancelled. -/
theorem Ending.account_of_ok {summary : Summary} (sound : s.Sound now x) (ending : s.Ending now x y)
    (ok : (y.report wired).outcome = .ok summary) :
    Account y.ctx.reason y.results ∧ y.ctx.reason = none := by
  obtain ⟨inside, u, blame⟩ := inside_of_ok ok
  have none_failed : y.results.failures = [] := by
    rw [ending.blame_eq sound inside, Results.blame] at blame
    split at blame
    · assumption
    · cases blame
  have no_lone : ¬ Lone y.ctx.reason y.results := by
    intro lone
    obtain ⟨e, only, _⟩ := lone.only
    have told := lone.told e (by simp [only])
    rw [inside.resolve_right lone.outside] at told
    simp [Results.failures, only, told] at none_failed
  have account := (ending.account sound).resolve_right no_lone
  refine ⟨account, inside.resolve_right fun done => ?_⟩
  obtain ⟨e, only⟩ := account.once done
  rw [none_failed] at only
  cases only

theorem Ending.well {summary : Summary} (sound : s.Sound now x) (ending : s.Ending now x y)
    (ok : (y.report wired).outcome = .ok summary) :
    ∃ c c', s.Relays x c ∧ AllWell x.results ∧ x.ctx.reason = none ∧ y = x.setChannel c' ∧
      c'.connection.source = c.connection.source := by
  obtain ⟨account, going⟩ := ending.account_of_ok sound ok
  cases ending with
  | start o e q _ untouched _ _ _ => simp [failedStart] at account; cases account.start
  | dial o e q _ untouched _ _ _ => simp [failedDial] at account; cases account.dial
  | close c c' v phase relays inbound outbound reply step =>
    exact ⟨c, c', relays, allWell_of_quiet (account.quiet going) inbound outbound reply, going, rfl,
      (Sidechannel.CloseStep.carried step).2⟩

theorem Relays.counted (relays : s.Relays x c) (well : AllWell x.results) :
    x.results.bytesIn = s.bodyBytes.length ∧ x.results.bytesOut =
      c.connection.source.delivered.length := by
  obtain ⟨i, inbound, sent⟩ := well.inbound
  obtain ⟨o, outbound, received⟩ := well.outbound
  obtain ⟨hello, _, flows⟩ := relays.feeds.flows
  have flows' := relays.draws.flows
  have whole := relays.feeds.whole
  rw [inbound] at flows
  rw [outbound] at flows'
  have stage := (flows.well i rfl sent).1
  have stage' := (flows'.well o rfl received).1
  have concluded : x.inbound.body.events = [] := flows.sound.ended stage
  have counted := flows.sound.counted
  have counted' := flows'.sound.counted
  rw [stage] at counted
  rw [stage'] at counted'
  have all : x.inbound.body.delivered = s.bodyBytes := by
    rw [bodyBytes, ← whole, Source.delivers, concluded]
    simp
  constructor
  · rw [Results.bytesIn, inbound, ← all]
    exact (flows.bytes i rfl).trans counted
  · rw [Results.bytesOut, outbound]
    exact (flows'.bytes o rfl).trans counted'

/-- A success is complete at its last moment, and the watcher finds nothing there. -/
theorem complete_of_succeeds (succeeds : s.Succeeds) :
    ∃ k t x, s.after k = .unfinished t x ∧ x.ctx.reason ≠ some .deadlineExceeded ∧
      x.ctx.reason ≠ some .clientAborted ∧ s.Complete x ∧ s.Unnoticed k := by
  obtain ⟨n, t, report, x', summary, concluded, ok⟩ := succeeds
  obtain ⟨k, x, here, unseen, last⟩ := last_step concluded
  have sound := sound_of_reaches ⟨k, here⟩
  obtain ⟨y, ending, rfl, _⟩ := sound.ending last
  obtain ⟨c, c', relays, well, going, _, _⟩ := ending.well sound ok
  refine ⟨k, t, x, here, by simp [going], by simp [going], relays.complete well, ?_⟩
  intro m u z le there _
  rcases Nat.eq_or_lt_of_le le with rfl | less
  · cases here.symm.trans there
    exact unseen
  · obtain ⟨d, rfl⟩ := Nat.exists_eq_add_of_lt less
    have concluded := after_ready here unseen last
    rw [Nat.add_right_comm, after_over (by simp [concluded]), concluded] at there
    cases there

/-- An exchange succeeds exactly if all that it is for was done before it was cancelled from
outside. What is left then waits for nothing, so that the watcher has no turn any more; where it gets
one nevertheless, it can still find that the exchange was cancelled, and nothing else takes the
success away. A success counts all of the body and all that the sidechannel delivered. However it
goes, the backend has got a part of its hello and the body and the client a part of what the
sidechannel delivered. -/
theorem succeeds_iff_complete (s : Scene) :
    ((∀ t x, s.Reaches t x → s.Complete x → (s.turns t x).watched = false) →
      (s.Succeeds ↔ ∃ k t x, s.after k = .unfinished t x ∧
        x.ctx.reason ≠ some .deadlineExceeded ∧ x.ctx.reason ≠ some .clientAborted ∧
        s.Complete x)) ∧
    (s.Succeeds ↔ ∃ k t x, s.after k = .unfinished t x ∧ x.ctx.reason ≠ some .deadlineExceeded ∧
      x.ctx.reason ≠ some .clientAborted ∧ s.Complete x ∧ s.Unnoticed k) ∧
    (∀ n t report x summary, s.after n = .finished t report x → report.outcome = .ok summary →
      summary.bytesIn = s.bodyBytes.length ∧
      ∃ k, x.channelConnection? = some k ∧ k.source.events = [] ∧ summary.bytesOut =
        k.source.delivered.length) ∧
    ∀ n, s.Partial (s.after n).state := by
  refine ⟨fun unwatched => ⟨fun succeeds => ?_, ?_⟩, ⟨complete_of_succeeds, ?_⟩, ?_,
    s.partial_after⟩
  · obtain ⟨k, t, x, here, undue, present, complete, _⟩ := complete_of_succeeds succeeds
    exact ⟨k, t, x, here, undue, present, complete⟩
  · rintro ⟨k, t, x, here, undue, present, complete⟩
    exact succeeds_of_complete here (unnoticed_of_unwatched unwatched k) complete undue present
  · rintro ⟨k, t, x, here, undue, present, complete, unnoticed⟩
    exact succeeds_of_complete here unnoticed complete undue present
  · intro n t report x' summary concluded ok
    obtain ⟨x, y, _, sound, ending, rfl, rfl⟩ := ending_of_finished concluded
    obtain ⟨c, c', relays, well, going, rfl, source⟩ := ending.well sound ok
    obtain ⟨all_in, all_out⟩ := relays.counted well
    obtain ⟨k, hello, there, _, _, _, concluded, _⟩ := (relays.complete well).channel
    simp only [channelConnection?, relays.channel, Option.some.injEq] at there
    subst there
    simp only [Exchange.report] at ok
    cases resolved : (x.setChannel c').results.observed.resolve (x.setChannel c').ctx with
    | error e => rw [resolved] at ok; cases ok
    | ok u =>
      rw [resolved] at ok
      cases ok
      refine ⟨all_in, c'.drop.connection, rfl, ?_, ?_⟩
      · rw [Sidechannel.drop_connection]
        exact (congrArg Source.events source).trans concluded
      · rw [Sidechannel.drop_connection]
        exact all_out.trans (congrArg (fun s : Source => s.delivered.length) source.symm)

/-- Here nobody waits once all is done, and two octets are counted one way and three the other. -/
theorem succeeds_iff_complete_brief :
    (∀ t x, brief.Reaches t x → brief.Complete x → (brief.turns t x).watched = false) ∧
    brief.Succeeds ∧
    (∃ k t x, brief.after k = .unfinished t x ∧ x.ctx.reason ≠ some .deadlineExceeded ∧
      x.ctx.reason ≠ some .clientAborted ∧ brief.Complete x) ∧
    ∃ n t report x summary, brief.after n = .finished t report x ∧ report.outcome = .ok summary ∧
      summary.bytesIn = 2 ∧ summary.bytesOut = 3 := by
  have ran : (brief.after 23).value?.isSome = true ∧
      ((brief.after 23).value?.bind fun a => a.outcome.toOption).map Summary.bytesOut = some 3 := by
    decide +kernel
  obtain ⟨returned, counted⟩ := ran
  obtain ⟨t, report, x, concluded⟩ := Run.finished_of_value returned
  rw [concluded] at counted
  obtain ⟨summary, ok, three⟩ : ∃ summary, report.outcome = .ok summary ∧ summary.bytesOut = 3 := by
    cases outcome : report.outcome with
    | error e => simp [Run.value?, outcome, Except.toOption] at counted
    | ok summary =>
      exact ⟨summary, rfl, by simpa [Run.value?, outcome, Except.toOption] using counted⟩
  have succeeds : brief.Succeeds := ⟨23, t, report, x, summary, concluded, ok⟩
  obtain ⟨exact, _, counts, _⟩ := succeeds_iff_complete brief
  obtain ⟨all_in, _⟩ := counts 23 t report x summary concluded ok
  exact ⟨fun _ _ _ _ => rfl, succeeds, (exact fun _ _ _ _ => rfl).1 succeeds, 23, t, report, x,
    summary, concluded, ok, all_in, three⟩

end PackRelay.Scene
