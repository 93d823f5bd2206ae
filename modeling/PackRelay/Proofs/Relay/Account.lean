import PackRelay.Proofs.Relay.Course

/-! What each direction accounts for when it ends: the relay of the request body up to the shutdown of
the sidechannel, and the relay of what the backend sends up to the flush of the response, whose
status is committed by the first write that is begun. -/
namespace PackRelay

variable {ctx : Context} {now : Nat}

/-! ## From the request body -/

/-- From the request body into the sidechannel, as long as that takes input. -/
def inboundRelay : Relay Inbound where
  kind := inflow
  finish := shutting
  poll ctx now i c := i.poll ctx now c
  flow i c := i.flow c.connection.sink
  usable c := c.isOpen = true ∧ c.writeClosed = false
  stops stopped usable now i :=
    ⟨_, Inbound.poll_stopped stopped usable.1 usable.2 now i, rfl, rfl⟩
  flows {_ c} silent usable now i := by
    refine ⟨_, i.body.poll_step false now relayBuffer, ?_⟩
    rw [Inbound.poll_eq silent usable.1 usable.2 now i]
    show _ = Inbound.task now (i.flow c.connection.sink)
    cases Inbound.task now (i.flow c.connection.sink) with
    | ready e m => simp [Poll.map, Inbound.result, Sidechannel.fed, Sidechannel.setSink,
        Sidechannel.setConnection, Connection.setSink]
    | _ => simp [Poll.map, Sidechannel.fed, Sidechannel.setSink, Sidechannel.setConnection,
        Connection.setSink]
  bytes {_ _ i c v p} silent usable polled := by
    rw [Inbound.poll_eq silent usable.1 usable.2] at polled
    obtain ⟨e, m, -, ends⟩ := Poll.ready_of_into polled
    cases ends
    rfl
  keeps {_ now i c} silent usable p polled := by
    rw [Inbound.poll_eq silent usable.1 usable.2] at polled
    cases step : Inbound.task now (i.flow c.connection.sink) with
    | more m | waiting m _ =>
      rw [step] at polled
      rcases polled with is | ⟨_, is⟩ <;> cases is
      exact ⟨usable.1, rfl⟩
    | _ => simp [step] at polled

/-- However the streams behave and whenever the context is cancelled, the relay of the request body
accounts for what it did. -/
theorem Relaying.inbound_accounts {start : Relaying Inbound} (coherent : start.ctx.Coherent)
    (is_open : start.channel.isOpen = true) (unclosed : start.channel.writeClosed = false)
    (fresh : start.relay = { body := start.relay.body }) :
    (∀ turns last v x, inboundRelay.Ends start turns last v x →
      inboundRelay.Accounts start turns last v x) ∧
    ∀ outside t v x, inbound outside start = .finished t v x →
      ∃ turns last, inboundRelay.Ends start turns last v x := by
  refine ⟨fun turns last v x ends => ?_, fun outside t v x finished => Relay.ends_of_run finished⟩
  refine ends.accounts coherent ⟨is_open, unclosed⟩ ?_ ?_
  · show start.relay.phase.stage = .reading
    rw [fresh]
    rfl
  · show start.relay.bytes = 0
    rw [fresh]

/-- A body of two chunks, into a sidechannel that takes three octets every two milliseconds. -/
def Relaying.twoChunks : Relaying Inbound where
  ctx := .start 0 60000000
  relay := { body := .ofEvents [.data [1, 2, 3, 4], .data [5, 6, 7, 8, 9]] }
  channel := {
    id := ⟨⟨List.replicate 32 ⟨5, by decide⟩, rfl⟩⟩
    connection := ⟨.ofEvents [.hang], { plan := { write := WriteTurn.steady (some 3) 2 none } }⟩ }

/-- The client leaves when three octets of the second chunk have been written. -/
theorem Relaying.inbound_accounts_left :
    (inbound (some (.requestGone 7)) twoChunks).value? =
        some ⟨.inbound, 4, some (.cancelled .clientAborted)⟩ ∧
      ∃ t turns last v x, inbound (some (.requestGone 7)) twoChunks = .finished t v x ∧
        inboundRelay.Accounts twoChunks turns last v x := by
  have value : (inbound (some (.requestGone 7)) twoChunks).value? =
      some ⟨.inbound, 4, some (.cancelled .clientAborted)⟩ := by decide +kernel
  have coherent : twoChunks.ctx.Coherent := rfl
  obtain ⟨accounts, runs⟩ := inbound_accounts coherent rfl rfl rfl
  obtain ⟨t, v, x, finished⟩ := Run.finished_of_value (by rw [value]; rfl)
  obtain ⟨turns, last, ends⟩ := runs _ _ _ _ finished
  exact ⟨value, t, turns, last, v, x, finished, accounts _ _ _ _ ends⟩

/-! ## To the response -/

namespace Outbound

variable {o : Outbound} {c : Sidechannel}

/-- What one turn does, as its flow does it. -/
theorem poll_flow (silent : ctx.signal = none) (is_open : c.isOpen = true) (now : Nat)
    (o : Outbound) :
    ∃ read count, c.connection.source.ReadStep true relayBuffer read ∧ o.poll ctx now c =
      ((o.flow c.connection.source).poll outflow now read (o.response.sink.pollFlush now)).into
        (fun m => (ofFlow (o.phase.stage.commits o.response.headers) count m, c.drawn m.source))
        fun e m =>
          .ready ((ofFlow (o.phase.stage.commits o.response.headers) count m).result e)
            (ofFlow (o.phase.stage.commits o.response.headers) count m, c.drawn m.source) := by
  obtain ⟨read, step, same⟩ := c.connection.pollRead_step now relayBuffer
  obtain ⟨count, polled⟩ := poll_eq silent is_open same o
  have moves : moves now read (o.flow c.connection.source, o.response.headers) =
      ((o.flow c.connection.source).poll outflow now read (o.response.sink.pollFlush now)).within
        (·, o.phase.stage.commits o.response.headers) := rfl
  refine ⟨read, count, step, ?_⟩
  rw [polled, moves]
  cases (o.flow c.connection.source).poll outflow now read (o.response.sink.pollFlush now) <;> rfl

/-- The status is committed by the turns that write. -/
theorem poll_headers (silent : ctx.signal = none) (is_open : c.isOpen = true) (now : Nat)
    (o : Outbound) :
    (o.poll ctx now c).state.1.response.headersSent =
      (o.response.headersSent || o.phase.stage.writes) := by
  obtain ⟨read, count, -, polled⟩ := poll_flow silent is_open now o
  rw [polled]
  cases (o.flow c.connection.source).poll outflow now read (o.response.sink.pollFlush now) <;>
    exact o.phase.stage.commits_value o.response.headers

/-- The response counts what the relay counts. -/
theorem poll_counts (ctx : Context) (now : Nat) (o : Outbound) (c : Sidechannel) :
    (o.poll ctx now c).state.1.response.bytesWritten + o.bytes =
      o.response.bytesWritten + (o.poll ctx now c).state.1.bytes := by
  obtain ⟨⟨sink, sent, count⟩, bytes, phase⟩ := o
  cases phase with
  | reading =>
    simp only [poll, pollReading]
    cases c.pollRead ctx now relayBuffer with
    | ready outcome c' =>
      cases outcome with
      | error e => rfl
      | ok bs => cases bs <;> rfl
    | _ => rfl
  | writing rest size =>
    simp only [poll, pollWriting, ResponseWriter.pollWriteAll, ResponseWriter.commit, Context.guard]
    cases ctx.signal with
    | some r => rfl
    | none =>
      simp only
      cases sink.pollWriteAll now rest with
      | ready outcome q =>
        cases outcome with
        | error e => rfl
        | ok _ =>
          show count + size + bytes = count + (bytes + size)
          omega
      | _ => rfl
  | flushing =>
    simp only [poll, pollFlushing, ResponseWriter.pollFlush, Context.guard]
    cases ctx.signal with
    | some r => rfl
    | none =>
      simp only
      cases sink.pollFlush now with
      | ready outcome s => cases outcome <;> rfl
      | _ => rfl

end Outbound

/-- From the sidechannel into the response, as long as that is not closed. -/
def outboundRelay : Relay Outbound where
  kind := outflow
  finish := flushing
  poll ctx now o c := o.poll ctx now c
  flow o c := o.flow c.connection.source
  usable c := c.isOpen = true
  stops stopped usable now o := ⟨_, Outbound.poll_stopped stopped usable now o, rfl, rfl⟩
  flows {_ c} silent usable now o := by
    obtain ⟨read, count, step, polled⟩ := Outbound.poll_flow silent usable now o
    refine ⟨read, step, ?_⟩
    rw [polled]
    show _ = (o.flow c.connection.source).poll outflow now read (o.response.sink.pollFlush now)
    cases (o.flow c.connection.source).poll outflow now read (o.response.sink.pollFlush now) <;>
      simp [Poll.map, Outbound.result, Sidechannel.drawn, Sidechannel.setConnection,
        Connection.setSource]
  bytes {_ _ o c v p} silent usable polled := by
    obtain ⟨read, count, -, same⟩ := Outbound.poll_flow silent usable _ o
    rw [same] at polled
    obtain ⟨e, m, -, ends⟩ := Poll.ready_of_into polled
    cases ends
    rfl
  keeps {_ now o c} silent usable p polled := by
    obtain ⟨read, count, -, same⟩ := Outbound.poll_flow silent usable now o
    rw [same] at polled
    cases step : (o.flow c.connection.source).poll outflow now read (o.response.sink.pollFlush now) with
    | more m | waiting m _ =>
      rw [step] at polled
      rcases polled with is | ⟨_, is⟩ <;> cases is
      exact usable
    | _ => simp [step] at polled

namespace Relaying

variable {start r r' last x : Relaying Outbound} {turns : List (Relaying Outbound)} {v : RelayResult}

/-- A turn at which the relay of the response begins or goes on to write some octets. -/
def Writes (r : Relaying Outbound) : Prop :=
  r.ctx.signal = none ∧ ∃ rest size, r.relay.phase = .writing rest size ∧ rest ≠ []

/-- What a response that was fresh when its relay began tells when that ends. -/
structure Responds (start : Relaying Outbound) (turns : List (Relaying Outbound))
    (last : Relaying Outbound) (v : RelayResult) (x : Relaying Outbound) : Prop where
  counted : x.relay.response.bytesWritten = start.relay.response.bytesWritten + v.bytes
  committed : x.relay.response.headersSent = true ↔ ∃ r ∈ last :: turns, Writes r
  /-- Nothing that was delivered means no status and no octet. -/
  untouched : x.channel.connection.source.delivered = start.channel.connection.source.delivered →
    x.relay.response.headersSent = false ∧
      x.relay.response.sink.written = start.relay.response.sink.written

/-- What a response tells between two turns. -/
structure Responding (start : Relaying Outbound) (turns : List (Relaying Outbound))
    (r : Relaying Outbound) : Prop where
  counted : r.relay.response.bytesWritten = start.relay.response.bytesWritten + r.relay.bytes
  committed : r.relay.response.headersSent = true ↔ ∃ q ∈ turns, Writes q

/-- The stage of a flow that is on its way says whether something is left to be written. -/
theorem writes_iff {passed : List Bytes} {piece : Bytes} (silent : r.ctx.signal = none)
    (carried : Flow.Carried (outboundRelay.flowOf start) passed piece (outboundRelay.flowOf r)) :
    Writes r ↔ r.relay.phase.stage.writes = true := by
  have unwritten := carried.unwritten
  constructor
  · rintro ⟨-, rest, size, phase, -⟩
    rw [phase]
    rfl
  · intro writes
    cases phase : r.relay.phase with
    | writing rest size =>
      have stage : (outboundRelay.flowOf r).stage = .writing rest size := by
        show r.relay.phase.stage = _
        rw [phase]
        rfl
      exact ⟨silent, rest, size, phase, (unwritten rest size stage).1⟩
    | _ => rw [phase] at writes; cases writes

/-- One turn more. -/
theorem Responding.turn {now : Nat} {p : Poll (Relaying Outbound) RelayResult}
    (responding : Responding start turns r) (going : outboundRelay.Going start turns r)
    (silent : r.ctx.signal = none) (turned : outboundRelay.turn now r = p) :
    Responding start (r :: turns) p.state := by
  obtain ⟨passed, piece, carried⟩ := going.carried
  have state : p.state.relay = (r.relay.poll r.ctx now r.channel).state.1 := by
    rw [← turned, Relay.turn]
    show ((r.relay.poll r.ctx now r.channel).within r.place).state.relay = _
    cases r.relay.poll r.ctx now r.channel <;> rfl
  have counts := Outbound.poll_counts r.ctx now r.relay r.channel
  have headers := Outbound.poll_headers silent going.usable now r.relay
  rw [← state] at counts headers
  constructor
  · have before := responding.counted
    omega
  · rw [headers, Bool.or_eq_true, responding.committed, ← writes_iff silent carried]
    simp only [List.mem_cons, exists_eq_or_imp]
    exact or_comm

section Fresh

variable (coherent : start.ctx.Coherent) (is_open : start.channel.isOpen = true)
    (fresh : start.relay = { response := { sink := start.relay.response.sink } })

include fresh

theorem fresh_reading : (outboundRelay.flowOf start).stage = .reading := by
  show start.relay.phase.stage = .reading
  rw [fresh]
  rfl

theorem fresh_bytes : (outboundRelay.flowOf start).bytes = 0 := by
  show start.relay.bytes = 0
  rw [fresh]

include coherent is_open

theorem responding_of_course (course : outboundRelay.Course start turns r) :
    Responding start turns r := by
  have going : ∀ {turns r}, outboundRelay.Course start turns r → outboundRelay.Going start turns r :=
    fun course => course.going coherent is_open (fresh_reading fresh)
  induction course with
  | start =>
    refine ⟨?_, ?_⟩ <;> rw [fresh]
    · rfl
    · simp [ResponseWriter.headersSent]
  | aside _ aside ih =>
    have same := aside.relay
    exact ⟨by rw [same]; exact ih.counted, by rw [same]; exact ih.committed⟩
  | goes now course more ih =>
    exact ih.turn (going course) ((going course).silent (.inl more)) more
  | waits now alarm course waits ih =>
    exact ih.turn (going course) ((going course).silent (.inr ⟨alarm, waits⟩)) waits

theorem responds_of_ends (ends : outboundRelay.Ends start turns last v x) :
    Responds start turns last v x := by
  have accounts := ends.accounts coherent is_open (fresh_reading fresh) (fresh_bytes fresh)
  obtain ⟨course, now, ended⟩ := ends
  have going := course.going coherent is_open (fresh_reading fresh)
  have responding := responding_of_course coherent is_open fresh course
  have responded : Responding start (last :: turns) x := by
    cases signal : last.ctx.signal with
    | none => exact responding.turn going signal ended
    | some reason =>
      obtain ⟨w, stopped, -⟩ := Relay.turn_stopped signal going.usable now
      cases stopped.symm.trans ended
      have idle : ¬ Writes last := fun writes => by
        have silent := writes.1
        rw [signal] at silent
        cases silent
      refine ⟨responding.counted, responding.committed.trans ?_⟩
      simp only [List.mem_cons, exists_eq_or_imp, idle, false_or]
  have bytes : v.bytes = x.relay.bytes := by
    obtain ⟨passed, piece, carried, total⟩ := accounts.carried
    have count := carried.bytes
    rw [fresh_bytes fresh, Nat.zero_add] at count
    exact total.trans count.symm
  refine ⟨bytes ▸ responded.counted, responded.committed, fun nothing => ⟨?_, ?_⟩⟩
  · by_contra sent
    -- Whoever wrote had read a chunk first, and what was delivered stays.
    obtain ⟨r, there, silent, rest, size, phase, some_left⟩ :=
      responded.committed.1 (by simpa using sent)
    obtain ⟨passed, piece, carried⟩ := (going.precedes r there).carried
    have delivered := carried.delivered
    have grown := (accounts.grows r there).length_le
    have stage : (outboundRelay.flowOf r).stage.rest = rest := by
      show r.relay.phase.stage.rest = rest
      rw [phase]
      rfl
    have same : (outboundRelay.flowOf x).source.delivered =
        (outboundRelay.flowOf start).source.delivered := nothing
    have longer := List.length_pos_iff.2 some_left
    rw [same, delivered, stage] at grown
    simp only [List.length_append] at grown
    omega
  · obtain ⟨delivered, accepted, read, written, part, -⟩ := accounts.accepted
    have none_delivered : delivered = [] :=
      List.append_cancel_left ((read.symm.trans nothing).trans (List.append_nil _).symm)
    rw [none_delivered, List.prefix_nil] at part
    rw [part, List.append_nil] at written
    exact written

end Fresh

/-- However the streams behave and whenever the context is cancelled, the relay of the response
accounts for what it did, and the response tells of it. -/
theorem outbound_accounts (coherent : start.ctx.Coherent) (is_open : start.channel.isOpen = true)
    (fresh : start.relay = { response := { sink := start.relay.response.sink } }) :
    (∀ turns last v x, outboundRelay.Ends start turns last v x →
      outboundRelay.Accounts start turns last v x ∧ Responds start turns last v x) ∧
    ∀ outside t v x, outbound outside start = .finished t v x →
      ∃ turns last, outboundRelay.Ends start turns last v x :=
  ⟨fun _ _ _ _ ends => ⟨ends.accounts coherent is_open (fresh_reading fresh) (fresh_bytes fresh),
    responds_of_ends coherent is_open fresh ends⟩, fun _ _ _ _ finished => Relay.ends_of_run finished⟩

/-- A client that is gone once it has two octets of the response. -/
def leftEarly : Relaying Outbound where
  ctx := .start 0 60000000
  relay := { response := { sink := { plan := {
    write := WriteTurn.steady none 1 (some (2, .fail ⟨.brokenPipe, "Broken pipe"⟩)) } } } }
  channel := {
    id := ⟨⟨List.replicate 32 ⟨9, by decide⟩, rfl⟩⟩
    connection := ⟨.ofEvents [.data [1, 2, 3]], {}⟩ }

theorem outbound_accounts_left_early :
    (outbound none leftEarly).value? =
        some ⟨.outbound, 0, some (.clientWrite ⟨.brokenPipe, "Broken pipe"⟩)⟩ ∧
      ∃ t turns last v x, outbound none leftEarly = .finished t v x ∧
        outboundRelay.Accounts leftEarly turns last v x ∧ Responds leftEarly turns last v x := by
  have value : (outbound none leftEarly).value? =
      some ⟨.outbound, 0, some (.clientWrite ⟨.brokenPipe, "Broken pipe"⟩)⟩ := by decide +kernel
  have coherent : leftEarly.ctx.Coherent := rfl
  obtain ⟨accounts, runs⟩ := outbound_accounts coherent rfl rfl
  obtain ⟨t, v, x, finished⟩ := Run.finished_of_value (by rw [value]; rfl)
  obtain ⟨turns, last, ends⟩ := runs _ _ _ _ finished
  exact ⟨value, t, turns, last, v, x, finished, accounts _ _ _ _ ends⟩

end Relaying

end PackRelay
