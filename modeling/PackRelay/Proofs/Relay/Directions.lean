import PackRelay.Proofs.Context.Basic
import PackRelay.Proofs.Relay.Flow

/-! Both relays as flows. As long as nothing stops it, a step of a relay is a step of its flow;
once the context is cancelled, a relay ends and touches nothing. -/
namespace PackRelay

/-- From the request body into the sidechannel, up to its shutdown. -/
def inflow : Flow.Kind where
  loop := false
  finish := Sink.ShutdownStep
  finished := Sink.shutdowns
  readFailure := .clientRead
  writeFailure e := .sidechannel (.io e)
  finish_only h := h.only
  finish_ok h := by cases h; rfl
  finish_not_ok h other := by
    cases h with
    | done => exact absurd rfl (other _)
    | _ => rfl
  finish_crash h calm := by
    cases h with
    | crashes crash => exact calm.shutdown _ crash
  finished_write only := only.shutdowns
  untold _ := ⟨rfl, rfl⟩

/-- From the sidechannel into the response, up to its flush. -/
def outflow : Flow.Kind where
  loop := true
  finish := Sink.FlushStep
  finished := Sink.flushes
  readFailure e := .sidechannel (.io e)
  writeFailure := .clientWrite
  finish_only h := h.only
  finish_ok h := by cases h; rfl
  finish_not_ok h other := by
    cases h with
    | done => exact absurd rfl (other _)
    | _ => rfl
  finish_crash h calm := by
    cases h with
    | crashes crash => exact calm.flush _ crash
  finished_write only := only.flushes
  untold _ := ⟨rfl, rfl⟩

variable {ctx : Context} {now : Nat} {c : Sidechannel} {r : CancelReason}

def InboundPhase.stage : InboundPhase → Stage
  | .reading => .reading
  | .writing rest size => .writing rest size
  | .closing => .finishing

def Stage.inbound : Stage → InboundPhase
  | .reading => .reading
  | .writing rest size => .writing rest size
  | .finishing => .closing

def Sidechannel.fed (c : Sidechannel) (s : Sink) (closed : Bool) : Sidechannel :=
  { c.setSink s with writeClosed := closed }

namespace Inbound

variable {i : Inbound}

def flow (i : Inbound) (s : Sink) : Flow := ⟨i.body, s, i.phase.stage, i.bytes⟩

def ofFlow (m : Flow) : Inbound := ⟨m.source, m.bytes, m.stage.inbound⟩

@[simp] theorem flow_ofFlow (m : Flow) : (ofFlow m).flow m.sink = m := by
  obtain ⟨source, sink, stage, bytes⟩ := m
  cases stage <;> rfl

@[simp] theorem ofFlow_flow (i : Inbound) (s : Sink) : ofFlow (i.flow s) = i := by
  obtain ⟨body, bytes, phase⟩ := i
  cases phase <;> rfl

/-- What the relay of the request body works on is its flow. -/
def task (now : Nat) (m : Flow) : Poll Flow (Option RelayError) :=
  m.poll inflow now (m.source.poll now relayBuffer) (m.sink.pollShutdown now)

theorem task_step (now : Nat) (m : Flow) : Flow.Step inflow m (task now m) := by
  have shut := m.sink.pollShutdown_step now
  refine Flow.poll_step (m.source.poll_step false now relayBuffer) shut (fun s more => ?_) now
  rw [more] at shut
  cases shut

theorem poll_eq (silent : ctx.signal = none) (is_open : c.isOpen = true)
    (unclosed : c.writeClosed = false) (now : Nat) (i : Inbound) :
    i.poll ctx now c =
      (task now (i.flow c.connection.sink)).into (fun m => (ofFlow m, c.fed m.sink false)) fun e m =>
        .ready ((ofFlow m).result e) (ofFlow m, c.fed m.sink e.isNone) := by
  obtain ⟨id, k, isOpen, writeClosed, count, limit⟩ := c
  cases is_open
  cases unclosed
  obtain ⟨body, bytes, phase⟩ := i
  cases phase with
  | reading =>
    simp only [poll, pollReading, Context.guard_of_silent silent, task, Flow.poll, flow,
      InboundPhase.stage]
    cases body.poll now relayBuffer with
    | ready outcome body' =>
      cases outcome with
      | error e => rfl
      | ok bs => cases bs <;> rfl
    | _ => rfl
  | writing rest size =>
    simp only [poll, pollWriting, Sidechannel.pollWriteAll, Context.guard_of_silent silent, task,
      Flow.poll, flow, InboundPhase.stage]
    cases k.sink.pollWriteAll now rest with
    | ready outcome q => cases outcome <;> rfl
    | _ => rfl
  | closing =>
    simp only [poll, pollClosing, Sidechannel.pollCloseWrite, Context.guard_of_silent silent, task,
      Flow.poll, flow, InboundPhase.stage]
    cases k.sink.pollShutdown now with
    | ready outcome s => cases outcome <;> rfl
    | _ => rfl

theorem poll_stopped (stopped : ctx.signal = some r) (is_open : c.isOpen = true)
    (unclosed : c.writeClosed = false) (now : Nat) (i : Inbound) :
    i.poll ctx now c = .ready (i.result (some (.cancelled r))) (i, c) := by
  obtain ⟨body, bytes, phase⟩ := i
  cases phase with
  | reading => simp only [poll, pollReading, Context.guard_of_signal stopped, Poll.into_ready]
  | writing rest size =>
    simp [poll, pollWriting, Sidechannel.pollWriteAll, is_open, unclosed,
      Context.guard_of_signal stopped, Poll.map]
    rfl
  | closing =>
    simp [poll, pollClosing, Sidechannel.pollCloseWrite, is_open, unclosed,
      Context.guard_of_signal stopped]
    rfl

end Inbound

def OutboundPhase.stage : OutboundPhase → Stage
  | .reading => .reading
  | .writing rest size => .writing rest size
  | .flushing => .finishing

def Stage.outbound : Stage → OutboundPhase
  | .reading => .reading
  | .writing rest size => .writing rest size
  | .finishing => .flushing

/-- What a turn at some stage makes of the headers. -/
def Stage.commits (g : Stage) (headers : Watched Bool) : Watched Bool :=
  if g.writes then headers.raise else headers

@[simp] theorem Stage.commits_value (g : Stage) (headers : Watched Bool) :
    (g.commits headers).value = (headers.value || g.writes) := by
  cases g <;> simp [commits, writes, Watched.raise, Watched.sendIfModified]

/-- Who was told once is not told again. -/
@[simp] theorem Stage.commits_commits (g : Stage) (headers : Watched Bool) :
    g.commits (g.commits headers) = g.commits headers := by
  cases g <;> simp [commits, writes, Watched.raise, Watched.sendIfModified]

def Sidechannel.drawn (c : Sidechannel) (s : Source) :
    Sidechannel := c.setConnection (c.connection.setSource s)

namespace Outbound

variable {o : Outbound}

def flow (o : Outbound) (s : Source) : Flow := ⟨s, o.response.sink, o.phase.stage, o.bytes⟩

def ofFlow (headers : Watched Bool) (count : Nat) (m : Flow) :
    Outbound := ⟨⟨m.sink, headers, count⟩, m.bytes, m.stage.outbound⟩

@[simp] theorem flow_ofFlow (headers : Watched Bool) (count : Nat) (m : Flow) :
    (ofFlow headers count m).flow m.source = m := by
  obtain ⟨source, sink, stage, bytes⟩ := m
  cases stage <;> rfl

@[simp] theorem ofFlow_flow (o : Outbound) (s : Source) :
    ofFlow o.response.headers o.response.bytesWritten (o.flow s) = o := by
  obtain ⟨response, bytes, phase⟩ := o
  cases phase <;> rfl

/-- The relay of the response works on its flow, and sends the headers with the first write. -/
def moves (now : Nat) (read : Poll Source (Except IoError Bytes)) (p : Flow × Watched Bool) :
    Poll (Flow × Watched Bool) (Option RelayError) :=
  (p.1.poll outflow now read (p.1.sink.pollFlush now)).within (·, p.1.stage.commits p.2)

theorem poll_eq {read : Poll Source (Except IoError Bytes)} (silent : ctx.signal = none)
    (is_open : c.isOpen = true)
    (same : c.connection.pollRead now relayBuffer = read.within c.connection.setSource)
    (o : Outbound) :
    ∃ count, o.poll ctx now c =
      (moves now read (o.flow c.connection.source, o.response.headers)).into
        (fun (m, headers) => (ofFlow headers count m, c.drawn m.source)) fun e (m, headers) =>
          .ready ((ofFlow headers count m).result e) (ofFlow headers count m, c.drawn m.source) := by
  obtain ⟨id, k, isOpen, writeClosed, times, limit⟩ := c
  cases is_open
  obtain ⟨⟨sink, headers, count⟩, bytes, phase⟩ := o
  cases phase with
  | reading =>
    refine ⟨count, ?_⟩
    simp only [poll, pollReading, Sidechannel.pollRead, Context.guard_of_silent silent, same, moves,
      Flow.poll, flow, OutboundPhase.stage, Stage.commits, Stage.writes,
      Bool.false_eq_true, if_false]
    cases read with
    | ready outcome s =>
      cases outcome with
      | error e => rfl
      | ok bs => cases bs <;> rfl
    | _ => rfl
  | writing rest size =>
    simp only [poll, pollWriting, ResponseWriter.pollWriteAll, ResponseWriter.commit,
      Context.guard_of_silent silent, moves, Flow.poll, flow, OutboundPhase.stage, Stage.commits,
      Stage.writes, if_true]
    cases sink.pollWriteAll now rest with
    | ready outcome q =>
      cases outcome with
      | error e => exact ⟨count, rfl⟩
      | ok _ => exact ⟨count + size, rfl⟩
    | _ => exact ⟨count, rfl⟩
  | flushing =>
    refine ⟨count, ?_⟩
    simp only [poll, pollFlushing, ResponseWriter.pollFlush, Context.guard_of_silent silent, moves,
      Flow.poll, flow, OutboundPhase.stage, Stage.commits, Stage.writes,
      Bool.false_eq_true, if_false]
    cases sink.pollFlush now with
    | ready outcome s => cases outcome <;> rfl
    | _ => rfl

theorem moves_step {m : Flow} {read : Poll Source (Except IoError Bytes)}
    (step : m.source.ReadStep true relayBuffer read) (now : Nat) :
    Flow.Step outflow m (m.poll outflow now read (m.sink.pollFlush now)) := by
  have flush := m.sink.pollFlush_step now
  refine Flow.poll_step step flush (fun s more => ?_) now
  rw [more] at flush
  cases flush

theorem poll_stopped (stopped : ctx.signal = some r) (is_open : c.isOpen = true) (now : Nat)
    (o : Outbound) :
    o.poll ctx now c = .ready (o.result (some (.cancelled r))) (o, c) := by
  obtain ⟨response, bytes, phase⟩ := o
  cases phase with
  | reading =>
    simp [poll, pollReading, Sidechannel.pollRead, is_open, Context.guard_of_signal stopped,
      Poll.map]
    rfl
  | writing rest size =>
    simp only [poll, pollWriting, Context.guard_of_signal stopped, Poll.into_ready]
  | flushing => simp only [poll, pollFlushing, Context.guard_of_signal stopped, Poll.into_ready]

end Outbound
end PackRelay
