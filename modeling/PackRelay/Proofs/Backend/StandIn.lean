import PackRelay.Backend.Wired
import PackRelay.Proofs.Backend.Opening

/-! Opening a connection to another peer. As long as the hello is sent, only how the peer takes the
hello counts: a peer that takes it alike can stand in for another one, whatever it sends, and whatever
becomes of what is written to it later. -/
namespace PackRelay

/-- Plans that meet so many octets, and one flush behind them, alike. -/
structure SinkPlan.AgreesOn (count : Nat) (p q : SinkPlan) : Prop where
  write : ∀ turns accepted, accepted < count → p.write turns accepted = q.write turns accepted
  flush : p.flush 0 = q.flush 0

def Sink.under (plan : SinkPlan) (s : Sink) : Sink := { s with plan }

/-- What a connection would be if it had led to another peer. -/
def Connection.standIn (source : Source) (plan : SinkPlan) (c : Connection) : Connection :=
  ⟨source, c.sink.under plan⟩

def DialAnswer.standIn (source : Source) (plan : SinkPlan) : DialAnswer → DialAnswer
  | .connected c => .connected (c.standIn source plan)
  | answer => answer

def Destination.standIn (source : Source) (plan : SinkPlan) (d : Destination) : Destination :=
  { d with dial := ⟨d.dial.delay, d.dial.answer.standIn source plan⟩ }

def Opening.standIn (source : Source) (plan : SinkPlan) : Opening → Opening
  | .dialing k => .dialing k
  | .greeting w c => .greeting w (c.standIn source plan)

variable {count now : Nat} {plan : SinkPlan} {source : Source} {s : Sink} {rest : Bytes}

namespace Sink

theorem pollWrite_under
    (same : s.plan.write s.writeTurns s.accepted = plan.write s.writeTurns s.accepted) (now : Nat)
    (bs : Bytes) : (s.under plan).pollWrite now bs = (s.pollWrite now bs).within (under plan) := by
  simp only [pollWrite, under, ← same]
  cases pause now (s.plan.write s.writeTurns s.accepted).delay s.writeWake with
  | some t => rfl
  | none =>
    cases bs with
    | nil => rfl
    | cons b bs => cases (s.plan.write s.writeTurns s.accepted).answer <;> rfl

theorem pollWriteAll_under (agrees : s.plan.AgreesOn count plan)
    (room : s.accepted + rest.length ≤ count) (now : Nat) :
    (s.under plan).pollWriteAll now rest =
      (s.pollWriteAll now rest).within fun (rest, s) => (rest, s.under plan) := by
  cases rest with
  | nil => rfl
  | cons b bs =>
    have before : s.accepted < count := by
      simp only [List.length_cons] at room
      omega
    simp only [pollWriteAll, List.isEmpty_cons, Bool.false_eq_true, if_false,
      pollWrite_under (agrees.write s.writeTurns s.accepted before)]
    cases s.pollWrite now (b :: bs) with
    | ready result s' =>
      simp only [Poll.within, Poll.into_ready]
      cases result with
      | error e =>
        simp only
        split <;> rfl
      | ok n =>
        cases n with
        | zero => rfl
        | succ n =>
          simp only
          cases (b :: bs).drop (n + 1) <;> rfl
    | _ => rfl

theorem pollFlush_under (agrees : s.plan.AgreesOn count plan) (unflushed : s.flushTurns = 0)
    (now : Nat) : (s.under plan).pollFlush now = (s.pollFlush now).within (under plan) := by
  have turn : s.plan.flush s.flushTurns = plan.flush s.flushTurns := by
    rw [unflushed, agrees.flush]
  simp only [pollFlush, under, ← turn]
  cases pause now (s.plan.flush s.flushTurns).delay s.flushWake with
  | some t => rfl
  | none => cases (s.plan.flush s.flushTurns).answer <;> rfl

end Sink

/-- A hello that is not sent yet is within what the peers take alike. -/
structure Wire.Writing.Early (count : Nat) (w : Wire.Writing) (s : Sink) : Prop where
  room : s.accepted + w.rest.length ≤ count
  unflushed : s.flushTurns = 0

theorem Wire.Writing.poll_under {w : Wire.Writing} (agrees : s.plan.AgreesOn count plan)
    (early : w.Early count s) (now : Nat) :
    w.poll now (s.under plan) = (w.poll now s).within fun (w, s) => (w, s.under plan) := by
  cases w with
  | sending rest =>
    have room : s.accepted + rest.length ≤ count := early.room
    simp only [poll, Sink.pollWriteAll_under agrees room]
    cases s.pollWriteAll now rest with
    | ready result q => cases result <;> rfl
    | _ => rfl
  | flushing =>
    simp only [poll, Sink.pollFlush_under agrees early.unflushed]
    cases s.pollFlush now <;> rfl

theorem Sink.WriteStep.room {p : Poll (Bytes × Sink) (Except IoError Unit)}
    (step : s.WriteStep rest p) (room : s.accepted + rest.length ≤ count) :
    p.state.2.accepted + p.state.1.length ≤ count := by
  cases step with
  | nothing _ => exact le_trans (Nat.add_le_add_left (Nat.zero_le _) _) room
  | takesAll => simpa [Poll.state, accept] using room
  | takes k _ some_left =>
    simp only [Poll.state, accept, List.length_take, List.length_drop]
    omega
  | fails e s' is => rcases is with rfl | rfl <;> exact room
  | retries _ | waits _ _ | crashes _ => exact room

theorem Wire.Writing.Step.early {w : Wire.Writing} {p : Poll (Wire.Writing × Sink) (Except Error Unit)}
    (step : Step s w p) (early : w.Early count s) (ongoing : ∀ a q, p ≠ .ready a q) :
    p.state.1.Early count p.state.2 := by
  have written : ∀ {q : Poll (Bytes × Sink) (Except IoError Unit)} {rest}, s.WriteStep rest q →
      q.state.2.flushTurns = s.flushTurns := fun write => by rw [write.onlyWrites]
  cases step with
  | sends rest rest' s' write | stalls rest rest' s' alarm write | sendCrashes rest rest' s' write =>
    exact ⟨write.room early.room, (written write).trans early.unflushed⟩
  | sent rest rest' s' write =>
    have room := write.room early.room
    exact ⟨le_trans (Nat.add_le_add_left (Nat.zero_le _) _) room,
      (written write).trans early.unflushed⟩
  | lingers s' alarm flush | flushCrashes s' flush =>
    cases flush
    exact ⟨early.room, early.unflushed⟩
  | sendFails _ _ _ _ _ | flushes _ _ | flushFails _ _ _ => exact absurd rfl (ongoing _ _)

namespace Opening

variable {d : Destination} {ctx : Context} {o : Opening}

/-- The peer that a dial leads to is new, and takes the hello as it would be taken under `plan`. -/
def Alike (d : Destination) (plan : SinkPlan) : Prop :=
  ∀ c, d.dial.answer = .connected c → c.sink.accepted = 0 ∧ c.sink.flushTurns = 0 ∧
    c.sink.plan.AgreesOn (d.hello.length + 4) plan

/-- The hello is not sent yet. -/
def Early (d : Destination) (plan : SinkPlan) : Opening → Prop
  | .dialing _ => True
  | .greeting w c =>
    w.Early (d.hello.length + 4) c.sink ∧ c.sink.plan.AgreesOn (d.hello.length + 4) plan

theorem Step.early {p : Poll (Context × Opening) (Except OpeningError Connection)}
    (step : Step d now ctx o p) (alike : Alike d plan) (early : Early d plan o)
    (ongoing : ∀ a q, p ≠ .ready a q) : Early d plan p.state.2 := by
  have sends : ∀ {w c} {q : Poll (Wire.Writing × Sink) (Except Wire.Error Unit)},
      Wire.Writing.Step c.sink w q → (∀ a r, q ≠ .ready a r) → Early d plan (.greeting w c) →
      Early d plan (.greeting q.state.1 (c.setSink q.state.2)) := fun {w c q} write going early => by
    have here : w.Sound c.sink w.rest c.sink := ⟨rfl, rfl, rfl⟩
    have kept := write.sound here
    refine ⟨write.early early.1 going, ?_⟩
    have same : q.state.2.plan = c.sink.plan := kept.plan
    exact same ▸ early.2
  cases step with
  | dials _ _ _ _ | awaits _ _ _ _ _ _ => trivial
  | meets place wake limit bs c _ answer framed =>
    obtain ⟨fresh, unflushed, agrees⟩ := alike c answer
    refine ⟨⟨?_, unflushed⟩, agrees⟩
    obtain ⟨_, rfl⟩ := Wire.frame_eq_ok.1 framed
    simp [fresh, Wire.Writing.rest, Bytes.ofWord]
  | sends w w' c s _ write | stalls w w' c s alarm _ write | sendCrashes w w' c s _ write =>
    exact sends write (fun _ _ is => by cases is) early
  | _ => exact absurd rfl (ongoing _ _)

theorem connecting_standIn (d : Destination) (source : Source) (plan : SinkPlan) (now : Nat)
    (p : Context × Connecting) :
    Connecting.poll d.descriptor d.patience (d.standIn source plan).dial now p =
      (Connecting.poll d.descriptor d.patience d.dial now p).map
        (·.map (Connection.standIn source plan)) fun p => p := by
  obtain ⟨ctx, k⟩ := p
  cases k with
  | fresh =>
    simp only [Connecting.poll]
    obtain ⟨checked, ctx'⟩ := ctx.check now
    cases checked with
    | error r => rfl
    | ok _ => cases d.descriptor.place <;> rfl
  | dialing place wake limit =>
    simp only [Connecting.poll, Connecting.progress, Destination.standIn]
    cases ctx.signal with
    | some r => rfl
    | none =>
      cases pause now d.dial.delay wake with
      | some t =>
        simp only
        split <;> rfl
      | none =>
        cases d.dial.answer with
        | connected c => rfl
        | failed e => rfl
        | never =>
          simp only [DialAnswer.standIn]
          split <;> rfl

theorem poll_standIn (early : Early d plan o) (source : Source) (now : Nat) (ctx : Context) :
    (o.standIn source plan).poll (d.standIn source plan) now ctx =
      (o.poll d now ctx).into (fun (ctx, o) => (ctx, o.standIn source plan)) fun result (ctx, o) =>
        .ready (result.map (Connection.standIn source plan)) (ctx, o.standIn source plan) := by
  cases o with
  | dialing k =>
    have same := connecting_standIn d source plan now (ctx, k)
    simp only [standIn, poll, pollDialing]
    rw [Destination.standIn] at same ⊢
    simp only at same ⊢
    rw [same]
    cases Connecting.poll d.descriptor d.patience d.dial now (ctx, k) with
    | ready result q =>
      cases result with
      | error e => rfl
      | ok c =>
        simp only [Poll.map, Poll.into_ready, Except.map]
        cases Wire.frame d.hello <;> rfl
    | _ => rfl
  | greeting w c =>
    simp only [standIn, poll, pollGreeting, Connection.standIn]
    cases signal : ctx.signal with
    | some r =>
      simp only [Context.guard_of_signal signal]
      rfl
    | none =>
      simp only [Context.guard_of_silent signal, Wire.Writing.poll_under early.2 early.1]
      cases w.poll now c.sink with
      | ready result q =>
        cases result <;> rfl
      | _ => rfl

@[simp] theorem begun_standIn (o o' : Opening) :
    begun (o.standIn source plan) (o'.standIn source plan) = begun o o' := by
  cases o <;> cases o' <;> rfl

end Opening

def CallLine.standIn (source : Source) (plan : SinkPlan) : CallLine → CallLine
  | .opening o => .opening (o.standIn source plan)
  | .listening r c => .listening r (c.standIn source plan)
  | .dropped c => .dropped (c.map (Connection.standIn source plan))

def ChannelLine.standIn (source : Source) (plan : SinkPlan) : ChannelLine → ChannelLine
  | .opening o => .opening (o.standIn source plan)
  | .handedOut => .handedOut
  | .dropped c => .dropped (c.map (Connection.standIn source plan))

@[simp] theorem CallLine.drop_standIn (l : CallLine) (source : Source) (plan : SinkPlan) :
    (l.standIn source plan).drop = l.drop.standIn source plan := by
  cases l with
  | opening o => cases o <;> rfl
  | listening r c => rfl
  | dropped c => rfl

@[simp] theorem ChannelLine.drop_standIn (l : ChannelLine) (source : Source) (plan : SinkPlan) :
    (l.standIn source plan).drop = l.drop.standIn source plan := by
  cases l with
  | opening o => cases o <;> rfl
  | handedOut => rfl
  | dropped c => rfl

@[simp] theorem ChannelLine.connection_standIn (l : ChannelLine) :
    (l.standIn source plan).connection? = l.connection?.map (Connection.standIn source plan) := by
  cases l with
  | opening o => cases o <;> rfl
  | handedOut => rfl
  | dropped c => rfl

end PackRelay
