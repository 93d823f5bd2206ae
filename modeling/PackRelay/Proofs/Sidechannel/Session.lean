import PackRelay.Proofs.Context.Basic
import PackRelay.Proofs.Sidechannel.Count
import PackRelay.Proofs.Stream.Connection
import PackRelay.Sidechannel.Session

/-! A sidechannel in the hands of its caller. However the stream behaves and whenever the context is
cancelled, the connection is given up by the first close or drop and by nothing else, its writing side
is shut down once at most, and what was closed stays as it is. -/
namespace PackRelay

namespace Poll

variable {σ τ α β : Type}

theorem state_map (f : α → β) (put : σ → τ) (p : Poll σ α) : (p.map f put).state = put p.state := by
  cases p <;> rfl

end Poll

theorem Sink.pollWrite_only (now : Nat) (bs : Bytes) (s : Sink) :
    s.OnlyWrites (s.pollWrite now bs).state := by
  simp only [pollWrite]
  cases pause now (s.plan.write s.writeTurns s.accepted).delay s.writeWake with
  | some t => rfl
  | none =>
    cases bs with
    | nil => rfl
    | cons b bs => cases (s.plan.write s.writeTurns s.accepted).answer <;> rfl

namespace Sidechannel

variable {c c' c'' : Sidechannel} {ctx : Context} {now room : Nat} {bs : Bytes}

/-- A later state of a channel on which everything but closing may have been done. -/
structure Onward (c c' : Sidechannel) : Prop where
  alike : c.Alike c'
  shut : c.isOpen = false → c' = c
  closeLimit : c'.closeLimit = c.closeLimit
  released : c'.connection.sink.released = c.connection.sink.released
  halfClosed : c.writeClosed = true → c'.writeClosed = true ∧ c'.connection.sink = c.connection.sink
  shutdowns : c.writeClosed = false → c'.connection.sink.shutdowns =
    c.connection.sink.shutdowns + if c'.writeClosed then 1 else 0

theorem Onward.refl (c : Sidechannel) : c.Onward c :=
  ⟨.refl c, fun _ => rfl, rfl, rfl, fun half => ⟨half, rfl⟩, fun unclosed => by simp [unclosed]⟩

theorem Onward.trans (one : c.Onward c') (two : c'.Onward c'') : c.Onward c'' where
  alike := ⟨two.alike.isOpen.trans one.alike.isOpen, two.alike.closeCount.trans one.alike.closeCount⟩
  shut shut := (two.shut (by rw [one.alike.isOpen, shut])).trans (one.shut shut)
  closeLimit := two.closeLimit.trans one.closeLimit
  released := two.released.trans one.released
  halfClosed half :=
    ⟨(two.halfClosed (one.halfClosed half).1).1,
      (two.halfClosed (one.halfClosed half).1).2.trans (one.halfClosed half).2⟩
  shutdowns unclosed := by
    have first := one.shutdowns unclosed
    cases half : c'.writeClosed with
    | true =>
      obtain ⟨stays, same⟩ := two.halfClosed half
      simpa [same, stays, half] using first
    | false =>
      rw [half] at first
      rw [two.shutdowns half, first]
      rfl

theorem Onward.setSource (held : c.isOpen = true) (s : Source) :
    c.Onward (c.setConnection (c.connection.setSource s)) where
  alike := ⟨rfl, rfl⟩
  shut shut := by simp [held] at shut
  closeLimit := rfl
  released := rfl
  halfClosed half := ⟨half, rfl⟩
  shutdowns unclosed := by simp [setConnection, Connection.setSource, unclosed]

theorem Onward.setSink {s : Sink} (held : c.isOpen = true) (unclosed : c.writeClosed = false)
    (released : s.released = c.connection.sink.released)
    (same : s.shutdowns = c.connection.sink.shutdowns) : c.Onward (c.setSink s) where
  alike := ⟨rfl, rfl⟩
  shut shut := by simp [held] at shut
  closeLimit := rfl
  released := released
  halfClosed half := by simp [half] at unclosed
  shutdowns unclosed := by
    simp [Sidechannel.setSink, setConnection, Connection.setSink, unclosed, same]

theorem Onward.writes {s : Sink} (held : c.isOpen = true) (unclosed : c.writeClosed = false)
    (only : c.connection.sink.OnlyWrites s) : c.Onward (c.setSink s) := by
  refine .setSink held unclosed ?_ only.shutdowns
  rw [only]

theorem pollRead_onward (ctx : Context) (now room : Nat) (c : Sidechannel) :
    c.Onward (c.pollRead ctx now room).state := by
  unfold pollRead
  split
  · exact .refl c
  · rename_i usable
    have held : c.isOpen = true := by simpa using usable
    rw [Poll.state_map]
    obtain ⟨p, _, is⟩ := c.connection.pollRead_step now room
    refine Context.guard_state (I := fun k => c.Onward (c.setConnection k)) ctx (.refl c) ?_
    rw [is]
    cases p <;> exact .setSource held _

/-- The same channel, but for whether its writing side was closed. -/
def flag (b : Bool) (c : Sidechannel) : Sidechannel := { c with writeClosed := b }

theorem pollRead_flag (b : Bool) (ctx : Context) (now room : Nat) (c : Sidechannel) :
    (c.flag b).pollRead ctx now room = (c.pollRead ctx now room).map (fun v => v) (flag b) := by
  have held : (c.flag b).isOpen = c.isOpen := rfl
  have connection : (c.flag b).connection = c.connection := rfl
  rw [pollRead, pollRead, held, connection]
  by_cases shut : (!c.isOpen) = true
  · rw [if_pos shut, if_pos shut]
    rfl
  · rw [if_neg shut, if_neg shut]
    cases ctx.guard c.connection (c.connection.pollRead now room) <;> rfl

theorem pollWrite_onward (ctx : Context) (now : Nat) (bs : Bytes) (c : Sidechannel) :
    c.Onward (c.pollWrite ctx now bs).state := by
  unfold pollWrite
  split
  · exact .refl c
  · rename_i usable
    simp only [Bool.or_eq_true, not_or, Bool.not_eq_true, Bool.not_eq_false'] at usable
    rw [Poll.state_map]
    exact Context.guard_state (I := fun s => c.Onward (c.setSink s)) ctx (.refl c)
      (.writes usable.1 usable.2 (c.connection.sink.pollWrite_only now bs))

theorem pollWriteAll_onward (ctx : Context) (now : Nat) (rest : Bytes) (c : Sidechannel) :
    c.Onward (c.pollWriteAll ctx now rest).state.2 := by
  unfold pollWriteAll
  split
  · exact .refl c
  · rename_i usable
    simp only [Bool.or_eq_true, not_or, Bool.not_eq_true, Bool.not_eq_false'] at usable
    rw [Poll.state_map]
    exact Context.guard_state (I := fun q : Bytes × Sink => c.Onward (c.setSink q.2)) ctx (.refl c)
      (.writes usable.1 usable.2 (c.connection.sink.pollWriteAll_step now rest).onlyWrites)

theorem Onward.halfClose (held : c.isOpen = true) (unclosed : c.writeClosed = false) :
    c.Onward { c.setSink (c.connection.sink.shutDown true) with writeClosed := true } where
  alike := ⟨rfl, rfl⟩
  shut shut := by simp [held] at shut
  closeLimit := rfl
  released := rfl
  halfClosed half := by simp [half] at unclosed
  shutdowns _ := rfl

/-- At most the delay of a shutdown has begun since. -/
def Pending (c x : Sidechannel) : Prop :=
  ∃ wake, x = c.setSink { c.connection.sink with shutdownWake := wake }

theorem Pending.refl (c : Sidechannel) : c.Pending c := ⟨c.connection.sink.shutdownWake, rfl⟩

theorem Pending.held (pending : c.Pending c') (held : c.isOpen = true) : c'.isOpen = true := by
  obtain ⟨wake, rfl⟩ := pending
  exact held

theorem Pending.unclosed (pending : c.Pending c') (unclosed : c.writeClosed = false) :
    c'.writeClosed = false := by
  obtain ⟨wake, rfl⟩ := pending
  exact unclosed

theorem Pending.waits (pending : c.Pending c') (wake : Option Nat) :
    c.Pending (c'.setSink { c'.connection.sink with shutdownWake := wake }) := by
  obtain ⟨_, rfl⟩ := pending
  exact ⟨wake, rfl⟩

/-- All that one step of closing the writing side can do where that is still open. -/
inductive CloseWriteStep (ctx : Context) (c : Sidechannel) :
    Poll Sidechannel (Except SidechannelError Unit) → Prop
  | cancelled (r : CancelReason) :
    ctx.signal = some r → CloseWriteStep ctx c (.ready (.error (.cancelled r)) c)
  | done : CloseWriteStep ctx c
    (.ready (.ok ()) { c.setSink (c.connection.sink.shutDown true) with writeClosed := true })
  | fails (e : IoError) :
    CloseWriteStep ctx c (.ready (.error (.io e)) (c.setSink (c.connection.sink.shutDown false)))
  | waits (wake alarm : Option Nat) : CloseWriteStep ctx c
    (.waiting (c.setSink { c.connection.sink with shutdownWake := wake }) alarm)
  | crashes : CloseWriteStep ctx c (.crashed c)

theorem pollCloseWrite_step (ctx : Context) (now : Nat) (held : c.isOpen = true)
    (unclosed : c.writeClosed = false) : CloseWriteStep ctx c (c.pollCloseWrite ctx now) := by
  simp only [pollCloseWrite, held, unclosed, Bool.not_true, Bool.false_eq_true, if_false]
  cases told : ctx.signal with
  | some r =>
    rw [Context.guard_of_signal told]
    exact .cancelled r told
  | none =>
    rw [Context.guard_of_silent told]
    have shut := c.connection.sink.pollShutdown_step now
    generalize c.connection.sink.pollShutdown now = q at shut ⊢
    cases shut with
    | done => exact .done
    | fails e => exact .fails e
    | waits wake alarm => exact .waits wake alarm
    | crashes _ => exact .crashes

theorem CloseWriteStep.onward {p : Poll Sidechannel (Except SidechannelError Unit)}
    (step : CloseWriteStep ctx c p) (held : c.isOpen = true) (unclosed : c.writeClosed = false) :
    c.Onward p.state := by
  cases step with
  | cancelled _ _ | crashes => exact .refl c
  | done => exact .halfClose held unclosed
  | fails e => exact .setSink held unclosed rfl rfl
  | waits wake alarm => exact .setSink held unclosed rfl rfl

theorem pollCloseWrite_onward (ctx : Context) (now : Nat) (c : Sidechannel) :
    c.Onward (c.pollCloseWrite ctx now).state := by
  cases held : c.isOpen with
  | false =>
    simp only [pollCloseWrite, held, Bool.not_false, if_true]
    exact .refl c
  | true =>
    cases half : c.writeClosed with
    | true =>
      simp only [pollCloseWrite, held, half, Bool.not_true, Bool.false_eq_true, if_false, if_true]
      exact .refl c
    | false => exact (pollCloseWrite_step ctx now held half).onward held half

theorem Duplex.pollWriter_onward (ctx : Context) (now : Nat) (d : Duplex) :
    d.channel.Onward (d.pollWriter ctx now).state.channel := by
  unfold pollWriter
  split
  · rename_i rest _
    have onward := d.channel.pollWriteAll_onward ctx now rest
    generalize d.channel.pollWriteAll ctx now rest = p at onward ⊢
    cases p with
    | ready v q => cases v <;> exact onward
    | _ => exact onward
  · have onward := d.channel.pollCloseWrite_onward ctx now
    generalize d.channel.pollCloseWrite ctx now = p at onward ⊢
    cases p with
    | ready v q => cases v <;> exact onward
    | _ => exact onward
  · exact .refl d.channel

theorem Duplex.pollReader_onward (ctx : Context) (now : Nat) (d : Duplex) :
    d.channel.Onward (d.pollReader ctx now).state.channel := by
  unfold pollReader
  split
  · exact .refl d.channel
  · have onward := d.channel.pollRead_onward ctx now d.room
    generalize d.channel.pollRead ctx now d.room = p at onward ⊢
    cases p <;> exact onward

theorem Duplex.poll_onward (ctx : Context) (now : Nat) (d : Duplex) :
    d.channel.Onward (d.poll ctx now).state.channel := by
  have start : d.channel.Onward d.channel := .refl d.channel
  exact Poll.both_state (I := fun d' : Duplex => d.channel.Onward d'.channel)
    (fun d' here => here.trans (d'.pollReader_onward ctx now))
    (fun d' here => here.trans (d'.pollWriter_onward ctx now)) start

/-- The commands that need the channel to be there. -/
def Command.uses : Command → Bool
  | .drop | .cancel _ | .advance _ => false
  | _ => true

/-- The commands that use the stream and do not give it up. -/
def Command.transfers : Command → Bool
  | .read _ | .write _ | .writeAll _ | .closeWrite => true
  | _ => false

/-- The commands that give the connection up. -/
def Command.ends : Command → Bool
  | .close | .drop => true
  | _ => false

/-- The command fails at its first step and changes nothing. -/
def Command.Refused (e : SidechannelError) (ctx : Context) (now : Nat) (c : Sidechannel) :
    Command → Prop
  | .read room => c.pollRead ctx now room = .ready (.error e) c
  | .write bs => c.pollWrite ctx now bs = .ready (.error e) c
  | .writeAll bs => c.pollWriteAll ctx now bs = .ready (.error e) (bs, c)
  | .closeWrite => c.pollCloseWrite ctx now = .ready (.error e) c
  | _ => False

namespace Session

variable {s s' : Session} {around : Surroundings} {reply : Reply} {τ α : Type} {count : Nat}
    {poll : Context → Nat → τ → Poll τ α} {channel : τ → Sidechannel} {start : τ}
    {answer : α → τ → Reply}

/-- The command is over at its first step. -/
theorem drive_at_once {a : α} {t : τ} (ready : poll s.ctx s.now start = .ready a t) :
    s.drive around count poll channel start answer =
      some (answer a t, { s with channel := channel t }) := by
  obtain ⟨n, steps⟩ : ∃ n, s.budget count + around.extra = n + 1 :=
    ⟨s.channel.connection.readBudget + 4 * count + 63 + around.extra, by simp [budget]; omega⟩
  simp only [drive, steps, run, ready, Poll.within, Poll.into_ready, ended]

/-- What the steps of a command, the context and the clock keep. -/
structure Keeps (poll : Context → Nat → τ → Poll τ α) (I : Nat → Context → τ → Prop) : Prop where
  more : ∀ {now ctx t t'}, I now ctx t → poll ctx now t = .more t' → I now ctx t'
  waits : ∀ {now ctx t t' alarm}, I now ctx t → poll ctx now t = .waiting t' alarm → I now ctx t'
  heeds : ∀ {now ctx ctx' t}, I now ctx t → ctx.Heeds ctx' → I now ctx' t
  sleeps : ∀ {now ctx t t' alarm later}, I now ctx t → poll ctx now t = .waiting t' alarm →
    now < later → (∀ stop, alarm = some stop → later ≤ max stop (now + 1)) → I later ctx t'

/-- What is kept holds at the last step of a command. -/
theorem drive_last {I : Nat → Context → τ → Prop} (keeps : Keeps poll I) (begins : I s.now s.ctx start)
    (driven : s.drive around count poll channel start answer = some (reply, s')) :
    ∃ a t t', I s'.now s'.ctx t ∧ poll s'.ctx s'.now t = .ready a t' ∧ reply = answer a t' ∧
      s' = { s with now := s'.now, ctx := s'.ctx, channel := channel t' } := by
  simp only [drive] at driven
  unfold ended at driven
  split at driven
  · rename_i time a ctx t' ran
    cases driven
    obtain ⟨k, u, ⟨ctx₁, t⟩, reached, last⟩ := run_last ran fun _ _ is => nomatch is
    have kept : I u ctx₁ t := by
      refine run_keeps (I := fun now p => I now p.1 p.2) (fun now p now' p' here goes => ?_) begins
        reached
      cases goes with
      | more step =>
        cases polled : poll p.1 now p.2 <;> rw [polled] at step <;> cases step
        exact keeps.more here polled
      | acts step act =>
        cases polled : poll p.1 now p.2 <;> rw [polled] at step <;> cases step
        obtain ⟨c, seen, rfl⟩ := Option.map_eq_some_iff.1 act
        exact keeps.heeds (keeps.waits here polled) (.watch seen)
      | sleeps step _ due =>
        cases polled : poll p.1 now p.2 <;> rw [polled] at step <;> cases step
        refine keeps.sleeps here polled (by omega) fun stop is => ?_
        have := earlier_le due (.inl is)
        omega
    cases last with
    | finished ready =>
      cases polled : poll ctx₁ time t <;> rw [polled] at ready <;> cases ready
      exact ⟨a, t, t', kept, polled, rfl, rfl⟩
  · cases driven

theorem drive_onward (channel : τ → Sidechannel) (onward : ∀ ctx now t, (channel t).Onward (channel (poll ctx now t).state))
    (driven : s.drive around count poll channel start answer = some (reply, s')) :
    (channel start).Onward s'.channel ∧ s.ctx.Heeds s'.ctx ∧ s'.dropped = s.dropped := by
  have step : ∀ {ctx now t p}, poll ctx now t = p → (channel t).Onward (channel p.state) :=
    fun is => is ▸ onward _ _ _
  have keeps : Keeps poll fun _ ctx t => (channel start).Onward (channel t) ∧ s.ctx.Heeds ctx :=
    ⟨fun here is => ⟨here.1.trans (step is), here.2⟩, fun here is => ⟨here.1.trans (step is), here.2⟩,
      fun here heeds => ⟨here.1, here.2.trans heeds⟩,
      fun here is _ _ => ⟨here.1.trans (step is), here.2⟩⟩
  obtain ⟨a, t, t', kept, ready, -, same⟩ := drive_last keeps ⟨.refl _, .refl _⟩ driven
  rw [same]
  exact ⟨kept.1.trans (step ready), kept.2, rfl⟩

theorem sleep_eq {ms : Nat} (slept : s.sleep around ms = some s') :
    s' = { s with now := s'.now, ctx := s'.ctx } ∧ s.ctx.Heeds s'.ctx := by
  unfold sleep at slept
  simp only at slept
  split at slept
  · rename_i time x ran
    cases slept
    obtain ⟨k, u, y, reached, last⟩ := run_last ran fun _ _ is => nomatch is
    have kept : y = { s with ctx := y.ctx } ∧ s.ctx.Heeds y.ctx := by
      refine run_keeps (I := fun _ y => y = { s with ctx := y.ctx } ∧ s.ctx.Heeds y.ctx)
        (fun now y now' y' here goes => ?_) ⟨rfl, .refl _⟩ reached
      cases goes with
      | more step => split at step <;> cases step
      | acts step act =>
        split at step <;> cases step
        obtain ⟨c, seen, rfl⟩ := Option.map_eq_some_iff.1 act
        exact ⟨by rw [here.1], here.2.trans (.watch seen)⟩
      | sleeps step _ _ =>
        split at step <;> cases step
        exact here
    cases last with
    | finished ready =>
      split at ready <;> cases ready
      exact ⟨by rw [kept.1], kept.2⟩
  · cases slept

theorem perform_held {c : Command} (present : s.dropped = false) (uses : c.uses = true) :
    s.perform c around = s.onChannel around c := by
  cases c with
  | drop | cancel _ | advance _ => cases uses
  | _ => simp only [perform, present, Bool.false_eq_true, if_false]

theorem perform_onward {c : Command} (present : s.dropped = false) (uses : c.uses = true)
    (stays : c.ends = false) (performed : s.perform c around = some (reply, s')) :
    s.channel.Onward s'.channel ∧ s.ctx.Heeds s'.ctx ∧ s'.dropped = s.dropped := by
  rw [perform_held present uses] at performed
  cases c with
  | read room => exact drive_onward (fun c => c) (fun ctx now c => pollRead_onward ctx now room c) performed
  | write bs => exact drive_onward (fun c => c) (fun ctx now c => pollWrite_onward ctx now bs c) performed
  | writeAll bs =>
    exact drive_onward Prod.snd (fun ctx now p => pollWriteAll_onward ctx now p.1 p.2) performed
  | closeWrite => exact drive_onward (fun c => c) (fun ctx now c => pollCloseWrite_onward ctx now c) performed
  | duplex bs room =>
    simp only [onChannel] at performed
    split at performed
    · exact drive_onward Duplex.channel (fun ctx now d => d.poll_onward ctx now) performed
    · cases performed
      exact ⟨.refl s.channel, .refl s.ctx, rfl⟩
  | close => cases stays
  | drop | cancel _ | advance _ => cases uses

/-- Closing the writing side where it is still open: it works, or it fails and stays to be done. -/
theorem closeWrite_spec (sound : s.ctx.Coherent) (present : s.dropped = false)
    (held : s.channel.isOpen = true) (unclosed : s.channel.writeClosed = false)
    (performed : s.perform .closeWrite around = some (reply, s')) :
    ∃ k, s.channel.connection.sink.OnlyFinishes k ∧
      ((reply = .done ∧ s'.channel = { s.channel.setSink k with writeClosed := true } ∧
        k.shutdowns = s.channel.connection.sink.shutdowns + 1) ∨
      ∃ e, reply = .failed e ∧ s'.channel = s.channel.setSink k ∧
        k.shutdowns = s.channel.connection.sink.shutdowns ∧
        (k.shutdownTurns = s.channel.connection.sink.shutdownTurns + 1 ∨
          ∃ r, e = .cancelled r ∧ s'.ctx.reason = some r)) := by
  rw [perform_held present rfl] at performed
  have keeps : Keeps (fun ctx now (c : Sidechannel) => c.pollCloseWrite ctx now) fun _ ctx c =>
      s.channel.Pending c ∧ s.ctx.Heeds ctx := by
    have waits : ∀ {ctx : Context} {c c' : Sidechannel} {now alarm}, s.channel.Pending c →
        c.pollCloseWrite ctx now = .waiting c' alarm → s.channel.Pending c' := by
      intro ctx c c' now alarm pending is
      have step := pollCloseWrite_step ctx now (pending.held held) (pending.unclosed unclosed)
      rw [is] at step
      cases step with
      | waits wake _ => exact pending.waits wake
    refine ⟨fun {now ctx c c'} here is => ?_, fun here is => ⟨waits here.1 is, here.2⟩,
      fun here heeds => ⟨here.1, here.2.trans heeds⟩, fun here is _ _ => ⟨waits here.1 is, here.2⟩⟩
    have step := pollCloseWrite_step ctx now (here.1.held held) (here.1.unclosed unclosed)
    rw [is] at step
    cases step
  obtain ⟨a, c, c', ⟨pending, heeds⟩, ready, rfl, same⟩ :=
    drive_last keeps ⟨.refl _, .refl _⟩ performed
  have step := pollCloseWrite_step s'.ctx s'.now (pending.held held) (pending.unclosed unclosed)
  rw [ready] at step
  rw [same]
  obtain ⟨wake, rfl⟩ := pending
  cases step with
  | cancelled r told =>
    refine ⟨{ s.channel.connection.sink with shutdownWake := wake }, rfl,
      .inr ⟨_, rfl, rfl, rfl, .inr ⟨r, rfl, ?_⟩⟩⟩
    rw [← told, (heeds.coherent sound).signal]
  | done => exact ⟨s.channel.connection.sink.shutDown true, rfl, .inl ⟨rfl, rfl, rfl⟩⟩
  | fails e =>
    exact ⟨s.channel.connection.sink.shutDown false, rfl, .inr ⟨_, rfl, rfl, rfl, .inl rfl⟩⟩

/-- The channel on its way to being closed. -/
inductive Closing (begun : Nat) (c : Sidechannel) (now : Nat) : Sidechannel → Prop
  | asked : now = begun → Closing begun c now c
  | shutting {x : Sidechannel} : (c.giveUp begun).Pending x → now ≤ begun + closePatience →
    (c.writeClosed = true → x.connection.sink = c.connection.sink) → Closing begun c now x

theorem Closing.more {begun : Nat} (closing : Closing begun c now c')
    (step : c'.CloseStep now (.more c'')) : Closing begun c now c'' := by
  cases closing with
  | asked at_once =>
    cases step with
    | givesUp _ _ =>
      subst at_once
      exact .shutting (.refl _) (by omega) fun _ => rfl
  | shutting pending early stays =>
    obtain ⟨wake, rfl⟩ := pending
    cases step with
    | givesUp none_left _ => cases none_left

theorem Closing.waits {begun : Nat} {alarm : Option Nat} (closing : Closing begun c now c')
    (unlimited : c.closeLimit = none) (step : c'.CloseStep now (.waiting c'' alarm)) :
    now < begun + closePatience ∧ (∃ t, alarm = some t ∧ t ≤ begun + closePatience) ∧
      ∀ later ≤ begun + closePatience, Closing begun c later c'' := by
  cases closing with
  | asked _ =>
    cases step with
    | waits limit s alarm is _ _ _ => rw [unlimited] at is; cases is
  | shutting pending early stays =>
    obtain ⟨wake, rfl⟩ := pending
    cases step with
    | waits limit s alarm is unclosed shut before =>
      cases is
      cases shut
      refine ⟨before, ?_, fun later le => .shutting ⟨_, rfl⟩ le fun half => ?_⟩
      · cases due : earlier alarm (some (begun + closePatience)) with
        | none => exact absurd (earlier_eq_none.1 due).2 nofun
        | some t => exact ⟨t, rfl, earlier_le due (.inr rfl)⟩
      · have unclosed : c.writeClosed = false := unclosed
        simp [half] at unclosed

/-- Closing ends with the connection let go, a second after it began at the latest. -/
theorem Closing.ends {begun : Nat} {v : Except SidechannelError Unit}
    (closing : Closing begun c now c') (held : c.isOpen = true) (unlimited : c.closeLimit = none)
    (step : c'.CloseStep now (.ready v c'')) :
    ∃ k, c'' = ((c.giveUp begun).setSink k).letGo ∧ now ≤ begun + closePatience ∧
      c.connection.sink.OnlyFinishes k ∧ (c.writeClosed = true → k = c.connection.sink) ∧
      k.shutdowns ≤ c.connection.sink.shutdowns + 1 ∧
      (c.writeClosed = false → k.shutdownTurns = c.connection.sink.shutdownTurns + 1 ∨
        now = begun + closePatience) := by
  cases closing with
  | asked _ =>
    cases step with
    | closed _ off => rw [held] at off; cases off
    | halfClosed limit is _ => rw [unlimited] at is; cases is
    | ends limit _ q is _ _ _ => rw [unlimited] at is; cases is
  | shutting pending early stays =>
    obtain ⟨wake, rfl⟩ := pending
    cases step with
    | closed none_left _ => cases none_left
    | halfClosed limit is half =>
      refine ⟨_, rfl, early, rfl, stays, Nat.le_succ _, fun unclosed => ?_⟩
      have half : c.writeClosed = true := half
      simp [half] at unclosed
    | ends limit _ q is unclosed shut late =>
      cases is
      have half : c.writeClosed ≠ true := by
        have unclosed : c.writeClosed = false := unclosed
        simp [unclosed]
      refine ⟨q.state, rfl, early, ?_, fun is => absurd is half, ?_, fun _ => ?_⟩
      · cases shut <;> rfl
      · cases shut with
        | done => exact le_rfl
        | fails _ | waits _ _ | crashes _ => exact Nat.le_succ _
      · cases shut with
        | done | fails _ => exact .inl rfl
        | waits wake alarm => exact .inr (le_antisymm early late)
        | crashes _ => cases late

theorem keeps_closing {begun : Nat} {ctx₀ : Context} (unlimited : c.closeLimit = none) :
    Keeps (fun _ now (c : Sidechannel) => c.pollClose now) fun now ctx c' =>
      Closing begun c now c' ∧ ctx₀.Heeds ctx := by
  refine ⟨fun {now ctx c c'} here is => ⟨?_, here.2⟩, fun {now ctx c c' alarm} here is =>
    ⟨?_, here.2⟩, fun here heeds => ⟨here.1, here.2.trans heeds⟩,
    fun {now ctx c c' alarm later} here is past early => ⟨?_, here.2⟩⟩
  all_goals
    have step := c.pollClose_step now
    rw [is] at step
  · exact here.1.more step
  · obtain ⟨before, _, stays⟩ := here.1.waits unlimited step
    exact stays now (le_of_lt before)
  · obtain ⟨before, ⟨stop, is_stop, soon⟩, stays⟩ := here.1.waits unlimited step
    have := early stop is_stop
    exact stays later (by omega)

/-- Closing a channel that is open gives it up within a second, whatever the stream does. -/
theorem close_spec (present : s.dropped = false) (held : s.channel.isOpen = true)
    (unlimited : s.channel.closeLimit = none)
    (performed : s.perform .close around = some (reply, s')) :
    ∃ k, s' = { s with
        now := s'.now, ctx := s'.ctx, channel := ((s.channel.giveUp s.now).setSink k).letGo } ∧
      s.ctx.Heeds s'.ctx ∧ s'.now ≤ s.now + closePatience ∧ s.channel.connection.sink.OnlyFinishes k ∧
      (s.channel.writeClosed = true → k = s.channel.connection.sink) ∧
      k.shutdowns ≤ s.channel.connection.sink.shutdowns + 1 ∧
      (s.channel.writeClosed = false →
        k.shutdownTurns = s.channel.connection.sink.shutdownTurns + 1 ∨
          s'.now = s.now + closePatience) := by
  rw [perform_held present rfl] at performed
  obtain ⟨a, c, c', ⟨closing, heeds⟩, ready, rfl, same⟩ :=
    drive_last (keeps_closing unlimited) ⟨.asked rfl, .refl s.ctx⟩ performed
  have step := c.pollClose_step s'.now
  rw [ready] at step
  obtain ⟨k, rfl, ends⟩ := closing.ends held unlimited step
  exact ⟨k, same, heeds, ends⟩

/-- Who waits for closing sees that the context is to be cancelled, or sleeps, and has less of either
left. -/
theorem close_waits {outside : Option Interruption} {now : Nat} {ctx : Context} {alarm : Option Nat}
    (polled : c.pollClose now = .waiting c' alarm) :
    let beside := Context.beside (fun p : Context × Sidechannel => p.1) (fun ctx p => (ctx, p.2)) outside
    let poll now (p : Context × Sidechannel) := (p.2.pollClose now).within (p.1, ·)
    ∃ now' ctx', Goes beside poll now (ctx, c) now' (ctx', c') ∧
      ctx'.looks outside now' + c'.closingTurns now' < ctx.looks outside now + c.closingTurns now := by
  intro beside poll
  obtain ⟨t, rfl, past, fewer, later⟩ := closingTurns_waits polled
  have waits : poll now (ctx, c) = .waiting (ctx, c') (some t) := by
    simp only [poll, polled]
    rfl
  cases seen : ctx.watch outside now with
  | some ctx' =>
    have act : beside.act now (ctx, c') = some (ctx', c') := by
      simp only [beside, Context.beside, seen, Option.map_some]
    exact ⟨now, ctx', .acts waits act,
      Nat.add_lt_add_of_lt_of_le (Context.looks_watch seen) (later now le_rfl)⟩
  | none =>
    have idle : beside.act now (ctx, c') = none := by
      simp only [beside, Context.beside, seen, Option.map_none]
    cases due : earlier (some t) (beside.alarm now (ctx, c')) with
    | none => exact absurd (earlier_eq_none.1 due).1 nofun
    | some u =>
      refine ⟨max u (now + 1), ctx, .sleeps waits idle due, ?_⟩
      rcases earlier_cases due with is | is
      · cases is
        rw [Nat.max_eq_left past]
        exact Nat.add_lt_add_of_le_of_lt (Context.looks_later seen t) fewer
      · have is : ctx.alarm outside now = some u := is
        obtain ⟨past, less⟩ := Context.looks_alarm seen is
        rw [Nat.max_eq_left past]
        exact Nat.add_lt_add_of_lt_of_le less (later u (le_of_lt past))

/-- One turn of closing: it is over, or it has not much longer to go. -/
theorem close_turn {outside : Option Interruption} {now : Nat} {ctx : Context} {c : Sidechannel}
    (calm : ∀ turns, (c.connection.sink.plan.shutdown turns).answer ≠ .crash) :
    let beside := Context.beside (fun p : Context × Sidechannel => p.1) (fun ctx p => (ctx, p.2)) outside
    let poll now (p : Context × Sidechannel) := (p.2.pollClose now).within (p.1, ·)
    (∃ v p, poll now (ctx, c) = .ready v p ∧ True) ∨
      ∃ now' p, Goes beside poll now (ctx, c) now' p ∧
        (∀ turns, (p.2.connection.sink.plan.shutdown turns).answer ≠ .crash) ∧
        p.1.looks outside now' + p.2.closingTurns now' <
          ctx.looks outside now + c.closingTurns now := by
  intro beside poll
  have step := c.pollClose_step now
  cases polled : c.pollClose now with
  | ready v c' =>
    refine .inl ⟨v, (ctx, c'), ?_, trivial⟩
    simp only [poll, polled]
    rfl
  | more c' =>
    rw [polled] at step
    cases step with
    | givesUp unlimited _ =>
      refine .inr ⟨now, (ctx, c.giveUp now), .more ?_, calm,
        Nat.add_lt_add_left (closingTurns_giveUp unlimited) _⟩
      simp only [poll, polled]
      rfl
  | waiting c' alarm =>
    obtain ⟨now', ctx', goes, less⟩ := @close_waits c c' outside now ctx alarm polled
    refine .inr ⟨now', (ctx', c'), goes, ?_, less⟩
    obtain ⟨_, s, _, _, _, shut, rfl, _⟩ := pollClose_waits polled
    have kept := (c.connection.sink.pollShutdown_step now).only.plan
    rw [shut] at kept
    have same : (c.setSink s).connection.sink.plan = c.connection.sink.plan := kept
    rw [same]
    exact calm
  | crashed c' =>
    rw [polled] at step
    cases step with
    | crashes _ _ _ _ shut =>
      cases shut with
      | crashes crash => exact absurd crash (calm _)

/-- Closing comes to its end, unless the stream crashes. -/
theorem close_returns (present : s.dropped = false)
    (calm : ∀ turns, (s.channel.connection.sink.plan.shutdown turns).answer ≠ .crash)
    (around : Surroundings) : ∃ reply s', s.perform .close around = some (reply, s') := by
  have enough : s.ctx.looks around.outside s.now + s.channel.closingTurns s.now <
      s.budget 0 + around.extra := by
    have looks : s.ctx.looks around.outside s.now ≤ 2 := by
      simp only [Context.looks]
      split
      · decide
      · split <;> decide
    have turns : s.channel.closingTurns s.now ≤ 4 := by
      simp only [closingTurns]
      split
      · decide
      · split
        · decide
        · split <;> decide
    simp only [budget]
    omega
  obtain ⟨t, v, ⟨ctx, c⟩, ran, _⟩ := run_finishes (s := (s.ctx, s.channel))
    (fun now (p : Context × Sidechannel) => p.1.looks around.outside now + p.2.closingTurns now)
    (I := fun _ p => ∀ turns, (p.2.connection.sink.plan.shutdown turns).answer ≠ .crash)
    (D := fun _ _ => True) (fun now p calm => close_turn calm) calm enough
  refine ⟨Session.answer (fun _ => .done) v c, { s with now := t, ctx, channel := c }, ?_⟩
  rw [perform_held present rfl]
  simp only [onChannel, drive, ran, ended]

/-- What stops because the context is cancelled says the reason that is recorded there. -/
def Tells (poll : Context → Nat → τ → Poll τ (Except SidechannelError α)) : Prop :=
  ∀ ctx now t t' r, poll ctx now t = .ready (.error (.cancelled r)) t' → ctx.signal = some r

theorem settled_cancelled {ctx : Context} {κ : Type} {k : κ} {p : Poll κ (Except IoError α)}
    {put : κ → τ} {t : τ} {r : CancelReason}
    (is : (ctx.guard k p).map Sidechannel.settle put = .ready (.error (.cancelled r)) t) :
    ctx.signal = some r := by
  cases told : ctx.signal with
  | some q =>
    rw [Context.guard_of_signal told] at is
    cases is
    rfl
  | none =>
    rw [Context.guard_of_silent told] at is
    cases p with
    | ready v k => cases v <;> cases is
    | _ => cases is

theorem tells_read (room : Nat) : Tells fun ctx now (c : Sidechannel) => c.pollRead ctx now room := by
  intro ctx now c c' r is
  simp only [pollRead] at is
  split at is
  · cases is
  · exact settled_cancelled is

theorem tells_write (bs : Bytes) : Tells fun ctx now (c : Sidechannel) => c.pollWrite ctx now bs := by
  intro ctx now c c' r is
  simp only [pollWrite] at is
  split at is
  · cases is
  · exact settled_cancelled is

theorem tells_writeAll :
    Tells fun ctx now (p : Bytes × Sidechannel) => p.2.pollWriteAll ctx now p.1 := by
  intro ctx now c c' r is
  simp only [pollWriteAll] at is
  split at is
  · cases is
  · exact settled_cancelled is

theorem tells_closeWrite : Tells fun ctx now (c : Sidechannel) => c.pollCloseWrite ctx now := by
  intro ctx now c c' r is
  have is : c.pollCloseWrite ctx now = .ready (.error (.cancelled r)) c' := is
  cases held : c.isOpen with
  | false => simp [pollCloseWrite, held] at is
  | true =>
    cases half : c.writeClosed with
    | true => simp [pollCloseWrite, held, half] at is
    | false =>
      have step := pollCloseWrite_step ctx now held half
      rw [is] at step
      cases step with
      | cancelled _ told => exact told

theorem drive_told {poll : Context → Nat → τ → Poll τ (Except SidechannelError α)}
    (ok : α → Reply) {r : CancelReason} (tells : Tells poll) (fine : ∀ a e, ok a ≠ .failed e)
    (coherent : s.ctx.Coherent)
    (driven : s.drive around count poll channel start (Session.answer ok) =
      some (.failed (.cancelled r), s')) : s'.ctx.reason = some r := by
  have keeps : Keeps poll fun _ ctx _ => s.ctx.Heeds ctx :=
    ⟨fun here _ => here, fun here _ => here, fun here heeds => here.trans heeds,
      fun here _ _ _ => here⟩
  obtain ⟨a, t, t', heeds, ready, is, _⟩ := drive_last keeps (.refl _) driven
  cases a with
  | ok a => exact absurd is.symm (fine a _)
  | error e =>
    cases is
    rw [← (heeds.coherent coherent).signal]
    exact tells _ _ _ _ _ ready

theorem perform_told {c : Command} {r : CancelReason} (transfers : c.transfers = true)
    (present : s.dropped = false) (coherent : s.ctx.Coherent)
    (performed : s.perform c around = some (.failed (.cancelled r), s')) :
    s'.ctx.reason = some r := by
  cases c with
  | read room =>
    rw [perform_held present rfl] at performed
    exact drive_told .octets (tells_read room) (fun _ _ => nofun) coherent performed
  | write bs =>
    rw [perform_held present rfl] at performed
    exact drive_told .wrote (tells_write bs) (fun _ _ => nofun) coherent performed
  | writeAll bs =>
    rw [perform_held present rfl] at performed
    exact drive_told (fun _ => .done) tells_writeAll (fun _ _ => nofun) coherent performed
  | closeWrite =>
    rw [perform_held present rfl] at performed
    exact drive_told (fun _ => .done) tells_closeWrite (fun _ _ => nofun) coherent performed
  | _ => cases transfers

theorem perform_refused {c : Command} {e : SidechannelError} (present : s.dropped = false)
    (refused : c.Refused e s.ctx s.now s.channel) (around : Surroundings) :
    s.perform c around = some (.failed e, s) := by
  cases c with
  | read _ | write _ | closeWrite =>
    rw [perform_held present rfl, onChannel, drive_at_once (a := Except.error e) (t := s.channel)]
    · rfl
    · exact refused
  | writeAll bs =>
    rw [perform_held present rfl, onChannel,
      drive_at_once (a := Except.error e) (t := (bs, s.channel))]
    · rfl
    · exact refused
  | _ => exact refused.elim

theorem perform_shut {c : Command} (present : s.dropped = false) (shut : s.channel.isOpen = false)
    (transfers : c.transfers = true) (around : Surroundings) :
    s.perform c around = some (.failed .closed, s) := by
  refine perform_refused present ?_ around
  cases c with
  | read room => simp only [Command.Refused, pollRead, shut, Bool.not_false, if_true]
  | write bs => simp only [Command.Refused, pollWrite, shut, Bool.not_false, Bool.true_or, if_true]
  | writeAll bs =>
    simp only [Command.Refused, pollWriteAll, shut, Bool.not_false, Bool.true_or, if_true]
  | closeWrite => simp only [Command.Refused, pollCloseWrite, shut, Bool.not_false, if_true]
  | _ => cases transfers

theorem close_shut (present : s.dropped = false) (shut : s.channel.isOpen = false)
    (unlimited : s.channel.closeLimit = none) (around : Surroundings) :
    s.perform .close around = some (.done, s) := by
  have halted : s.channel.pollClose s.now = .ready (.ok ()) s.channel := by
    simp only [pollClose, unlimited, shut, Bool.false_eq_true, if_false]
  rw [perform_held present rfl, onChannel, drive_at_once (a := Except.ok ()) (t := s.channel)]
  · rfl
  · exact halted

/-- Where the writing side was closed, there is no more to write, and nothing more to close there. -/
theorem perform_half (present : s.dropped = false) (held : s.channel.isOpen = true)
    (half : s.channel.writeClosed = true) (around : Surroundings) :
    (∀ bs, s.perform (.write bs) around = some (.failed .closed, s) ∧
      s.perform (.writeAll bs) around = some (.failed .closed, s)) ∧
    s.perform .closeWrite around = some (.done, s) := by
  refine ⟨fun bs => ⟨perform_refused present ?_ around, perform_refused present ?_ around⟩, ?_⟩
  · simp only [Command.Refused, pollWrite, half, Bool.or_true, if_true]
  · simp only [Command.Refused, pollWriteAll, half, Bool.or_true, if_true]
  · have halted : s.channel.pollCloseWrite s.ctx s.now = .ready (.ok ()) s.channel := by
      simp only [pollCloseWrite, held, half, Bool.not_true, Bool.false_eq_true, if_false, if_true]
    rw [perform_held present rfl, onChannel, drive_at_once (a := Except.ok ()) (t := s.channel)]
    · rfl
    · exact halted

/-- Where the context is cancelled, the stream is not touched. -/
theorem perform_cancelled {c : Command} {r : CancelReason} (present : s.dropped = false)
    (held : s.channel.isOpen = true) (told : s.ctx.signal = some r) (transfers : c.transfers = true)
    (usable : (∃ room, c = .read room) ∨ s.channel.writeClosed = false) (around : Surroundings) :
    s.perform c around = some (.failed (.cancelled r), s) := by
  refine perform_refused present ?_ around
  have unclosed : (∀ room, c ≠ .read room) → s.channel.writeClosed = false := fun other =>
    usable.resolve_left fun ⟨room, is⟩ => other room is
  cases c with
  | read room =>
    simp only [Command.Refused, pollRead, held, Bool.not_true, Bool.false_eq_true, if_false,
      Context.guard_of_signal told]
    rfl
  | write bs =>
    simp only [Command.Refused, pollWrite, held, unclosed nofun, Bool.not_true, Bool.or_self,
      Bool.false_eq_true, if_false, Context.guard_of_signal told]
    rfl
  | writeAll bs =>
    simp only [Command.Refused, pollWriteAll, held, unclosed nofun, Bool.not_true, Bool.or_self,
      Bool.false_eq_true, if_false, Context.guard_of_signal told]
    rfl
  | closeWrite =>
    simp only [Command.Refused, pollCloseWrite, held, unclosed nofun, Bool.not_true,
      Bool.false_eq_true, if_false, Context.guard_of_signal told]
    rfl
  | _ => cases transfers

/-- The same session, but for whether its writing side was closed. -/
def flagged (b : Bool) (s : Session) : Session := { s with channel := s.channel.flag b }

/-- Reading goes on as if the writing side had not been closed. -/
theorem read_flagged (b : Bool) (room : Nat) (s : Session) (around : Surroundings) :
    (s.flagged b).perform (.read room) around =
      (s.perform (.read room) around).map fun (r, s') => (r, s'.flagged b) := by
  cases present : s.dropped with
  | true => simp [perform, flagged, present]
  | false =>
    let view (p : Context × Sidechannel) : Context × Sidechannel := (p.1, p.2.flag b)
    let beside := Context.beside (fun p : Context × Sidechannel => p.1) (fun ctx p => (ctx, p.2))
      around.outside
    let poll (now : Nat) (p : Context × Sidechannel) := (p.2.pollRead p.1 now room).within (p.1, ·)
    have acts : ∀ now p, (beside.act now p).map view = beside.act now (view p) := by
      intro now p
      simp only [beside, Context.beside, Option.map_map]
      rfl
    have polls : ∀ now p, (poll now p).map (fun v => v) view = poll now (view p) := by
      intro now p
      simp only [poll, view, pollRead_flag]
      cases p.2.pollRead p.1 now room <;> rfl
    have same := run_view view acts (fun _ _ => rfl) polls (s.budget 0 + around.extra) s.now
      (s.ctx, s.channel)
    rw [perform_held present rfl, perform_held (s := s.flagged b) present rfl]
    simp only [onChannel, drive]
    have budget_same : (s.flagged b).budget 0 = s.budget 0 := rfl
    rw [budget_same]
    have whole := congrArg ((s.flagged b).ended (fun c => c) (answer .octets)) same
    refine whole.symm.trans ?_
    cases run beside poll (s.budget 0 + around.extra) s.now (s.ctx, s.channel) with
    | finished time a p => cases a <;> rfl
    | _ => rfl

end Session

end Sidechannel
end PackRelay
