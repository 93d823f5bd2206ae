import PackRelay.Proofs.Exchange.Conformance
import PackRelay.Proofs.Sidechannel.Count

/-! How an exchange lets go of what it holds. Whatever its backend is, and whether it comes to its
end or crashes, its sidechannel was given up exactly once by then, its context has the one reason
that was recorded first, and so nobody watches it any more. On the wire every connection that was
dialed is dropped, and none becomes a sidechannel without its hello. -/
namespace PackRelay

/-- A run that is over, with a value or in a crash. -/
inductive Run.Exits {σ α : Type} : Run σ α → Prop
  | finished (t : Nat) (a : α) (x : σ) : Exits (.finished t a x)
  | crashed (t : Nat) (x : σ) : Exits (.crashed t x)

instance {σ α : Type} : (r : Run σ α) → Decidable r.Exits
  | .finished t a x => isTrue (.finished t a x)
  | .crashed t x => isTrue (.crashed t x)
  | .stuck _ _ | .unfinished _ _ => isFalse fun is_over => nomatch is_over

/-- What an exchange relies on of its backend, as long as the backend's own state is as it keeps
it: a context is at most cancelled, and a channel that is handed out was counted. -/
structure Backend.Honest {κ : Type} (b : Backend κ) (inv : κ → Prop) : Prop where
  start : ∀ now p, inv p.2 → inv (b.start now p).state.2 ∧ p.1.Heeds (b.start now p).state.1
  dial : ∀ now p, inv p.2 → inv (b.dial now p).state.2 ∧ p.1.Heeds (b.dial now p).state.1
  counted : ∀ now p c q, inv p.2 → b.dial now p = .ready (.ok c) q → c.Counted
  reply : ∀ now k, inv k → inv (b.reply now k).state
  release : ∀ k, inv k → inv (b.release k)

namespace Exchange

variable {κ : Type} {b : Backend κ} {inv : κ → Prop} {x x' x'' y : Exchange κ} {now n m : Nat}
  {turns : Nat → Exchange κ → Turns} {gone : Option Nat}

structure Held (inv : κ → Prop) (x : Exchange κ) : Prop where
  backend : inv x.backend
  coherent : x.ctx.Coherent
  channel : ∀ c, x.channel = some c → c.Counted

/-- A later state: its context still says what it said, and a channel is not forgotten. -/
structure After (x x' : Exchange κ) : Prop where
  ctx : x.ctx.Heeds x'.ctx
  channel : x'.channel = none → x.channel = none

/-- What an exchange that let go of everything is. -/
structure LetGo (b : Backend κ) (inv : κ → Prop) (x : Exchange κ) : Prop where
  backend : ∃ k, inv k ∧ x.backend = b.release k
  channel : ∀ c, x.channel = some c →
    c.isOpen = false ∧ c.closeCount = 1 ∧ c.connection.sink.released = true
  reason : ∃ r, x.ctx.reason = some r
  unwatched : ∀ outside t, x.ctx.watch outside t = none ∧ x.ctx.alarm outside t = none

theorem After.refl (x : Exchange κ) : After x x := ⟨.refl _, id⟩

theorem After.trans (one : After x x') (two : After x' x'') : After x x'' :=
  ⟨one.ctx.trans two.ctx, fun unheld => one.channel (two.channel unheld)⟩

/-- What every step keeps, and how it goes on. -/
def Keeps (inv : κ → Prop) (x x' : Exchange κ) : Prop := Held inv x' ∧ After x x'

theorem Keeps.trans (one : Keeps inv x x') (two : Keeps inv x' x'') : Keeps inv x x'' :=
  ⟨two.1, one.2.trans two.2⟩

theorem Held.keeps (held : Held inv x) : Keeps inv x x := ⟨held, .refl x⟩

/-- Only the context and the backend moved on. -/
theorem Held.moves {p : Context × κ} (held : Held inv x) (kept : inv p.2) (heeds : x.ctx.Heeds p.1)
    (ctx : x'.ctx = p.1) (backend : x'.backend = p.2) (channel : x'.channel = x.channel) :
    Keeps inv x x' := by
  refine ⟨⟨backend ▸ kept, ctx ▸ heeds.coherent held.coherent, channel ▸ held.channel⟩,
    ctx ▸ heeds, fun unheld => channel ▸ unheld⟩

theorem Held.release (held : Held inv x) (honest : b.Honest inv) : Keeps inv x (x.release b) := by
  refine ⟨⟨honest.release _ held.backend, .cancel _ _, fun c there => ?_⟩, .cancel _ _,
    fun unheld => Option.map_eq_none_iff.1 unheld⟩
  obtain ⟨c₀, there₀, rfl⟩ := Option.map_eq_some_iff.1 there
  obtain ⟨closed, once, _⟩ := (held.channel c₀ there₀).drop
  simp [Sidechannel.Counted, closed, once]

theorem Held.letGo (held : Held inv x) : LetGo b inv (x.release b) where
  backend := ⟨x.backend, held.backend, rfl⟩
  channel c there := by
    obtain ⟨c₀, there₀, rfl⟩ := Option.map_eq_some_iff.1 there
    exact (held.channel c₀ there₀).drop
  reason := by
    cases reason : x.ctx.reason with
    | none => exact ⟨.done, by simp [Exchange.release, Exchange.cancel, reason]⟩
    | some r => exact ⟨r, by simp [Exchange.release, Exchange.cancel, reason]⟩
  unwatched outside t := by
    simp [Exchange.release, Exchange.cancel, Context.watch, Context.alarm]

/-- All that one step can come to: it keeps what is held, and if it is the last one it lets go. -/
structure StepKeeps (b : Backend κ) (inv : κ → Prop) (x : Exchange κ)
    (p : Poll (Exchange κ) Report) : Prop where
  keeps : Keeps inv x p.state
  last : ∀ a x', p = .ready a x' → LetGo b inv x'

theorem StepKeeps.of_conclude (honest : b.Honest inv) (kept : Keeps inv x y) :
    StepKeeps b inv x (y.conclude b) where
  keeps := kept.trans (kept.1.release honest)
  last := by
    rintro a x' ⟨⟩
    exact kept.1.letGo

theorem StepKeeps.of_going {p : Poll (Exchange κ) Report} (kept : Keeps inv x p.state)
    (ongoing : ∀ a x', p ≠ .ready a x') : StepKeeps b inv x p :=
  ⟨kept, fun a x' is => absurd is (ongoing a x')⟩

theorem pollStart_keeps (honest : b.Honest inv) (held : Held inv x) (now : Nat) :
    StepKeeps b inv x (x.pollStart b now) := by
  obtain ⟨kept, heeds⟩ := honest.start now (x.ctx, x.backend) held.backend
  unfold pollStart
  generalize b.start now (x.ctx, x.backend) = p at kept heeds ⊢
  cases p with
  | ready value q =>
    cases value with
    | ok _ => exact .of_going (held.moves kept heeds rfl rfl rfl) fun _ _ is => nomatch is
    | error e => exact .of_conclude honest (held.moves kept heeds rfl rfl rfl)
  | _ => exact .of_going (held.moves kept heeds rfl rfl rfl) fun _ _ is => nomatch is

theorem pollOpen_keeps (honest : b.Honest inv) (held : Held inv x) (now : Nat) :
    StepKeeps b inv x (x.pollOpen b now) := by
  obtain ⟨kept, heeds⟩ := honest.dial now (x.ctx, x.backend) held.backend
  have counted := honest.counted now (x.ctx, x.backend)
  unfold pollOpen
  generalize b.dial now (x.ctx, x.backend) = p at kept heeds counted ⊢
  cases p with
  | ready value q =>
    cases value with
    | ok c =>
      have counted := counted c q held.backend rfl
      have opened : ∀ x', x'.ctx = q.1 → x'.backend = q.2 → x'.channel = some c →
          Keeps inv x x' := by
        intro x' ctx backend channel
        refine ⟨⟨backend ▸ kept, ctx ▸ heeds.coherent held.coherent, fun c' there => ?_⟩,
          ctx ▸ heeds, fun unheld => ?_⟩
        · cases channel.symm.trans there
          exact counted
        · cases channel.symm.trans unheld
      simp only [Poll.into_ready]
      split
      · exact .of_going (opened _ rfl rfl rfl) fun _ _ is => nomatch is
      · exact .of_conclude honest (opened _ rfl rfl rfl)
    | error e => exact .of_conclude honest (held.moves kept heeds rfl rfl rfl)
  | _ => exact .of_going (held.moves kept heeds rfl rfl rfl) fun _ _ is => nomatch is

/-- Only the channel was used, and perhaps the context cancelled. -/
theorem Held.uses {c c' : Sidechannel} (held : Held inv x) (channel : x.channel = some c)
    (alike : c.Alike c') (heeds : x.ctx.Heeds x'.ctx) (backend : x'.backend = x.backend)
    (used : x'.channel = some c') : Keeps inv x x' := by
  refine ⟨⟨backend ▸ held.backend, heeds.coherent held.coherent, fun d there => ?_⟩, heeds,
    fun unheld => ?_⟩
  · cases used.symm.trans there
    exact (held.channel c channel).of_alike alike
  · cases used.symm.trans unheld

theorem inbound_keeps (held : Held inv x) (now : Nat) :
    Keeps inv x (pollParticipant b now .inbound x).state := by
  simp only [pollParticipant, onChannel]
  cases channel : x.channel with
  | none => exact held.keeps
  | some c =>
    simp only [pollInbound]
    split
    · exact held.keeps
    · have alike := x.inbound.poll_alike x.ctx now c
      generalize x.inbound.poll x.ctx now c = step at alike ⊢
      cases step with
      | ready r q =>
        cases ok : r.isOk <;> simp only [Poll.into_ready, ok]
        · exact held.uses channel alike (.cancel _ _) rfl rfl
        · exact held.uses channel alike (.refl _) rfl rfl
      | _ => exact held.uses channel alike (.refl _) rfl rfl

theorem outbound_keeps (held : Held inv x) (now : Nat) :
    Keeps inv x (pollParticipant b now .outbound x).state := by
  simp only [pollParticipant, onChannel]
  cases channel : x.channel with
  | none => exact held.keeps
  | some c =>
    simp only [pollOutbound]
    split
    · exact held.keeps
    · have alike := x.outbound.poll_alike x.ctx now c
      generalize x.outbound.poll x.ctx now c = step at alike ⊢
      cases step with
      | ready r q =>
        cases ok : r.isOk <;> simp only [Poll.into_ready, ok]
        · exact held.uses channel alike (.cancel _ _) rfl rfl
        · exact held.uses channel alike (.refl _) rfl rfl
      | _ => exact held.uses channel alike (.refl _) rfl rfl

theorem reply_keeps (honest : b.Honest inv) (held : Held inv x) (now : Nat) :
    Keeps inv x (pollParticipant b now .reply x).state := by
  simp only [pollParticipant, pollReply]
  split
  · exact held.keeps
  · have kept : inv (x.ctx.guard x.backend (b.reply now x.backend)).state :=
      x.ctx.guard_state held.backend (honest.reply now x.backend held.backend)
    generalize x.ctx.guard x.backend (b.reply now x.backend) = step at kept ⊢
    cases step with
    | ready r k =>
      have released := honest.release k kept
      cases ok : (replied r).isOk <;> simp only [Poll.into_ready, ok]
      · exact held.moves (p := (x.ctx.cancel .done, b.release k)) released (.cancel _ _) rfl rfl rfl
      · exact held.moves (p := (x.ctx, b.release k)) released (.refl _) rfl rfl rfl
    | more k | waiting k alarm | crashed k =>
      exact held.moves (p := (x.ctx, k)) kept (.refl _) rfl rfl rfl

theorem participant_keeps (honest : b.Honest inv) (held : Held inv x) (p : Participant)
    (now : Nat) : Keeps inv x (pollParticipant b now p x).state := by
  cases p with
  | inbound => exact inbound_keeps held now
  | outbound => exact outbound_keeps held now
  | reply => exact reply_keeps honest held now

theorem pollRelaying_keeps (honest : b.Honest inv) (held : Held inv x) (turns : Turns) (now : Nat) :
    StepKeeps b inv x (x.pollRelaying b turns now) := by
  have kept : Keeps inv x (x.pollParticipants b turns now).state := by
    refine Poll.all_state (I := Keeps inv x) ?_ held.keeps
    exact List.forall_mem_map.2 fun p _ y kept => kept.trans (participant_keeps honest kept.1 p now)
  unfold pollRelaying
  generalize x.pollParticipants b turns now = step at kept ⊢
  cases step with
  | ready _ y =>
    have closing : Keeps inv y { y with phase := .closing } :=
      kept.1.moves (p := (y.ctx, y.backend)) kept.1.backend (.refl _) rfl rfl rfl
    exact .of_going (kept.trans closing) fun _ _ is => nomatch is
  | _ => exact .of_going kept fun _ _ is => nomatch is

theorem pollClosing_keeps (honest : b.Honest inv) (held : Held inv x) (now : Nat) :
    StepKeeps b inv x (x.pollClosing b now) := by
  unfold pollClosing
  cases channel : x.channel with
  | none => exact .of_conclude honest held.keeps
  | some c =>
    have counted := (c.pollClose_step now).counted (held.channel c channel)
    have used : ∀ c' : Sidechannel, c'.Counted → Keeps inv x (x.setChannel c') := by
      refine fun c' counted => ⟨⟨held.backend, held.coherent, ?_⟩, .refl _, fun is => nomatch is⟩
      rintro d ⟨⟩
      exact counted
    simp only
    generalize c.pollClose now = step at counted ⊢
    cases step with
    | ready v c' => exact .of_conclude honest (used c' counted)
    | more c' | waiting c' alarm | crashed c' =>
      exact .of_going (used c' counted) fun _ _ is => nomatch is

theorem poll_keeps (honest : b.Honest inv) (held : Held inv x) (turns : Turns) (now : Nat) :
    StepKeeps b inv x (x.poll b turns now) := by
  unfold poll
  split
  · exact pollStart_keeps honest held now
  · exact pollOpen_keeps honest held now
  · exact pollRelaying_keeps honest held turns now
  · exact pollClosing_keeps honest held now

theorem act_keeps (held : Held inv x) (act : (beside gone).act now x = some x') :
    Keeps inv x x' := by
  obtain ⟨ctx, seen, rfl⟩ := Option.map_eq_some_iff.1 act
  exact held.moves (p := (ctx, x.backend)) held.backend (.watch seen) rfl rfl rfl

theorem next_keeps (honest : b.Honest inv) (held : Held inv x) (turns : Turns) (gone : Option Nat)
    (now : Nat) : StepKeeps b inv x (x.next b turns gone now) := by
  rcases next_cases b turns gone now x with ⟨x', act, step⟩ | step <;> rw [step]
  · exact .of_going (act_keeps held act) fun _ _ is => nomatch is
  · exact poll_keeps honest held turns now

theorem run_keeps_after (turns : Nat → Exchange κ → Turns) (gone : Option Nat) (now : Nat)
    (honest : b.Honest inv) (held : Held inv x) (le : m ≤ n) :
    Held inv (run (beside gone) (fun now x => x.next b (turns now x) gone now) m now x).state ∧
      After (run (beside gone) (fun now x => x.next b (turns now x) gone now) m now x).state
        (run (beside gone) (fun now x => x.next b (turns now x) gone now) n now x).state :=
  run_onward (I := Held inv) (R := After) After.refl After.trans
    (fun now x held => (next_keeps honest held (turns now x) gone now).keeps)
    (fun _ _ _ held act => act_keeps held act) held le

/-- An exchange goes on from each of its moments to every later one. -/
theorem handle_after (honest : b.Honest inv) (held : Held inv x) (le : m ≤ n) :
    After (x.handle b turns gone m now).state (x.handle b turns gone n now).state := by
  have onward := (run_keeps_after turns gone now honest held le).2
  have kept := (run_keeps_after turns gone now honest held (le_refl n)).1
  obtain ⟨d, rfl⟩ := Nat.exists_eq_add_of_le le
  unfold handle
  cases here : run (beside gone) (fun now x => x.next b (turns now x) gone now) m now x with
  | crashed t y =>
    rw [run_over here (fun _ _ is => nomatch is) d]
    exact .refl _
  | _ =>
    rw [here] at onward
    refine onward.trans ?_
    cases there : run (beside gone) (fun now x => x.next b (turns now x) gone now) (m + d) now x with
    | crashed t y =>
      rw [there] at kept
      exact (kept.release honest).2
    | _ => exact .refl _

/-- However an exchange is over, it has let go. -/
theorem handle_letGo (honest : b.Honest inv) (held : Held inv x)
    (is_over : (x.handle b turns gone n now).Exits) :
    LetGo b inv (x.handle b turns gone n now).state := by
  unfold handle at is_over ⊢
  cases concluded : run (beside gone) (fun now x => x.next b (turns now x) gone now) n now x with
  | finished t a y =>
    obtain ⟨k, t', y', reached, last⟩ := run_last concluded fun _ _ is => nomatch is
    have kept := (run_keeps_after turns gone now honest held (le_refl k)).1
    rw [reached] at kept
    cases last with
    | finished step => exact (next_keeps honest kept (turns t y') gone t).last a y step
  | crashed t y =>
    have kept := (run_keeps_after turns gone now honest held (le_refl n)).1
    rw [concluded] at kept
    exact kept.letGo
  | stuck t y | unfinished t y =>
    rw [concluded] at is_over
    cases is_over

end Exchange

/-- A connection of the call that was dropped is released. -/
def CallLine.Tidy (l : CallLine) : Prop := ∀ k, l = .dropped (some k) → k.sink.released = true

/-- So is a connection of the sidechannel that was dropped before it became one. -/
def ChannelLine.Tidy (l : ChannelLine) : Prop :=
  ∀ k, l = .dropped (some k) → k.sink.released = true

theorem CallLine.Tidy.released {l : CallLine} (tidy : l.Tidy) :
    ∀ k, l.drop.connection? = some k → k.sink.released = true := by
  intro k there
  cases l with
  | opening o =>
    obtain ⟨k₀, _, rfl⟩ := Option.map_eq_some_iff.1 there
    rfl
  | listening r c =>
    cases there
    rfl
  | dropped c =>
    cases there
    exact tidy k rfl

theorem ChannelLine.Tidy.released {l : ChannelLine} (tidy : l.Tidy) :
    ∀ k, l.drop.connection? = some k → k.sink.released = true := by
  intro k there
  cases l with
  | opening o =>
    obtain ⟨k₀, _, rfl⟩ := Option.map_eq_some_iff.1 there
    rfl
  | handedOut => cases there
  | dropped c =>
    cases there
    exact tidy k rfl

theorem CallLine.Tidy.drop {l : CallLine} (tidy : l.Tidy) : l.drop.Tidy :=
  fun k is => tidy.released k (by rw [is]; rfl)

theorem ChannelLine.Tidy.drop {l : ChannelLine} (tidy : l.Tidy) : l.drop.Tidy :=
  fun k is => tidy.released k (by rw [is]; rfl)

theorem CallLine.tidy_opening (o : Opening) : (CallLine.opening o).Tidy := fun _ is => nomatch is

theorem CallLine.tidy_listening (r : Wire.Reading) (k : Connection) :
    (CallLine.listening r k).Tidy := fun _ is => nomatch is

theorem ChannelLine.tidy_opening (o : Opening) : (ChannelLine.opening o).Tidy :=
  fun _ is => nomatch is

theorem ChannelLine.tidy_handedOut : ChannelLine.handedOut.Tidy := fun _ is => nomatch is

theorem Opening.heeds (d : Destination) (now : Nat) (ctx : Context) (o : Opening) :
    ctx.Heeds (o.poll d now ctx).state.1 := by
  rcases (o.poll_step d now ctx).context with same | same
  · rw [same]
    exact .refl ctx
  · rw [same]
    exact .check now ctx

namespace WiredBackend

structure Tidy (b : WiredBackend) : Prop where
  call : b.call.Tidy
  channel : b.channel.Tidy

variable {b : WiredBackend}

theorem Tidy.start (tidy : b.Tidy) (now : Nat) (ctx : Context) :
    (pollStart now (ctx, b)).state.2.Tidy ∧ ctx.Heeds (pollStart now (ctx, b)).state.1 := by
  simp only [pollStart]
  cases call : b.call with
  | opening o =>
    have heeds := Opening.heeds b.callDestination now ctx o
    simp only
    generalize o.poll b.callDestination now ctx = p at heeds ⊢
    cases p with
    | ready value q =>
      cases value with
      | error e => exact ⟨⟨(CallLine.tidy_opening q.2).drop, tidy.channel⟩, heeds⟩
      | ok c => exact ⟨⟨CallLine.tidy_listening _ c, tidy.channel⟩, heeds⟩
    | more q | waiting q alarm | crashed q =>
      exact ⟨⟨CallLine.tidy_opening q.2, tidy.channel⟩, heeds⟩
  | listening r c => exact ⟨tidy, .refl ctx⟩
  | dropped c => exact ⟨tidy, .refl ctx⟩

theorem Tidy.opening (tidy : b.Tidy) (now : Nat) (ctx : Context) (o : Opening) :
    (pollOpening now o ctx b).state.2.Tidy ∧ ctx.Heeds (pollOpening now o ctx b).state.1 := by
  have heeds := Opening.heeds b.channelDestination now ctx o
  simp only [pollOpening]
  generalize o.poll b.channelDestination now ctx = p at heeds ⊢
  cases p with
  | ready value q =>
    cases value with
    | error e => exact ⟨⟨tidy.call, (ChannelLine.tidy_opening q.2).drop⟩, heeds⟩
    | ok c => exact ⟨⟨tidy.call, ChannelLine.tidy_handedOut⟩, heeds⟩
  | more q | waiting q alarm | crashed q =>
    exact ⟨⟨tidy.call, ChannelLine.tidy_opening q.2⟩, heeds⟩

theorem Tidy.dial (tidy : b.Tidy) (now : Nat) (ctx : Context) :
    (pollDial now (ctx, b)).state.2.Tidy ∧ ctx.Heeds (pollDial now (ctx, b)).state.1 := by
  cases channel : b.channel with
  | opening o =>
    rcases Exchange.pollDial_cases channel now ctx with same | ⟨r, ctx', _, _, checked, same⟩
    · rw [same]
      exact tidy.opening now ctx o
    · rw [same]
      refine ⟨⟨tidy.call, fun _ is => nomatch is⟩, ?_⟩
      have heeds := Context.Heeds.check now ctx
      rwa [checked] at heeds
  | handedOut | dropped c =>
    simp only [pollDial, channel]
    exact ⟨tidy, .refl ctx⟩

theorem pollOpening_counted {c : Sidechannel} {q : Context × WiredBackend} {now : Nat}
    {o : Opening} {ctx : Context} (handed : pollOpening now o ctx b = .ready (.ok c) q) :
    c.Counted := by
  simp only [pollOpening] at handed
  generalize o.poll b.channelDestination now ctx = p at handed
  cases p with
  | ready value q' =>
    cases value with
    | error e => cases handed
    | ok k =>
      cases handed
      rfl
  | _ => cases handed

theorem pollDial_counted {c : Sidechannel} {q : Context × WiredBackend} {now : Nat} {ctx : Context}
    (handed : pollDial now (ctx, b) = .ready (.ok c) q) : c.Counted := by
  cases channel : b.channel with
  | opening o =>
    rcases Exchange.pollDial_cases channel now ctx with same | ⟨r, ctx', _, _, _, same⟩
    · exact pollOpening_counted (same ▸ handed)
    · rw [same] at handed
      cases handed
  | handedOut | dropped k =>
    simp only [pollDial, channel] at handed
    cases handed

theorem Tidy.reply (tidy : b.Tidy) (now : Nat) : (pollReply now b).state.Tidy := by
  unfold pollReply
  split
  · cases Wire.Reading.poll Wire.CallReply.decode now _ _ <;>
      exact ⟨fun _ is => (nomatch is), tidy.channel⟩
  · exact tidy

/-- A backend on the wire is one that an exchange may rely on. -/
theorem honest : backend.Honest Tidy where
  start now p tidy := Tidy.start tidy now p.1
  dial now p tidy := Tidy.dial tidy now p.1
  counted _ _ _ _ _ handed := pollDial_counted handed
  reply now _ tidy := tidy.reply now
  release _ tidy := ⟨tidy.call.drop, tidy.channel.drop⟩

end WiredBackend

namespace Scene

open Exchange
open WiredBackend renaming backend → wired

/-- All of the sidechannel's hello was written, and flushed. -/
def Greets (s : Scene) (k : Connection) : Prop :=
  ∃ hello, Wire.frame (Wire.Hello.sidechannel s.id).encode = .ok hello ∧
    hello <+: k.sink.written ∧ 0 < k.sink.flushes

/-- What has become by its end of all that an exchange ever held. -/
structure Frees (s : Scene) (n : Nat) : Prop where
  letGo : LetGo wired WiredBackend.Tidy (s.after n).state
  after : ∀ m ≤ n, After (s.after m).state (s.after n).state
  call : ∀ m ≤ n, ∀ k, (s.after m).state.backend.call.connection? = some k →
    ∃ k', (s.after n).state.backend.call.connection? = some k' ∧ k'.sink.released = true
  channel : ∀ m ≤ n, ∀ k, (s.after m).state.channelConnection? = some k →
    ∃ k', (s.after n).state.channelConnection? = some k' ∧ k'.sink.released = true
  greeted : ∀ m ≤ n, ∀ c, (s.after m).state.channel = some c → s.Greets c.connection
  unopened : (s.after n).state.results.dial ≠ none → ∀ m ≤ n, (s.after m).state.channel = none

variable {s : Scene} {n m now t : Nat} {x x' y : Exchange WiredBackend} {c c' : Sidechannel}

theorem Greets.onward {k k' : Connection} (greets : s.Greets k) (onward : k.sink.Onward k'.sink) :
    s.Greets k' := by
  obtain ⟨hello, framed, written, flushed⟩ := greets
  exact ⟨hello, framed, written.trans onward.written, Nat.lt_of_lt_of_le flushed onward.flushes⟩

theorem greets_later (later : Later x x') (channel : x.channel = some c)
    (greets : s.Greets c.connection) : ∀ c', x'.channel = some c' → s.Greets c'.connection := by
  intro c' channel'
  obtain ⟨k, there, onward⟩ :=
    later.channel c.connection (by simp only [channelConnection?, channel])
  simp only [channelConnection?, channel', Option.some.injEq] at there
  subst there
  exact greets.onward onward

theorem held_exchange (s : Scene) : Held WiredBackend.Tidy s.exchange :=
  ⟨⟨CallLine.tidy_opening _, ChannelLine.tidy_opening _⟩, rfl, fun _ is => nomatch is⟩

/-- A sidechannel that is there was greeted. -/
def Greeted (s : Scene) (x : Exchange WiredBackend) : Prop :=
  ∀ c, x.channel = some c → s.Greets c.connection

theorem greeted_of_unopened (unopened : x.channel = none) : s.Greeted x := by
  intro c channel
  cases unopened.symm.trans channel

theorem Sound.greeted (sound : s.Sound now x) (greeted : s.Greeted x)
    (ongoing : ∀ a x', s.poll now x ≠ .ready a x') : s.Greeted (s.poll now x).state := by
  have later := sound.later ongoing
  simp only [Scene.poll] at ongoing later ⊢
  cases sound.stands with
  | starting o phase call opens channel untouched =>
    obtain ⟨p, step, same⟩ := poll_starting phase call (s.turns now x) now
    rw [same] at ongoing ⊢
    cases p with
    | ready value q =>
      cases value with
      | error e => exact absurd rfl (ongoing _ _)
      | ok k => exact greeted_of_unopened untouched.channel
    | _ => exact greeted_of_unopened untouched.channel
  | opening k o phase call _ channel opens untouched =>
    obtain ⟨p, step, same⟩ := poll_opening phase channel (s.turns now x) now
    rw [sound.destinations.2] at step
    rw [same] at ongoing ⊢
    cases p with
    | ready value q =>
      cases value with
      | error e => exact absurd rfl (ongoing _ _)
      | ok k' =>
        rintro c ⟨⟩
        have framed := (greeted_written (l := s.channelListener) rfl (step.greeted opens)).1
        exact ⟨k'.sink.written, framed, List.prefix_rfl, step.flushed⟩
    | _ => exact greeted_of_unopened untouched.channel
  | relaying c phase relays is_open unlimited =>
    exact greets_later later relays.channel (greeted c relays.channel)
  | closing c phase relays inbound outbound reply held =>
    exact greets_later later relays.channel (greeted c relays.channel)

theorem greeted_invariant (s : Scene) : s.Invariant s.Greeted :=
  ⟨greeted_of_unopened rfl, fun _ _ => Sound.greeted, fun _ _ greeted => greeted⟩

theorem Greeted.later (greeted : s.Greeted x) (later : Later x x')
    (unopened : x.channel = none → x'.channel = none) : s.Greeted x' := by
  cases channel : x.channel with
  | none => exact greeted_of_unopened (unopened channel)
  | some c => exact greets_later later channel (greeted c channel)

theorem Ending.greeted (ending : s.Ending now x y) (greeted : s.Greeted x) : s.Greeted y := by
  have later := ending.later
  cases ending with
  | start _ _ _ _ untouched _ _ _ | dial _ _ _ _ untouched _ _ _ =>
    exact greeted_of_unopened untouched.channel
  | close c c' v phase relays _ _ _ step =>
    exact greets_later later relays.channel (greeted c relays.channel)

theorem greeted_release (greeted : s.Greeted x) : s.Greeted (x.release wired) :=
  greeted.later (later_release x) fun unheld => by rw [Exchange.release, unheld]; rfl

theorem greeted_after (s : Scene) (n : Nat) : s.Greeted (s.after n).state :=
  s.greeted_invariant.after (fun _ _ _ greeted => greeted)
    (fun _ _ _ _ greeted ending => ending.greeted greeted) (fun _ => greeted_release) n

theorem Ending.unopened (sound : s.Sound now x) (ending : s.Ending now x y)
    (failed : y.results.dial ≠ none) : y.channel = none := by
  cases ending with
  | start _ _ _ _ untouched _ _ _ => exact untouched.channel
  | dial _ _ _ _ untouched _ _ _ => exact untouched.channel
  | close c c' v phase relays _ _ _ step => exact absurd sound.account.dial failed

/-- A sidechannel that could not be opened is none. -/
theorem unopened_after (s : Scene) (n : Nat) :
    (s.after n).state.results.dial ≠ none → (s.after n).state.channel = none :=
  (Invariant.trivial s).after (P := fun x => x.results.dial ≠ none → x.channel = none)
    (fun _ _ sound _ failed => absurd sound.account.dial failed)
    (fun _ _ _ sound _ ending => ending.unopened sound)
    (fun _ unopened failed => Option.map_eq_none_iff.2 (unopened failed)) n

theorem LetGo.released (letGo : LetGo wired WiredBackend.Tidy x) :
    (∀ k, x.backend.call.connection? = some k → k.sink.released = true) ∧
      ∀ k, x.channelConnection? = some k → k.sink.released = true := by
  obtain ⟨b, tidy, same⟩ := letGo.backend
  constructor
  · rw [same]
    exact tidy.call.released
  · intro k there
    cases channel : x.channel with
    | some c =>
      simp only [channelConnection?, channel, Option.some.injEq] at there
      subst there
      exact (letGo.channel c channel).2.2
    | none =>
      simp only [channelConnection?, channel, same] at there
      exact tidy.channel.released k there

theorem frees (is_over : (s.after n).Exits) : s.Frees n := by
  have letGo : LetGo wired WiredBackend.Tidy (s.after n).state :=
    handle_letGo WiredBackend.honest s.held_exchange is_over
  obtain ⟨call, channel⟩ := LetGo.released letGo
  have after : ∀ m ≤ n, After (s.after m).state (s.after n).state := fun m le =>
    handle_after WiredBackend.honest s.held_exchange le
  refine ⟨letGo, after, fun m le k there => ?_, fun m le k there => ?_,
    fun m _ => s.greeted_after m,
    fun failed m le => (after m le).channel (s.unopened_after n failed)⟩
  · obtain ⟨k', there', _⟩ := (s.later_after le).call k there
    exact ⟨k', there', call k' there'⟩
  · obtain ⟨k', there', _⟩ := (s.later_after le).channel k there
    exact ⟨k', there', channel k' there'⟩

/-- However an exchange is over, by its end or by a crash, it has let go of all that it held: of a
sidechannel exactly once, and of its context by the one reason that was recorded first. That holds
with any backend that it may rely on; on the wire every connection that was dialed is dropped, and
one whose hello was not sent never became a sidechannel. -/
theorem lets_go_once :
    (∀ (κ : Type) (b : Backend κ) (inv : κ → Prop) (turns : Nat → Exchange κ → Turns)
      (gone : Option Nat) (n now : Nat) (x : Exchange κ), b.Honest inv → Held inv x →
      (x.handle b turns gone n now).Exits →
        LetGo b inv (x.handle b turns gone n now).state ∧
          ∀ m ≤ n, After (x.handle b turns gone m now).state (x.handle b turns gone n now).state) ∧
    ∀ (s : Scene) (n : Nat), (s.after n).Exits → s.Frees n :=
  ⟨fun _ _ _ _ _ _ _ _ honest held is_over =>
    ⟨handle_letGo honest held is_over, fun _ le => handle_after honest held le⟩, fun _ _ => frees⟩

/-- Reading the body crashes while its sidechannel is open. -/
def crashing : Scene := { brief with body := [.data [7, 8], .crash] }

theorem lets_go_crashing : (∃ c, (crashing.after 10).state.channel = some c ∧ c.isOpen) ∧
    (crashing.after 11).value?.isNone ∧ crashing.Frees 11 := by
  have facts : (crashing.after 10).state.channel.any Sidechannel.isOpen ∧
      (crashing.after 11).value?.isNone ∧ (crashing.after 11).Exits := by decide +kernel
  obtain ⟨opened, no_value, is_over⟩ := facts
  exact ⟨(Option.any_eq_true ..).1 opened, no_value, lets_go_once.2 crashing 11 is_over⟩

end Scene
end PackRelay
