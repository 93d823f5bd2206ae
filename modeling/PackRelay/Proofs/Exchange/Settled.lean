import PackRelay.Proofs.Exchange.Steps
import PackRelay.Proofs.Relay.Passed

/-! What an exchange reports of its octets, whatever its backend is. They are those that its relays
counted, none if it failed before it relayed, and never more than what its sidechannel accepted since
it was opened or than what its response accepted. -/
namespace PackRelay

/-- A backend that hands out only channels of one kind, as long as its own state is as it keeps it. -/
structure Backend.Hands {κ : Type} (b : Backend κ) (inv : κ → Prop) (opened : Sidechannel → Prop) :
    Prop where
  start : ∀ now p, inv p.2 → inv (b.start now p).state.2
  dial : ∀ now p, inv p.2 → inv (b.dial now p).state.2
  opened : ∀ now p c q, inv p.2 → b.dial now p = .ready (.ok c) q → opened c
  reply : ∀ now k, inv k → inv (b.reply now k).state
  release : ∀ k, inv k → inv (b.release k)

theorem Sidechannel.CloseStep.written {now : Nat} {c : Sidechannel}
    {p : Poll Sidechannel (Except SidechannelError Unit)} (step : c.CloseStep now p) :
    p.state.connection.sink.written = c.connection.sink.written := by
  cases step with
  | ends _ _ _ _ _ shut _ | waits _ _ _ _ _ shut _ | crashes _ _ _ _ shut => exact shut.only.written
  | _ => rfl

theorem Sidechannel.drop_written (c : Sidechannel) :
    c.drop.connection.sink.written = c.connection.sink.written := by
  unfold drop
  split <;> rfl

namespace Exchange

variable {κ : Type} {b : Backend κ} {inv : κ → Prop} {opened : Sidechannel → Prop} {before : Bytes}
  {x x' y : Exchange κ} {now n t : Nat}

/-- Nothing was relayed yet. -/
structure Unopened (inv : κ → Prop) (before : Bytes) (x : Exchange κ) : Prop where
  backend : inv x.backend
  responds : Outbound.Balances before x.outbound
  inbound : x.inbound.bytes = 0 ∧ x.inbound.phase = .reading
  outbound : x.outbound.bytes = 0
  results : x.results = {}

/-- Both relays are at work on a channel that was handed out, or one of them is over already. -/
structure Opened (inv : κ → Prop) (opened : Sidechannel → Prop) (before : Bytes) (x : Exchange κ) :
    Prop where
  backend : inv x.backend
  responds : Outbound.Balances before x.outbound
  feeds : ∃ c₀ c, opened c₀ ∧ x.channel = some c ∧
    Inbound.Balances c₀.connection.sink.written (x.inbound, c)
  unfailed : x.results.start = none ∧ x.results.dial = none
  inbound : ∀ r, x.results.inbound = some r → r.bytes = x.inbound.bytes
  outbound : ∀ r, x.results.outbound = some r → r.bytes = x.outbound.bytes

def Relayed (x : Exchange κ) : Prop := x.results.inbound.isSome ∧ x.results.outbound.isSome

/-- How the account of an exchange stands that is not over. -/
inductive Audited (inv : κ → Prop) (opened : Sidechannel → Prop) (before : Bytes)
    (x : Exchange κ) : Prop
  | unopened : x.phase = .starting ∨ x.phase = .opening → Unopened inv before x →
    Audited inv opened before x
  | relaying : x.phase = .relaying → Opened inv opened before x → Audited inv opened before x
  | closing : x.phase = .closing → Opened inv opened before x → x.Relayed →
    Audited inv opened before x

/-- What the report of an exchange says of its octets, and where they are. -/
structure Settles (opened : Sidechannel → Prop) (before : Bytes) (report : Report)
    (x : Exchange κ) : Prop where
  bytesIn : report.bytesIn = x.inbound.bytes
  bytesOut : report.bytesOut = x.outbound.bytes
  success : ∀ summary, report.outcome = .ok summary →
    summary.bytesIn = report.bytesIn ∧ summary.bytesOut = report.bytesOut
  failed : x.results.start ≠ none ∨ x.results.dial ≠ none →
    report.bytesIn = 0 ∧ report.bytesOut = 0
  relayed : x.results.start = none → x.results.dial = none →
    ∃ i o, x.results.inbound = some i ∧ x.results.outbound = some o ∧
      i.bytes = report.bytesIn ∧ o.bytes = report.bytesOut
  /-- No octet is counted that the sidechannel has not accepted since it was opened. -/
  accepted : report.bytesIn = 0 ∨ ∃ c₀ c sent, opened c₀ ∧ x.channel = some c ∧
    c.connection.sink.written = c₀.connection.sink.written ++ sent ∧ report.bytesIn ≤ sent.length
  responded : ∃ sent, x.outbound.response.sink.written = before ++ sent ∧
    report.bytesOut ≤ sent.length

theorem summary_of_report {summary : Summary} (success : (y.report b).outcome = .ok summary) :
    summary.bytesIn = (y.report b).bytesIn ∧ summary.bytesOut = (y.report b).bytesOut := by
  unfold report at success ⊢
  cases resolved : y.results.observed.resolve y.ctx with
  | error e => simp [resolved, Except.map] at success
  | ok _ =>
    simp only [resolved, Except.map, Except.ok.injEq] at success
    subst success
    exact ⟨rfl, rfl⟩

/-- An exchange that failed before anything was relayed reports no octets. -/
theorem settles_of_failed (responds : Outbound.Balances before y.outbound)
    (inbound : y.inbound.bytes = 0) (outbound : y.outbound.bytes = 0)
    (unrelayed : y.results.inbound = none ∧ y.results.outbound = none)
    (failed : y.results.start ≠ none ∨ y.results.dial ≠ none) :
    Settles opened before (y.report b) (y.release b) := by
  have none_in : (y.report b).bytesIn = 0 := by simp [report, Results.bytesIn, unrelayed.1]
  have none_out : (y.report b).bytesOut = 0 := by simp [report, Results.bytesOut, unrelayed.2]
  refine ⟨none_in.trans inbound.symm, none_out.trans outbound.symm, fun _ => summary_of_report,
    fun _ => ⟨none_in, none_out⟩, fun started dialed => ?_, .inl none_in, ?_⟩
  · exact (failed.elim (· started) (· dialed)).elim
  · obtain ⟨sent, same, _⟩ := responds.accepted
    exact ⟨sent, same, none_out.trans_le (Nat.zero_le _)⟩

theorem Opened.settles (here : Opened inv opened before y) (relayed : y.Relayed) :
    Settles opened before (y.report b) (y.release b) := by
  obtain ⟨i, inbound⟩ := Option.isSome_iff_exists.1 relayed.1
  obtain ⟨o, outbound⟩ := Option.isSome_iff_exists.1 relayed.2
  have bytes_in : i.bytes = (y.report b).bytesIn := by simp [report, Results.bytesIn, inbound]
  have bytes_out : o.bytes = (y.report b).bytesOut := by simp [report, Results.bytesOut, outbound]
  have counted_in := bytes_in.symm.trans (here.inbound i inbound)
  have counted_out := bytes_out.symm.trans (here.outbound o outbound)
  refine ⟨counted_in, counted_out, fun _ => summary_of_report, fun failed => ?_,
    fun _ _ => ⟨i, o, inbound, outbound, bytes_in, bytes_out⟩, .inr ?_, ?_⟩
  · exact (failed.elim (· here.unfailed.1) (· here.unfailed.2)).elim
  · obtain ⟨c₀, c, is_opened, channel, feeds⟩ := here.feeds
    obtain ⟨sent, same, enough⟩ := feeds.accepted
    refine ⟨c₀, c.drop, sent, is_opened, ?_, c.drop_written.trans same, counted_in.trans_le enough⟩
    exact congrArg (Option.map Sidechannel.drop) channel
  · obtain ⟨sent, same, enough⟩ := here.responds.accepted
    exact ⟨sent, same, counted_out.trans_le enough⟩

/-- All that one step can come to: the account goes on, or it is settled. -/
structure StepAudits (inv : κ → Prop) (opened : Sidechannel → Prop) (before : Bytes)
    (p : Poll (Exchange κ) Report) : Prop where
  going : (∀ a x', p ≠ .ready a x') → Audited inv opened before p.state
  last : ∀ a x', p = .ready a x' → Settles opened before a x'

theorem StepAudits.of_going {p : Poll (Exchange κ) Report}
    (audited : Audited inv opened before p.state) (ongoing : ∀ a x', p ≠ .ready a x') :
    StepAudits inv opened before p :=
  ⟨fun _ => audited, fun a x' is => absurd is (ongoing a x')⟩

theorem StepAudits.of_conclude (settles : Settles opened before (y.report b) (y.release b)) :
    StepAudits inv opened before (y.conclude b) := by
  refine ⟨fun ongoing => absurd rfl (ongoing _ _), ?_⟩
  rintro a x' ⟨⟩
  exact settles

/-- Only the backend and the context moved on. -/
theorem Unopened.moves {q : Context × κ} (here : Unopened inv before x) (kept : inv q.2) :
    Unopened inv before (x.setBackend q) :=
  ⟨kept, here.responds, here.inbound, here.outbound, here.results⟩

theorem Unopened.failedStart (here : Unopened inv before x) (e : CallError) :
    Settles opened before ((x.failedStart e).report b) ((x.failedStart e).release b) :=
  settles_of_failed here.responds here.inbound.1 here.outbound
    (by simp [Exchange.failedStart, here.results]) (.inl (Option.some_ne_none e))

theorem Unopened.failedDial (here : Unopened inv before x) (e : SidechannelError) :
    Settles opened before ((x.failedDial e).report b) ((x.failedDial e).release b) :=
  settles_of_failed here.responds here.inbound.1 here.outbound
    (by simp [Exchange.failedDial, here.results]) (.inr (Option.some_ne_none e))

theorem Unopened.opens {c : Sidechannel} (here : Unopened inv before x) (handed : opened c)
    (backend : x'.backend = x.backend) (inbound : x'.inbound = x.inbound)
    (outbound : x'.outbound = x.outbound) (results : x'.results = x.results)
    (channel : x'.channel = some c) : Opened inv opened before x' := by
  have unrelayed : x'.results = {} := results.trans here.results
  refine ⟨backend ▸ here.backend, outbound ▸ here.responds, ⟨c, c, handed, channel, ?_⟩,
    by simp [unrelayed], by simp [unrelayed], by simp [unrelayed]⟩
  simp only [Inbound.Balances, inbound, here.inbound]
  exact .begin _

theorem pollStart_audits (hands : b.Hands inv opened) (phase : x.phase = .starting)
    (here : Unopened inv before x) (now : Nat) :
    StepAudits inv opened before (x.pollStart b now) := by
  have kept := hands.start now (x.ctx, x.backend) here.backend
  unfold pollStart
  generalize b.start now (x.ctx, x.backend) = p at kept ⊢
  cases p with
  | ready v q =>
    cases v with
    | ok _ =>
      have opens : Unopened inv before { x.setBackend q with phase := .opening } :=
        ⟨kept, here.responds, here.inbound, here.outbound, here.results⟩
      exact .of_going (.unopened (.inr rfl) opens) fun _ _ is => nomatch is
    | error e => exact .of_conclude ((here.moves kept).failedStart e)
  | _ => exact .of_going (.unopened (.inl phase) (here.moves kept)) fun _ _ is => nomatch is

theorem pollOpen_audits (hands : b.Hands inv opened) (phase : x.phase = .opening)
    (here : Unopened inv before x) (now : Nat) :
    StepAudits inv opened before (x.pollOpen b now) := by
  have kept := hands.dial now (x.ctx, x.backend) here.backend
  have handed := fun c q => hands.opened now (x.ctx, x.backend) c q here.backend
  unfold pollOpen
  generalize b.dial now (x.ctx, x.backend) = p at kept handed ⊢
  cases p with
  | ready v q =>
    have moved := here.moves kept
    cases v with
    | error e => exact .of_conclude (moved.failedDial e)
    | ok c =>
      simp only [Poll.into_ready]
      split
      · exact .of_going (.relaying rfl (moved.opens (handed c q rfl) rfl rfl rfl rfl rfl))
          fun _ _ is => nomatch is
      · have unused : Unopened inv before ((x.setBackend q).setChannel c) :=
          ⟨kept, here.responds, here.inbound, here.outbound, here.results⟩
        exact .of_conclude (unused.failedDial .closed)
  | _ => exact .of_going (.unopened (.inr phase) (here.moves kept)) fun _ _ is => nomatch is

theorem Opened.inbound_turn (here : Opened inv opened before x) (now : Nat) :
    Opened inv opened before (pollParticipant b now .inbound x).state := by
  obtain ⟨c₀, c, is_opened, channel, feeds⟩ := here.feeds
  simp only [pollParticipant, onChannel, channel, pollInbound]
  split
  · exact here
  · rename_i going
    have kept := Inbound.poll_balances x.ctx now feeds
    cases polled : x.inbound.poll x.ctx now c with
    | ready r q =>
      rw [polled] at kept
      have bytes : ∀ v, some r = some v → v.bytes = q.1.bytes := by
        rintro _ ⟨⟩
        exact Inbound.bytes_of_poll polled
      cases ok : r.isOk <;> simp only [Poll.into_ready, ok] <;>
        exact ⟨here.backend, here.responds, ⟨c₀, q.2, is_opened, rfl, kept⟩, here.unfailed, bytes,
          here.outbound⟩
    | more q | waiting q alarm | crashed q =>
      rw [polled] at kept
      have none_yet : ∀ v, x.results.inbound = some v → v.bytes = q.1.bytes :=
        fun v is => absurd (Option.isSome_of_eq_some is) going
      exact ⟨here.backend, here.responds, ⟨c₀, q.2, is_opened, rfl, kept⟩, here.unfailed, none_yet,
        here.outbound⟩

theorem Opened.outbound_turn (here : Opened inv opened before x) (now : Nat) :
    Opened inv opened before (pollParticipant b now .outbound x).state := by
  obtain ⟨c₀, c, is_opened, channel, feeds⟩ := here.feeds
  simp only [pollParticipant, onChannel, channel, pollOutbound]
  split
  · exact here
  · rename_i going
    have kept := Outbound.poll_balances x.ctx now c here.responds
    have same := x.outbound.poll_sink x.ctx now c
    cases polled : x.outbound.poll x.ctx now c with
    | ready r q =>
      rw [polled] at kept same
      have bytes : ∀ v, some r = some v → v.bytes = q.1.bytes := by
        rintro _ ⟨⟩
        exact Outbound.bytes_of_poll polled
      cases ok : r.isOk <;> simp only [Poll.into_ready, ok] <;>
        exact ⟨here.backend, kept, ⟨c₀, q.2, is_opened, rfl, feeds.of_written (congrArg _ same)⟩,
          here.unfailed, here.inbound, bytes⟩
    | more q | waiting q alarm | crashed q =>
      rw [polled] at kept same
      have none_yet : ∀ v, x.results.outbound = some v → v.bytes = q.1.bytes :=
        fun v is => absurd (Option.isSome_of_eq_some is) going
      exact ⟨here.backend, kept, ⟨c₀, q.2, is_opened, rfl, feeds.of_written (congrArg _ same)⟩,
        here.unfailed, here.inbound, none_yet⟩

theorem Opened.reply_turn (hands : b.Hands inv opened) (here : Opened inv opened before x)
    (now : Nat) : Opened inv opened before (pollParticipant b now .reply x).state := by
  simp only [pollParticipant, pollReply]
  split
  · exact here
  · have kept : inv (x.ctx.guard x.backend (b.reply now x.backend)).state :=
      x.ctx.guard_state here.backend (hands.reply now x.backend here.backend)
    generalize x.ctx.guard x.backend (b.reply now x.backend) = step at kept ⊢
    cases step with
    | ready r k =>
      cases ok : (replied r).isOk <;> simp only [Poll.into_ready, ok] <;>
        exact ⟨hands.release k kept, here.responds, here.feeds, here.unfailed, here.inbound,
          here.outbound⟩
    | _ => exact ⟨kept, here.responds, here.feeds, here.unfailed, here.inbound, here.outbound⟩

theorem Opened.turn (hands : b.Hands inv opened) (here : Opened inv opened before x)
    (p : Participant) (now : Nat) : Opened inv opened before (pollParticipant b now p x).state := by
  cases p with
  | inbound => exact here.inbound_turn now
  | outbound => exact here.outbound_turn now
  | reply => exact here.reply_turn hands now

theorem inbound_over {c : Sidechannel} (channel : x.channel = some c)
    (rests : pollParticipant b now .inbound x = .ready () x) : x.results.inbound.isSome := by
  simp only [pollParticipant, onChannel, channel, pollInbound] at rests
  split at rests
  · assumption
  · obtain ⟨_, _, _, is⟩ := Poll.ready_of_into rests
    cases is

theorem outbound_over {c : Sidechannel} (channel : x.channel = some c)
    (rests : pollParticipant b now .outbound x = .ready () x) : x.results.outbound.isSome := by
  simp only [pollParticipant, onChannel, channel, pollOutbound] at rests
  split at rests
  · assumption
  · obtain ⟨_, _, _, is⟩ := Poll.ready_of_into rests
    cases is

/-- The exchange goes on to close only when both relays are over. -/
theorem Opened.relayed {turns : Turns} (here : Opened inv opened before x)
    (concluded : x.pollParticipants b turns now = .ready () x') : x' = x ∧ x.Relayed := by
  obtain ⟨same, each⟩ := Poll.all_ready (List.forall_mem_map.2 fun q _ => still q now) concluded
  have rests : ∀ q, pollParticipant b now q x = .ready () x := fun q =>
    each _ (List.mem_map.2 ⟨q, turns.complete q, rfl⟩)
  obtain ⟨_, _, _, channel, _⟩ := here.feeds
  exact ⟨same, inbound_over channel (rests .inbound), outbound_over channel (rests .outbound)⟩

theorem turn_phase (p : Participant) (now : Nat) (x : Exchange κ) :
    (pollParticipant b now p x).state.phase = x.phase := by
  cases p with
  | inbound =>
    simp only [pollParticipant, onChannel, pollInbound]
    split
    · split
      · rfl
      · cases x.inbound.poll x.ctx now _ with
        | ready r q => cases ok : r.isOk <;> simp only [Poll.into_ready, ok] <;> rfl
        | _ => rfl
    · rfl
  | outbound =>
    simp only [pollParticipant, onChannel, pollOutbound]
    split
    · split
      · rfl
      · cases x.outbound.poll x.ctx now _ with
        | ready r q => cases ok : r.isOk <;> simp only [Poll.into_ready, ok] <;> rfl
        | _ => rfl
    · rfl
  | reply =>
    simp only [pollParticipant, pollReply]
    split
    · rfl
    · cases x.ctx.guard x.backend (b.reply now x.backend) with
      | ready r k => cases ok : (replied r).isOk <;> simp only [Poll.into_ready, ok] <;> rfl
      | _ => rfl

theorem pollRelaying_audits (hands : b.Hands inv opened) (phase : x.phase = .relaying)
    (here : Opened inv opened before x) (turns : Turns) (now : Nat) :
    StepAudits inv opened before (x.pollRelaying b turns now) := by
  have kept : Opened inv opened before (x.pollParticipants b turns now).state ∧
      (x.pollParticipants b turns now).state.phase = .relaying := by
    refine Poll.all_state (I := fun y => Opened inv opened before y ∧ y.phase = .relaying) ?_
      ⟨here, phase⟩
    exact List.forall_mem_map.2 fun p _ y kept =>
      ⟨kept.1.turn hands p now, (turn_phase p now y).trans kept.2⟩
  unfold pollRelaying
  cases step : x.pollParticipants b turns now with
  | ready _ y =>
    obtain ⟨rfl, relayed⟩ := here.relayed step
    have closing : Opened inv opened before { y with phase := .closing } :=
      ⟨here.backend, here.responds, here.feeds, here.unfailed, here.inbound, here.outbound⟩
    exact .of_going (.closing rfl closing relayed) fun _ _ is => nomatch is
  | _ =>
    rw [step] at kept
    exact .of_going (.relaying kept.2 kept.1) fun _ _ is => nomatch is

theorem pollClosing_audits (phase : x.phase = .closing) (here : Opened inv opened before x)
    (relayed : x.Relayed) (now : Nat) : StepAudits inv opened before (x.pollClosing b now) := by
  obtain ⟨c₀, c, is_opened, channel, feeds⟩ := here.feeds
  have same := (c.pollClose_step now).written
  simp only [pollClosing, channel]
  have used : ∀ c' : Sidechannel, c'.connection.sink.written = c.connection.sink.written →
      Opened inv opened before (x.setChannel c') := fun c' same =>
    ⟨here.backend, here.responds, ⟨c₀, c', is_opened, rfl, feeds.of_written same⟩, here.unfailed,
      here.inbound, here.outbound⟩
  generalize c.pollClose now = p at same ⊢
  cases p with
  | ready v c' => exact .of_conclude ((used c' same).settles relayed)
  | more c' | waiting c' alarm | crashed c' =>
    exact .of_going (.closing phase (used c' same) relayed) fun _ _ is => by cases is

theorem Audited.poll (hands : b.Hands inv opened) (audited : Audited inv opened before x)
    (turns : Turns) (now : Nat) : StepAudits inv opened before (x.poll b turns now) := by
  unfold Exchange.poll
  cases audited with
  | unopened phase here =>
    rcases phase with phase | phase <;> rw [phase]
    · exact pollStart_audits hands phase here now
    · exact pollOpen_audits hands phase here now
  | relaying phase here =>
    rw [phase]
    exact pollRelaying_audits hands phase here turns now
  | closing phase here relayed =>
    rw [phase]
    exact pollClosing_audits phase here relayed now

theorem Audited.look (audited : Audited inv opened before x) (ctx : Context) :
    Audited inv opened before { x with ctx } := by
  cases audited with
  | unopened phase here =>
    exact .unopened phase ⟨here.backend, here.responds, here.inbound, here.outbound, here.results⟩
  | relaying phase here =>
    exact .relaying phase ⟨here.backend, here.responds, here.feeds, here.unfailed, here.inbound,
      here.outbound⟩
  | closing phase here relayed =>
    exact .closing phase ⟨here.backend, here.responds, here.feeds, here.unfailed, here.inbound,
      here.outbound⟩ relayed

theorem Audited.act {gone : Option Nat} (audited : Audited inv opened before x)
    (act : (beside gone).act now x = some x') : Audited inv opened before x' := by
  obtain ⟨ctx, _, rfl⟩ := Option.map_eq_some_iff.1 act
  exact audited.look ctx

theorem Audited.next (hands : b.Hands inv opened) (audited : Audited inv opened before x)
    (turns : Turns) (gone : Option Nat) (now : Nat) :
    StepAudits inv opened before (x.next b turns gone now) := by
  rcases next_cases b turns gone now x with ⟨x', act, step⟩ | step <;> rw [step]
  · exact .of_going (audited.act act) fun _ _ is => nomatch is
  · exact audited.poll hands turns now

theorem Audited.goes {turns : Nat → Exchange κ → Turns} {gone : Option Nat} {now' : Nat}
    (hands : b.Hands inv opened) (audited : Audited inv opened before x)
    (goes : Goes (beside gone) (fun now x => x.next b (turns now x) gone now) now x now' x') :
    Audited inv opened before x' := by
  have step := audited.next hands (turns now x) gone now
  cases goes with
  | more next =>
    simp only [next] at step
    exact step.going fun _ _ is => nomatch is
  | acts next act =>
    simp only [next] at step
    exact (step.going fun _ _ is => nomatch is).act act
  | sleeps next _ _ =>
    simp only [next] at step
    exact step.going fun _ _ is => nomatch is

theorem audited_fresh {k : κ} (ctx : Context) (here : inv k) (body : Source) (response : Sink) :
    Audited inv opened response.written (fresh ctx k body response) :=
  .unopened (.inl rfl) ⟨here, .begin response, ⟨rfl, rfl⟩, rfl, rfl⟩

/-- An exchange that comes to its end has settled its account. -/
theorem handle_settles {turns : Nat → Exchange κ → Turns} {gone : Option Nat} {a : Report}
    (hands : b.Hands inv opened) (audited : Audited inv opened before x)
    (concluded : x.handle b turns gone n now = .finished t a x') :
    Settles opened before a x' := by
  unfold handle at concluded
  cases ran : run (beside gone) (fun now x => x.next b (turns now x) gone now) n now x with
  | finished t' a' y =>
    rw [ran] at concluded
    cases concluded
    obtain ⟨k, t', y', reached, last⟩ := run_last ran fun _ _ is => nomatch is
    have there := run_keeps (I := fun _ => Audited inv opened before)
      (fun _ _ _ _ audited goes => audited.goes hands goes) audited reached
    cases last with
    | finished step => exact (there.next hands (turns t y') gone t).last _ _ step
  | _ =>
    rw [ran] at concluded
    cases concluded

end Exchange
end PackRelay
