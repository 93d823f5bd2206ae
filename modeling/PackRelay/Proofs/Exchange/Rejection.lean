import PackRelay.Proofs.Exchange.Deadline
import PackRelay.Proofs.Wire.AtHand
import PackRelay.Proofs.Wire.Message

/-! A backend that rejects the call. Its reply waits on the call's connection until the participants
run side by side; if by then nothing else has failed, it is read at once, and the rejection is what
the exchange is reported as, whatever fails afterwards. -/
namespace PackRelay

theorem Results.replied_of_joined {r : Results} {e : CallError} (there : .call e ∈ r.joined) :
    r.reply = some (.error e) := by
  rcases List.mem_append.1 there with there | there
  · simp [Option.bind_eq_some_iff] at there
  · simp only [replyError] at there
    split at there
    · rename_i replied
      simp only [Option.toList_some, List.mem_singleton, TransportError.call.injEq] at there
      rw [replied, there]
    · cases there

namespace Exchange

open WiredBackend renaming backend → wired

variable {s : Scene} {x x' : Exchange WiredBackend} {c : Sidechannel} {now now' : Nat}
    {status : BackendStatus} {p : Participant} {turn : Poll (Exchange WiredBackend) Unit}

/-- The reply to the call can be read without waiting, and it is this rejection. -/
def Offers (now : Nat) (x : Exchange WiredBackend) (status : BackendStatus) : Prop :=
  ∃ reading k, x.backend.call = .listening reading k ∧
    Wire.Reading.Comes Wire.CallReply.decode now (.error status.code status.message) reading k

/-- The octets that have come in on the call's connection since the call was made. -/
def answered (x : Exchange WiredBackend) : Bytes :=
  match x.backend.call with
  | .listening _ k => k.source.delivered ++ k.source.atHand
  | _ => []

/-- The reply was read, and it is this rejection. -/
def Rejected (x : Exchange WiredBackend) (status : BackendStatus) : Prop :=
  x.results.reply = some (.error (.backend status))

/-- Nobody cancelled the exchange from outside, and nothing in it failed but for this rejection. -/
structure Spared (x : Exchange WiredBackend) (status : BackendStatus) : Prop where
  reason : x.ctx.reason = none ∨ x.ctx.reason = some .done
  failures : ∀ e ∈ x.results.failures, e = .call (.backend status)

instance : Decidable (x.Spared status) :=
  decidable_of_iff ((x.ctx.reason = none ∨ x.ctx.reason = some .done) ∧
    ∀ e ∈ x.results.failures, e = .call (.backend status))
    ⟨fun both => ⟨both.1, both.2⟩, fun spared => ⟨spared.reason, spared.failures⟩⟩

theorem Offers.later (offers : x.Offers now status) (le : now ≤ now')
    (same : x'.backend.call = x.backend.call) : x'.Offers now' status := by
  obtain ⟨reading, k, call, comes⟩ := offers
  exact ⟨reading, k, same.trans call, comes.later le⟩

/-- Nobody but the one who waits for the reply touches the call. -/
theorem Does.call_kept (does : x.Does c p turn) (other : p ≠ .reply) :
    turn.state.backend.call = x.backend.call := by
  cases does with
  | rests _ _ => rfl
  | inboundStops r _ _ => rfl
  | inboundFlows q _ _ _ =>
    cases q with
    | ready e m => cases e <;> rfl
    | _ => rfl
  | outboundStops r _ _ => rfl
  | outboundFlows q headers count _ _ _ =>
    cases q with
    | ready e m => cases e <;> rfl
    | _ => rfl
  | replyStops _ _ _ _ _ _ => exact absurd rfl other
  | replyReads _ _ _ _ _ _ _ => exact absurd rfl other

theorem Does.rejected (does : x.Does c p turn) (rejected : x.Rejected status) :
    turn.state.Rejected status := by
  cases does with
  | rests _ _ => exact rejected
  | inboundStops r _ _ => exact rejected
  | inboundFlows q _ _ _ =>
    cases q with
    | ready e m => cases e <;> exact rejected
    | _ => exact rejected
  | outboundStops r _ _ => exact rejected
  | outboundFlows q headers count _ _ _ =>
    cases q with
    | ready e m => cases e <;> exact rejected
    | _ => exact rejected
  | replyStops r reading k going _ _ => cases going.symm.trans rejected
  | replyReads reading k q going _ _ _ => cases going.symm.trans rejected

theorem Joint.unreplied (joint : Joint s now x c) (offers : x.Offers now status) :
    x.results.reply = none := by
  obtain ⟨reading, k, call, _⟩ := offers
  have hears := joint.relays.hears
  generalize x.results.reply = reply at hears ⊢
  rw [call] at hears
  cases hears
  rfl

/-- Whoever waits for a reply that is there has it, or some more of it, with the next turn. -/
theorem Joint.reply_offered (joint : Joint s now x c) (offers : x.Offers now status)
    (silent : x.ctx.signal = none) :
    ∃ x', pollParticipant wired now .reply x = .more x' ∧
      (x'.Offers now status ∨ x'.Rejected status) := by
  have going := joint.unreplied offers
  obtain ⟨reading, k, call, comes⟩ := offers
  simp only [pollParticipant, pollReply_eq going silent call]
  cases comes with
  | ends q polled =>
    rw [polled]
    exact ⟨_, rfl, .inr rfl⟩
  | goes q polled comes =>
    rw [polled]
    exact ⟨_, rfl, .inl ⟨q.1, q.2, rfl, comes⟩⟩

/-- The participants run side by side, nothing was cancelled, and the rejection is there. -/
def Awaits (s : Scene) (now : Nat) (status : BackendStatus) (x : Exchange WiredBackend) : Prop :=
  (∃ c, Joint s now x c) ∧ x.Offers now status ∧ x.ctx.signal = none

theorem Awaits.waits {alarm : Option Nat} (awaits : Awaits s now status x)
    (waits : pollParticipant wired now p x = .waiting x' alarm) : Awaits s now status x' := by
  obtain ⟨⟨c, joint⟩, offers, silent⟩ := awaits
  have joint' := joint_participant p ⟨c, joint⟩
  have kept := fun other => (joint.does p).call_kept other
  rw [waits] at joint' kept
  refine ⟨joint', ?_, (congrArg Context.signal (ctx_waiting waits)).trans silent⟩
  by_cases reply : p = .reply
  · subst reply
    obtain ⟨y, acts, _⟩ := joint.reply_offered offers silent
    cases waits.symm.trans acts
  · exact offers.later le_rfl (kept reply)

theorem Awaits.acts (awaits : Awaits s now status x)
    (acts : pollParticipant wired now p x = .more x') :
    x'.Offers now status ∨ x'.Rejected status := by
  obtain ⟨⟨c, joint⟩, offers, silent⟩ := awaits
  by_cases reply : p = .reply
  · subst reply
    obtain ⟨y, acts', kept⟩ := joint.reply_offered offers silent
    cases acts.symm.trans acts'
    exact kept
  · have kept := (joint.does p).call_kept reply
    rw [acts] at kept
    exact .inl (offers.later le_rfl kept)

/-- Side by side they do not wait as long as the reply is there. -/
theorem Awaits.participants_not_waiting {turns : Turns} {alarm : Option Nat}
    (awaits : Awaits s now status x) : x.pollParticipants wired turns now ≠ .waiting x' alarm := by
  intro waits
  refine Poll.all_rests (I := Awaits s now status) (Q := fun _ _ => False)
    (List.forall_mem_map.2 fun q _ => still q now)
    (List.forall_mem_map.2 fun q _ _ _ _ awaits waits => awaits.waits waits)
    (fun _ _ _ _ _ _ _ is _ => is) (fun _ _ _ is => is.elim)
    (List.mem_map.2 ⟨.reply, turns.complete .reply, rfl⟩) ?_ ?_ awaits waits
  · rintro y y' alarm ⟨⟨c, joint⟩, offers, silent⟩ waits
    obtain ⟨_, acts, _⟩ := joint.reply_offered offers silent
    cases waits.symm.trans acts
  · rintro y ⟨⟨c, joint⟩, offers, silent⟩ halted
    obtain ⟨_, acts, _⟩ := joint.reply_offered offers silent
    cases halted.symm.trans acts

theorem Awaits.participants_acts {turns : Turns} (awaits : Awaits s now status x)
    (acts : x.pollParticipants wired turns now = .more x') :
    x'.Offers now status ∨ x'.Rejected status := by
  obtain ⟨_, listed, y, awaits', acts'⟩ := Poll.all_acts (I := Awaits s now status)
    (List.forall_mem_map.2 fun q _ => still q now)
    (List.forall_mem_map.2 fun q _ _ _ _ awaits waits => awaits.waits waits) awaits acts
  obtain ⟨q, _, rfl⟩ := List.mem_map.1 listed
  exact awaits'.acts acts'

theorem rejected_participants (turns : Turns) (joint : Joint s now x c)
    (rejected : x.Rejected status) :
    (x.pollParticipants wired turns now).state.Rejected status := by
  refine (Poll.all_state (I := fun x => (∃ c, Joint s now x c) ∧ x.Rejected status) ?_
    ⟨⟨c, joint⟩, rejected⟩).2
  refine List.forall_mem_map.2 fun q _ y here => ?_
  obtain ⟨⟨c, joint⟩, rejected⟩ := here
  exact ⟨joint_participant q ⟨c, joint⟩, (joint.does q).rejected rejected⟩

end Exchange

namespace Scene

open Exchange
open WiredBackend renaming backend → wired

variable {s : Scene} {x x' y : Exchange WiredBackend} {now now' t k m n : Nat}
    {status : BackendStatus} {a : Report}

theorem Sound.unreplied (sound : s.Sound now x) (offers : x.Offers now status) :
    x.results.reply = none := by
  cases sound.stands with
  | starting o _ call _ _ _ =>
    obtain ⟨_, _, call', _⟩ := offers
    cases call.symm.trans call'
  | opening k o _ _ _ _ _ untouched => rw [untouched.results]
  | relaying c phase relays is_open unlimited =>
    exact (sound.joint phase relays is_open unlimited).unreplied offers
  | closing c _ relays _ _ replied _ =>
    obtain ⟨_, _, call, _⟩ := offers
    have hears := relays.hears
    rw [call] at hears
    cases hears' : x.results.reply with
    | none => rfl
    | some v =>
      rw [hears'] at hears
      cases hears

/-- Nothing is cancelled while the rejection waits and nothing else has failed. -/
theorem Sound.silent (sound : s.Sound now x) (offers : x.Offers now status)
    (spared : x.Spared status) : x.ctx.signal = none := by
  rw [sound.ctx.coherent.signal]
  refine spared.reason.resolve_right fun done => ?_
  obtain ⟨e, only⟩ := sound.account.once done
  have failed : e ∈ x.results.failures := by simp [only]
  obtain rfl := spared.failures e failed
  have joined := (List.mem_filter.1 failed).1
  rw [sound.account.errors] at joined
  cases (sound.unreplied offers).symm.trans (Results.replied_of_joined joined)

/-- While the participants run side by side, a step takes the reply or leaves it there, in no time. -/
theorem poll_awaits (awaits : Awaits s now status x) :
    (∃ y, s.poll now x = .more y ∧ y.phase = .relaying ∧
      (y.Offers now status ∨ y.Rejected status)) ∨ ∃ y, s.poll now x = .crashed y := by
  obtain ⟨⟨c, joint⟩, offers, silent⟩ := awaits
  have awaits : Awaits s now status x := ⟨⟨c, joint⟩, offers, silent⟩
  have joint' := joint_participants (s.turns now x) ⟨c, joint⟩
  simp only [Scene.poll, Exchange.poll, joint.phase, pollRelaying]
  cases step : x.pollParticipants wired (s.turns now x) now with
  | ready _ y =>
    obtain ⟨_, _, _, replied⟩ := participants_over joint step
    rw [joint.unreplied offers] at replied
    cases replied
  | more y =>
    rw [step] at joint'
    obtain ⟨c', joint'⟩ := joint'
    exact .inl ⟨y, rfl, joint'.phase, awaits.participants_acts step⟩
  | waiting y alarm => exact absurd step awaits.participants_not_waiting
  | crashed y => exact .inr ⟨y, rfl⟩

theorem awaits_turn (awaits : Awaits s now status x) (turn : s.Turn now x now' x') :
    now' = now ∧ x'.phase = .relaying ∧ (x'.Offers now status ∨ x'.Rejected status) := by
  cases turn with
  | looks found =>
    obtain ⟨ctx, _, rfl⟩ := look_eq_some found
    obtain ⟨⟨c, joint⟩, offers, _⟩ := awaits
    exact ⟨rfl, joint.phase, .inl offers⟩
  | more _ step =>
    rcases poll_awaits awaits with ⟨y, polled, phase, kept⟩ | ⟨y, polled⟩
    · cases polled.symm.trans step
      exact ⟨rfl, phase, kept⟩
    · cases polled.symm.trans step
  | acts _ step _ | sleeps _ step _ _ =>
    rcases poll_awaits awaits with ⟨y, polled, _⟩ | ⟨y, polled⟩ <;> cases polled.symm.trans step

theorem Sound.awaits (sound : s.Sound now x) (relaying : x.phase = .relaying)
    (offers : x.Offers now status) (spared : x.Spared status) : Awaits s now status x := by
  refine ⟨?_, offers, sound.silent offers spared⟩
  cases sound.stands with
  | relaying c phase relays is_open unlimited =>
    exact ⟨c, sound.joint phase relays is_open unlimited⟩
  | starting _ phase _ _ _ _ | opening _ _ phase _ _ _ _ _ | closing _ phase _ _ _ _ _ =>
    cases phase.symm.trans relaying

/-- A rejection that is there stays there until it is read, as long as nothing else fails. -/
theorem Sound.offers_turn (sound : s.Sound now x) (offers : x.Offers now status)
    (spared : x.Spared status) (turn : s.Turn now x now' x') :
    x'.Offers now' status ∨ x'.Rejected status := by
  rcases turn.state with ⟨ctx, rfl⟩ | ⟨ongoing, next⟩
  · exact .inl (offers.later turn.le rfl)
  cases sound.stands with
  | starting o _ call _ _ _ =>
    obtain ⟨_, _, call', _⟩ := offers
    cases call.symm.trans call'
  | opening k o phase _ _ channel _ _ =>
    refine .inl (offers.later turn.le ?_)
    have kept : (s.poll now x).state.backend.call = x.backend.call := by
      obtain ⟨p, _, same⟩ := poll_opening phase channel (s.turns now x) now
      simp only [Scene.poll] at ongoing ⊢
      rw [same] at ongoing ⊢
      cases p with
      | ready value q =>
        cases value with
        | error e => exact absurd rfl (ongoing _ _)
        | ok k => rfl
      | _ => rfl
    rcases next with rfl | ⟨ctx, rfl⟩ <;> exact kept
  | relaying c phase _ _ _ =>
    obtain ⟨rfl, _, kept⟩ := awaits_turn (sound.awaits phase offers spared) turn
    exact kept
  | closing c _ _ _ _ replied _ =>
    rw [sound.unreplied offers] at replied
    cases replied

/-- What the backend said stays said. -/
theorem Sound.rejected_turn (sound : s.Sound now x) (rejected : x.Rejected status)
    (turn : s.Turn now x now' x') : x'.Rejected status := by
  rcases turn.state with ⟨ctx, rfl⟩ | ⟨ongoing, next⟩
  · exact rejected
  have kept : (s.poll now x).state.Rejected status := by
    cases sound.stands with
    | starting o _ _ _ _ untouched =>
      rw [Rejected, untouched.results] at rejected
      cases rejected
    | opening k o _ _ _ _ _ untouched =>
      rw [Rejected, untouched.results] at rejected
      cases rejected
    | relaying c phase relays is_open unlimited =>
      have kept := rejected_participants (s.turns now x)
        (sound.joint phase relays is_open unlimited) rejected
      simp only [Scene.poll, Exchange.poll, phase, pollRelaying]
      cases step : x.pollParticipants wired (s.turns now x) now <;> rw [step] at kept <;> exact kept
    | closing c phase relays _ _ _ _ =>
      obtain ⟨p, _, same⟩ := poll_closing phase relays.channel (s.turns now x) now
      simp only [Scene.poll] at ongoing ⊢
      rw [same] at ongoing ⊢
      cases p with
      | ready v c' => exact absurd rfl (ongoing _ _)
      | _ => exact rejected
  rcases next with rfl | ⟨ctx, rfl⟩ <;> exact kept

theorem Ending.rejected (ending : s.Ending t x y) (rejected : x.Rejected status) :
    y.Rejected status := by
  cases ending with
  | start _ _ _ _ untouched _ _ _ | dial _ _ _ _ untouched _ _ _ =>
    rw [Rejected, untouched.results] at rejected
    cases rejected
  | close _ _ _ _ _ _ _ _ _ => exact rejected

theorem Ending.outcome_of_rejected (sound : s.Sound t x) (ending : s.Ending t x y)
    (rejected : y.Rejected status) : (y.report wired).outcome = .error (.backend status) := by
  have blame_eq := ending.blame_eq sound
  cases ending with
  | start o e q _ untouched _ _ _ =>
    cases (congrArg Results.reply untouched.results).symm.trans rejected
  | dial o e q _ untouched _ _ _ =>
    cases (congrArg Results.reply untouched.results).symm.trans rejected
  | close c c' v phase relays inbound outbound reply step =>
    have rejected : x.results.reply = some (.error (.backend status)) := rejected
    have failed : .call (.backend status) ∈ x.results.failures := by
      refine List.mem_filter.2 ⟨?_, rfl⟩
      rw [sound.account.errors]
      simp [Results.joined, Results.replyError, rejected]
    have done := done_of_failures sound (List.ne_nil_of_mem failed)
    obtain ⟨e, only⟩ := sound.account.once done
    rw [only, List.mem_singleton] at failed
    subst failed
    have only : (x.setChannel c').results.failures = [.call (.backend status)] := only
    have done : (x.setChannel c').ctx.reason = some .done := done
    simp only [Exchange.report, Observed.resolve, done, blame_eq (.inr done), Results.blame, only]
    rfl

/-- With the frame of a rejection on the call's connection, read or not, the rejection is there. -/
theorem Sound.offers_of_frame {document bs rest : Bytes} (sound : s.Sound now x)
    (framed : Wire.frame document = .ok bs) (there : x.answered = bs ++ rest)
    (decoded : Wire.CallReply.decode document = .ok (.error status.code status.message)) :
    x.Offers now status := by
  unfold answered at there
  split at there
  · rename_i reading l call
    have heard : ∀ {reply}, s.Hears x.backend.call reply → reading.Sound l.source.delivered := by
      intro reply hears
      rw [call] at hears
      cases hears with
      | listening _ _ sound _ _ => exact sound
    refine ⟨reading, l, call, Wire.Reading.comes_of_frame now ?_ framed there decoded⟩
    cases sound.stands with
    | starting o _ call' _ _ _ => cases call'.symm.trans call
    | opening k o _ call' greeted _ _ _ =>
      cases call'.symm.trans call
      exact ⟨(greeted_written (l := s.callListener) rfl greeted).2.1, rfl⟩
    | relaying c _ relays _ _ => exact heard relays.hears
    | closing c _ relays _ _ _ _ => exact heard relays.hears
  · obtain ⟨_, rfl⟩ := Wire.frame_eq_ok.1 framed
    have four := congrArg List.length there
    simp only [List.length_nil, List.length_append, Bytes.length_ofWord] at four
    omega

/-- What was there before is there, or was read, when the participants begin. -/
theorem offered_at (here : s.after k = .unfinished now x) (offered : x.Offers now status)
    (le : k ≤ m) (joined : s.after m = .unfinished t y)
    (spared : ∀ u w, s.Reaches u w → u ≤ t → w.Spared status) :
    y.Offers t status ∨ y.Rejected status := by
  obtain ⟨d, rfl⟩ := Nat.exists_eq_add_of_le le
  have came := comes_from
    (I := fun u w => s.Reaches u w ∧ (u ≤ t → w.Offers u status ∨ w.Rejected status))
    (fun u w u' w' here turn => by
      obtain ⟨reached, kept⟩ := here
      refine ⟨reached.turn turn, fun early => ?_⟩
      have sound := sound_of_reaches reached
      have early' := le_trans turn.le early
      rcases kept early' with offers | rejected
      · exact sound.offers_turn offers (spared u w reached early') turn
      · exact .inr (sound.rejected_turn rejected turn))
    here ⟨⟨k, here⟩, fun _ => .inl offered⟩ d
  rw [joined] at came
  cases came with
  | unfinished kept => exact kept.2 le_rfl
  | concluded _ ends => cases ends

/-- The rejection was read, or it is there while the participants run at this very moment. -/
def Telling (s : Scene) (t : Nat) (status : BackendStatus) (u : Nat) (w : Exchange WiredBackend) :
    Prop :=
  s.Reaches u w ∧ (w.Rejected status ∨ u = t ∧ w.phase = .relaying ∧ w.Offers u status)

theorem Telling.turn {u u' : Nat} {w w' : Exchange WiredBackend} (telling : Telling s t status u w)
    (spared : ∀ u w, s.Reaches u w → u ≤ t → w.Spared status) (turn : s.Turn u w u' w') :
    Telling s t status u' w' := by
  obtain ⟨reached, rejected | ⟨rfl, phase, offers⟩⟩ := telling
  · exact ⟨reached.turn turn, .inl ((sound_of_reaches reached).rejected_turn rejected turn)⟩
  · have awaits := (sound_of_reaches reached).awaits phase offers (spared u w reached le_rfl)
    obtain ⟨rfl, phase', kept⟩ := awaits_turn awaits turn
    exact ⟨reached.turn turn, kept.symm.imp_right fun offers => ⟨rfl, phase', offers⟩⟩

theorem Telling.last {u : Nat} {w : Exchange WiredBackend} (telling : Telling s t status u w)
    (spared : ∀ u w, s.Reaches u w → u ≤ t → w.Spared status) (last : s.poll u w = .ready a x') :
    a.outcome = .error (.backend status) := by
  obtain ⟨reached, rejected | ⟨rfl, phase, offers⟩⟩ := telling
  · have sound := sound_of_reaches reached
    obtain ⟨y, ending, rfl, _⟩ := sound.ending last
    exact ending.outcome_of_rejected sound (ending.rejected rejected)
  · have awaits := (sound_of_reaches reached).awaits phase offers (spared u w reached le_rfl)
    rcases poll_awaits awaits with ⟨y, polled, _⟩ | ⟨y, polled⟩ <;> cases polled.symm.trans last

theorem later_of_finished (here : s.after m = .unfinished t x) {t' : Nat}
    (concluded : s.after n = .finished t' a y) : ∃ d, n = m + d := by
  refine Nat.exists_eq_add_of_le (Nat.le_of_not_le fun le => ?_)
  obtain ⟨d, rfl⟩ := Nat.exists_eq_add_of_le le
  rw [after_over (by simp [concluded]), concluded] at here
  cases here

/-- A rejection is what the exchange is reported as, with the code and the message that the backend
gave it, if it was there to be read before the participants began and nothing had failed by that
moment; whatever fails or is cancelled afterwards makes no difference. -/
theorem rejection_told (s : Scene) {k m now t : Nat} {x y : Exchange WiredBackend}
    {status : BackendStatus} (here : s.after k = .unfinished now x)
    (offered : x.Offers now status) (le : k ≤ m) (joined : s.after m = .unfinished t y)
    (relaying : y.phase = .relaying)
    (spared : ∀ u w, s.Reaches u w → u ≤ t → w.Spared status) :
    (∀ n t' a z, s.after n = .finished t' a z → a.outcome = .error (.backend status)) ∧
      (s.Settles → s.Calm → ∃ n t' a z, s.after n = .finished t' a z) := by
  have begins : Telling s t status t y :=
    ⟨⟨m, joined⟩, (offered_at here offered le joined spared).symm.imp_right
      fun offers => ⟨rfl, relaying, offers⟩⟩
  refine ⟨fun n t' a z concluded => ?_, fun settles calm => ?_⟩
  · obtain ⟨d, rfl⟩ := later_of_finished joined concluded
    have came := comes_from (fun _ _ _ _ telling turn => Telling.turn telling spared turn)
      joined begins d
    rw [concluded] at came
    cases came with
    | concluded telling ends =>
      cases ends with
      | finished last => exact telling.last spared last
  · obtain ⟨n, t', _, ⟨a, z, concluded⟩ | ⟨_, loud⟩⟩ := s.ends settles
    · exact ⟨n, t', a, z, concluded⟩
    · exact absurd calm loud

theorem unfinished_of_ne (on : s.after (k + m) ≠ s.after k) :
    ∃ t x, s.after k = .unfinished t x := by
  by_contra done
  push Not at done
  exact on (after_over done m)

theorem reached_before (concluded : s.after n = .finished t a y) (reached : s.Reaches now x) :
    ∃ i < n, s.after i = .unfinished now x := by
  obtain ⟨i, here⟩ := reached
  refine ⟨i, Nat.lt_of_not_le fun le => ?_, here⟩
  obtain ⟨d, rfl⟩ := Nat.exists_eq_add_of_le le
  rw [after_over (by simp [concluded]), concluded] at here
  cases here

def refusal : BackendStatus := ⟨"not_found", "no such repository"⟩

def refusalFrame : Bytes :=
  let document := (Wire.CallReply.error refusal.code refusal.message).encode
  Bytes.ofWord document.length ++ document

theorem offers_refusal (here : s.after k = .unfinished now x)
    (there : (s.after k).state.answered = refusalFrame) : x.Offers now refusal := by
  rw [here] at there
  refine (sound_of_reaches ⟨k, here⟩).offers_of_frame (Wire.frame_eq_ok.2 ⟨by decide +kernel, rfl⟩)
    (there.trans (List.append_nil _).symm) (Wire.CallReply.decode_encode _)

/-- The backend rejects the call at once; its sidechannel takes ten milliseconds to open. -/
def refused : Scene := { brief with
  callListener := .accepts [.data refusalFrame] {}
  channelDelay := 10 }

theorem rejection_told_refused :
    ∃ k m now t x y, refused.after k = .unfinished now x ∧ x.Offers now refusal ∧ k ≤ m ∧
      refused.after m = .unfinished t y ∧ y.phase = .relaying ∧
      (∀ u w, refused.Reaches u w → u ≤ t → w.Spared refusal) ∧
      ∃ n t' a z, refused.after n = .finished t' a z ∧ a.outcome = .error (.backend refusal) := by
  have ran : (refused.after 4).state.phase = .opening ∧
      (refused.after 4).state.answered = refusalFrame ∧
      (refused.after 9).state.phase = .relaying ∧ (refused.after 24).state.phase = .closing ∧
      (refused.after 24).value?.isSome = true ∧
      ∀ i < 24, (refused.after i).state.Spared refusal := by decide +kernel
  obtain ⟨opening, answered, relaying, closing, finished, spared⟩ := ran
  obtain ⟨now, x, here⟩ : ∃ now x, refused.after 4 = .unfinished now x :=
    unfinished_of_ne (m := 5) fun same => by
      cases opening.symm.trans ((congrArg (·.state.phase) same).symm.trans relaying)
  obtain ⟨t, y, joined⟩ : ∃ t y, refused.after 9 = .unfinished t y :=
    unfinished_of_ne (m := 15) fun same => by
      cases relaying.symm.trans ((congrArg (·.state.phase) same).symm.trans closing)
  obtain ⟨t', a, z, concluded⟩ := Run.finished_of_value finished
  rw [joined] at relaying
  have spared : ∀ u w, refused.Reaches u w → u ≤ t → w.Spared refusal := by
    intro u w reached _
    obtain ⟨i, before, here⟩ := reached_before concluded reached
    have kept := spared i before
    rwa [here] at kept
  have offered := offers_refusal here answered
  exact ⟨4, 9, now, t, x, y, here, offered, by decide, joined, relaying, spared, 24, t', a, z,
    concluded, (rejection_told refused here offered (by decide) joined relaying spared).1 24 t' a z
      concluded⟩

/-- The same with a sidechannel that nobody accepts. -/
def snubbed : Scene := { refused with channelListener := .fails ⟨.connectionRefused, "refused"⟩ }

/-- A rejection that is there ten milliseconds before the sidechannel fails to open is never read,
and the exchange is reported as a failure of the transport. -/
theorem rejection_lost :
    ∃ k now x n t a y, snubbed.after k = .unfinished now x ∧ x.Offers now refusal ∧
      (∀ i ≤ k, (snubbed.after i).state.ctx.reason = none ∧
        (snubbed.after i).state.results.failures = []) ∧
      snubbed.after n = .finished t a y ∧ now + 10 ≤ t ∧ t < snubbed.context.tick ∧
      a.outcome = .error (.transport (.sidechannel (.connect
        (.io "unix:///backend" ⟨.connectionRefused, "refused"⟩)))) := by
  have ran : (snubbed.after 4).state.answered = refusalFrame ∧
      (snubbed.after 4).time + 10 ≤ (snubbed.after 7).time ∧
      (snubbed.after 7).time < snubbed.context.tick ∧
      (snubbed.after 7).value?.map Report.outcome =
        some (.error (.transport (.sidechannel (.connect
          (.io "unix:///backend" ⟨.connectionRefused, "refused"⟩))))) ∧
      ∀ i ≤ 4, (snubbed.after i).state.ctx.reason = none ∧
        (snubbed.after i).state.results.failures = [] := by decide +kernel
  obtain ⟨answered, past, early, outcome, unfailed⟩ := ran
  obtain ⟨now, x, here⟩ : ∃ now x, snubbed.after 4 = .unfinished now x :=
    unfinished_of_ne (m := 3) fun same => by
      have still : (snubbed.after 7).time = (snubbed.after 4).time := congrArg Run.time same
      omega
  obtain ⟨t, a, y, concluded⟩ := Run.finished_of_value (r := snubbed.after 7) (by
    cases value : (snubbed.after 7).value? <;> simp_all)
  rw [here, concluded] at past
  rw [concluded] at early outcome
  exact ⟨4, now, x, 7, t, a, y, here, offers_refusal here answered, unfailed, concluded, past, early,
    Option.some.inj outcome⟩

end Scene
end PackRelay
