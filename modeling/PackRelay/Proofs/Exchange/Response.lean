import PackRelay.Exchange.Basic
import PackRelay.Proofs.Clock.Poll
import PackRelay.Proofs.Context.Basic
import PackRelay.Proofs.Stream.Sink

/-! What becomes of the response while an exchange works, whatever its backend is. Octets are only
ever added, none before the status is committed, and no more than the response's plan has room
for. -/
namespace PackRelay

/-- No write is accepted beyond so many octets. -/
def SinkPlan.Within (plan : SinkPlan) (bound : Nat) : Prop :=
  ∀ turns accepted most, (plan.write turns accepted).answer = .accept most →
    ∃ n, most = some n ∧ accepted + n ≤ bound

/-- A later state of a sink, for whoever keeps count of its octets. -/
structure Sink.Fills (s s' : Sink) : Prop where
  plan : s'.plan = s.plan
  written : s.written <+: s'.written
  counted : s.accepted = s.written.length → s'.accepted = s'.written.length
  within : ∀ bound, s.plan.Within bound → s.accepted ≤ bound → s'.accepted ≤ bound

namespace Sink.Fills

variable {s s' s'' : Sink} {bs : Bytes}

theorem refl (s : Sink) : s.Fills s := ⟨rfl, List.prefix_rfl, id, fun _ _ => id⟩

theorem trans (one : s.Fills s') (two : s'.Fills s'') : s.Fills s'' where
  plan := two.plan.trans one.plan
  written := one.written.trans two.written
  counted was := two.counted (one.counted was)
  within bound room fits := two.within bound (one.plan ▸ room) (one.within bound room fits)

theorem of_accept (s : Sink) (bs : Bytes)
    (room : ∀ bound, s.plan.Within bound → s.accepted ≤ bound → s.accepted + bs.length ≤ bound) :
    s.Fills (s.accept bs) where
  plan := rfl
  written := by simp
  counted was := by
    rw [written_accept, List.length_append, ← was]
    rfl
  within := room

theorem of_write (now : Nat) (bs : Bytes) (s : Sink) : s.Fills (s.pollWrite now bs).state := by
  unfold pollWrite
  simp only
  cases pause now (s.plan.write s.writeTurns s.accepted).delay s.writeWake with
  | some t => exact ⟨rfl, List.prefix_rfl, id, fun _ _ => id⟩
  | none =>
    by_cases empty : bs.isEmpty
    · simp only [empty, if_true]
      exact of_accept s [] fun _ _ fits => fits
    · simp only [empty, Bool.false_eq_true, if_false]
      cases answer : (s.plan.write s.writeTurns s.accepted).answer with
      | accept most =>
        refine of_accept s _ fun bound room fits => ?_
        obtain ⟨n, rfl, enough⟩ := room _ _ _ answer
        have short := bs.length_take_le n
        simp only
        omega
      | refuse | fail e => exact ⟨rfl, List.prefix_rfl, id, fun _ _ => id⟩
      | hang | crash => exact refl s

theorem of_writeAll (now : Nat) (bs : Bytes) (s : Sink) :
    s.Fills (s.pollWriteAll now bs).state.2 := by
  have fills := of_write now bs s
  unfold pollWriteAll
  split
  · exact refl s
  · generalize s.pollWrite now bs = p at fills ⊢
    cases p with
    | ready v s' =>
      simp only [Poll.into_ready]
      split
      · exact fills
      · split <;> exact fills
      · split <;> exact fills
    | _ => exact fills

theorem of_flush (now : Nat) (s : Sink) : s.Fills (s.pollFlush now).state := by
  have only := (s.pollFlush_step now).only
  generalize (s.pollFlush now).state = s' at only
  rw [only]
  exact ⟨rfl, List.prefix_rfl, id, fun _ _ => id⟩

end Sink.Fills

namespace ResponseWriter

/-- A later state of a response. -/
structure Onward (w w' : ResponseWriter) : Prop where
  sink : w.sink.Fills w'.sink
  sent : w.headersSent = true → w'.headersSent = true
  unsent : w'.headersSent = false → w'.sink.written = w.sink.written

variable {w w' w'' : ResponseWriter}

theorem Onward.refl (w : ResponseWriter) : w.Onward w := ⟨.refl _, id, fun _ => rfl⟩

theorem Onward.unsent_before (onward : w.Onward w') (unsent : w'.headersSent = false) :
    w.headersSent = false :=
  Bool.eq_false_iff.2 fun sent => Bool.false_ne_true (unsent.symm.trans (onward.sent sent))

theorem Onward.trans (one : w.Onward w') (two : w'.Onward w'') : w.Onward w'' where
  sink := one.sink.trans two.sink
  sent was := two.sent (one.sent was)
  unsent off := (two.unsent off).trans (one.unsent (two.unsent_before off))

theorem onward_commit (fills : w.sink.Fills w'.sink) (sent : w'.headersSent = true) :
    w.Onward w' where
  sink := fills
  sent _ := sent
  unsent off := by
    rw [sent] at off
    cases off

theorem onward_writeAll (now total : Nat) (rest : Bytes) (w : ResponseWriter) :
    w.Onward (w.pollWriteAll now total rest).state.2 := by
  have fills := Sink.Fills.of_writeAll now rest w.sink
  unfold pollWriteAll
  simp only [commit]
  generalize w.sink.pollWriteAll now rest = p at fills ⊢
  cases p with
  | ready v q => cases v <;> exact onward_commit fills rfl
  | _ => exact onward_commit fills rfl

theorem onward_flush (now : Nat) (w : ResponseWriter) : w.Onward (w.pollFlush now).state := by
  have fills := Sink.Fills.of_flush now w.sink
  have only := (w.sink.pollFlush_step now).only.written
  unfold pollFlush
  generalize w.sink.pollFlush now = p at fills only ⊢
  cases p <;> exact ⟨fills, id, fun _ => only⟩

end ResponseWriter

theorem Outbound.response_onward (ctx : Context) (now : Nat) (o : Outbound) (c : Sidechannel) :
    o.response.Onward (o.poll ctx now c).state.1.response := by
  unfold poll
  split
  · unfold pollReading
    cases c.pollRead ctx now relayBuffer with
    | ready v c' => rcases v with e | _ | _ <;> exact .refl _
    | _ => exact .refl _
  · rename_i rest size _
    have onward := ctx.guard_state (I := fun q : Bytes × ResponseWriter => o.response.Onward q.2)
      (s := (rest, o.response)) (.refl _)
      (ResponseWriter.onward_writeAll now size rest o.response)
    unfold pollWriting
    generalize ctx.guard (rest, o.response) (o.response.pollWriteAll now size rest) = p at onward ⊢
    cases p with
    | ready v q => rcases v with r | e | _ <;> exact onward
    | _ => exact onward
  · have onward := ctx.guard_state (.refl _) (ResponseWriter.onward_flush now o.response)
    unfold pollFlushing
    generalize ctx.guard o.response (o.response.pollFlush now) = p at onward ⊢
    cases p with
    | ready v w => rcases v with r | e | _ <;> exact onward
    | _ => exact onward

namespace Exchange

variable {κ : Type} (b : Backend κ) (now : Nat)

theorem response_participant (p : Participant) (x : Exchange κ) :
    x.outbound.response.Onward (pollParticipant b now p x).state.outbound.response := by
  cases p with
  | inbound =>
    simp only [pollParticipant, onChannel]
    split
    · unfold pollInbound
      split
      · exact .refl _
      · cases x.inbound.poll x.ctx now _ with
        | ready r q => cases ok : r.isOk <;> simp only [Poll.into_ready, ok] <;> exact .refl _
        | _ => exact .refl _
    · exact .refl _
  | outbound =>
    simp only [pollParticipant, onChannel]
    split
    · rename_i c _
      unfold pollOutbound
      split
      · exact .refl _
      · have onward := x.outbound.response_onward x.ctx now c
        generalize x.outbound.poll x.ctx now c = p at onward ⊢
        cases p with
        | ready r q => cases ok : r.isOk <;> simp only [Poll.into_ready, ok] <;> exact onward
        | _ => exact onward
    · exact .refl _
  | reply =>
    simp only [pollParticipant]
    unfold pollReply
    split
    · exact .refl _
    · cases x.ctx.guard x.backend (b.reply now x.backend) with
      | ready r k =>
        cases ok : (replied r).isOk <;> simp only [Poll.into_ready, ok] <;> exact .refl _
      | _ => exact .refl _

theorem response_participants (turns : Turns) (x : Exchange κ) :
    x.outbound.response.Onward (x.pollParticipants b turns now).state.outbound.response := by
  refine Poll.all_state (I := fun y : Exchange κ =>
    x.outbound.response.Onward y.outbound.response) ?_ (.refl _)
  exact List.forall_mem_map.2 fun p _ y onward => onward.trans (response_participant b now p y)

/-- However an exchange works, its response goes on. -/
theorem response_onward (turns : Turns) (x : Exchange κ) :
    x.outbound.response.Onward (x.poll b turns now).state.outbound.response := by
  unfold poll
  split
  · unfold pollStart
    cases b.start now (x.ctx, x.backend) with
    | ready v q => cases v <;> exact .refl _
    | _ => exact .refl _
  · unfold pollOpen
    cases b.dial now (x.ctx, x.backend) with
    | ready v q =>
      cases v with
      | ok c => simp only [Poll.into_ready]; split <;> exact .refl _
      | error e => exact .refl _
    | _ => exact .refl _
  · have onward := response_participants b now turns x
    unfold pollRelaying
    generalize x.pollParticipants b turns now = p at onward ⊢
    cases p <;> exact onward
  · unfold pollClosing
    split
    · exact .refl _
    · rename_i c _
      cases c.pollClose now <;> exact .refl _

end Exchange
end PackRelay
