import PackRelay.Proofs.Exchange.Response
import PackRelay.Proofs.Relay.Directions

/-! What a relay counts against what its sink accepted. Whatever the context says, and whether or not
the sidechannel can still be used, a relay counts a chunk only once the sink has all of it. -/
namespace PackRelay

/-- Behind what the sink had before, it has what was counted and what is gone of the chunk in hand. -/
structure Passed (before : Bytes) (bytes : Nat) (stage : Stage) (s : Sink) : Prop where
  written : before <+: s.written
  counted : before.length + bytes + stage.size = s.written.length + stage.rest.length
  left : stage.rest.length ≤ stage.size

namespace Passed

variable {before : Bytes} {bytes size now : Nat} {stage : Stage} {rest : Bytes} {s s' : Sink}

theorem begin (s : Sink) : Passed s.written 0 .reading s := ⟨List.prefix_rfl, rfl, le_rfl⟩

theorem takes (passed : Passed before bytes .reading s) (bs : Bytes) :
    Passed before bytes (.writing bs bs.length) s where
  written := passed.written
  counted := congrArg (· + bs.length) passed.counted
  left := le_rfl

theorem finishes (passed : Passed before bytes .reading s) : Passed before bytes .finishing s :=
  ⟨passed.written, passed.counted, le_rfl⟩

theorem counts (passed : Passed before bytes (.writing [] size) s) :
    Passed before (bytes + size) .reading s where
  written := passed.written
  counted := (Nat.add_assoc ..).symm.trans passed.counted
  left := le_rfl

theorem of_written (passed : Passed before bytes stage s) (same : s'.written = s.written) :
    Passed before bytes stage s' :=
  ⟨same ▸ passed.written, same ▸ passed.counted, passed.left⟩

/-- A write moves octets from the chunk in hand into the sink. -/
theorem write (passed : Passed before bytes (.writing rest size) s) (now : Nat) :
    Passed before bytes (.writing (s.pollWriteAll now rest).state.1 size)
      (s.pollWriteAll now rest).state.2 := by
  have onward := (Sink.Fills.of_writeAll now rest s).written
  have moved := congrArg List.length (s.pollWriteAll_step now rest).written
  obtain ⟨written, counted, left⟩ := passed
  have longer := onward.length_le
  simp only [List.length_append, Stage.size_writing, Stage.rest_writing] at moved counted left
  refine ⟨written.trans onward, ?_, ?_⟩ <;> simp only [Stage.size_writing, Stage.rest_writing]
  · omega
  · omega

/-- What was counted, the sink has accepted. -/
theorem accepted (passed : Passed before bytes stage s) :
    ∃ sent, s.written = before ++ sent ∧ bytes ≤ sent.length := by
  obtain ⟨⟨sent, same⟩, counted, left⟩ := passed
  refine ⟨sent, same.symm, ?_⟩
  rw [← same, List.length_append] at counted
  omega

end Passed

theorem Context.ready_of_guard {σ α : Type} {ctx : Context} {s s' : σ} {p : Poll σ α} {a : α}
    (ready : ctx.guard s p = .ready (.ok a) s') : p = .ready a s' := by
  unfold Context.guard at ready
  split at ready
  · cases ready
  · cases p <;> cases ready
    rfl

namespace Sidechannel

variable {c c' : Sidechannel} {ctx : Context} {now bytes size : Nat} {before rest rest' : Bytes}

theorem pollWriteAll_passed (ctx : Context) (now : Nat)
    (passed : Passed before bytes (.writing rest size) c.connection.sink) :
    Passed before bytes (.writing (c.pollWriteAll ctx now rest).state.1 size)
      (c.pollWriteAll ctx now rest).state.2.connection.sink := by
  unfold pollWriteAll
  split
  · exact passed
  · have kept := ctx.guard_state
      (I := fun q : Bytes × Sink => Passed before bytes (.writing q.1 size) q.2)
      (s := (rest, c.connection.sink)) passed (passed.write now)
    generalize ctx.guard (rest, c.connection.sink) (c.connection.sink.pollWriteAll now rest) = p
      at kept ⊢
    cases p <;> exact kept

theorem rest_of_pollWriteAll
    (ready : c.pollWriteAll ctx now rest = .ready (.ok ()) (rest', c')) : rest' = [] := by
  unfold pollWriteAll at ready
  split at ready
  · cases ready
  · obtain ⟨v, ⟨left, s⟩, guarded, is⟩ := Poll.ready_of_into ready
    rcases v with r | e | _ <;> cases is
    have step := c.connection.sink.pollWriteAll_step now rest
    rw [Context.ready_of_guard guarded] at step
    exact step.rest_nil

theorem pollCloseWrite_written (ctx : Context) (now : Nat) (c : Sidechannel) :
    (c.pollCloseWrite ctx now).state.connection.sink.written = c.connection.sink.written := by
  unfold pollCloseWrite
  split
  · rfl
  · split
    · rfl
    · have kept := ctx.guard_state (I := fun s : Sink => s.written = c.connection.sink.written)
        rfl (c.connection.sink.pollShutdown_step now).only.written
      generalize ctx.guard c.connection.sink (c.connection.sink.pollShutdown now) = p at kept ⊢
      cases p with
      | ready v s => rcases v with r | e | _ <;> exact kept
      | _ => exact kept

theorem pollRead_sink (ctx : Context) (now room : Nat) (c : Sidechannel) :
    (c.pollRead ctx now room).state.connection.sink = c.connection.sink := by
  unfold pollRead
  split
  · rfl
  · obtain ⟨p, _, same⟩ := c.connection.pollRead_step now room
    have kept := ctx.guard_state (I := fun k : Connection => k.sink = c.connection.sink)
      (s := c.connection) (p := c.connection.pollRead now room) rfl (by
        rw [same]
        cases p <;> rfl)
    generalize ctx.guard c.connection (c.connection.pollRead now room) = p at kept ⊢
    cases p <;> exact kept

end Sidechannel

namespace ResponseWriter

variable {w w' : ResponseWriter} {now total bytes size : Nat} {before rest rest' : Bytes}

theorem pollWriteAll_passed (now total : Nat)
    (passed : Passed before bytes (.writing rest size) w.sink) :
    Passed before bytes (.writing (w.pollWriteAll now total rest).state.1 size)
      (w.pollWriteAll now total rest).state.2.sink := by
  have kept := passed.write now
  unfold pollWriteAll
  simp only [commit]
  generalize w.sink.pollWriteAll now rest = p at kept ⊢
  cases p with
  | ready v q => cases v <;> exact kept
  | _ => exact kept

theorem rest_of_pollWriteAll
    (ready : w.pollWriteAll now total rest = .ready (.ok ()) (rest', w')) : rest' = [] := by
  obtain ⟨v, ⟨left, s⟩, polled, is⟩ := Poll.ready_of_into ready
  cases v <;> cases is
  have step := w.commit.sink.pollWriteAll_step now rest
  rw [polled] at step
  exact step.rest_nil

theorem pollFlush_written (now : Nat) (w : ResponseWriter) :
    (w.pollFlush now).state.sink.written = w.sink.written := by
  have same := (w.sink.pollFlush_step now).only.written
  unfold pollFlush
  generalize w.sink.pollFlush now = p at same ⊢
  cases p <;> exact same

end ResponseWriter

namespace Inbound

variable {ctx : Context} {now : Nat} {i : Inbound} {c : Sidechannel} {before : Bytes}

/-- The account of a relay of the request body, with the sidechannel that it relays to. -/
def Balances (before : Bytes) (q : Inbound × Sidechannel) : Prop :=
  Passed before q.1.bytes q.1.phase.stage q.2.connection.sink

theorem poll_balances (ctx : Context) (now : Nat) (balances : Balances before (i, c)) :
    Balances before (i.poll ctx now c).state := by
  obtain ⟨body, bytes, phase⟩ := i
  cases phase with
  | reading =>
    simp only [poll, pollReading]
    cases ctx.guard body (body.poll now relayBuffer) with
    | ready v body' =>
      rcases v with r | e | _ | ⟨b, bs⟩
      · exact balances
      · exact balances
      · exact balances.finishes
      · exact balances.takes (b :: bs)
    | _ => exact balances
  | writing rest size =>
    simp only [poll, pollWriting]
    have kept := c.pollWriteAll_passed ctx now balances
    cases polled : c.pollWriteAll ctx now rest with
    | ready v q =>
      obtain ⟨rest', c'⟩ := q
      rw [polled] at kept
      cases v with
      | error e => exact kept
      | ok _ =>
        cases c.rest_of_pollWriteAll polled
        exact kept.counts
    | _ => rwa [polled] at kept
  | closing =>
    simp only [poll, pollClosing]
    have same := c.pollCloseWrite_written ctx now
    generalize c.pollCloseWrite ctx now = p at same ⊢
    cases p with
    | ready v c' => cases v <;> exact balances.of_written same
    | _ => exact balances.of_written same

/-- A relay that is over tells what it counted. -/
theorem bytes_of_poll {r : RelayResult} {q : Inbound × Sidechannel}
    (ready : i.poll ctx now c = .ready r q) : r.bytes = q.1.bytes := by
  unfold poll at ready
  split at ready
  · obtain ⟨v, body', _, is⟩ := Poll.ready_of_into ready
    rcases v with r | e | _ | _ <;> cases is <;> rfl
  · obtain ⟨v, ⟨rest', c'⟩, _, is⟩ := Poll.ready_of_into ready
    cases v <;> cases is
    rfl
  · obtain ⟨v, c', _, is⟩ := Poll.ready_of_into ready
    cases v <;> cases is <;> rfl

end Inbound

namespace Outbound

variable {ctx : Context} {now : Nat} {o : Outbound} {c : Sidechannel} {before : Bytes}

/-- The account of a relay into the response. -/
def Balances (before : Bytes) (o : Outbound) : Prop :=
  Passed before o.bytes o.phase.stage o.response.sink

theorem poll_balances (ctx : Context) (now : Nat) (c : Sidechannel) (balances : Balances before o) :
    Balances before (o.poll ctx now c).state.1 := by
  obtain ⟨w, bytes, phase⟩ := o
  cases phase with
  | reading =>
    simp only [poll, pollReading]
    cases c.pollRead ctx now relayBuffer with
    | ready v c' =>
      rcases v with e | _ | ⟨b, bs⟩
      · exact balances
      · exact balances.finishes
      · exact balances.takes (b :: bs)
    | _ => exact balances
  | writing rest size =>
    simp only [poll, pollWriting]
    have kept := ctx.guard_state
      (I := fun q : Bytes × ResponseWriter => Passed before bytes (.writing q.1 size) q.2.sink)
      (s := (rest, w)) balances (w.pollWriteAll_passed now size balances)
    cases guarded : ctx.guard (rest, w) (w.pollWriteAll now size rest) with
    | ready v q =>
      obtain ⟨rest', w'⟩ := q
      rw [guarded] at kept
      rcases v with r | e | _
      · exact kept
      · exact kept
      · cases w.rest_of_pollWriteAll (Context.ready_of_guard guarded)
        exact kept.counts
    | _ => rwa [guarded] at kept
  | flushing =>
    simp only [poll, pollFlushing]
    have same := ctx.guard_state (I := fun w' : ResponseWriter => w'.sink.written = w.sink.written)
      rfl (w.pollFlush_written now)
    generalize ctx.guard w (w.pollFlush now) = p at same ⊢
    cases p with
    | ready v w' => rcases v with r | e | _ <;> exact balances.of_written same
    | _ => exact balances.of_written same

theorem bytes_of_poll {r : RelayResult} {q : Outbound × Sidechannel}
    (ready : o.poll ctx now c = .ready r q) : r.bytes = q.1.bytes := by
  unfold poll at ready
  split at ready
  · obtain ⟨v, c', _, is⟩ := Poll.ready_of_into ready
    rcases v with e | _ | _ <;> cases is
    rfl
  · obtain ⟨v, ⟨rest', w⟩, _, is⟩ := Poll.ready_of_into ready
    rcases v with r | e | _ <;> cases is <;> rfl
  · obtain ⟨v, w, _, is⟩ := Poll.ready_of_into ready
    rcases v with r | e | _ <;> cases is <;> rfl

/-- A relay into the response writes nothing to the sidechannel. -/
theorem poll_sink (ctx : Context) (now : Nat) (o : Outbound) (c : Sidechannel) :
    (o.poll ctx now c).state.2.connection.sink = c.connection.sink := by
  unfold poll
  split
  · have same := c.pollRead_sink ctx now relayBuffer
    unfold pollReading
    generalize c.pollRead ctx now relayBuffer = p at same ⊢
    cases p with
    | ready v c' => rcases v with e | _ | _ <;> exact same
    | _ => exact same
  · unfold pollWriting
    cases ctx.guard _ _ with
    | ready v q => rcases v with r | e | _ <;> rfl
    | _ => rfl
  · unfold pollFlushing
    cases ctx.guard _ _ with
    | ready v w => rcases v with r | e | _ <;> rfl
    | _ => rfl

end Outbound
end PackRelay
