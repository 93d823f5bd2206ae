import PackRelay.Proofs.Clock.Poll
import PackRelay.Proofs.Sidechannel.Close
import PackRelay.Relay.Outbound

/-! How often a sidechannel is given up. Reading and writing leave that alone, and closing and
dropping give it up only if nothing did before. -/
namespace PackRelay

namespace Sidechannel

variable {c c' c'' : Sidechannel} {ctx : Context} {now room : Nat} {bs : Bytes}

/-- Given up once if it is closed, and not yet if it is open. -/
def Counted (c : Sidechannel) : Prop := c.closeCount = if c.isOpen then 0 else 1

/-- Neither given up meanwhile nor opened again. -/
structure Alike (c c' : Sidechannel) : Prop where
  isOpen : c'.isOpen = c.isOpen
  closeCount : c'.closeCount = c.closeCount

theorem Alike.refl (c : Sidechannel) : c.Alike c := ⟨rfl, rfl⟩

theorem Counted.of_alike (counted : c.Counted) (alike : c.Alike c') : c'.Counted := by
  rw [Counted, alike.closeCount, alike.isOpen]
  exact counted

theorem pollRead_alike (ctx : Context) (now room : Nat) (c : Sidechannel) :
    c.Alike (c.pollRead ctx now room).state := by
  unfold pollRead
  split
  · exact .refl c
  · cases ctx.guard c.connection (c.connection.pollRead now room) <;> exact ⟨rfl, rfl⟩

theorem pollWriteAll_alike (ctx : Context) (now : Nat) (rest : Bytes) (c : Sidechannel) :
    c.Alike (c.pollWriteAll ctx now rest).state.2 := by
  unfold pollWriteAll
  split
  · exact .refl c
  · cases ctx.guard (rest, c.connection.sink) (c.connection.sink.pollWriteAll now rest) <;>
      exact ⟨rfl, rfl⟩

theorem pollCloseWrite_alike (ctx : Context) (now : Nat) (c : Sidechannel) :
    c.Alike (c.pollCloseWrite ctx now).state := by
  unfold pollCloseWrite
  split
  · exact .refl c
  · split
    · exact .refl c
    · cases ctx.guard c.connection.sink (c.connection.sink.pollShutdown now) with
      | ready value s =>
        simp only [Poll.into_ready]
        split <;> exact ⟨rfl, rfl⟩
      | _ => exact ⟨rfl, rfl⟩

/-- Only a channel that is open is given up while it is closed. -/
theorem CloseStep.counted {p : Poll Sidechannel (Except SidechannelError Unit)}
    (step : c.CloseStep now p) (counted : c.Counted) : p.state.Counted := by
  cases step with
  | givesUp limited held =>
    rw [Counted, held] at counted
    simp [Poll.state, Counted, giveUp, counted]
  | _ => exact counted

/-- A channel that is let go was given up once, by whomever. -/
theorem Counted.drop (counted : c.Counted) :
    c.drop.isOpen = false ∧ c.drop.closeCount = 1 ∧ c.drop.connection.sink.released = true := by
  unfold Sidechannel.drop
  cases held : c.isOpen <;> simp only [Counted, held] at counted
  · exact ⟨held, counted, rfl⟩
  · exact ⟨rfl, by simp [letGo, counted], rfl⟩

end Sidechannel

namespace Inbound

theorem poll_alike (ctx : Context) (now : Nat) (i : Inbound) (c : Sidechannel) :
    c.Alike (i.poll ctx now c).state.2 := by
  unfold poll
  split
  · unfold pollReading
    cases ctx.guard i.body (i.body.poll now relayBuffer) with
    | ready value body =>
      simp only [Poll.into_ready]
      split <;> exact .refl c
    | _ => exact .refl c
  · rename_i rest size _
    unfold pollWriting
    have alike := Sidechannel.pollWriteAll_alike ctx now rest c
    generalize c.pollWriteAll ctx now rest = p at alike ⊢
    cases p with
    | ready value q => cases value <;> exact alike
    | _ => exact alike
  · unfold pollClosing
    have alike := Sidechannel.pollCloseWrite_alike ctx now c
    generalize c.pollCloseWrite ctx now = p at alike ⊢
    cases p with
    | ready value q => cases value <;> exact alike
    | _ => exact alike

end Inbound

namespace Outbound

theorem poll_alike (ctx : Context) (now : Nat) (o : Outbound) (c : Sidechannel) :
    c.Alike (o.poll ctx now c).state.2 := by
  unfold poll
  split
  · unfold pollReading
    have alike := Sidechannel.pollRead_alike ctx now relayBuffer c
    generalize c.pollRead ctx now relayBuffer = p at alike ⊢
    cases p with
    | ready value q =>
      simp only [Poll.into_ready]
      split <;> exact alike
    | _ => exact alike
  · rename_i rest size _
    unfold pollWriting
    cases ctx.guard (rest, o.response) (o.response.pollWriteAll now size rest) with
    | ready value q =>
      simp only [Poll.into_ready]
      split <;> exact .refl c
    | _ => exact .refl c
  · unfold pollFlushing
    cases ctx.guard o.response (o.response.pollFlush now) with
    | ready value q =>
      simp only [Poll.into_ready]
      split <;> exact .refl c
    | _ => exact .refl c

end Outbound
end PackRelay
