import PackRelay.Proofs.Stream.Sink
import PackRelay.Sidechannel.Basic

/-! Closing a sidechannel. It is given up first; then its writing side is shut down unless that
was done, and a peer that does not answer is not waited for beyond a limit. -/
namespace PackRelay.Sidechannel

variable {now : Nat} {c c' : Sidechannel} {p : Poll Sidechannel (Except SidechannelError Unit)}

/-- The peer has answered, or there is no more time to wait for it. -/
def Enough (limit now : Nat) : Poll Sink (Except IoError Unit) → Prop
  | .ready _ _ => True
  | .waiting _ _ => limit ≤ now
  | _ => False

/-- All that one step of closing can do. -/
inductive CloseStep (now : Nat) (c : Sidechannel) :
    Poll Sidechannel (Except SidechannelError Unit) → Prop
  | givesUp : c.closeLimit = none → c.isOpen = true → CloseStep now c (.more (c.giveUp now))
  | closed : c.closeLimit = none → c.isOpen = false → CloseStep now c (.ready (.ok ()) c)
  | halfClosed (limit : Nat) :
    c.closeLimit = some limit → c.writeClosed = true → CloseStep now c (.ready (.ok ()) c.letGo)
  | ends (limit : Nat) (v : Except SidechannelError Unit) (q : Poll Sink (Except IoError Unit)) :
    c.closeLimit = some limit → c.writeClosed = false → c.connection.sink.ShutdownStep q →
      Enough limit now q →
      CloseStep now c (.ready v (c.setSink q.state).letGo)
  | waits (limit : Nat) (s : Sink) (alarm : Option Nat) :
    c.closeLimit = some limit → c.writeClosed = false →
      c.connection.sink.ShutdownStep (.waiting s alarm) →
      now < limit → CloseStep now c (.waiting (c.setSink s) (earlier alarm (some limit)))
  | crashes (limit : Nat) (s : Sink) :
    c.closeLimit = some limit → c.writeClosed = false →
      c.connection.sink.ShutdownStep (.crashed s) →
      CloseStep now c (.crashed (c.setSink s))

theorem pollClose_step (now : Nat) (c : Sidechannel) : CloseStep now c (c.pollClose now) := by
  unfold pollClose
  cases limited : c.closeLimit with
  | none =>
    cases held : c.isOpen with
    | true => exact .givesUp limited held
    | false => exact .closed limited held
  | some limit =>
    simp only [pollRelease]
    cases half : c.writeClosed with
    | true => exact .halfClosed limit limited half
    | false =>
      have shut := c.connection.sink.pollShutdown_step now
      simp only [Bool.false_eq_true, if_false]
      generalize c.connection.sink.pollShutdown now = q at shut ⊢
      cases q with
      | ready v s => cases v <;> exact .ends limit _ _ limited half shut trivial
      | more s => cases shut
      | waiting s alarm =>
        simp only
        split
        · rename_i late
          exact .ends limit _ _ limited half shut late
        · exact .waits limit s alarm limited half shut (by omega)
      | crashed s => exact .crashes limit s limited half shut

theorem pollClose_waits {alarm : Option Nat}
    (polled : c.pollClose now = .waiting c' alarm) :
    ∃ limit s a, c.closeLimit = some limit ∧ now < limit ∧
      c.connection.sink.pollShutdown now = .waiting s a ∧ c' = c.setSink s ∧
      alarm = earlier a (some limit) := by
  unfold pollClose at polled
  cases limited : c.closeLimit with
  | none =>
    simp only [limited] at polled
    split at polled <;> cases polled
  | some limit =>
    simp only [limited, pollRelease] at polled
    split at polled
    · cases polled
    · cases shut : c.connection.sink.pollShutdown now with
      | waiting s a =>
        simp only [shut] at polled
        split at polled
        · cases polled
        · rename_i early
          cases polled
          exact ⟨limit, s, a, rfl, Nat.not_le.1 early, rfl, rfl, rfl⟩
      | ready v s =>
        simp only [shut] at polled
        cases v <;> cases polled
      | more s | crashed s =>
        simp only [shut] at polled
        cases polled

/-- The delay that a shutdown still has to wait for. -/
def shutdownPause (now : Nat) (s : Sink) : Option Nat :=
  pause now (s.plan.shutdown s.shutdownTurns).delay s.shutdownWake

/-- A shutdown waits for its delay, or for ever. -/
theorem shutdown_waits {s s' : Sink} {alarm : Option Nat}
    (waits : s.pollShutdown now = .waiting s' alarm) :
    (∃ w, now < w ∧ shutdownPause now s = some w ∧ alarm = some w ∧
      ∀ later, shutdownPause later s' = if w ≤ later then none else some w) ∨
    (shutdownPause now s = none ∧ alarm = none ∧ s' = s) := by
  simp only [Sink.pollShutdown] at waits
  cases pending : pause now (s.plan.shutdown s.shutdownTurns).delay s.shutdownWake with
  | some w =>
    rw [pending] at waits
    cases waits
    exact .inl ⟨w, pause_past pending, pending, rfl, fun later => rfl⟩
  | none =>
    rw [pending] at waits
    simp only at waits
    split at waits <;> cases waits
    exact .inr ⟨pending, rfl, rfl⟩

/-- How many turns the stream may still take until closing is over. -/
def closingTurns (now : Nat) (c : Sidechannel) : Nat :=
  match c.closeLimit with
  | none => 4
  | some limit =>
    if limit ≤ now then 1 else match shutdownPause now c.connection.sink with
      | some _ => 3
      | none => 2

theorem closingTurns_giveUp (unlimited : c.closeLimit = none) :
    (c.giveUp now).closingTurns now < c.closingTurns now := by
  simp only [closingTurns, giveUp, unlimited]
  split
  · decide
  · split <;> decide

/-- Whoever waits for the stream has less to wait for at the time that is named, and no more before.
-/
theorem closingTurns_waits {alarm : Option Nat} (polled : c.pollClose now = .waiting c' alarm) :
    ∃ t, alarm = some t ∧ now < t ∧ c'.closingTurns t < c.closingTurns now ∧
      ∀ later, now ≤ later → c'.closingTurns later ≤ c.closingTurns now := by
  obtain ⟨limit, s, a, limited, early, waits, rfl, rfl⟩ := pollClose_waits polled
  have after : ∀ u, (c.setSink s).closingTurns u = if limit ≤ u then 1
      else match shutdownPause u s with | some _ => 3 | none => 2 := fun u => by
    simp only [closingTurns, setSink, setConnection, Connection.setSink, limited]
  have here : c.closingTurns now =
      match shutdownPause now c.connection.sink with | some _ => 3 | none => 2 := by
    simp only [closingTurns, limited, if_neg (Nat.not_le.2 early)]
  rcases shutdown_waits waits with ⟨w, past, pending, rfl, later⟩ | ⟨halted, rfl, rfl⟩
  · -- The delay is over, or the time that closing has, whichever comes first.
    refine ⟨min w limit, rfl, by omega, ?_, fun u _ => ?_⟩
    · rw [after, here, pending, later]
      split
      · simp
      · rw [if_pos (by omega)]
        simp
    · rw [after, here, pending]
      split
      · simp
      · split <;> simp
  · -- Nothing is coming any more but the end of that time.
    refine ⟨limit, rfl, early, ?_, fun u le => ?_⟩
    · rw [after, here, halted, if_pos le_rfl]
      decide
    · have still : shutdownPause u c.connection.sink = none := pause_stays halted le
      rw [after, here, halted, still]
      split <;> decide

end PackRelay.Sidechannel
