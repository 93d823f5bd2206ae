import PackRelay.Proofs.Clock.Run
import PackRelay.Proofs.Wire.Frame

/-! Sending a frame to a sink that takes some octets with every write: it is all written, then
flushed once, within the steps that sending grants itself. Until then nothing is flushed. -/
namespace PackRelay

theorem pause_over {now delay t : Nat} (later : t ≤ now) : pause now delay (some t) = none := by
  simp only [pause, later, if_true]

/-- Every write accepts something and every flush succeeds, after whatever delay. -/
structure SinkPlan.Accepts (plan : SinkPlan) : Prop where
  write : ∀ turns accepted, ∃ most, (plan.write turns accepted).answer = .accept most ∧
    most ≠ some 0
  flush : ∀ turns, (plan.flush turns).answer = .done

namespace Sink

variable {now t : Nat} {bs : Bytes} {s : Sink}

/-- Whether a write still waits, as a number of steps. -/
def writePause (now : Nat) (s : Sink) : Nat :=
  if (pause now (s.plan.write s.writeTurns s.accepted).delay s.writeWake).isSome then 1 else 0

/-- Whether a flush still waits, as a number of steps. -/
def flushPause (now : Nat) (s : Sink) : Nat :=
  if (pause now (s.plan.flush s.flushTurns).delay s.flushWake).isSome then 1 else 0

theorem writePause_le (now : Nat) (s : Sink) : s.writePause now ≤ 1 := by
  unfold writePause
  split <;> omega

theorem flushPause_le (now : Nat) (s : Sink) : s.flushPause now ≤ 1 := by
  unfold flushPause
  split <;> omega

theorem pollWriteAll_accepts (now : Nat) (accepts : s.plan.Accepts) (some_octets : bs ≠ []) :
    s.pollWriteAll now bs = .ready (.ok ()) ([], s.accept bs) ∨
    (∃ piece rest, piece ≠ [] ∧ rest ≠ [] ∧ piece ++ rest = bs ∧
      s.pollWriteAll now bs = .more (rest, s.accept piece)) ∨
    ∃ t, s.pollWriteAll now bs = .waiting (bs, { s with writeWake := some t }) (some t) ∧
      ∀ now', t ≤ now' → writePause now' { s with writeWake := some t } < s.writePause now := by
  obtain ⟨most, answer, some_room⟩ := accepts.write s.writeTurns s.accepted
  have octets : bs.isEmpty = false := by simpa using some_octets
  simp only [pollWriteAll, pollWrite, octets, Bool.false_eq_true, if_false, answer]
  cases pausing : pause now (s.plan.write s.writeTurns s.accepted).delay s.writeWake with
  | some t =>
    refine .inr (.inr ⟨t, rfl, fun now' later => ?_⟩)
    simp [writePause, pausing, pause_over later]
  | none =>
    cases bs with
    | nil => exact absurd rfl some_octets
    | cons b bs =>
      cases most with
      | none => exact .inl (by simp)
      | some n =>
        cases n with
        | zero => exact absurd rfl some_room
        | succ n =>
          -- The first octet is taken, and so many of the others.
          obtain ⟨piece, rest, rfl, taken⟩ : ∃ piece rest, bs = piece ++ rest ∧
              (b :: bs).take (n + 1) = b :: piece :=
            ⟨bs.take n, bs.drop n, (List.take_append_drop n bs).symm, rfl⟩
          simp only [taken, Poll.into_ready]
          cases rest with
          | nil => exact .inl (by simp)
          | cons c rest =>
            exact .inr (.inl ⟨b :: piece, c :: rest, List.cons_ne_nil b piece,
              List.cons_ne_nil c rest, rfl, by simp⟩)

theorem pollFlush_accepts (now : Nat) (accepts : s.plan.Accepts) :
    s.pollFlush now = .ready (.ok ()) (s.flushed true) ∨
    ∃ t, s.pollFlush now = .waiting { s with flushWake := some t } (some t) ∧
      ∀ now', t ≤ now' → flushPause now' { s with flushWake := some t } < s.flushPause now := by
  simp only [pollFlush, accepts.flush s.flushTurns]
  cases pausing : pause now (s.plan.flush s.flushTurns).delay s.flushWake with
  | none => exact .inl rfl
  | some t =>
    refine .inr ⟨t, rfl, fun now' later => ?_⟩
    simp [flushPause, pausing, pause_over later]

end Sink

namespace Wire

variable {n now t : Nat} {s s₀ : Sink} {w : Writing} {bs document : Bytes}

/-- Sending octets that make a frame, for so many steps. -/
def sending (n now : Nat) (bs : Bytes) (s : Sink) : Run (Writing × Sink) (Except Error Unit) :=
  run .idle (fun now (w, s) => Writing.poll now w s) n now (.sending bs, s)

theorem send_frame (framed : frame document = .ok bs) :
    send now document s = (sending (2 * bs.length + 16) now bs s).view (·.2) := by
  simp only [send, framed]
  rfl

/-- Where sending `bs` to `s₀` is until it is over: what is left follows what was written, and
nothing was flushed. -/
structure Writing.Pending (s₀ : Sink) (bs : Bytes) (p : Writing × Sink) : Prop where
  written : p.2.written ++ p.1.rest = s₀.written ++ bs
  flushes : p.2.flushes = s₀.flushes
  plan : p.2.plan = s₀.plan

theorem Writing.Step.pending {p : Poll (Writing × Sink) (Except Error Unit)} (step : Step s w p)
    (pending : Pending s₀ bs (w, s)) (going : ∀ a q, p ≠ .ready a q) : Pending s₀ bs p.state := by
  have writes : ∀ {rest : Bytes} {q : Poll (Bytes × Sink) (Except IoError Unit)},
      Pending s₀ bs (.sending rest, s) → s.WriteStep rest q →
        Pending s₀ bs (.sending q.state.1, q.state.2) := fun pending write =>
    ⟨write.written.trans pending.written, write.onlyWrites.flushes.trans pending.flushes,
      write.onlyWrites.plan.trans pending.plan⟩
  cases step with
  | sends rest rest' s' write => exact writes pending write
  | sent rest rest' s' write =>
    have kept := writes pending write
    cases write.rest_nil
    exact ⟨kept.written, kept.flushes, kept.plan⟩
  | stalls rest rest' s' alarm write => exact writes pending write
  | sendCrashes rest rest' s' write => exact writes pending write
  | lingers s' alarm flush =>
    cases flush
    exact ⟨pending.written, pending.flushes, pending.plan⟩
  | flushCrashes s' flush =>
    cases flush
    exact pending
  | sendFails | flushes | flushFails => exact absurd rfl (going _ _)

/-- A step of a task beside which nothing goes on. -/
theorem goes_of_waiting {σ α : Type} {poll : Nat → σ → Poll σ α} {x x' : σ}
    (waits : poll now x = .waiting x' (some t)) :
    Goes .idle poll now x (max t (now + 1)) x' := .sleeps waits rfl rfl

theorem Writing.pending_goes {x x' : Writing × Sink} {now' : Nat} (pending : Pending s₀ bs x)
    (goes : Goes .idle (fun now (w, s) => Writing.poll now w s) now x now' x') :
    Pending s₀ bs x' := by
  have kept := (poll_step now x.1 x.2).pending pending
  cases goes with
  | more went =>
    rw [show x.1.poll now x.2 = .more x' from went] at kept
    exact kept fun _ _ is => nomatch is
  | acts _ act => cases act
  | sleeps went _ _ =>
    rw [show x.1.poll now x.2 = .waiting x' _ from went] at kept
    exact kept fun _ _ is => nomatch is

theorem sending_pending {x : Writing × Sink} (here : sending n now bs s = .unfinished t x) :
    Writing.Pending s bs x :=
  run_keeps (I := fun _ => Writing.Pending s bs) (fun _ _ _ _ => Writing.pending_goes)
    ⟨rfl, rfl, rfl⟩ here

/-- A bound of the steps that sending still takes: two for a write, which takes at least one octet,
and two for the flush. -/
def Writing.left (now : Nat) (p : Writing × Sink) : Nat :=
  match p.1 with
  | .sending rest => 2 * rest.length + p.2.writePause now + 2
  | .flushing => p.2.flushPause now

theorem Writing.poll_accepts (now : Nat) (w : Writing) (accepts : s.plan.Accepts) :
    (w = .flushing ∧ w.poll now s = .ready (.ok ()) (.flushing, s.flushed true)) ∨
    ∃ now' x, Goes .idle (fun now (w, s) => Writing.poll now w s) now (w, s) now' x ∧
      left now' x < left now (w, s) := by
  cases w with
  | sending rest =>
    by_cases is_over : rest = []
    · subst is_over
      have next := s.flushPause_le now
      refine .inr ⟨now, (.flushing, s), .more rfl, ?_⟩
      simp only [left]
      omega
    · rcases s.pollWriteAll_accepts now accepts is_over with
        all | ⟨piece, more, some_taken, some_left, rfl, part⟩ | ⟨t, waits, sooner⟩
      · have next := (s.accept rest).flushPause_le now
        refine .inr ⟨now, (.flushing, s.accept rest), .more ?_, ?_⟩
        · simp only [poll, all, Poll.into_ready]
        · simp only [left]
          omega
      · have next := (s.accept piece).writePause_le now
        have taken := List.length_pos_of_ne_nil some_taken
        refine .inr ⟨now, (.sending more, s.accept piece), .more ?_, ?_⟩
        · simp only [poll, part, Poll.into_more]
        · simp only [left, List.length_append]
          omega
      · have next := sooner (max t (now + 1)) (by omega)
        refine .inr ⟨_, (.sending rest, { s with writeWake := some t }),
          goes_of_waiting (t := t) ?_, ?_⟩
        · simp only [poll, waits, Poll.into_waiting]
        · simp only [left]
          omega
  | flushing =>
    rcases s.pollFlush_accepts now accepts with flushed | ⟨t, waits, sooner⟩
    · refine .inl ⟨rfl, ?_⟩
      simp only [poll, flushed, Poll.into_ready]
      rfl
    · have next := sooner (max t (now + 1)) (by omega)
      refine .inr ⟨_, (.flushing, { s with flushWake := some t }),
        goes_of_waiting (t := t) ?_, next⟩
      simp only [poll, waits, Poll.into_waiting]

/-- What sending `bs` to `s₀` comes to. -/
structure Writing.Over (s₀ : Sink) (bs : Bytes) (a : Except Error Unit) (x : Writing × Sink) :
    Prop where
  value : a = .ok ()
  written : x.2.written = s₀.written ++ bs
  flushes : x.2.flushes = s₀.flushes + 1
  plan : x.2.plan = s₀.plan

theorem sending_accepts (now : Nat) (accepts : s.plan.Accepts) (enough : 2 * bs.length + 3 < n) :
    ∃ t a x, sending n now bs s = .finished t a x ∧ Writing.Over s bs a x := by
  have start : Writing.Pending s bs (.sending bs, s) := ⟨rfl, rfl, rfl⟩
  have room : Writing.left now (.sending bs, s) < n := by
    have := s.writePause_le now
    simp only [Writing.left]
    omega
  refine run_finishes (I := fun _ => Writing.Pending s bs) Writing.left ?_ start room
  rintro now ⟨w, s₁⟩ pending
  rcases Writing.poll_accepts now w (pending.plan ▸ accepts) with ⟨rfl, last⟩ | ⟨_, x, goes, fewer⟩
  · refine .inl ⟨_, _, last, rfl, ?_, congrArg (· + 1) pending.flushes, pending.plan⟩
    exact (List.append_nil _).symm.trans pending.written
  · exact .inr ⟨_, x, goes, Writing.pending_goes pending goes, fewer⟩

theorem send_accepts (now : Nat) (accepts : s.plan.Accepts) (framed : frame document = .ok bs) :
    ∃ t s', send now document s = .finished t (.ok ()) s' ∧ s'.written = s.written ++ bs ∧
      s'.flushes = s.flushes + 1 ∧ s'.plan = s.plan := by
  obtain ⟨t, a, x, finished, is_over⟩ := sending_accepts now accepts
    (show 2 * bs.length + 3 < 2 * bs.length + 16 by omega)
  rw [send_frame framed, finished, is_over.value]
  exact ⟨t, x.2, rfl, is_over.written, is_over.flushes, is_over.plan⟩

/-- What is too large to be sent is refused before the sink is touched. -/
theorem send_large (large : maxFrameLength < document.length) :
    send now document s = .finished now (.error (.frameTooLarge document.length)) s := by
  simp only [send, frame, large, if_true]

/-- Nothing else is refused for its length, whatever the sink does. -/
theorem length_of_refused (refused : (send now document s).value? =
    some (.error (.frameTooLarge n))) : maxFrameLength < document.length := by
  by_contra small
  have framed : frame document = .ok (Bytes.ofWord document.length ++ document) :=
    frame_eq_ok.2 ⟨Nat.not_lt.1 small, rfl⟩
  rw [send_frame framed] at refused
  generalize made : sending _ now _ s = r at refused
  cases r with
  | finished t a x =>
    cases refused
    obtain ⟨_, _, ⟨w, s₁⟩, _, last⟩ := run_last made fun _ _ is => nomatch is
    cases last with
    | finished last =>
      have step := Writing.poll_step t w s₁
      rw [show w.poll t s₁ = .ready (.error (.frameTooLarge n)) x from last] at step
      cases step
  | _ => cases refused

end Wire
end PackRelay
