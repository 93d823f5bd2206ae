import PackRelay.Proofs.Relay.Directions

/-! What a relay has carried, chunk by chunk: the chunks that it passed on in full, and a piece of the
one that it has in hand. It fails only with what its streams met, and its sink is finished at most
once, behind the last octet. -/
namespace PackRelay

namespace Source

variable {loop : Bool} {room : Nat} {bs : Bytes} {s s' : Source} {p : Poll Source (Except IoError Bytes)}

theorem chunks_read (s : Source) (room : Nat) (bs : Bytes) :
    (s.read room bs).chunks = bs.take room :: s.chunks := by
  simp only [read]
  split <;> rfl

theorem ReadStep.chunks_ok (some_octets : bs ≠ []) (h : ReadStep loop room s (.ready (.ok bs) s')) :
    s'.chunks = bs :: s.chunks := by
  cases h with
  | ends _ => exact absurd rfl some_octets
  | gives b bs rest _ => exact chunks_read s room (b :: bs)

theorem ReadStep.chunks_eq (h : ReadStep loop room s p) (nothing : ∀ bs s', p ≠ .ready (.ok bs) s') :
    p.state.chunks = s.chunks := by
  cases h with
  | gives b bs rest _ => exact absurd rfl (nothing _ _)
  | _ => rfl

theorem ReadStep.failed {e : IoError} (h : ReadStep loop room s (.ready (.error e) s')) :
    ∃ rest, s.events = .error e :: rest := by
  cases h with
  | fails e rest events => exact ⟨rest, events⟩

end Source

/-- What writing everything fails with when it meets this. -/
inductive WriteAnswer.Fails : WriteAnswer → IoError → Prop
  | fail (e : IoError) : e.kind ≠ .interrupted → Fails (.fail e) e
  | refuse : Fails .refuse .writeZero
  | nothing : Fails (.accept (some 0)) .writeZero

namespace Sink

variable {now : Nat} {bs rest : Bytes} {s s' s'' : Sink} {e : IoError}
    {p : Poll (Bytes × Sink) (Except IoError Unit)}

/-- A piece of what was to be written was, and the rest is still to be. -/
theorem WriteStep.piece (h : WriteStep s bs p) :
    ∃ piece, piece ++ p.state.1 = bs ∧ p.state.2.written = s.written ++ piece := by
  cases h with
  | nothing none => exact ⟨[], none.symm, (List.append_nil _).symm⟩
  | takesAll => exact ⟨bs, List.append_nil bs, written_accept s bs⟩
  | takes k _ _ => exact ⟨bs.take k, List.take_append_drop k bs, written_accept s (bs.take k)⟩
  | fails e s' h =>
    rcases h with rfl | rfl
    · exact ⟨[], rfl, (List.append_nil _).symm⟩
    · exact ⟨[], rfl, written_accept s []⟩
  | _ => exact ⟨[], rfl, (List.append_nil _).symm⟩

theorem WriteStep.rest_ne_nil (h : WriteStep s bs p) (some_octets : bs ≠ [])
    (unwritten : ∀ q, p ≠ .ready (.ok ()) q) : p.state.1 ≠ [] := by
  cases h with
  | nothing _ | takesAll => exact absurd rfl (unwritten _)
  | takes k _ some_left => simpa [Poll.state] using some_left
  | _ => exact some_octets

theorem OnlyWrites.refl (s : Sink) : s.OnlyWrites s := rfl

theorem OnlyWrites.trans (one : s.OnlyWrites s') (two : s'.OnlyWrites s'') : s.OnlyWrites s'' := by
  rw [OnlyWrites, two, one]

theorem pollWriteAll_error (failed : s.pollWriteAll now bs = .ready (.error e) (rest, s')) :
    (s.plan.write s.writeTurns s.accepted).answer.Fails e := by
  cases bs with
  | nil => cases failed
  | cons b bs =>
    simp only [pollWriteAll, List.isEmpty_cons, Bool.false_eq_true, if_false, pollWrite] at failed
    cases pending : pause now (s.plan.write s.writeTurns s.accepted).delay s.writeWake with
    | some t => simp [pending] at failed
    | none =>
      simp only [pending] at failed
      cases answer : (s.plan.write s.writeTurns s.accepted).answer with
      | accept most =>
        -- Whoever accepts at least one octet does not fail.
        have taken : most = some 0 := by
          by_contra some_room
          rcases most with _ | _ | n
          · simp only [answer, Poll.into_ready, List.length_cons] at failed
            split at failed <;> cases failed
          · exact some_room rfl
          · simp only [answer, Poll.into_ready, List.take_succ_cons, List.length_cons] at failed
            split at failed <;> cases failed
        subst taken
        simp only [answer, Poll.into_ready, List.take_zero, List.length_nil] at failed
        cases failed
        exact .nothing
      | refuse =>
        simp only [answer, Poll.into_ready] at failed
        cases failed
        exact .refuse
      | fail e' =>
        simp only [answer, Poll.into_ready] at failed
        split at failed
        · cases failed
        · cases failed
          exact .fail e (by assumption)
      | hang => simp [answer] at failed
      | crash => simp [answer] at failed

theorem pollShutdown_error (failed : s.pollShutdown now = .ready (.error e) s') :
    (s.plan.shutdown s.shutdownTurns).answer = .fail e := by
  simp only [pollShutdown] at failed
  split at failed
  · cases failed
  · split at failed <;> cases failed
    assumption

theorem pollFlush_error (failed : s.pollFlush now = .ready (.error e) s') :
    (s.plan.flush s.flushTurns).answer = .fail e := by
  simp only [pollFlush] at failed
  split at failed
  · cases failed
  · split at failed <;> cases failed
    assumption

end Sink

namespace Flow

/-- How the sink of a direction is finished. -/
structure Finish (k : Kind) where
  poll : Nat → Sink → Poll Sink (Except IoError Unit)
  /-- What finishing it meets. -/
  turn : Sink → FinishTurn
  /-- How often it was answered. -/
  turns : Sink → Nat
  step : ∀ now s, k.finish s (poll now s)
  settled : ∀ {now s s'}, poll now s ≠ .more s'
  fails : ∀ {now s e s'}, poll now s = .ready (.error e) s' → (turn s).answer = .fail e
  answered : ∀ {s v s'}, k.finish s (.ready v s') → turns s' = turns s + 1
  unanswered : ∀ {s s' alarm}, k.finish s (.waiting s' alarm) → turns s' = turns s
  turns_write : ∀ {s s'}, s.OnlyWrites s' → turns s' = turns s

end Flow

/-- The sidechannel is told that no more input comes. -/
def shutting : Flow.Finish inflow where
  poll := fun now s => s.pollShutdown now
  turn s := s.plan.shutdown s.shutdownTurns
  turns := Sink.shutdownTurns
  step now s := s.pollShutdown_step now
  settled {now s s'} more := by
    have step := s.pollShutdown_step now
    rw [more] at step
    cases step
  fails := Sink.pollShutdown_error
  answered h := by cases h <;> rfl
  unanswered h := by cases h; rfl
  turns_write only := by rw [only]

/-- The response is flushed. -/
def flushing : Flow.Finish outflow where
  poll := fun now s => s.pollFlush now
  turn s := s.plan.flush s.flushTurns
  turns := Sink.flushTurns
  step now s := s.pollFlush_step now
  settled {now s s'} more := by
    have step := s.pollFlush_step now
    rw [more] at step
    cases step
  fails := Sink.pollFlush_error
  answered h := by cases h <;> rfl
  unanswered h := by cases h; rfl
  turns_write only := by rw [only]

/-- The chunk that is in hand when a piece of it was written. -/
def Stage.inHand (piece : Bytes) : Stage → List Bytes
  | .writing rest _ => [piece ++ rest]
  | _ => []

namespace Flow

variable {k : Kind} {fin : Finish k} {m₀ m m' : Flow} {p : Poll Flow (Option RelayError)}
    {passed : List Bytes} {piece : Bytes}

/-- Since it began with `m₀`, a relay has passed these chunks on in full, and a piece of the one
after them. -/
structure Carried (m₀ : Flow) (passed : List Bytes) (piece : Bytes) (m : Flow) : Prop where
  read : m.source.chunks.reverse = m₀.source.chunks.reverse ++ (passed ++ m.stage.inHand piece)
  written : m.sink.written = m₀.sink.written ++ (passed.flatten ++ piece)
  bytes : m.bytes = m₀.bytes + passed.flatten.length
  chunk : ∀ c ∈ passed ++ m.stage.inHand piece, c ≠ [] ∧ c.length ≤ relayBuffer
  unwritten : ∀ rest size, m.stage = .writing rest size →
    rest ≠ [] ∧ size = piece.length + rest.length
  idle : m.stage.writes = false → piece = []
  ended : m.stage = .finishing → m.source.events = []

theorem Carried.start (reading : m₀.stage = .reading) : Carried m₀ [] [] m₀ where
  read := by simp [reading, Stage.inHand]
  written := by simp
  bytes := by simp
  chunk c there := by simp [reading, Stage.inHand] at there
  unwritten rest size stage := by rw [reading] at stage; cases stage
  idle _ := rfl
  ended stage := by rw [reading] at stage; cases stage

/-- Reading that brings nothing changes nothing of it. -/
theorem Carried.reading {source : Source} {q : Poll Source (Except IoError Bytes)}
    (carried : Carried m₀ passed piece m) (stage : m.stage = .reading)
    (step : m.source.ReadStep k.loop relayBuffer q) (left : q.state = source)
    (nothing : ∀ bs s', q ≠ .ready (.ok bs) s') : Carried m₀ passed piece { m with source } where
  read := by
    have same := step.chunks_eq nothing
    rw [left] at same
    rw [same]
    exact carried.read
  written := carried.written
  bytes := carried.bytes
  chunk := carried.chunk
  unwritten := carried.unwritten
  idle := carried.idle
  ended h := by rw [stage] at h; cases h

/-- Writing that does not get to the end of a chunk makes the piece longer at most. -/
theorem Carried.writing {rest rest' : Bytes} {size : Nat} {sink : Sink}
    {q : Poll (Bytes × Sink) (Except IoError Unit)} (carried : Carried m₀ passed piece m)
    (stage : m.stage = .writing rest size) (step : m.sink.WriteStep rest q)
    (left : q.state = (rest', sink)) (unwritten : ∀ x, q ≠ .ready (.ok ()) x) :
    ∃ piece', Carried m₀ passed piece' { m with sink, stage := .writing rest' size } := by
  obtain ⟨some_left, length⟩ := carried.unwritten rest size stage
  obtain ⟨more, parts, written⟩ := step.piece
  have still := step.rest_ne_nil some_left unwritten
  rw [left] at parts written still
  simp only at parts
  have whole : piece ++ more ++ rest' = piece ++ rest := by rw [List.append_assoc, parts]
  refine ⟨piece ++ more, ?_, ?_, carried.bytes, ?_, ?_, (fun h => by cases h), (fun h => by cases h)⟩
  · have read := carried.read
    simpa only [stage, Stage.inHand, whole] using read
  · rw [written, carried.written]
    simp only [List.append_assoc]
  · have chunk := carried.chunk
    simpa only [stage, Stage.inHand, whole] using chunk
  · rintro _ _ ⟨⟩
    refine ⟨still, ?_⟩
    rw [length, ← parts, List.length_append, List.length_append]
    omega

theorem Carried.finishing {sink : Sink} {q : Poll Sink (Except IoError Unit)}
    (carried : Carried m₀ passed piece m) (step : k.finish m.sink q) (left : q.state = sink) :
    Carried m₀ passed piece { m with sink } where
  read := carried.read
  written := by
    have only := k.finish_only step
    rw [left] at only
    rw [only.written]
    exact carried.written
  bytes := carried.bytes
  chunk := carried.chunk
  unwritten := carried.unwritten
  idle := carried.idle
  ended := carried.ended

/-- What a read brings is the chunk in hand from then on. -/
theorem Carried.gets {bs : Bytes} {source : Source} (carried : Carried m₀ passed piece m)
    (stage : m.stage = .reading) (some_octets : bs ≠ [])
    (read : m.source.ReadStep k.loop relayBuffer (.ready (.ok bs) source)) :
    Carried m₀ passed [] { m with source, stage := .writing bs bs.length } := by
  have none_in_hand := carried.idle (by rw [stage]; rfl)
  subst none_in_hand
  have before := carried.read
  have chunk := carried.chunk
  simp only [stage, Stage.inHand, List.append_nil] at before chunk
  constructor
  case read => simp [read.chunks_ok some_octets, before, Stage.inHand]
  case written => exact carried.written
  case bytes => exact carried.bytes
  case chunk =>
    intro c there
    rcases List.mem_append.1 there with there | there
    · exact chunk c there
    · obtain rfl := List.mem_singleton.1 there
      exact ⟨some_octets, read.length_le⟩
  case unwritten =>
    rintro _ _ ⟨⟩
    exact ⟨some_octets, (Nat.zero_add _).symm⟩
  case idle => intro h; cases h
  case ended => intro h; cases h

/-- The end of the source comes with nothing in hand. -/
theorem Carried.ends {source : Source} (carried : Carried m₀ passed piece m)
    (stage : m.stage = .reading)
    (read : m.source.ReadStep k.loop relayBuffer (.ready (.ok []) source)) :
    Carried m₀ passed [] { m with source, stage := .finishing } := by
  obtain ⟨concluded, rfl⟩ := read.events_nil relayBuffer_pos
  have none_in_hand := carried.idle (by rw [stage]; rfl)
  subst none_in_hand
  constructor
  case read =>
    have before := carried.read
    rwa [stage] at before
  case written => exact carried.written
  case bytes => exact carried.bytes
  case chunk =>
    have chunk := carried.chunk
    rwa [stage] at chunk
  case unwritten => intro _ _ h; cases h
  case idle => intro _; rfl
  case ended => intro _; exact concluded

/-- With its last octet written, the chunk in hand is one of those that were passed on. -/
theorem Carried.passes {rest rest' : Bytes} {size : Nat} {sink : Sink}
    (carried : Carried m₀ passed piece m) (stage : m.stage = .writing rest size)
    (write : m.sink.WriteStep rest (.ready (.ok ()) (rest', sink))) :
    Carried m₀ (passed ++ [piece ++ rest]) []
      { m with sink, stage := .reading, bytes := m.bytes + size } := by
  cases write.rest_nil
  obtain ⟨-, length⟩ := carried.unwritten rest size stage
  obtain ⟨more, parts, written⟩ := write.piece
  simp only [Poll.state, List.append_nil] at parts written
  subst parts
  have before := carried.read
  have chunk := carried.chunk
  simp only [stage, Stage.inHand] at before chunk
  constructor
  case read => simpa [Stage.inHand] using before
  case written => simp [written, carried.written]
  case bytes =>
    simp only [carried.bytes, length, List.flatten_append, List.length_append, List.flatten_cons,
      List.flatten_nil, List.append_nil]
    omega
  case chunk => simpa [Stage.inHand] using chunk
  case unwritten => intro _ _ h; cases h
  case idle => intro _; rfl
  case ended => intro h; cases h

theorem Step.carried (h : Step k m p) (carried : Carried m₀ passed piece m) :
    ∃ passed' piece', Carried m₀ passed' piece' p.state := by
  cases h with
  | gets bs source stage some_octets read => exact ⟨_, _, carried.gets stage some_octets read⟩
  | ends source stage read => exact ⟨_, _, carried.ends stage read⟩
  | skips source stage read =>
    exact ⟨_, _, carried.reading stage read rfl (fun _ _ h => by cases h)⟩
  | starves source alarm stage read =>
    exact ⟨_, _, carried.reading stage read rfl (fun _ _ h => by cases h)⟩
  | readFails e source stage read =>
    exact ⟨_, _, carried.reading stage read rfl (fun _ _ h => by cases h)⟩
  | readCrashes source stage read =>
    exact ⟨_, _, carried.reading stage read rfl (fun _ _ h => by cases h)⟩
  | takes rest rest' size sink stage write =>
    exact ⟨_, carried.writing stage write rfl (fun _ h => by cases h)⟩
  | passes rest rest' size sink stage write => exact ⟨_, _, carried.passes stage write⟩
  | stalls rest rest' size sink alarm stage write =>
    exact ⟨_, carried.writing stage write rfl (fun _ h => by cases h)⟩
  | writeFails e rest rest' size sink stage write =>
    exact ⟨_, carried.writing stage write rfl (fun _ h => by cases h)⟩
  | writeCrashes rest rest' size sink stage write =>
    exact ⟨_, carried.writing stage write rfl (fun _ h => by cases h)⟩
  | finishes sink stage finish => exact ⟨_, _, carried.finishing finish rfl⟩
  | lingers sink alarm stage finish => exact ⟨_, _, carried.finishing finish rfl⟩
  | finishFails e sink stage finish => exact ⟨_, _, carried.finishing finish rfl⟩
  | finishCrashes sink stage finish => exact ⟨_, _, carried.finishing finish rfl⟩

/-- All that left the source since then is in the sink. -/
def WrittenAll (m₀ m : Flow) : Prop :=
  ∃ octets, m.source.delivered = m₀.source.delivered ++ octets ∧
    m.sink.written = m₀.sink.written ++ octets

theorem Carried.delivered (carried : Carried m₀ passed piece m) :
    m.source.delivered = m₀.source.delivered ++ (passed.flatten ++ (piece ++ m.stage.rest)) := by
  have octets : (m.stage.inHand piece).flatten = piece ++ m.stage.rest := by
    have idle := carried.idle
    cases stage : m.stage with
    | writing rest size => simp [Stage.inHand, Stage.rest]
    | _ => simp [Stage.inHand, Stage.rest, idle (by rw [stage]; rfl)]
  rw [Source.delivered, carried.read, List.flatten_append, List.flatten_append, octets]
  rfl

theorem Carried.written_all (carried : Carried m₀ passed piece m) (stage : m.stage = .finishing) :
    WrittenAll m₀ m := by
  have delivered := carried.delivered
  simp only [stage, Stage.rest, List.append_nil] at delivered
  exact ⟨_, delivered, carried.written⟩

/-- A chunk is never longer than the buffer, and what was written of the one in hand is not all of
it. -/
theorem Carried.piece_lt (carried : Carried m₀ passed piece m) : piece.length < relayBuffer := by
  have idle := carried.idle
  cases stage : m.stage with
  | writing rest size =>
    have some_left := List.length_pos_iff.2 (carried.unwritten rest size stage).1
    have fits := (carried.chunk (piece ++ rest) (by simp [stage, Stage.inHand])).2
    rw [List.length_append] at fits
    omega
  | _ =>
    rw [idle (by rw [stage]; rfl)]
    exact relayBuffer_pos

/-- Its sink was not finished yet, and is as it was but for what was written. -/
structure Pending (fin : Finish k) (m₀ m : Flow) : Prop where
  finished : k.finished m.sink = k.finished m₀.sink
  turns : fin.turns m.sink = fin.turns m₀.sink
  writes : m.stage ≠ .finishing → m₀.sink.OnlyWrites m.sink

theorem Pending.refl (fin : Finish k) (m : Flow) : Pending fin m m := ⟨rfl, rfl, fun _ => rfl⟩

theorem Pending.writing (pending : Pending fin m₀ m) (other : m.stage ≠ .finishing)
    (only : m.sink.OnlyWrites m'.sink) : Pending fin m₀ m' where
  finished := (k.finished_write only).trans pending.finished
  turns := (fin.turns_write only).trans pending.turns
  writes _ := (pending.writes other).trans only

/-- That stays so unless finishing it comes to an end. -/
theorem Step.pending (h : Step k m p) (pending : Pending fin m₀ m)
    (going : ∀ m', p ≠ .crashed m')
    (unanswered : ∀ e m', p = .ready e m' → m.stage ≠ .finishing) :
    Pending fin m₀ p.state := by
  cases h with
  | gets bs source stage _ _ | ends source stage _ | skips source stage _
  | starves source _ stage _ | readFails _ source stage _ =>
    have other : m.stage ≠ .finishing := by rw [stage]; nofun
    exact pending.writing other (.refl m.sink)
  | takes _ _ _ _ stage write | passes _ _ _ _ stage write | stalls _ _ _ _ _ stage write
  | writeFails _ _ _ _ _ stage write =>
    have other : m.stage ≠ .finishing := by rw [stage]; nofun
    exact pending.writing other write.onlyWrites
  | lingers sink alarm stage finish =>
    have same := k.finish_not_ok finish (fun _ h => by cases h)
    exact ⟨same.trans pending.finished, (fin.unanswered finish).trans pending.turns,
      fun other => absurd stage other⟩
  | finishes _ stage _ | finishFails _ _ stage _ => exact absurd stage (unanswered _ _ rfl)
  | readCrashes _ _ _ | writeCrashes _ _ _ _ _ _ | finishCrashes _ _ _ => exact absurd rfl (going _)

/-- Whoever finishes does nothing else any more. -/
theorem Step.stays (h : Step k m p) (finishing : m.stage = .finishing) :
    p.state.stage = .finishing := by
  cases h with
  | finishes _ _ _ | lingers _ _ _ _ | finishFails _ _ _ _ | finishCrashes _ _ _ => exact finishing
  | _ => simp_all

theorem Step.delivered_prefix (h : Step k m p) : m.source.delivered <+: p.state.source.delivered := by
  cases h with
  | gets bs source _ _ read => exact ⟨bs, read.delivered_ok.symm⟩
  | ends source _ read => exact ⟨[], read.delivered_ok.symm⟩
  | skips _ _ read | starves _ _ _ read | readFails _ _ _ read | readCrashes _ _ read =>
    exact ⟨[], (List.append_nil _).trans (read.delivered_eq (fun _ _ h => by cases h)).symm⟩
  | _ => exact List.prefix_refl _

/-- What a relay that nothing stops fails with is what its streams met. -/
inductive Fails (fin : Finish k) (m : Flow) : RelayError → Prop
  | read (e : IoError) (events : List ReadEvent) :
    m.stage = .reading → m.source.events = .error e :: events → Fails fin m (k.readFailure e)
  | write (e : IoError) (rest : Bytes) (size : Nat) :
    m.stage = .writing rest size →
      (m.sink.plan.write m.sink.writeTurns m.sink.accepted).answer.Fails e →
      Fails fin m (k.writeFailure e)
  | finish (e : IoError) :
    m.stage = .finishing → (fin.turn m.sink).answer = .fail e → Fails fin m (k.writeFailure e)

theorem poll_fails {r : Poll Source (Except IoError Bytes)} {now : Nat} {e : RelayError}
    (read : m.source.ReadStep k.loop relayBuffer r)
    (failed : m.poll k now r (fin.poll now m.sink) = .ready (some e) m') : Fails fin m e := by
  cases stage : m.stage with
  | reading =>
    simp only [poll, stage] at failed
    cases r with
    | ready outcome source =>
      cases outcome with
      | error e' =>
        cases failed
        obtain ⟨events, here⟩ := read.failed
        exact .read e' events stage here
      | ok bs => cases bs <;> cases failed
    | _ => cases failed
  | writing rest size =>
    simp only [poll, stage] at failed
    cases written : m.sink.pollWriteAll now rest with
    | ready outcome q =>
      rw [written] at failed
      cases outcome with
      | error e' =>
        cases failed
        exact .write e' rest size stage (Sink.pollWriteAll_error written)
      | ok _ => cases failed
    | _ => rw [written] at failed; cases failed
  | finishing =>
    simp only [poll, stage] at failed
    cases finished : fin.poll now m.sink with
    | ready outcome s =>
      rw [finished] at failed
      cases outcome with
      | error e' =>
        cases failed
        exact .finish e' stage (fin.fails finished)
      | ok _ => cases failed
    | _ => rw [finished] at failed; cases failed

theorem Step.answered {e : Option RelayError} (h : Step k m (.ready e m'))
    (finishing : m.stage = .finishing) : fin.turns m'.sink = fin.turns m.sink + 1 := by
  cases h with
  | finishes _ _ finish | finishFails _ _ _ finish => exact fin.answered finish
  | readFails _ _ stage _ | writeFails _ _ _ _ _ stage _ => rw [finishing] at stage; cases stage

theorem Step.ready_stage {e : Option RelayError} (h : Step k m (.ready e m')) :
    m'.stage = .finishing ↔ m.stage = .finishing := by
  cases h with
  | writeFails _ _ _ _ _ stage _ => simp [stage]
  | _ => rfl

end Flow

end PackRelay
