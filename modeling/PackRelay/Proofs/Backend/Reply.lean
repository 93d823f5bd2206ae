import PackRelay.Backend.Wired
import PackRelay.Proofs.Context.Basic
import PackRelay.Proofs.Wire.AtHand
import PackRelay.Proofs.Wire.Receive

/-! Reading a frame by its octets alone. How they are cut up, how long they take and how often a read
is interrupted makes no difference; and whoever waits for the reply of a call never looks at what
stands behind it. -/
namespace PackRelay

/-! ## Interrupted reads -/

/-- An interrupted read is tried again, as if it had delivered nothing. -/
def ReadEvent.retried : ReadEvent → ReadEvent
  | .error e => if e.kind = .interrupted then .data [] else .error e
  | e => e

namespace Source

variable {s : Source}

def retried (s : Source) : Source := { s with events := s.events.map ReadEvent.retried }

theorem retried_skip (s : Source) : s.skip.retried = s.retried.skip := by
  simp [retried, skip]

theorem retried_push (s : Source) (bs : Bytes) : (s.push bs).retried = s.retried.push bs := rfl

theorem retried_read (s : Source) (room : Nat) (bs : Bytes) :
    (s.read room bs).retried = s.retried.read room bs := by
  unfold read
  split
  · exact congrArg (fun s' : Source => { s' with chunks := bs.take room :: s.chunks }) s.retried_skip
  · exact congrArg (fun s' : Source => { s'.push (bs.drop room) with chunks := bs.take room :: s.chunks })
      s.retried_skip

theorem delivers_retried (s : Source) : s.retried.delivers = s.delivers := by
  simp only [delivers, retried, List.flatMap_map]
  congr 1
  funext e
  cases e with
  | error e =>
    by_cases kind : e.kind = .interrupted <;> simp [ReadEvent.retried, kind]
  | _ => rfl

end Source

namespace Connection

def retried (c : Connection) : Connection := c.setSource c.source.retried

theorem readBudget_retried (c : Connection) : c.retried.readBudget = c.readBudget := by
  simp only [readBudget, retried, setSource, Source.delivers_retried]
  simp [Source.retried]

/-- What a read comes to when it is tried again. -/
theorem pollRead_retried (now room : Nat) (c : Connection) :
    c.retried.pollRead now room = (c.pollRead now room).into retried fun result c' =>
      match result with
      | .ok bs => .ready (.ok bs) c'.retried
      | .error e => if e.kind = .interrupted then .more c'.retried else .ready (.error e) c'.retried := by
  have skipped : c.source.skip.retried = c.source.retried.skip := c.source.retried_skip
  cases events : c.source.events with
  | nil => simp [pollRead, retried, setSource, Source.poll, Source.retried, events, Poll.within]
  | cons e rest =>
    have here : c.source.retried.events = e.retried :: rest.map ReadEvent.retried := by
      simp [Source.retried, events]
    cases e with
    | data bs =>
      cases bs with
      | nil =>
        simp [pollRead, retried, setSource, Source.poll, here, events, Poll.within, ReadEvent.retried,
          skipped]
      | cons b bs =>
        simp [pollRead, retried, setSource, Source.poll, here, events, Poll.within, ReadEvent.retried,
          Source.retried_read]
    | error e =>
      by_cases kind : e.kind = .interrupted <;>
        simp [pollRead, retried, setSource, Source.poll, here, events, Poll.within, ReadEvent.retried,
          kind, skipped]
    | delay ms =>
      have same : c.source.retried.wake = c.source.wake := rfl
      simp only [pollRead, retried, setSource, Source.poll, here, events, Poll.within,
        ReadEvent.retried, same]
      cases pause now ms c.source.wake with
      | none => simp [retried, setSource, skipped]
      | some t => simp [retried, setSource, Source.retried, events, ReadEvent.retried]
    | awaitShutdown =>
      by_cases off : c.sink.isShutDown <;>
        simp [pollRead, retried, setSource, here, events, ReadEvent.retried, off, skipped]
    | awaitWritten count =>
      by_cases there : count ≤ c.sink.accepted <;> by_cases off : c.sink.isShutDown <;>
        simp [pollRead, retried, setSource, here, events, ReadEvent.retried, there, off, skipped]
    | _ =>
      simp [pollRead, retried, setSource, Source.poll, here, events, Poll.within, ReadEvent.retried,
        skipped, Source.retried_push, echoed]

end Connection

namespace Wire

variable {α : Type} {decode : Bytes → Except Json.Fault α} {now : Nat} {f : Filling} {r : Reading}
    {c : Connection} {b rest document bs : Bytes} {after : List ReadEvent} {e : Error}

theorem Filling.poll_retried (now : Nat) (f : Filling) (c : Connection) :
    (f.poll now c).map id (fun p => (p.1, p.2.retried)) = f.poll now c.retried := by
  unfold poll
  split
  · rfl
  · rw [c.pollRead_retried]
    cases c.pollRead now f.missing with
    | ready result c' =>
      cases result with
      | ok bs => cases bs <;> rfl
      | error e => by_cases kind : e.kind = .interrupted <;> simp [kind, Poll.map]
    | _ => rfl

theorem Reading.poll_retried (now : Nat) (r : Reading) (c : Connection) :
    (r.poll decode now c).map id (fun p => (p.1, p.2.retried)) = r.poll decode now c.retried := by
  cases r with
  | header f =>
    simp only [poll, ← f.poll_retried]
    rcases f.poll now c with ⟨_ | word, f', c'⟩ | _ | _ | _
    · rfl
    · by_cases large : maxFrameLength < Bytes.toWord word <;> simp [large, Poll.map]
    all_goals rfl
  | document f =>
    simp only [poll, ← f.poll_retried]
    rcases f.poll now c with ⟨_ | bs, f', c'⟩ | _ | _ | _ <;> rfl

/-- Interruptions do not change what a step of reading can do. -/
theorem Reading.poll_brings_retried {d₀ : Bytes} (decode : Bytes → Except Json.Fault α) (now : Nat)
    (fed : Whole b ∨ Torn after e)
    (expects : Expects d₀ b after (r, c.retried)) :
    BringStep decode now d₀ b after e (r, c.retried)
      ((r.poll decode now c).map id fun p => (p.1, p.2.retried)) := by
  rw [poll_retried]
  exact poll_brings decode now fed expects

theorem receive_retried (decode : Bytes → Except Json.Fault α) (now : Nat) (c : Connection) :
    (receive decode now c).view Connection.retried = receive decode now c.retried := by
  have same : (run .idle (fun now (x : Reading × Connection) => Reading.poll decode now x.1 x.2)
        c.readBudget now (.start, c)).view (fun x => (x.1, x.2.retried)) =
      run .idle (fun now x => Reading.poll decode now x.1 x.2) c.readBudget now (.start, c.retried) :=
    run_view (fun x => (x.1, x.2.retried)) (fun _ _ => rfl) (fun _ _ => rfl)
      (fun now x => Reading.poll_retried now x.1 x.2) c.readBudget now (.start, c)
  rw [receive, receive, c.readBudget_retried, ← same]
  cases run .idle (fun now (x : Reading × Connection) => Reading.poll decode now x.1 x.2)
    c.readBudget now (.start, c) <;> rfl

theorem receive_judged_retried (decode : Bytes → Except Json.Fault α) (now : Nat)
    (fed : Whole b ∨ Torn after e) (brings : c.retried.source.Brings b after) :
    ∃ t a c', receive decode now c = .finished t a c' ∧
      Judged decode c.source.delivered b after e a c'.retried.source := by
  obtain ⟨t, a, c₁, finished, judged⟩ := receive_judged decode now fed brings
  rw [← receive_retried] at finished
  cases received : receive decode now c with
  | finished t' a' c' =>
    rw [received] at finished
    cases finished
    exact ⟨t, a, c', rfl, judged⟩
  | _ => rw [received] at finished; cases finished

/-- What is there of a frame that was cut short is never taken for one. -/
theorem Judged.torn_of_prefix {d₀ : Bytes} {a : Except Error α} {s : Source}
    (framed : frame document = .ok bs) (part : b <+: bs) (other : b ≠ bs)
    (judged : Judged decode d₀ b after e a s) : a = .error e := by
  obtain ⟨small, rfl⟩ := frame_eq_ok.1 framed
  have shorter : b.length < 4 + document.length := by
    have less := Nat.lt_of_le_of_ne part.length_le fun same => other (part.eq_of_length same)
    rwa [List.length_append, Bytes.length_ofWord] at less
  have count : 4 ≤ b.length → announced b = document.length := fun four => by
    obtain ⟨rest, whole⟩ := part
    have head : b.take 4 = Bytes.ofWord document.length := by
      rw [← List.take_append_of_le_length four, whole,
        ← Bytes.length_ofWord document.length, List.take_left]
    rw [announced, head, toWord_length small]
  cases judged with
  | torn _ _ _ => rfl
  | refused _ four large _ _ =>
    have := count four
    omega
  | taken _ enough _ _ _ =>
    have := count (by omega)
    omega

/-! ## A frame and what stands behind it -/

section Behind

variable {d₀ : Bytes} {a : Except Error α} {s : Source} {x : Reading × Connection}

theorem announced_of_frame (framed : frame document = .ok bs) (rest : Bytes) :
    announced (bs ++ rest) = document.length ∧ bs.length = 4 + document.length := by
  obtain ⟨small, rfl⟩ := frame_eq_ok.1 framed
  rw [List.append_assoc, announced_append (Bytes.length_ofWord _), toWord_length small]
  exact ⟨rfl, by rw [List.length_append, Bytes.length_ofWord]⟩

theorem whole_of_frame (framed : frame document = .ok bs) (rest : Bytes) : Whole (bs ++ rest) := by
  obtain ⟨count, length⟩ := announced_of_frame framed rest
  simp only [Whole, count, List.length_append, length]
  omega

theorem Judged.of_frame (framed : frame document = .ok bs)
    (judged : Judged decode d₀ (bs ++ rest) after e a s) :
    a = (decode document).mapError .malformed ∧ s.delivered = d₀ ++ bs := by
  obtain ⟨count, length⟩ := announced_of_frame framed rest
  obtain ⟨small, same⟩ := frame_eq_ok.1 framed
  have longer : (bs ++ rest).length = 4 + document.length + rest.length := by
    rw [List.length_append, length]
  cases judged with
  | torn _ short _ => omega
  | refused _ _ large _ _ => omega
  | taken _ _ _ delivered _ =>
    rw [count, ← length, List.take_left] at delivered
    refine ⟨?_, delivered⟩
    rw [count, same, List.append_assoc, ← Bytes.length_ofWord document.length, List.drop_left,
      List.take_left]

/-- Nothing behind a frame is ever looked at. -/
theorem Reading.Expects.within_frame (framed : frame document = .ok bs)
    (expects : Expects d₀ (bs ++ rest) after x) : x.2.source.delivered <+: d₀ ++ bs := by
  obtain ⟨sound, left, whole, -⟩ := expects
  obtain ⟨-, length⟩ := announced_of_frame framed []
  have all : x.2.source.delivered <+: d₀ ++ bs ++ rest :=
    ⟨left, by rw [whole, List.append_assoc]⟩
  refine List.prefix_of_prefix_length_le all ⟨rest, rfl⟩ ?_
  obtain ⟨r, c⟩ := x
  cases r with
  | header f =>
    have missing := sound.missing
    rw [sound.got, List.length_append, List.length_append]
    omega
  | document f =>
    obtain ⟨head, sound, four, -⟩ := sound
    have missing := sound.missing
    have count : document.length = Bytes.toWord head := by
      rw [← (announced_of_frame framed rest).1, ← sound.parts whole]
      exact announced_append four _
    rw [sound.got, List.length_append, List.length_append, List.length_append]
    omega

end Behind

end Wire

namespace WiredBackend

/-- Waiting for the reply of a call, with nobody around but whoever may cancel the context. -/
def awaitReply (outside : Option Interruption) (steps now : Nat) (ctx : Context) (b : WiredBackend) :
    Run (Context × WiredBackend) (Except CancelReason (Except CallError Unit)) :=
  run (Context.beside Prod.fst (fun ctx p => (ctx, p.2)) outside)
    (fun now p => (p.1.guard p.2 (p.2.pollReply now)).within (p.1, ·)) steps now (ctx, b)

variable {outside : Option Interruption} {now : Nat} {ctx : Context} {b : WiredBackend}
    {d₀ bs rest document : Bytes} {after : List ReadEvent} {p : Context × WiredBackend}

/-- A call that waits for its reply, of which some was read already and the rest comes next. -/
def Listens (d₀ bs rest : Bytes) (after : List ReadEvent) (b : WiredBackend)
    (p : Context × WiredBackend) : Prop :=
  ∃ r c, p.2 = b.withCall (.listening r c) ∧
    Wire.Reading.Expects d₀ (bs ++ rest) after (r, c.retried)

/-- What waiting for a reply came to: it was cancelled, or it is what the frame says. Nothing was
taken but octets of the frame. -/
structure Heard (d₀ bs document : Bytes) (b : WiredBackend)
    (v : Except CancelReason (Except CallError Unit)) (p : Context × WiredBackend) : Prop where
  answer : (∃ r, v = .error r ∧ p.1.signal = some r) ∨
    v = .ok (verdict ((Wire.CallReply.decode document).mapError .malformed))
  line : ∃ r c, p.2 = b.withCall (.listening r c) ∧ c.source.delivered <+: d₀ ++ bs

/-- A bound of the steps that waiting for a reply still takes. -/
def listening (outside : Option Interruption) (now : Nat) (p : Context × WiredBackend) : Nat :=
  (match p.2.call with
    | .listening r c => Wire.Reading.left now (r, c.retried)
    | _ => 0) + p.1.looks outside now

/-- While nothing comes of the reply, either the context is cancelled, or time passes for both. -/
theorem reply_waits {r : Wire.Reading} {c : Connection} {q : Wire.Reading × Connection} {t : Nat}
    (silent : ctx.signal = none)
    (turn : (ctx.guard (b.withCall (.listening r c))
        ((b.withCall (.listening r c)).pollReply now)).within (ctx, ·) =
      .waiting (ctx, b.withCall (.listening q.1 q.2)) (some t))
    (no_more : ∀ now', Wire.Reading.left now' (q.1, q.2.retried) ≤
      Wire.Reading.left now (r, c.retried))
    (sooner : ∀ now', t ≤ now' →
      Wire.Reading.left now' (q.1, q.2.retried) < Wire.Reading.left now (r, c.retried)) :
    ∃ now' ctx', Goes (Context.beside Prod.fst (fun ctx p => (ctx, p.2)) outside)
        (fun now p => (p.1.guard p.2 (p.2.pollReply now)).within (p.1, ·)) now
        (ctx, b.withCall (.listening r c)) now' (ctx', b.withCall (.listening q.1 q.2)) ∧
      listening outside now' (ctx', b.withCall (.listening q.1 q.2)) <
        listening outside now (ctx, b.withCall (.listening r c)) := by
  cases seen : ctx.watch outside now with
  | some ctx' =>
    refine ⟨now, ctx', .acts turn ?_, ?_⟩
    · simp [Context.beside, seen]
    · exact Nat.add_lt_add_of_le_of_lt (no_more now) (Context.looks_watch seen)
  | none =>
    obtain ⟨-, u, -, due⟩ := Context.alarm_of_idle (Context.off_of_silent silent) seen
    obtain ⟨later, fewer⟩ := Context.looks_alarm seen due
    refine ⟨_, ctx, .sleeps (t := min t u) turn ?_ ?_, ?_⟩
    · simp [Context.beside, seen]
    · simp [Context.beside, due, earlier]
    -- Whoever is first is one of the two who have something to do then.
    · rcases Nat.le_total t u with first | first
      · rw [Nat.min_eq_left first]
        exact Nat.add_lt_add_of_lt_of_le (sooner _ (Nat.le_max_left ..))
          (Context.looks_later seen _)
      · rw [Nat.min_eq_right first, Nat.max_eq_left later]
        exact Nat.add_lt_add_of_le_of_lt (no_more u) fewer

theorem reply_turn (framed : Wire.frame document = .ok bs) (listens : Listens d₀ bs rest after b p) :
    (∃ v p', (p.1.guard p.2 (p.2.pollReply now)).within (p.1, ·) = .ready v p' ∧
      Heard d₀ bs document b v p') ∨
    ∃ now' p', Goes (Context.beside Prod.fst (fun ctx p => (ctx, p.2)) outside)
        (fun now p => (p.1.guard p.2 (p.2.pollReply now)).within (p.1, ·)) now p now' p' ∧
      Listens d₀ bs rest after b p' ∧ listening outside now' p' < listening outside now p := by
  obtain ⟨ctx, _⟩ := p
  obtain ⟨r, c, rfl, expects⟩ := listens
  have within := expects.within_frame framed
  cases signal : ctx.signal with
  | some q =>
    have stopped := Context.guard_of_signal signal (b.withCall (.listening r c))
      ((b.withCall (.listening r c)).pollReply now)
    exact .inl ⟨.error q, (ctx, b.withCall (.listening r c)), by simp only [stopped]; rfl,
      .inl ⟨q, rfl, signal⟩, r, c, rfl, within⟩
  | none =>
    have polled : (b.withCall (.listening r c)).pollReply now =
        (r.poll Wire.CallReply.decode now c).map verdict fun q =>
          b.withCall (.listening q.1 q.2) := rfl
    have step := Wire.Reading.poll_brings_retried Wire.CallReply.decode (e := .closed) now
      (.inl (Wire.whole_of_frame framed rest)) expects
    have turn : ((ctx, b.withCall (.listening r c)).1.guard (b.withCall (.listening r c))
        ((b.withCall (.listening r c)).pollReply now)).within (ctx, ·) =
        (r.poll Wire.CallReply.decode now c).map (fun v => .ok (verdict v)) fun q =>
          (ctx, b.withCall (.listening q.1 q.2)) := by
      rw [Context.guard_of_silent signal, polled]
      cases r.poll Wire.CallReply.decode now c <;> rfl
    cases read : r.poll Wire.CallReply.decode now c with
    | ready v q =>
      rw [read] at step turn
      cases step with
      | ends _ _ judged =>
        obtain ⟨rfl, delivered⟩ := judged.of_frame framed
        exact .inl ⟨_, _, turn, .inr rfl, q.1, q.2, rfl, ⟨[], by rw [List.append_nil]; exact delivered⟩⟩
    | more q =>
      rw [read] at step turn
      cases step with
      | goes _ expects' less =>
        exact .inr ⟨now, _, .more turn, ⟨q.1, q.2, rfl, expects'⟩, Nat.add_lt_add_right less _⟩
    | waiting q alarm =>
      rw [read] at step turn
      cases step with
      | waits t _ expects' no_more sooner =>
        obtain ⟨now', ctx', goes, fewer⟩ := reply_waits signal turn no_more sooner
        exact .inr ⟨now', _, goes, ⟨q.1, q.2, rfl, expects'⟩, fewer⟩
    | crashed q =>
      rw [read] at step
      cases step

/-- However the call is cancelled meanwhile, and whatever stands behind its reply. -/
theorem awaitReply_heard {c : Connection} (framed : Wire.frame document = .ok bs)
    (brings : c.retried.source.Brings (bs ++ rest) after) (here : b.call = .listening .start c)
    (outside : Option Interruption) (now : Nat) (ctx : Context) :
    ∃ t v p, awaitReply outside (c.readBudget + 2) now ctx b = .finished t v p ∧
      Heard c.source.delivered bs document b v p := by
  have start : Listens c.source.delivered bs rest after b (ctx, b) := by
    refine ⟨.start, c, ?_, Wire.Reading.expects_start brings⟩
    rw [withCall, ← here]
  have enough : listening outside now (ctx, b) < c.readBudget + 2 := by
    have budget := Wire.left_lt_readBudget now c.retried
    have looks : ctx.looks outside now ≤ 2 := by
      simp only [Context.looks]
      split
      · exact Nat.zero_le 2
      · split <;> decide
    rw [c.readBudget_retried] at budget
    simp only [listening, here]
    exact Nat.add_lt_add_of_lt_of_le budget looks
  exact run_finishes (I := fun _ => Listens c.source.delivered bs rest after b)
    (D := Heard c.source.delivered bs document b) (listening outside)
    (fun now p listens => reply_turn framed listens) start enough

end WiredBackend

namespace Wire

/-- What reading a frame owes to the octets that a stream brings, and to nothing else. -/
structure ReadsOctets {α : Type} (decode : Bytes → Except Json.Fault α) (now : Nat) (b : Bytes)
    (after : List ReadEvent) (e : Error) (c : Connection) : Prop where
  judged : ∃ t a c', receive decode now c = .finished t a c' ∧
    Judged decode c.source.delivered b after e a c'.retried.source
  /-- A frame that was cut short stands for nothing. -/
  cut_short : ∀ document bs, frame document = .ok bs → b <+: bs → b ≠ bs →
    ∃ t c', receive decode now c = .finished t (.error e) c'
  /-- The reply of a call is its first frame, whatever comes after that. -/
  reply : ∀ document bs rest, frame document = .ok bs → b = bs ++ rest →
    ∀ backend : WiredBackend, backend.call = .listening .start c → ∀ outside ctx,
      ∃ t v p, backend.awaitReply outside (c.readBudget + 2) now ctx = .finished t v p ∧
        backend.Heard c.source.delivered bs document v p

theorem reads_octets {α : Type} {b : Bytes} {after : List ReadEvent} {e : Error} {c : Connection}
    (brings : c.retried.source.Brings b after) (fed : Whole b ∨ Torn after e)
    (decode : Bytes → Except Json.Fault α) (now : Nat) : ReadsOctets decode now b after e c := by
  obtain ⟨t, a, c', finished, judged⟩ := receive_judged_retried decode now fed brings
  refine ⟨⟨t, a, c', finished, judged⟩, fun document bs framed part other => ⟨t, c', ?_⟩,
    fun document bs rest framed same backend here outside ctx => ?_⟩
  · rw [finished, judged.torn_of_prefix framed part other]
  · exact WiredBackend.awaitReply_heard framed (same ▸ brings) here outside now ctx

/-- The frame of a reply that all is well. -/
def okFrame : Bytes := Bytes.ofWord CallReply.ok.encode.length ++ CallReply.ok.encode

def signalled : IoError := ⟨.interrupted, "signal"⟩

/-- A read is interrupted inside the reply. -/
def interruptedReply : Connection :=
  ⟨.ofEvents [.data (okFrame.take 6), .error signalled, .data (okFrame.drop 6)], {}⟩

theorem reads_octets_interrupted :
    Whole okFrame ∧ ReadsOctets CallReply.decode 0 okFrame [] .closed interruptedReply := by
  have whole : Whole okFrame := by
    have framed : frame CallReply.ok.encode = .ok okFrame := by decide +kernel
    exact List.append_nil okFrame ▸ whole_of_frame framed []
  have brings : interruptedReply.retried.source.Brings okFrame [] := by
    refine ⟨[.data (okFrame.take 6), .data [], .data (okFrame.drop 6)], rfl, ?_, ?_⟩
    · simp [ReadEvent.isSteady]
    · decide +kernel
  exact ⟨whole, reads_octets brings (.inl whole) CallReply.decode 0⟩

/-- An error in the middle of a frame does not end the reading when the read was only interrupted. -/
theorem interrupted_reply_read :
    interruptedReply.source.events.take 2 = [.data (okFrame.take 6), .error signalled] ∧
      (receive CallReply.decode 0 interruptedReply).value? = some (.ok .ok) :=
  ⟨rfl, by decide +kernel⟩

end Wire
end PackRelay
