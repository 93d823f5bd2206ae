import PackRelay.Proofs.Clock.Run
import PackRelay.Proofs.Wire.Send

/-! Receiving a frame from a stream that is about to deliver some octets, in whatever pieces and after
whatever delays. What it comes to depends on the octets alone, and so does how many of them are taken;
it is over within the steps that receiving grants itself. -/
namespace PackRelay

def ReadEvent.isSteady : ReadEvent → Bool
  | .data _ | .delay _ => true
  | _ => false

namespace Source

variable {now t room : Nat} {bs rest : Bytes} {after : List ReadEvent} {s : Source}

/-- What is read next are these octets, with nothing but delays between them, and then what comes
after. -/
def Brings (bs : Bytes) (after : List ReadEvent) (s : Source) : Prop :=
  ∃ pieces, s.events = pieces ++ after ∧ (∀ e ∈ pieces, e.isSteady = true) ∧
    (Source.ofEvents pieces).delivers = bs

def weight (s : Source) : Nat := s.events.foldr (ReadEvent.weight · + ·) 0

/-- Whether a read still waits, as a number of steps. -/
def readPause (now : Nat) (s : Source) : Nat :=
  match s.events with
  | .delay ms :: _ => if (pause now ms s.wake).isSome then 1 else 0
  | _ => 0

/-- A bound of the steps that reading to the end still takes. -/
def left (now : Nat) (s : Source) : Nat := 2 * s.weight + s.readPause now

theorem readPause_le (now : Nat) (s : Source) : s.readPause now ≤ 1 := by
  unfold readPause
  split
  · split <;> omega
  · omega

theorem left_skip {e : ReadEvent} {more : List ReadEvent} (events : s.events = e :: more) :
    s.skip.left now < s.left now := by
  have waits := s.skip.readPause_le now
  have positive := e.weight_pos
  have lighter : s.weight = e.weight + s.skip.weight := by simp [weight, skip, events]
  simp only [left]
  omega

theorem left_read {b : UInt8} {more : List ReadEvent} (some_room : 0 < room)
    (events : s.events = .data (b :: bs) :: more) :
    (s.read room (b :: bs)).left now < s.left now := by
  unfold read
  split
  · exact left_skip events
  · have still : (s.skip.push ((b :: bs).drop room)).readPause now = 0 := rfl
    have lighter : (s.skip.push ((b :: bs).drop room)).weight < s.weight := by
      simp only [weight, push, skip, events, List.drop_succ_cons, List.drop_zero, List.foldr_cons,
        ReadEvent.weight, List.length_drop, List.length_cons]
      omega
    show left now (s.skip.push ((b :: bs).drop room)) < _
    simp only [left]
    omega

theorem weight_le (s : Source) : s.weight ≤ s.events.length + s.delivers.length := by
  unfold weight delivers
  generalize s.events = events
  induction events with
  | nil => exact Nat.zero_le _
  | cons e events ih =>
    simp only [List.foldr_cons, List.length_cons, List.flatMap_cons, List.length_append]
    generalize events.foldr (ReadEvent.weight · + ·) 0 = others at ih ⊢
    cases e <;> simp only [ReadEvent.weight, List.length_nil] <;> omega

/-- All that a read can do while octets are on their way. -/
inductive BringStep (now room : Nat) (s : Source) (bs : Bytes) (after : List ReadEvent) :
    Poll Source (Except IoError Bytes) → Prop
  | gives (piece rest : Bytes) (s' : Source) :
    piece ≠ [] → piece.length ≤ room → piece ++ rest = bs → s'.Brings rest after →
      s'.left now < s.left now → BringStep now room s bs after (.ready (.ok piece) s')
  | goes (s' : Source) :
    s'.Brings bs after → s'.left now < s.left now → BringStep now room s bs after (.more s')
  | waits (t : Nat) (s' : Source) :
    s'.Brings bs after → (∀ now', s'.left now' ≤ s.left now) →
      (∀ now', t ≤ now' → s'.left now' < s.left now) →
      BringStep now room s bs after (.waiting s' (some t))

theorem Brings.undone (brings : s.Brings bs after) (some_octets : bs ≠ []) : s.events ≠ after := by
  obtain ⟨pieces, events, -, rfl⟩ := brings
  intro none_left
  rw [List.self_eq_append_left.1 (none_left.symm.trans events)] at some_octets
  exact some_octets rfl

theorem Brings.nil_of_done (brings : s.Brings bs after) (done : s.events = after) : bs = [] := by
  by_contra some_octets
  exact brings.undone some_octets done

/-- Behind a piece that was taken comes what is left of it, and then the other pieces. -/
theorem brings_read {piece : Bytes} {pieces : List ReadEvent}
    (events : s.events = .data piece :: pieces ++ after)
    (steady : ∀ e ∈ pieces, e.isSteady = true) :
    (s.read room piece).Brings (piece.drop room ++ (Source.ofEvents pieces).delivers) after := by
  unfold read
  split
  · rename_i all
    refine ⟨pieces, ?_, steady, ?_⟩
    · simp [skip, events]
    · rw [List.drop_eq_nil_of_le all, List.nil_append]
  · refine ⟨.data (piece.drop room) :: pieces, ?_, ?_, rfl⟩
    · simp [push, skip, events]
    · exact List.forall_mem_cons.2 ⟨rfl, steady⟩

theorem poll_brings (now : Nat) (brings : s.Brings bs after) (some_room : 0 < room)
    (undone : s.events ≠ after) : BringStep now room s bs after (s.poll now room) := by
  obtain ⟨pieces, events, steady, delivers⟩ := brings
  cases pieces with
  | nil => exact absurd events undone
  | cons e pieces =>
    obtain ⟨steady_here, others⟩ := List.forall_mem_cons.1 steady
    have here : s.events = e :: (pieces ++ after) := events
    have skipped : s.skip.events = pieces ++ after := by simp [skip, here]
    simp only [poll, here]
    cases e with
    | data piece =>
      cases piece with
      | nil => exact .goes s.skip ⟨pieces, skipped, others, delivers⟩ (left_skip here)
      | cons b piece =>
        refine .gives _ _ _ ?_ (List.length_take_le room _) ?_ (brings_read events others)
          (left_read some_room here)
        · intro none_taken
          rcases List.take_eq_nil_iff.1 none_taken with zero | empty
          · omega
          · cases empty
        · rw [← List.append_assoc, List.take_append_drop]
          exact delivers
    | delay ms =>
      simp only
      cases pausing : pause now ms s.wake with
      | none => exact .goes s.skip ⟨pieces, skipped, others, delivers⟩ (left_skip here)
      | some t =>
        rw [← here]
        have waited : s.readPause now = 1 := by simp [readPause, here, pausing]
        have same : weight { s with wake := some t } = s.weight := rfl
        refine .waits t _ ⟨.delay ms :: pieces, here, ?_, delivers⟩ (fun now' => ?_)
          fun now' later => ?_
        · exact List.forall_mem_cons.2 ⟨rfl, others⟩
        · have waits := readPause_le now' { s with wake := some t }
          simp only [left]
          omega
        · have is_over : readPause now' { s with wake := some t } = 0 := by
            simp [readPause, here, pause_over later]
          simp only [left]
          omega
    | _ => cases steady_here

end Source

theorem Connection.pollRead_brings {now room : Nat} {c : Connection} {bs : Bytes}
    {after : List ReadEvent} (brings : c.source.Brings bs after) (undone : c.source.events ≠ after) :
    c.pollRead now room = (c.source.poll now room).within c.setSource := by
  obtain ⟨pieces, events, steady, delivers⟩ := brings
  cases pieces with
  | nil => exact absurd events undone
  | cons e pieces =>
    have steady_here := steady e List.mem_cons_self
    unfold pollRead
    rw [events]
    cases e with
    | data _ | delay _ => rfl
    | _ => cases steady_here

namespace Wire

variable {now n : Nat} {b rest document tail : Bytes} {after : List ReadEvent} {e : Error}
    {f : Filling} {c : Connection}

/-- What cuts a stream short, and the error that reading meets there. -/
inductive Torn : List ReadEvent → Error → Prop
  | ends : Torn [] .closed
  | fails (e : IoError) (more : List ReadEvent) :
    e.kind ≠ .interrupted → Torn (.error e :: more) (readError e)

/-- All that a step of filling can do when these octets come next. -/
inductive Filling.BringStep (now : Nat) (rest : Bytes) (after : List ReadEvent) (e : Error)
    (f : Filling) (c : Connection) : Poll (Filling × Connection) (Except Error Bytes) → Prop
  | full : f.missing = 0 → BringStep now rest after e f c (.ready (.ok f.bytes) (f, c))
  | goes (f' : Filling) (s' : Source) (rest' : Bytes) :
    s'.delivered ++ rest' = c.source.delivered ++ rest → s'.Brings rest' after →
      s'.left now < c.source.left now →
      BringStep now rest after e f c (.more (f', c.setSource s'))
  | waits (t : Nat) (s' : Source) :
    s'.delivered = c.source.delivered → s'.Brings rest after →
      (∀ now', s'.left now' ≤ c.source.left now) →
      (∀ now', t ≤ now' → s'.left now' < c.source.left now) →
      BringStep now rest after e f c (.waiting (f, c.setSource s') (some t))
  | torn (s' : Source) :
    f.missing ≠ 0 → rest = [] → s'.delivered = c.source.delivered →
      BringStep now rest after e f c (.ready (.error e) (f, c.setSource s'))

theorem Filling.poll_torn (now : Nat) (torn : Torn after e) (short : f.missing ≠ 0)
    (done : c.source.events = after) :
    ∃ s', f.poll now c = .ready (.error e) (f, c.setSource s') ∧
      s'.delivered = c.source.delivered := by
  cases torn with
  | ends =>
    refine ⟨c.source, ?_, rfl⟩
    simp [poll, short, Connection.pollRead, done, Source.poll, Poll.within, Connection.setSource]
  | fails e more kind =>
    refine ⟨c.source.skip, ?_, rfl⟩
    simp [poll, short, Connection.pollRead, done, Source.poll, Poll.within, kind]

theorem Filling.poll_brings (now : Nat) (brings : c.source.Brings rest after)
    (fed : f.missing ≤ rest.length ∨ Torn after e) :
    BringStep now rest after e f c (f.poll now c) := by
  by_cases short : f.missing = 0
  · rw [poll, if_pos short]
    exact .full short
  by_cases done : c.source.events = after
  · have none_left := brings.nil_of_done done
    have torn : Torn after e := fed.resolve_left fun enough => by
      rw [none_left, List.length_nil] at enough
      omega
    obtain ⟨s', polled, kept⟩ := poll_torn now torn short done
    rw [polled]
    exact .torn s' short none_left kept
  · rw [poll, if_neg short, Connection.pollRead_brings brings done]
    have step := c.source.poll_brings now brings (Nat.pos_of_ne_zero short) done
    have read := c.source.poll_step true now f.missing
    generalize c.source.poll now f.missing = p at step read ⊢
    cases step with
    | gives piece others s' some_taken fits parts brings' less =>
      have delivered : s'.delivered ++ others = c.source.delivered ++ rest := by
        rw [read.delivered_ok, List.append_assoc, parts]
      cases piece with
      | nil => exact absurd rfl some_taken
      | cons b piece => exact .goes _ s' others delivered brings' less
    | goes s' brings' less =>
      have kept := read.delivered_eq (fun _ _ h => by cases h)
      exact .goes f s' rest (congrArg (· ++ rest) kept) brings' less
    | waits t s' brings' no_more sooner =>
      have kept := read.delivered_eq (fun _ _ h => by cases h)
      exact .waits t s' kept brings' no_more sooner

variable {α : Type} {decode : Bytes → Except Json.Fault α} {head d₀ : Bytes} {r : Reading}
    {x : Reading × Connection}

/-- The length that a frame announces at its head. -/
def announced (b : Bytes) : Nat := Bytes.toWord (b.take 4)

theorem announced_append (four : head.length = 4) (rest : Bytes) :
    announced (head ++ rest) = Bytes.toWord head := by
  rw [announced, ← four, List.take_left]

/-- A frame is there, or enough of one to refuse it. -/
def Whole (b : Bytes) : Prop :=
  4 ≤ b.length ∧ (announced b ≤ maxFrameLength → 4 + announced b ≤ b.length)

/-- What becomes of a stream that brings these octets and then what comes after, once it has
delivered some others. -/
inductive Judged (decode : Bytes → Except Json.Fault α) (d₀ b : Bytes) (after : List ReadEvent)
    (e : Error) : Except Error α → Source → Prop
  | torn (s : Source) :
    b.length < 4 ∨ announced b ≤ maxFrameLength ∧ b.length < 4 + announced b →
      s.delivered = d₀ ++ b → Judged decode d₀ b after e (.error e) s
  | refused (s : Source) :
    4 ≤ b.length → maxFrameLength < announced b → s.delivered = d₀ ++ b.take 4 →
      s.Brings (b.drop 4) after →
      Judged decode d₀ b after e (.error (.frameTooLarge (announced b))) s
  | taken (s : Source) :
    4 + announced b ≤ b.length → announced b ≤ maxFrameLength →
      s.delivered = d₀ ++ b.take (4 + announced b) → s.Brings (b.drop (4 + announced b)) after →
      Judged decode d₀ b after e
        ((decode ((b.drop 4).take (announced b))).mapError .malformed) s

/-- Where the reading of a frame stands, behind octets that were delivered before. -/
def Reading.SoundFrom (d₀ delivered : Bytes) : Reading → Prop
  | .header f => f.Sound d₀ 4 delivered
  | .document f =>
    ∃ head, f.Sound (d₀ ++ head) (Bytes.toWord head) delivered ∧ head.length = 4 ∧
      Bytes.toWord head ≤ maxFrameLength

/-- The octets of a frame are its head, what was filled up behind it, and what is left. -/
theorem Filling.Sound.parts {total : Nat} {delivered : Bytes}
    (sound : f.Sound (d₀ ++ head) total delivered) (whole : delivered ++ rest = d₀ ++ b) :
    head ++ (f.bytes ++ rest) = b := by
  rw [sound.got, List.append_assoc, List.append_assoc] at whole
  exact List.append_cancel_left whole

/-- Some of the octets were read already and the others come next. -/
structure Reading.Expects (d₀ b : Bytes) (after : List ReadEvent) (x : Reading × Connection) :
    Prop where
  sound : x.1.SoundFrom d₀ x.2.source.delivered
  ahead : ∃ rest, x.2.source.delivered ++ rest = d₀ ++ b ∧ x.2.source.Brings rest after

/-- A bound of the steps that reading a frame still takes. -/
def Reading.left (now : Nat) (x : Reading × Connection) : Nat :=
  match x.1 with
  | .header _ => x.2.source.left now + 2
  | .document _ => x.2.source.left now + 1

/-- All that a step of reading can do with them. -/
inductive Reading.BringStep (decode : Bytes → Except Json.Fault α) (now : Nat) (d₀ b : Bytes)
    (after : List ReadEvent) (e : Error) (x : Reading × Connection) :
    Poll (Reading × Connection) (Except Error α) → Prop
  | ends (a : Except Error α) (x' : Reading × Connection) :
    Judged decode d₀ b after e a x'.2.source → BringStep decode now d₀ b after e x (.ready a x')
  | goes (x' : Reading × Connection) :
    Expects d₀ b after x' → left now x' < left now x →
      BringStep decode now d₀ b after e x (.more x')
  | waits (t : Nat) (x' : Reading × Connection) :
    Expects d₀ b after x' → (∀ now', left now' x' ≤ left now x) →
      (∀ now', t ≤ now' → left now' x' < left now x) →
      BringStep decode now d₀ b after e x (.waiting x' (some t))

theorem Reading.poll_header_brings (now : Nat) (fed : Whole b ∨ Torn after e)
    (sound : f.Sound d₀ 4 c.source.delivered) (whole : c.source.delivered ++ rest = d₀ ++ b)
    (brings : c.source.Brings rest after) :
    BringStep decode now d₀ b after e (.header f, c) (Reading.poll decode now (.header f) c) := by
  have parts : f.bytes ++ rest = b := by
    rw [sound.got, List.append_assoc] at whole
    exact List.append_cancel_left whole
  have missing := sound.missing
  have length : f.bytes.length + rest.length = b.length := by rw [← parts, List.length_append]
  have enough : f.missing ≤ rest.length ∨ Torn after e :=
    fed.imp_left fun ⟨four, _⟩ => by omega
  have kept := (f.poll_step now c).sound sound
  have step := Filling.poll_brings now brings enough
  simp only [poll]
  generalize f.poll now c = p at step kept ⊢
  cases step with
  | full none_missing =>
    have four : f.bytes.length = 4 := by omega
    have head : b.take 4 = f.bytes := by rw [← parts, ← four, List.take_left]
    have behind : b.drop 4 = rest := by rw [← parts, ← four, List.drop_left]
    have count : announced b = Bytes.toWord f.bytes := by rw [announced, head]
    simp only [Poll.into_ready, ← count]
    split
    · rename_i large
      exact .ends _ (.header f, c) (.refused c.source (by omega) large (head ▸ sound.got)
        (behind ▸ brings))
    · rename_i small
      refine .goes (.document (.start (announced b)), c) ⟨⟨f.bytes, ?_, four, ?_⟩, rest, whole, brings⟩
        (Nat.lt_succ_self _)
      · exact ⟨by simpa [Filling.start, Filling.bytes] using sound.got, count⟩
      · exact count ▸ Nat.not_lt.1 small
  | goes f' s' rest' whole' brings' less =>
    exact .goes (.header f', c.setSource s') ⟨kept, rest', whole'.trans whole, brings'⟩
      (Nat.add_lt_add_right less 2)
  | waits t s' same brings' no_more sooner =>
    exact .waits t (.header f, c.setSource s') ⟨kept, rest, by rw [← whole, ← same]; rfl, brings'⟩
      (fun now' => Nat.add_le_add_right (no_more now') 2)
      fun now' later => Nat.add_lt_add_right (sooner now' later) 2
  | torn s' short none_left same =>
    subst none_left
    rw [List.append_nil] at whole
    rw [List.length_nil] at length
    exact .ends _ (.header f, c.setSource s') (.torn s' (.inl (by omega)) (same.trans whole))

theorem Reading.poll_document_brings (now : Nat) (fed : Whole b ∨ Torn after e)
    (sound : f.Sound (d₀ ++ head) (Bytes.toWord head) c.source.delivered) (four : head.length = 4)
    (small : Bytes.toWord head ≤ maxFrameLength)
    (whole : c.source.delivered ++ rest = d₀ ++ b) (brings : c.source.Brings rest after) :
    BringStep decode now d₀ b after e (.document f, c)
      (Reading.poll decode now (.document f) c) := by
  have parts := sound.parts whole
  have missing := sound.missing
  have length : 4 + (f.bytes.length + rest.length) = b.length := by
    rw [← parts, List.length_append, List.length_append, four]
  have count : announced b = Bytes.toWord head := parts ▸ announced_append four _
  have enough : f.missing ≤ rest.length ∨ Torn after e :=
    fed.imp_left fun ⟨_, there⟩ => by
      have := there (count ▸ small)
      omega
  have kept := (f.poll_step now c).sound sound
  have step := Filling.poll_brings now brings enough
  simp only [poll]
  generalize f.poll now c = p at step kept ⊢
  cases step with
  | full none_missing =>
    have filled : f.bytes.length = announced b := by omega
    have document : (b.drop 4).take (announced b) = f.bytes := by
      rw [← filled, ← parts, ← four, List.drop_left, List.take_left]
    have taken : b.take (4 + announced b) = head ++ f.bytes := by
      rw [← filled, ← parts, ← four, ← List.append_assoc, ← List.length_append, List.take_left]
    have behind : b.drop (4 + announced b) = rest := by
      rw [← filled, ← parts, ← four, ← List.append_assoc, ← List.length_append, List.drop_left]
    have judged : Judged decode d₀ b after e
        ((decode ((b.drop 4).take (announced b))).mapError .malformed) c.source :=
      .taken c.source (by omega) (count ▸ small)
        (by rw [taken, sound.got, List.append_assoc]) (behind ▸ brings)
    exact .ends _ (.document f, c) (document ▸ judged)
  | goes f' s' rest' whole' brings' less =>
    exact .goes (.document f', c.setSource s')
      ⟨⟨head, kept, four, small⟩, rest', whole'.trans whole, brings'⟩ (Nat.add_lt_add_right less 1)
  | waits t s' same brings' no_more sooner =>
    exact .waits t (.document f, c.setSource s')
      ⟨⟨head, kept, four, small⟩, rest, by rw [← whole, ← same]; rfl, brings'⟩
      (fun now' => Nat.add_le_add_right (no_more now') 1)
      fun now' later => Nat.add_lt_add_right (sooner now' later) 1
  | torn s' short none_left same =>
    subst none_left
    rw [List.append_nil] at whole
    rw [List.length_nil] at length
    exact .ends _ (.document f, c.setSource s')
      (.torn s' (.inr ⟨count ▸ small, by omega⟩) (same.trans whole))

theorem Reading.poll_brings (decode : Bytes → Except Json.Fault α) (now : Nat)
    (fed : Whole b ∨ Torn after e)
    (expects : Expects d₀ b after x) :
    BringStep decode now d₀ b after e x (x.1.poll decode now x.2) := by
  obtain ⟨r, c⟩ := x
  obtain ⟨sound, rest, whole, brings⟩ := expects
  cases r with
  | header f => exact poll_header_brings now fed sound whole brings
  | document f =>
    obtain ⟨head, sound, four, small⟩ := sound
    exact poll_document_brings now fed sound four small whole brings

theorem Reading.expects_start (brings : c.source.Brings b after) :
    Expects c.source.delivered b after (.start, c) :=
  ⟨⟨by simp [Filling.start, Filling.bytes], rfl⟩, b, rfl, brings⟩

theorem left_lt_readBudget (now : Nat) (c : Connection) : c.source.left now + 2 < c.readBudget := by
  have pause := c.source.readPause_le now
  have weight := c.source.weight_le
  have turns := Nat.mul_le_mul_left c.source.events.length (Nat.le_add_left 2 c.sink.accepted)
  simp only [Source.left, Connection.readBudget]
  omega

/-- The octets decide what receiving a frame comes to, and what is left of them. -/
theorem receive_judged (decode : Bytes → Except Json.Fault α) (now : Nat)
    (fed : Whole b ∨ Torn after e) (brings : c.source.Brings b after) :
    ∃ t a c', receive decode now c = .finished t a c' ∧
      Judged decode c.source.delivered b after e a c'.source := by
  have ends : ∃ t a x, run .idle (fun now x => Reading.poll decode now x.1 x.2) c.readBudget now
      (.start, c) = .finished t a x ∧
        Judged decode c.source.delivered b after e a (Prod.snd x).source :=
    run_finishes (I := fun _ => Reading.Expects c.source.delivered b after)
      (D := fun a x => Judged decode c.source.delivered b after e a x.2.source) Reading.left
      (fun now x expects => by
        have step := Reading.poll_brings decode now fed expects
        generalize polled : x.1.poll decode now x.2 = p at step
        cases step with
        | ends a x' judged => exact .inl ⟨a, x', rfl, judged⟩
        | goes x' expects' less => exact .inr ⟨now, x', .more polled, expects', less⟩
        | waits t x' expects' _ sooner =>
          exact .inr ⟨_, x', goes_of_waiting polled, expects', sooner _ (Nat.le_max_left ..)⟩)
      (Reading.expects_start brings) (left_lt_readBudget now c)
  obtain ⟨t, a, x, finished, judged⟩ := ends
  exact ⟨t, a, x.2, by rw [receive, finished]; rfl, judged⟩

/-- What reading a frame comes to: refused behind its head if it announces too much, else taken
whole. -/
inductive Received (decode : Bytes → Except Json.Fault α) (document tail : Bytes)
    (after : List ReadEvent) (a : Except Error α) (s : Source) : Prop
  | refused : maxFrameLength < document.length → a = .error (.frameTooLarge document.length) →
    s.Brings (document ++ tail) after → Received decode document tail after a s
  | taken : document.length ≤ maxFrameLength → a = (decode document).mapError .malformed →
    s.Brings tail after → Received decode document tail after a s

/-- Reading takes exactly the frame that is on its way, or refuses it for its length. -/
theorem receive_brings (decode : Bytes → Except Json.Fault α) (now : Nat) (four : head.length = 4)
    (length : Bytes.toWord head = document.length)
    (brings : c.source.Brings (head ++ (document ++ tail)) after) :
    ∃ t a c', receive decode now c = .finished t a c' ∧
      Received decode document tail after a c'.source := by
  have count : announced (head ++ (document ++ tail)) = document.length :=
    (announced_append four _).trans length
  have behind : (head ++ (document ++ tail)).drop 4 = document ++ tail := by
    rw [← four, List.drop_left]
  have longer : (head ++ (document ++ tail)).length = 4 + (document.length + tail.length) := by
    rw [List.length_append, List.length_append, four]
  have whole : Whole (head ++ (document ++ tail)) := ⟨by omega, fun _ => by omega⟩
  obtain ⟨t, a, c', finished, judged⟩ :=
    receive_judged (e := .closed) decode now (.inl whole) brings
  refine ⟨t, a, c', finished, ?_⟩
  cases judged with
  | torn short _ => omega
  | refused _ _ large _ left => exact .refused (count ▸ large) (by rw [count]) (behind ▸ left)
  | taken _ _ small _ left =>
    refine .taken (count ▸ small) ?_ ?_
    · rw [behind, count, List.take_left]
    · rwa [← List.drop_drop, behind, count, List.drop_left] at left

end Wire
end PackRelay
