import PackRelay.Proofs.Stream.Connection
import PackRelay.Proofs.Stream.Sink
import PackRelay.Wire.Frame

/-! Sending one frame and reading one frame. What is still to be sent follows what was written;
what was read so far is what the stream delivered, and reading ends with a document only if it was
all of a frame. -/
namespace PackRelay

theorem Bytes.ofWord_toWord {bs : Bytes} (four : bs.length = 4) :
    Bytes.ofWord (Bytes.toWord bs) = bs := by
  obtain ⟨a, b, c, d, rfl⟩ : ∃ a b c d, bs = [a, b, c, d] := by
    match bs, four with
    | [a, b, c, d], _ => exact ⟨a, b, c, d, rfl⟩
  have := a.toNat_lt
  have := b.toNat_lt
  have := c.toNat_lt
  have := d.toNat_lt
  simp only [Bytes.ofWord, Bytes.toWord, List.foldl_cons, List.foldl_nil, List.cons.injEq, and_true]
  refine ⟨?_, ?_, ?_, ?_⟩ <;>
    · apply UInt8.toNat.inj
      simp only [UInt8.toNat_ofNat']
      omega

namespace Wire

namespace Writing

variable {s s₀ : Sink} {w : Writing} {bs : Bytes} {p : Poll (Writing × Sink) (Except Error Unit)}

/-- All that one step of sending a frame can do. -/
inductive Step (s : Sink) : Writing → Poll (Writing × Sink) (Except Error Unit) → Prop
  | sends (rest rest' : Bytes) (s' : Sink) :
    s.WriteStep rest (.more (rest', s')) → Step s (.sending rest) (.more (.sending rest', s'))
  | sent (rest rest' : Bytes) (s' : Sink) :
    s.WriteStep rest (.ready (.ok ()) (rest', s')) → Step s (.sending rest) (.more (.flushing, s'))
  | stalls (rest rest' : Bytes) (s' : Sink) (alarm : Option Nat) :
    s.WriteStep rest (.waiting (rest', s') alarm) → Step s (.sending rest)
      (.waiting (.sending rest', s') alarm)
  | sendFails (e : IoError) (rest rest' : Bytes) (s' : Sink) :
    s.WriteStep rest (.ready (.error e) (rest', s')) →
      Step s (.sending rest) (.ready (.error (.io e)) (.sending rest', s'))
  | sendCrashes (rest rest' : Bytes) (s' : Sink) :
    s.WriteStep rest (.crashed (rest', s')) → Step s (.sending rest) (.crashed (.sending rest', s'))
  | flushes (s' : Sink) : s.FlushStep (.ready (.ok ()) s') →
    Step s .flushing (.ready (.ok ()) (.flushing, s'))
  | lingers (s' : Sink) (alarm : Option Nat) :
    s.FlushStep (.waiting s' alarm) → Step s .flushing (.waiting (.flushing, s') alarm)
  | flushFails (e : IoError) (s' : Sink) :
    s.FlushStep (.ready (.error e) s') → Step s .flushing (.ready (.error (.io e)) (.flushing, s'))
  | flushCrashes (s' : Sink) : s.FlushStep (.crashed s') →
    Step s .flushing (.crashed (.flushing, s'))

theorem poll_step (now : Nat) (w : Writing) (s : Sink) : Step s w (w.poll now s) := by
  cases w with
  | sending rest =>
    have write := s.pollWriteAll_step now rest
    simp only [poll]
    generalize s.pollWriteAll now rest = q at write ⊢
    cases q with
    | ready value p =>
      cases value with
      | error e => exact .sendFails e rest p.1 p.2 write
      | ok _ => exact .sent rest p.1 p.2 write
    | more p => exact .sends rest p.1 p.2 write
    | waiting p alarm => exact .stalls rest p.1 p.2 alarm write
    | crashed p => exact .sendCrashes rest p.1 p.2 write
  | flushing =>
    have flush := s.pollFlush_step now
    simp only [poll]
    generalize s.pollFlush now = q at flush ⊢
    cases q with
    | ready value s' =>
      cases value with
      | error e => exact .flushFails e s' flush
      | ok _ => exact .flushes s' flush
    | more s' => cases flush
    | waiting s' alarm => exact .lingers s' alarm flush
    | crashed s' => exact .flushCrashes s' flush

def rest : Writing → Bytes
  | .sending rest => rest
  | .flushing => []

/-- Where sending `bs` to the sink `s₀` can get. -/
structure Sound (s₀ : Sink) (bs : Bytes) (w : Writing) (s : Sink) : Prop where
  written : s.written ++ w.rest = s₀.written ++ bs
  shutdowns : s.shutdowns = s₀.shutdowns
  plan : s.plan = s₀.plan

theorem Sound.sending {rest rest' : Bytes} {s' : Sink}
    {q : Poll (Bytes × Sink) (Except IoError Unit)}
    (sound : Sound s₀ bs (.sending rest) s) (write : s.WriteStep rest q)
    (left : q.state = (rest', s')) :
    Sound s₀ bs (.sending rest') s' := by
  have written := write.written
  have only := write.onlyWrites
  rw [left] at written only
  exact ⟨written.trans sound.written, only.shutdowns.trans sound.shutdowns,
    only.plan.trans sound.plan⟩

theorem Step.sound (h : Step s w p) (sound : Sound s₀ bs w s) :
    Sound s₀ bs p.state.1 p.state.2 := by
  cases h with
  | sends rest rest' s' write => exact sound.sending write rfl
  | sent rest rest' s' write =>
    cases write.rest_nil
    have kept := sound.sending write rfl
    exact ⟨kept.written, kept.shutdowns, kept.plan⟩
  | stalls rest rest' s' alarm write => exact sound.sending write rfl
  | sendFails e rest rest' s' write => exact sound.sending write rfl
  | sendCrashes rest rest' s' write => exact sound.sending write rfl
  | flushes _ flush | lingers _ _ flush | flushFails _ _ flush | flushCrashes _ flush =>
    cases flush
    exact ⟨sound.written, sound.shutdowns, sound.plan⟩

theorem Step.all_written {w' : Writing} {s' : Sink} (h : Step s w (.ready (.ok ()) (w', s')))
    (sound : Sound s₀ bs w s) : s'.written = s₀.written ++ bs := by
  have kept := (h.sound sound).written
  cases h with
  | flushes s' _ => simpa [rest, Poll.state] using kept

noncomputable def rank (p : Writing × Sink) : ℕ ×ₗ ℕ ×ₗ ℕ :=
  match p.1 with
  | .sending rest => toLex (1, Sink.writeRank (rest, p.2))
  | .flushing => toLex (0, toLex (0, 0))

theorem Step.lowers (h : Step s w p) (settles : s.plan.Settles) : p.Lowers rank (w, s) := by
  cases h with
  | sends rest rest' s' write => exact Prod.Lex.toLex_lt_toLex.2 (.inr ⟨rfl, write.lowers settles⟩)
  | sent rest rest' s' write => exact Prod.Lex.toLex_lt_toLex.2 (.inl Nat.zero_lt_one)
  | stalls rest rest' s' alarm write =>
    exact Prod.Lex.toLex_le_toLex.2 (.inr ⟨rfl, write.lowers settles⟩)
  | lingers s' alarm flush => exact le_rfl
  | _ => trivial

theorem Step.calm (h : Step s w p) (calm : s.plan.Calm) : ∀ q, p ≠ .crashed q := by
  rintro q rfl
  cases h with
  | sendCrashes rest rest' s' write =>
    cases write with
    | crashes crash => exact calm.write _ _ crash
  | flushCrashes s' flush =>
    cases flush with
    | crashes crash => exact calm.flush _ crash

end Writing

variable {α : Type} {decode : Bytes → Except Json.Fault α} {f : Filling} {r : Reading}
    {c : Connection}

theorem Filling.bytes_add (f : Filling) (bs : Bytes) : (f.add bs).bytes = f.bytes ++ bs := by
  simp [Filling.add, Filling.bytes]

inductive Filling.Step (f : Filling) (c : Connection) :
    Poll (Filling × Connection) (Except Error Bytes) → Prop
  | full : f.missing = 0 → Step f c (.ready (.ok f.bytes) (f, c))
  | gets (bs : Bytes) (source : Source) :
    bs ≠ [] → c.source.ReadStep true f.missing (.ready (.ok bs) source) → 0 < f.missing →
      Step f c (.more (f.add bs, c.setSource source))
  | skips (q : Poll Source (Except IoError Bytes)) :
    c.source.ReadStep true f.missing q → (∀ bs s', q ≠ .ready (.ok bs) s') →
      q.state.readRank < c.source.readRank → Step f c (.more (f, c.setSource q.state))
  | starves (source : Source) (alarm : Option Nat) :
    c.source.ReadStep true f.missing (.waiting source alarm) →
      Step f c (.waiting (f, c.setSource source) alarm)
  | fails (e : Error) (source : Source) :
    0 < f.missing → source.delivered = c.source.delivered → (c.source.Calm → source.Calm) →
      Step f c (.ready (.error e) (f, c.setSource source))
  | crashes (source : Source) :
    c.source.ReadStep true f.missing (.crashed source) → Step f c (.crashed (f, c.setSource source))

theorem Filling.poll_step (now : Nat) (f : Filling) (c : Connection) :
    Filling.Step f c (f.poll now c) := by
  unfold Filling.poll
  split
  · exact .full (by assumption)
  · obtain ⟨q, read, same⟩ := c.pollRead_step now f.missing
    rw [same]
    cases q with
    | ready value source =>
      cases value with
      | ok bs =>
        cases bs with
        | nil =>
          exact .fails .closed source (by omega) (by simpa using read.delivered_ok) fun calm =>
            (read.calm calm).1
        | cons b bs => exact .gets (b :: bs) source (List.cons_ne_nil b bs) read (by omega)
      | error e =>
        simp only [Poll.within, Poll.into_ready]
        split
        · exact .skips _ read (fun _ _ h => by cases h) read.lowers_error
        · exact .fails (readError e) source (by omega) (read.delivered_eq (fun _ _ h => by cases h))
            fun calm => (read.calm calm).1
    | more source => exact .skips _ read (fun _ _ h => by cases h) read.lowers
    | waiting source alarm => exact .starves source alarm read
    | crashed source => exact .crashes source read

/-- Where filling up to `total` octets stands, behind a head and once a stream has delivered some
octets. -/
structure Filling.Sound (head : Bytes) (total : Nat) (delivered : Bytes) (f : Filling) : Prop where
  got : delivered = head ++ f.bytes
  missing : f.missing + f.bytes.length = total

theorem Filling.Step.sound {p : Poll (Filling × Connection) (Except Error Bytes)} {head : Bytes}
    {total : Nat} (h : Filling.Step f c p) (sound : f.Sound head total c.source.delivered) :
    p.state.1.Sound head total p.state.2.source.delivered := by
  cases h with
  | full _ => exact sound
  | gets bs source _ read _ =>
    have fits := read.length_le
    have missing := sound.missing
    refine ⟨?_, ?_⟩
    · simp only [Poll.state, Connection.setSource, read.delivered_ok, sound.got, f.bytes_add,
        List.append_assoc]
    · have longer : (f.add bs).bytes.length = f.bytes.length + bs.length := by
        rw [f.bytes_add, List.length_append]
      have fewer : (f.add bs).missing = f.missing - bs.length := rfl
      simp only [Poll.state]
      omega
  | skips q read nothing _ => exact ⟨(read.delivered_eq nothing).trans sound.got, sound.missing⟩
  | starves source alarm read =>
    exact ⟨(read.delivered_eq (fun _ _ h => by cases h)).trans sound.got, sound.missing⟩
  | fails e source _ same _ => exact ⟨same.trans sound.got, sound.missing⟩
  | crashes source read =>
    exact ⟨(read.delivered_eq (fun _ _ h => by cases h)).trans sound.got, sound.missing⟩

/-- Where the reading of a frame stands once a stream has delivered some octets. -/
def Reading.Sound (delivered : Bytes) : Reading → Prop
  | .header f => f.Sound [] 4 delivered
  | .document f =>
    ∃ head, f.Sound head (Bytes.toWord head) delivered ∧ head.length = 4 ∧ Bytes.toWord head ≤
      maxFrameLength

/-- The octets are exactly one frame, of a document that stands for something. -/
def Frames (decode : Bytes → Except Json.Fault α) (bs : Bytes) (a : α) : Prop :=
  ∃ document, frame document = .ok bs ∧ decode document = .ok a

theorem frame_eq_ok {document bs : Bytes} :
    frame document = .ok bs ↔ document.length ≤ maxFrameLength ∧
      bs = Bytes.ofWord document.length ++ document := by
  unfold frame
  split
  · rename_i large
    simp [Nat.not_le.2 large]
  · rename_i small
    simp only [Except.ok.injEq, Nat.not_lt.1 small, true_and]
    exact eq_comm

theorem toWord_length {document : Bytes} (small : document.length ≤ maxFrameLength) :
    Bytes.toWord (Bytes.ofWord document.length) = document.length := by
  refine Bytes.toWord_ofWord ?_
  simp only [maxFrameLength] at small
  omega

theorem frame_append {document head rest : Bytes} (framed : frame document = .ok (head ++ rest))
    (four : head.length = 4) : rest = document ∧ Bytes.toWord head = rest.length := by
  obtain ⟨small, same⟩ := frame_eq_ok.1 framed
  obtain ⟨rfl, rfl⟩ := List.append_inj same (by simpa using four)
  exact ⟨rfl, toWord_length small⟩

theorem Frames.unique {bs : Bytes} {a b : α} (one : Frames decode bs a)
    (other : Frames decode bs b) : a = b := by
  obtain ⟨d, framed, here⟩ := one
  obtain ⟨e, framed', there⟩ := other
  obtain ⟨_, rfl⟩ := frame_eq_ok.1 framed
  obtain ⟨rfl, _⟩ := frame_append framed' (Bytes.length_ofWord _)
  exact Except.ok.inj (here.symm.trans there)

def Reading.rank (p : Reading × Connection) : ℕ ×ₗ ℕ ×ₗ ℕ :=
  match p.1 with
  | .header _ => toLex (1, p.2.source.readRank)
  | .document _ => toLex (0, p.2.source.readRank)

/-- All that one step of reading a frame can do. -/
inductive Reading.Step (decode : Bytes → Except Json.Fault α) (r : Reading) (c : Connection) :
    Poll (Reading × Connection) (Except Error α) → Prop
  | goes (r' : Reading) (source : Source) :
    r'.Sound source.delivered → Reading.rank (r', c.setSource source) < Reading.rank (r, c) →
      (c.source.Calm → source.Calm) → Step decode r c (.more (r', c.setSource source))
  | waits (r' : Reading) (source : Source) (alarm : Option Nat) :
    r'.Sound source.delivered → Reading.rank (r', c.setSource source) ≤ Reading.rank (r, c) →
      (c.source.Calm → source.Calm) → Step decode r c (.waiting (r', c.setSource source) alarm)
  | ends (a : α) (r' : Reading) (source : Source) :
    Frames decode source.delivered a → Step decode r c (.ready (.ok a) (r', c.setSource source))
  | fails (e : Error) (r' : Reading) (source : Source) :
    (∀ a, ¬ Frames decode source.delivered a) →
    Step decode r c (.ready (.error e) (r', c.setSource source))
  | crashes (r' : Reading) (source : Source) :
    r'.Sound source.delivered → ¬ c.source.Calm →
      Step decode r c (.crashed (r', c.setSource source))

theorem not_frames_of_missing {head : Bytes} {total : Nat} {delivered : Bytes} {a : α}
    (sound : f.Sound head total delivered) (short : 0 < f.missing)
    (announced : (head = [] ∧ total = 4) ∨ (head.length = 4 ∧ total = Bytes.toWord head)) :
    ¬ Frames decode delivered a := by
  rintro ⟨document, framed, _⟩
  have missing := sound.missing
  rcases announced with ⟨rfl, rfl⟩ | ⟨four, rfl⟩
  · obtain ⟨_, same⟩ := frame_eq_ok.1 framed
    have length := congrArg List.length same
    rw [sound.got] at length
    simp only [List.nil_append, List.length_append, Bytes.length_ofWord] at length
    omega
  · rw [sound.got] at framed
    have := (frame_append framed four).2
    omega

theorem Reading.poll_header (now : Nat) (sound : f.Sound [] 4 c.source.delivered) :
    Reading.Step decode (.header f) c (Reading.poll decode now (.header f) c) := by
  have step := f.poll_step now c
  have kept := step.sound sound
  simp only [poll]
  generalize f.poll now c = p at step kept ⊢
  cases step with
  | full none_missing =>
    simp only [Poll.into_ready]
    have length := sound.missing
    have got := sound.got
    rw [none_missing, Nat.zero_add] at length
    split
    · rename_i large
      refine .fails _ _ c.source fun a framed => ?_
      obtain ⟨document, framed, _⟩ := framed
      rw [got, List.nil_append, ← List.append_nil f.bytes] at framed
      have := (frame_append framed length).2
      simp only [List.length_nil] at this
      omega
    · rename_i small
      exact .goes (.document (.start (Bytes.toWord f.bytes))) c.source
        ⟨f.bytes, ⟨by simpa [Filling.start, Filling.bytes] using got, rfl⟩, length,
          Nat.not_lt.1 small⟩
        (Prod.Lex.toLex_lt_toLex.2 (.inl Nat.zero_lt_one)) id
  | gets bs source some_octets read _ =>
    exact .goes (.header (f.add bs)) source kept
      (Prod.Lex.toLex_lt_toLex.2 (.inr ⟨rfl, read.lowers_ok (by assumption) some_octets⟩))
      fun calm => (read.calm calm).1
  | skips q read _ less =>
    exact .goes (.header f) q.state kept (Prod.Lex.toLex_lt_toLex.2 (.inr ⟨rfl, less⟩)) fun calm =>
      (read.calm calm).1
  | starves source alarm read =>
    exact .waits (.header f) source alarm kept (Prod.Lex.toLex_le_toLex.2 (.inr ⟨rfl, read.lowers⟩))
      fun calm => (read.calm calm).1
  | fails e source short _ _ =>
    exact .fails e (.header f) source fun a => not_frames_of_missing kept short (.inl ⟨rfl, rfl⟩)
  | crashes source read =>
    exact .crashes (.header f) source kept fun calm => (read.calm calm).2 source rfl

theorem Reading.poll_document (now : Nat) {head : Bytes}
    (sound : f.Sound head (Bytes.toWord head) c.source.delivered)
    (four : head.length = 4) (small : Bytes.toWord head ≤ maxFrameLength) :
    Reading.Step decode (.document f) c (Reading.poll decode now (.document f) c) := by
  have step := f.poll_step now c
  have kept := step.sound sound
  simp only [poll]
  generalize f.poll now c = p at step kept ⊢
  cases step with
  | full none_missing =>
    simp only [Poll.into_ready]
    have length := sound.missing
    have got := sound.got
    rw [none_missing, Nat.zero_add] at length
    have framed : frame f.bytes = .ok c.source.delivered :=
      frame_eq_ok.2 ⟨length ▸ small, by rw [got, length, Bytes.ofWord_toWord four]⟩
    cases decoded : decode f.bytes with
    | ok a => exact .ends a (.document f) c.source ⟨f.bytes, framed, decoded⟩
    | error fault =>
      refine .fails _ (.document f) c.source fun a other => ?_
      obtain ⟨document, framed', decoded'⟩ := other
      rw [got] at framed'
      cases (frame_append framed' four).1
      rw [decoded] at decoded'
      cases decoded'
  | gets bs source some_octets read _ =>
    exact .goes (.document (f.add bs)) source ⟨head, kept, four, small⟩
      (Prod.Lex.toLex_lt_toLex.2 (.inr ⟨rfl, read.lowers_ok (by assumption) some_octets⟩))
      fun calm => (read.calm calm).1
  | skips q read _ less =>
    exact .goes (.document f) q.state ⟨head, kept, four, small⟩
      (Prod.Lex.toLex_lt_toLex.2 (.inr ⟨rfl, less⟩))
      fun calm => (read.calm calm).1
  | starves source alarm read =>
    exact .waits (.document f) source alarm ⟨head, kept, four, small⟩
      (Prod.Lex.toLex_le_toLex.2 (.inr ⟨rfl, read.lowers⟩)) fun calm => (read.calm calm).1
  | fails e source short _ _ =>
    exact .fails e (.document f) source fun a => not_frames_of_missing kept short (.inr ⟨four, rfl⟩)
  | crashes source read =>
    exact .crashes (.document f) source ⟨head, kept, four, small⟩ fun calm =>
      (read.calm calm).2 source rfl

theorem Reading.poll_step (now : Nat) (sound : r.Sound c.source.delivered) :
    Reading.Step decode r c (r.poll decode now c) := by
  cases r with
  | header f => exact poll_header now sound
  | document f =>
    obtain ⟨head, sound, four, small⟩ := sound
    exact poll_document now sound four small

/-- A frame that has come in whole is read without another look at the stream, unless its document
is empty. -/
theorem Reading.poll_framed {a : α} (now : Nat) (sound : r.Sound c.source.delivered)
    (frames : Frames decode c.source.delivered a) (nonempty : decode [] ≠ .ok a) :
    ∃ r', r.poll decode now c = .ready (.ok a) (r', c) := by
  obtain ⟨document, framed, decoded⟩ := frames
  cases r with
  | header f =>
    have missing := sound.missing
    obtain ⟨_, same⟩ := frame_eq_ok.1 framed
    have length := congrArg List.length same
    rw [sound.got] at length
    simp only [List.nil_append, List.length_append, Bytes.length_ofWord] at length
    cases document with
    | nil => exact absurd decoded nonempty
    | cons b document =>
      simp only [List.length_cons] at length
      omega
  | document f =>
    obtain ⟨head, sound, four, _⟩ := sound
    have missing := sound.missing
    rw [sound.got] at framed
    obtain ⟨rfl, announced⟩ := frame_append framed four
    have full : f.missing = 0 := by omega
    refine ⟨.document f, ?_⟩
    simp [Reading.poll, Filling.poll, full, decoded, Except.mapError]

end Wire
end PackRelay
