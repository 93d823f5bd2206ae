import PackRelay.Proofs.Wire.Message
import PackRelay.Proofs.Wire.Receive

/-! Documents go over a stream and come back. A list of them is sent frame by frame and received
with as many calls, whatever the sizes and delays of writes and reads, and both ends refuse the same
documents for their length. -/
namespace PackRelay.Wire

inductive Message
  | hello (h : Hello)
  | reply (r : CallReply)
  deriving DecidableEq

/-- What a receiver asks for. -/
inductive Kind
  | hello
  | reply
  deriving DecidableEq, Repr

namespace Message

def kind : Message → Kind
  | .hello _ => .hello
  | .reply _ => .reply

def encode : Message → Bytes
  | .hello h => h.encode
  | .reply r => r.encode

/-- The length of the document as a word, then the document. -/
def framed (m : Message) : Bytes := Bytes.ofWord m.encode.length ++ m.encode

end Message

def Kind.decode : Kind → Bytes → Except Json.Fault Message
  | .hello => fun bs => (Hello.decode bs).map .hello
  | .reply => fun bs => (CallReply.decode bs).map .reply

/-- One frame after another, up to the first that is not sent. -/
def sendAll : Nat → List Message → Sink → Run Sink (Except Error Unit)
  | now, [], s => .finished now (.ok ()) s
  | now, m :: ms, s =>
    match send now m.encode s with
    | .finished t (.ok ()) s => sendAll t ms s
    | other => other

/-- One frame after another, up to the first that is not received. -/
def receiveAll : Nat → List Kind → Connection → Run Connection (Except Error (List Message))
  | now, [], c => .finished now (.ok []) c
  | now, k :: ks, c =>
    match receive k.decode now c with
    | .finished t (.ok m) c =>
      match receiveAll t ks c with
      | .finished t result c => .finished t (result.map (m :: ·)) c
      | other => other
    | .finished t (.error e) c => .finished t (.error e) c
    | .crashed t c => .crashed t c
    | .stuck t c => .stuck t c
    | .unfinished t c => .unfinished t c

variable {m : Message} {ms : List Message} {tail : Bytes} {after : List ReadEvent} {s : Sink}
    {c : Connection}

theorem Message.decode_encode (m : Message) : m.kind.decode m.encode = .ok m := by
  cases m with
  | hello h => exact congrArg (Except.map Message.hello) (Hello.decode_encode h)
  | reply r => exact congrArg (Except.map Message.reply) (CallReply.decode_encode r)

theorem Message.frame_encode (small : m.encode.length ≤ maxFrameLength) :
    frame m.encode = .ok m.framed := frame_eq_ok.2 ⟨small, rfl⟩

/-! ## Sending -/

theorem sendAll_accepts (now : Nat) (small : ∀ m ∈ ms, m.encode.length ≤ maxFrameLength)
    (accepts : s.plan.Accepts) :
    ∃ t s', sendAll now ms s = .finished t (.ok ()) s' ∧
      s'.written = s.written ++ ms.flatMap Message.framed ∧
      s'.flushes = s.flushes + ms.length ∧ s'.plan.Accepts := by
  induction ms generalizing now s with
  | nil => exact ⟨now, s, rfl, (List.append_nil _).symm, rfl, accepts⟩
  | cons m ms ih =>
    obtain ⟨small, others⟩ := List.forall_mem_cons.1 small
    obtain ⟨t, s₁, sent, written, flushes, plan⟩ :=
      send_accepts now accepts (Message.frame_encode small)
    obtain ⟨t', s₂, sent', written', flushes', accepts'⟩ := ih t others (plan ▸ accepts)
    refine ⟨t', s₂, ?_, ?_, ?_, accepts'⟩
    · simp only [sendAll, sent, sent']
    · rw [written', written, List.append_assoc, List.flatMap_cons]
    · rw [flushes', flushes, List.length_cons]
      omega

/-- The documents go out whole and in order. Until a frame is through, what is left of it follows
what was written and nothing of it was flushed; then it was flushed once. -/
structure SentEach (now : Nat) (ms : List Message) (s : Sink) : Prop where
  is_over : ∃ t s', sendAll now ms s = .finished t (.ok ()) s' ∧
    s'.written = s.written ++ ms.flatMap Message.framed ∧ s'.flushes = s.flushes + ms.length
  meanwhile (done : List Message) (m : Message) (later : List Message) : ms = done ++ m :: later →
    ∃ t s₁, sendAll now done s = .finished t (.ok ()) s₁ ∧
      s₁.written = s.written ++ done.flatMap Message.framed ∧
      s₁.flushes = s.flushes + done.length ∧
      send t m.encode s₁ = (sending (2 * m.framed.length + 16) t m.framed s₁).view (·.2) ∧
      ∀ n t' x, sending n t m.framed s₁ = .unfinished t' x →
        x.2.written ++ x.1.rest = s₁.written ++ m.framed ∧ x.2.flushes = s₁.flushes

theorem sentEach_accepts (now : Nat) (small : ∀ m ∈ ms, m.encode.length ≤ maxFrameLength)
    (accepts : s.plan.Accepts) : SentEach now ms s := by
  constructor
  · obtain ⟨t, s', sent, written, flushes, _⟩ := sendAll_accepts now small accepts
    exact ⟨t, s', sent, written, flushes⟩
  · rintro done m later rfl
    obtain ⟨small_done, small_here⟩ := List.forall_mem_append.1 small
    obtain ⟨t, s₁, sent, written, flushes, _⟩ := sendAll_accepts now small_done accepts
    have framed := Message.frame_encode (small_here m List.mem_cons_self)
    refine ⟨t, s₁, sent, written, flushes, send_frame framed, fun n t' x here => ?_⟩
    have pending := sending_pending here
    exact ⟨pending.written, pending.flushes⟩

/-! ## Receiving -/

theorem receive_message (now : Nat) (small : m.encode.length ≤ maxFrameLength)
    (brings : c.source.Brings (m.framed ++ tail) after) :
    ∃ t c', receive m.kind.decode now c = .finished t (.ok m) c' ∧
      c'.source.Brings tail after := by
  rw [Message.framed, List.append_assoc] at brings
  obtain ⟨t, a, c', finished, received⟩ :=
    receive_brings m.kind.decode now (Bytes.length_ofWord _) (toWord_length small) brings
  cases received with
  | refused large => omega
  | taken _ value left =>
    rw [m.decode_encode] at value
    subst value
    exact ⟨t, c', finished, left⟩

theorem receiveAll_brings (now : Nat) (small : ∀ m ∈ ms, m.encode.length ≤ maxFrameLength)
    (brings : c.source.Brings (ms.flatMap Message.framed ++ tail) after) :
    ∃ t c', receiveAll now (ms.map Message.kind) c = .finished t (.ok ms) c' ∧
      c'.source.Brings tail after := by
  induction ms generalizing now c with
  | nil => exact ⟨now, c, rfl, brings⟩
  | cons m ms ih =>
    obtain ⟨small, others⟩ := List.forall_mem_cons.1 small
    rw [List.flatMap_cons, List.append_assoc] at brings
    obtain ⟨t, c₁, received, behind⟩ := receive_message now small brings
    obtain ⟨t', c₂, received', left⟩ := ih t others behind
    exact ⟨t', c₂, by simp only [List.map_cons, receiveAll, received, received']; rfl, left⟩

/-! ## The limit -/

/-- A sender and a receiver refuse a document for its length in the same cases, and a refused
document leaves no trace where it would have been sent. -/
structure SameLimit (m : Message) : Prop where
  send (now : Nat) (s : Sink) :
    (∃ n, (send now m.encode s).value? = some (.error (.frameTooLarge n))) ↔
      maxFrameLength < m.encode.length
  untouched (now : Nat) (s : Sink) : maxFrameLength < m.encode.length →
    Wire.send now m.encode s = .finished now (.error (.frameTooLarge m.encode.length)) s
  receive (now : Nat) (head tail : Bytes) (after : List ReadEvent) (c : Connection) :
    head.length = 4 → Bytes.toWord head = m.encode.length →
      c.source.Brings (head ++ (m.encode ++ tail)) after →
        ((∃ n, (receive m.kind.decode now c).value? = some (.error (.frameTooLarge n))) ↔
          maxFrameLength < m.encode.length)

theorem sameLimit (m : Message) : SameLimit m := by
  refine ⟨fun now s => ⟨fun ⟨n, refused⟩ => length_of_refused refused, fun large => ?_⟩,
    fun now s => send_large, fun now head tail after c four announced brings => ?_⟩
  · exact ⟨_, by rw [send_large large]; rfl⟩
  · obtain ⟨t, a, c', finished, received⟩ :=
      receive_brings m.kind.decode now four announced brings
    rw [finished]
    cases received with
    | refused large value _ =>
      subst value
      exact ⟨fun _ => large, fun _ => ⟨_, rfl⟩⟩
    | taken small value _ =>
      rw [m.decode_encode] at value
      subst value
      exact ⟨fun ⟨n, is⟩ => (nomatch is), fun large => absurd large (Nat.not_lt.2 small)⟩

/-! ## There and back -/

theorem round_trip (now now' : Nat) (small : ∀ m ∈ ms, m.encode.length ≤ maxFrameLength)
    (accepts : s.plan.Accepts)
    (brings : c.source.Brings (ms.flatMap Message.framed ++ tail) after) :
    SentEach now ms s ∧
      (∃ t c', receiveAll now' (ms.map Message.kind) c = .finished t (.ok ms) c' ∧
        c'.source.Brings tail after) ∧
      ∀ m, SameLimit m :=
  ⟨sentEach_accepts now small accepts, receiveAll_brings now' small brings, sameLimit⟩

/-- A hello and a reply. -/
def twoMessages : List Message :=
  [.hello (.sidechannel ⟨⟨List.replicate 32 ⟨11, by decide⟩, rfl⟩⟩),
    .reply (.error "not_found" "no \"such\"\nrepository")]

/-- Takes three octets at a time. -/
def slowSink : Sink :=
  { plan := { write := WriteTurn.steady (some 3) 2 none, flush := fun _ => { delay := 1 } } }

/-- Two octets of the first head come early, and more than the frames comes in the end. -/
def brokenUp : Connection :=
  ⟨.ofEvents [.data ((twoMessages.flatMap Message.framed).take 2), .delay 5, .data [],
    .data ((twoMessages.flatMap Message.framed).drop 2 ++ [0x30, 0x30]), .hang], {}⟩

theorem round_trip_two :
    SentEach 0 twoMessages slowSink ∧
      ∃ t c', receiveAll 0 [.hello, .reply] brokenUp = .finished t (.ok twoMessages) c' ∧
        c'.source.Brings [0x30, 0x30] [.hang] := by
  have small : ∀ m ∈ twoMessages, m.encode.length ≤ maxFrameLength := by decide
  have accepts : slowSink.plan.Accepts :=
    ⟨fun _ _ => ⟨some 3, rfl, by decide⟩, fun _ => rfl⟩
  have brings : brokenUp.source.Brings
      (twoMessages.flatMap Message.framed ++ [0x30, 0x30]) [.hang] := by
    refine ⟨brokenUp.source.events.dropLast, rfl, ?_, ?_⟩
    · simp [brokenUp, Source.ofEvents, ReadEvent.isSteady]
    · generalize whole : twoMessages.flatMap Message.framed = bs
      simp only [brokenUp, Source.ofEvents, Source.delivers, whole, List.dropLast,
        List.flatMap_cons, List.flatMap_nil, List.nil_append, List.append_nil]
      rw [← List.append_assoc, List.take_append_drop]
  have both := round_trip 0 0 small accepts brings
  exact ⟨both.1, both.2.1⟩

end PackRelay.Wire
