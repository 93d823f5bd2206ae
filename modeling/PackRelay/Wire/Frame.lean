import PackRelay.Clock.Run
import PackRelay.Stream.Connection
import PackRelay.Text.Utf8
import PackRelay.Wire.Error

/-! Frames: the length of a document as a word of four octets, then the document. Writing sends one
frame and flushes; reading takes exactly one frame and leaves what follows it. -/
namespace PackRelay.Wire

def frame (document : Bytes) : Except Error Bytes :=
  if maxFrameLength < document.length then .error (.frameTooLarge document.length)
  else .ok (Bytes.ofWord document.length ++ document)

inductive Writing
  | sending (rest : Bytes)
  | flushing
  deriving DecidableEq, Repr

def Writing.poll (now : Nat) (w : Writing) (s : Sink) : Poll (Writing × Sink) (Except Error Unit) :=
  match w with
  | .sending rest =>
    (s.pollWriteAll now rest).into (fun (rest, s) => (.sending rest, s)) fun result (rest, s) =>
      match result with
      | .ok () => .more (.flushing, s)
      | .error e => .ready (.error (.io e)) (.sending rest, s)
  | .flushing =>
    (s.pollFlush now).into (.flushing, ·) fun result s => .ready (result.mapError .io) (.flushing, s)

def send (now : Nat) (document : Bytes) (s : Sink) : Run Sink (Except Error Unit) :=
  match frame document with
  | .error e => .finished now (.error e) s
  | .ok bs =>
    (run .idle (fun now (w, s) => Writing.poll now w s) (2 * bs.length + 16) now (.sending bs, s)).view (·.2)

/-- Octets that were read, the latest first, and how many are still missing. -/
structure Filling where
  missing : Nat
  got : List Bytes
  deriving DecidableEq, Repr

def Filling.start (count : Nat) : Filling := ⟨count, []⟩

def Filling.add (bs : Bytes) (f : Filling) : Filling := ⟨f.missing - bs.length, bs :: f.got⟩

def Filling.bytes (f : Filling) : Bytes := f.got.reverse.flatten

inductive Reading
  | header (f : Filling)
  | document (f : Filling)
  deriving DecidableEq, Repr

def Reading.start : Reading := .header (.start 4)

/-- A read error, some kind of which says that a frame was cut short. -/
def readError (e : IoError) : Error := if e.kind = .unexpectedEof then .closed else .io e

/-- Reading as many octets as are missing. An interrupted read is tried again. -/
def Filling.poll (now : Nat) (f : Filling) (c : Connection) :
    Poll (Filling × Connection) (Except Error Bytes) :=
  if f.missing = 0 then .ready (.ok f.bytes) (f, c)
  else (c.pollRead now f.missing).into (f, ·) fun result c =>
    match result with
    | .ok [] => .ready (.error .closed) (f, c)
    | .ok bs => .more (f.add bs, c)
    | .error e => if e.kind = .interrupted then .more (f, c) else .ready (.error (readError e)) (f, c)

def Reading.poll {α : Type} (decode : Bytes → Except Json.Fault α) (now : Nat) (r : Reading)
    (c : Connection) : Poll (Reading × Connection) (Except Error α) :=
  match r with
  | .header f =>
    (f.poll now c).into (fun (f, c) => (.header f, c)) fun result (f, c) =>
      match result with
      | .error e => .ready (.error e) (.header f, c)
      | .ok word =>
        let count := Bytes.toWord word
        if maxFrameLength < count then .ready (.error (.frameTooLarge count)) (.header f, c)
        else .more (.document (.start count), c)
  | .document f =>
    (f.poll now c).into (fun (f, c) => (.document f, c)) fun result (f, c) =>
      match result with
      | .error e => .ready (.error e) (.document f, c)
      | .ok bs => .ready ((decode bs).mapError .malformed) (.document f, c)

def receive {α : Type} (decode : Bytes → Except Json.Fault α) (now : Nat) (c : Connection) :
    Run Connection (Except Error α) :=
  (run .idle (fun now (r, c) => Reading.poll decode now r c) c.readBudget now (.start, c)).view (·.2)

def pollRest (now : Nat) (got : List Bytes) (c : Connection) :
    Poll (List Bytes × Connection) (Except IoError Bytes) :=
  (c.pollRead now 32768).into (got, ·) fun result c =>
    match result with
    | .ok [] => .ready (.ok got.reverse.flatten) (got, c)
    | .ok bs => .more (bs :: got, c)
    | .error e => if e.kind = .interrupted then .more (got, c) else .ready (.error e) (got, c)

def receiveRest (now : Nat) (c : Connection) : Run Connection (Except IoError Bytes) :=
  (run .idle (fun now (got, c) => pollRest now got c) c.readBudget now ([], c)).view (·.2)

end PackRelay.Wire
