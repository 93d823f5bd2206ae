import PackRelay.Sidechannel.Basic

/-! A sidechannel in the hands of one caller, who does one thing after another while the context's
watcher runs beside. -/
namespace PackRelay.Sidechannel

inductive Command
  | read (room : Nat)
  | write (bs : Bytes)
  | writeAll (bs : Bytes)
  | closeWrite
  | close
  /-- Reads once while all octets are written and the writing side is closed, twice. -/
  | duplex (bs : Bytes) (room : Nat)
  | drop
  | cancel (r : CancelReason)
  | advance (ms : Nat)
  deriving DecidableEq, Repr

inductive Reply
  | octets (bs : Bytes)
  | wrote (count : Nat)
  | done
  | failed (e : SidechannelError)
  | both (reader : Except SidechannelError Bytes) (writer : Except SidechannelError Unit)
  | existed (b : Bool)
  | gone
  deriving Repr

structure Session where
  now : Nat := 0
  ctx : Context
  channel : Sidechannel
  dropped : Bool := false

inductive DuplexWriter
  | writing (rest : Bytes)
  | closing (again : Bool)
  | ended (result : Except SidechannelError Unit)

structure Duplex where
  channel : Sidechannel
  room : Nat
  read : Option (Except SidechannelError Bytes) := none
  writer : DuplexWriter

namespace Duplex

def pollWriter (ctx : Context) (now : Nat) (d : Duplex) : Poll Duplex Unit :=
  match d.writer with
  | .writing rest =>
    (d.channel.pollWriteAll ctx now rest).into
      (fun (rest, channel) => { d with channel, writer := .writing rest }) fun result (_, channel) =>
        match result with
        | .ok () => .more { d with channel, writer := .closing true }
        | .error e => .more { d with channel, writer := .ended (.error e) }
  | .closing again =>
    (d.channel.pollCloseWrite ctx now).into (fun channel => { d with channel }) fun result channel =>
      match result with
      | .ok () =>
        .more { d with channel, writer := if again then .closing false else .ended (.ok ()) }
      | .error e => .more { d with channel, writer := .ended (.error e) }
  | .ended _ => .ready () d

def pollReader (ctx : Context) (now : Nat) (d : Duplex) : Poll Duplex Unit :=
  match d.read with
  | some _ => .ready () d
  | none =>
    (d.channel.pollRead ctx now d.room).into (fun channel => { d with channel }) fun result channel =>
      .more { d with channel, read := some result }

def poll (ctx : Context) (now : Nat) (d : Duplex) : Poll Duplex Unit :=
  Poll.both (pollReader ctx now) (pollWriter ctx now) d

def reply (d : Duplex) : Reply :=
  match d.read, d.writer with
  | some reader, .ended writer => .both reader writer
  | _, _ => .done

end Duplex

/-- What goes on around a command: who may cancel the context meanwhile, and how many steps the command
may take beyond those that it is granted anyway. -/
structure Surroundings where
  outside : Option Interruption := none
  extra : Nat := 0

namespace Session

/-- Steps that no command uses up whose writing takes `count` octets. -/
def budget (s : Session) (count : Nat) : Nat := s.channel.connection.readBudget + 4 * count + 64

/-- What a command that has run leaves, if it came to an end. -/
def ended {τ α : Type} (s : Session) (channel : τ → Sidechannel) (reply : α → τ → Reply) :
    Run (Context × τ) α → Option (Reply × Session)
  | .finished time a (ctx, t) => some (reply a t, { s with now := time, ctx, channel := channel t })
  | _ => none

def drive {τ α : Type} (s : Session) (around : Surroundings) (count : Nat)
    (poll : Context → Nat → τ → Poll τ α) (channel : τ → Sidechannel) (start : τ) (reply : α → τ → Reply) :
    Option (Reply × Session) :=
  let beside := Context.beside (fun (p : Context × τ) => p.1) (fun ctx p => (ctx, p.2)) around.outside
  s.ended channel reply
    (run beside (fun now p => (poll p.1 now p.2).within (p.1, ·)) (s.budget count + around.extra) s.now
      (s.ctx, start))

def answer {α τ : Type} (ok : α → Reply) : Except SidechannelError α → τ → Reply
  | .ok a, _ => ok a
  | .error e, _ => .failed e

def settle (s : Session) (around : Surroundings) : Session :=
  { s with ctx := (s.ctx.watch around.outside s.now).getD s.ctx }

def sleep (s : Session) (around : Surroundings) (ms : Nat) : Option Session :=
  let stop := s.now + ms
  let beside := Context.beside Session.ctx (fun ctx s => { s with ctx }) around.outside
  match run beside (fun now s => if stop ≤ now then .ready () s else .waiting s (some stop))
      (16 + around.extra) s.now s with
  | .finished time () s => some { s with now := time }
  | _ => none

def onChannel (s : Session) (around : Surroundings) : Command → Option (Reply × Session)
  | .read room =>
    s.drive around 0 (fun ctx now c => c.pollRead ctx now room) (fun c => c) s.channel (answer .octets)
  | .write bs =>
    s.drive around bs.length (fun ctx now c => c.pollWrite ctx now bs) (fun c => c) s.channel (answer .wrote)
  | .writeAll bs =>
    s.drive around bs.length (fun ctx now (p : Bytes × Sidechannel) => p.2.pollWriteAll ctx now p.1) (·.2)
      (bs, s.channel) (answer fun _ => .done)
  | .closeWrite =>
    s.drive around 0 (fun ctx now c => c.pollCloseWrite ctx now) (fun c => c) s.channel (answer fun _ => .done)
  | .close => s.drive around 0 (fun _ now c => c.pollClose now) (fun c => c) s.channel (answer fun _ => .done)
  | .duplex bs room =>
    if s.channel.isOpen then
      s.drive around bs.length (fun ctx now d => d.poll ctx now) Duplex.channel
        { channel := s.channel, room, writer := .writing bs } fun () d => d.reply
    else some (.failed .closed, s)
  | _ => some (.done, s)

def perform (s : Session) (c : Command) (around : Surroundings := {}) : Option (Reply × Session) :=
  match c with
  | .cancel r => some (.done, { s with ctx := s.ctx.cancel r })
  | .advance ms => (s.sleep around ms).map fun s => (.done, s.settle around)
  | .drop =>
    some (.existed !s.dropped, { s with dropped := true, channel := if s.dropped then s.channel else s.channel.drop })
  | c => if s.dropped then some (.gone, s) else s.onChannel around c

end Session
end PackRelay.Sidechannel
