import PackRelay.Backend.Capability
import PackRelay.Backend.Opening

/-! A backend at the end of a wire. The call has a connection of its own, on which its hello is sent
and its reply read; the sidechannel is a second connection to the same place, opened by a hello with
the same identifier. -/
namespace PackRelay

inductive CallLine
  | opening (o : Opening)
  | listening (r : Wire.Reading) (c : Connection)
  | dropped (c : Option Connection)

inductive ChannelLine
  | opening (o : Opening)
  | handedOut
  | dropped (c : Option Connection)

namespace CallLine

def connection? : CallLine → Option Connection
  | .opening o => o.connection?
  | .listening _ c => some c
  | .dropped c => c

def drop : CallLine → CallLine
  | .opening o => .dropped (o.connection?.map Connection.release)
  | .listening _ c => .dropped (some c.release)
  | .dropped c => .dropped c

end CallLine

namespace ChannelLine

def connection? : ChannelLine → Option Connection
  | .opening o => o.connection?
  | .handedOut => none
  | .dropped c => c

def drop : ChannelLine → ChannelLine
  | .opening o => .dropped (o.connection?.map Connection.release)
  | .handedOut => .handedOut
  | .dropped c => .dropped c

end ChannelLine

namespace CallError

def ofOpening : OpeningError → CallError
  | .cancelled r => .cancelled r
  | .connect e => .connect e
  | .wire e => .wire e

end CallError

namespace SidechannelError

def ofOpening : OpeningError → SidechannelError
  | .cancelled r => .cancelled r
  | .connect e => .connect e
  | .wire e => .handshake e

end SidechannelError

structure WiredBackend where
  descriptor : Descriptor
  patience : Duration
  request : Wire.CallRequest
  callDial : Dial
  channelDial : Dial
  call : CallLine := .opening (.dialing .fresh)
  channel : ChannelLine := .opening (.dialing .fresh)
  /-- The places dialed so far, in order. -/
  dialed : List Address := []

namespace WiredBackend

def id (b : WiredBackend) : SidechannelId := b.request.sidechannelId

def ofRequest (descriptor : Descriptor) (patience : Duration) (repository : Repository)
    (gitProtocol : Option String) (gitConfigOptions : List String) (id : SidechannelId)
    (callDial channelDial : Dial) : WiredBackend :=
  { descriptor, patience, callDial, channelDial
    request := {
      method := Wire.uploadPackMethod
      authorization := descriptor.token
      repository, gitProtocol, gitConfigOptions
      sidechannelId := id } }

def withCall (b : WiredBackend) (line : CallLine) : WiredBackend := { b with call := line }

def withChannel (b : WiredBackend) (line : ChannelLine) : WiredBackend := { b with channel := line }

def noting (b : WiredBackend) (before after : Opening) : WiredBackend :=
  { b with dialed := b.dialed ++ Opening.begun before after }

def callDestination (b : WiredBackend) : Destination := ⟨b.descriptor, b.patience, b.callDial, (Wire.Hello.call b.request).encode⟩

def channelDestination (b : WiredBackend) : Destination :=
  ⟨b.descriptor, b.patience, b.channelDial, (Wire.Hello.sidechannel b.id).encode⟩

def pollStart (now : Nat) : Context × WiredBackend → Poll (Context × WiredBackend) (Except CallError Unit)
  | (ctx, b) =>
    match b.call with
    | .opening o =>
      (o.poll b.callDestination now ctx).into
        (fun (ctx, o') => (ctx, (b.noting o o').withCall (.opening o'))) fun result (ctx, o') =>
          match result with
          | .error e => .ready (.error (.ofOpening e)) (ctx, b.withCall (CallLine.opening o').drop)
          | .ok c => .ready (.ok ()) (ctx, b.withCall (.listening .start c))
    | .listening _ _ => .ready (.ok ()) (ctx, b)
    | .dropped _ => .ready (.error (.wire .closed)) (ctx, b)

def pollOpening (now : Nat) (o : Opening) (ctx : Context) (b : WiredBackend) :
    Poll (Context × WiredBackend) (Except SidechannelError Sidechannel) :=
  (o.poll b.channelDestination now ctx).into
    (fun (ctx, o') => (ctx, (b.noting o o').withChannel (.opening o'))) fun result (ctx, o') =>
      match result with
      | .error e => .ready (.error (.ofOpening e)) (ctx, b.withChannel (ChannelLine.opening o').drop)
      | .ok c => .ready (.ok { id := b.id, connection := c }) (ctx, b.withChannel .handedOut)

def pollDial (now : Nat) :
    Context × WiredBackend → Poll (Context × WiredBackend) (Except SidechannelError Sidechannel)
  | (ctx, b) =>
    match b.channel with
    | .opening (.dialing .fresh) =>
      match ctx.check now with
      | (.error r, ctx) => .ready (.error (.cancelled r)) (ctx, b.withChannel (.dropped none))
      | (.ok (), ctx) => b.pollOpening now (.dialing .fresh) ctx
    | .opening o => b.pollOpening now o ctx
    | .handedOut | .dropped _ => .ready (.error .closed) (ctx, b)

def verdict : Except Wire.Error Wire.CallReply → Except CallError Unit
  | .ok .ok => .ok ()
  | .ok (.error code message) => .error (.backend ⟨code, message⟩)
  | .error e => .error (.wire e)

def pollReply (now : Nat) (b : WiredBackend) : Poll WiredBackend (Except CallError Unit) :=
  match b.call with
  | .listening r c =>
    (r.poll Wire.CallReply.decode now c).map verdict fun (r, c) => b.withCall (.listening r c)
  | _ => .ready (.error (.wire .closed)) b

def release (b : WiredBackend) : WiredBackend := (b.withCall b.call.drop).withChannel b.channel.drop

def backend : Backend WiredBackend where
  start := pollStart
  dial := pollDial
  reply := pollReply
  callId := id
  release := release

end WiredBackend
end PackRelay
