import PackRelay.Backend.Capability

/-! A backend that does what a script says, without any wire: each part takes some time and then fails
or works. -/
namespace PackRelay

structure ScriptedBackend where
  startDelay : Nat := 0
  startError : Option CallError := none
  dialDelay : Nat := 0
  dialError : Option SidechannelError := none
  channel : Sidechannel
  /-- It is closed before it is handed out. -/
  preclosed : Bool := false
  replyDelay : Nat := 0
  /-- None if the reply never comes. -/
  reply : Option (Except CallError Unit) := some (.ok ())
  wake : Option Nat := none

namespace ScriptedBackend

def pollStart (now : Nat) : Context × ScriptedBackend → Poll (Context × ScriptedBackend) (Except CallError Unit)
  | (ctx, b) =>
    match ctx.signal with
    | some r => .ready (.error (.cancelled r)) (ctx, b)
    | none =>
      match pause now b.startDelay b.wake with
      | some t => .waiting (ctx, { b with wake := some t }) (some t)
      | none =>
        .ready (match b.startError with | some e => .error e | none => .ok ()) (ctx, { b with wake := none })

def pollHandOut (now : Nat) (ctx : Context) (b : ScriptedBackend) :
    Poll (Context × ScriptedBackend) (Except SidechannelError Sidechannel) :=
  if b.preclosed then
    (b.channel.pollClose now).into (fun channel => (ctx, { b with channel })) fun _ channel =>
      .ready (.ok channel) (ctx, { b with channel })
  else .ready (.ok b.channel) (ctx, b)

def pollDial (now : Nat) :
    Context × ScriptedBackend → Poll (Context × ScriptedBackend) (Except SidechannelError Sidechannel)
  | (ctx, b) =>
    if b.channel.closeLimit.isSome then pollHandOut now ctx b
    else
      let (checked, ctx) := if b.wake.isNone then ctx.check now else (.ok (), ctx)
      match checked, ctx.signal with
      | .error r, _ | .ok (), some r => .ready (.error (.cancelled r)) (ctx, b)
      | .ok (), none =>
        match pause now b.dialDelay b.wake with
        | some t => .waiting (ctx, { b with wake := some t }) (some t)
        | none =>
          match b.dialError with
          | some e => .ready (.error e) (ctx, { b with wake := none })
          | none => pollHandOut now ctx { b with wake := none }

def pollReply (now : Nat) (b : ScriptedBackend) : Poll ScriptedBackend (Except CallError Unit) :=
  match pause now b.replyDelay b.wake with
  | some t => .waiting { b with wake := some t } (some t)
  | none =>
    match b.reply with
    | some result => .ready result b
    | none => .waiting b none

def backend : Backend ScriptedBackend where
  start := pollStart
  dial := pollDial
  reply := pollReply
  callId b := b.channel.id
  release b := b

end ScriptedBackend
end PackRelay
