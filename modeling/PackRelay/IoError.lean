/-! Failures of a read, write, connect or shutdown. -/
namespace PackRelay

inductive IoKind
  | notFound
  | notConnected
  | brokenPipe
  | connectionReset
  | connectionAborted
  | connectionRefused
  | unexpectedEof
  | timedOut
  | writeZero
  | interrupted
  | invalidData
  | networkUnreachable
  | invalidInput
  | uncategorized
  | other
  deriving DecidableEq, Repr

structure IoError where
  kind : IoKind
  message : String
  deriving DecidableEq, Repr

namespace IoError

/-- What writing everything reports when the stream accepts nothing. -/
def writeZero : IoError := ⟨.writeZero, "write zero"⟩

/-- The peer is gone, which closing a connection forgives. -/
def isDisconnect (e : IoError) : Bool :=
  e.kind = .notConnected || e.kind = .brokenPipe || e.kind = .connectionReset

def ofErrno (kind : IoKind) (text : String) (errno : Nat) : IoError :=
  ⟨kind, text ++ " (os error " ++ toString errno ++ ")"⟩

def noSuchFile : IoError := ofErrno .notFound "No such file or directory" 2

def notText : IoError := ⟨.invalidData, "stream did not contain valid UTF-8"⟩

end IoError
end PackRelay
