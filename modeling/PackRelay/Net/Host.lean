import PackRelay.Backend.Connect
import PackRelay.Net.SocketAddress

/-! What dialing meets on a host without a network: no address beyond the host is reached, and of the
files of the host only a socket somebody listens on answers. -/
namespace PackRelay

structure Host where
  sockets : List String := []
  files : List String := []
  deriving DecidableEq, Repr

namespace Host

/-- Paths of sockets have to be shorter than this, in octets. -/
def pathLimit : Nat := 108

def networkUnreachable : IoError := .ofErrno .networkUnreachable "Network is unreachable" 101

def connectionRefused : IoError := .ofErrno .connectionRefused "Connection refused" 111

def pathTooLong : IoError := ⟨.invalidInput, "path must be shorter than SUN_LEN"⟩

def nameUnresolved : IoError :=
  ⟨.uncategorized, "failed to lookup address information: Temporary failure in name resolution"⟩

/-- Names that stand for the host itself need no resolution. -/
def isOwnName (hostAndPort : String) : Bool := "localhost:".toList.isPrefixOf hostAndPort.toList

/-- What dialing a place meets if a listener there would give this connection. -/
def dial (h : Host) (line : Connection) : Address → Dial
  | .tcp hostAndPort =>
    if SocketAddress.isValid hostAndPort || isOwnName hostAndPort then ⟨0, .failed networkUnreachable⟩
    else ⟨0, .failed nameUnresolved⟩
  | .unix path =>
    if pathLimit ≤ path.utf8ByteSize then ⟨0, .failed pathTooLong⟩
    else if h.sockets.contains path then ⟨0, .connected line⟩
    else if h.files.contains path then ⟨0, .failed connectionRefused⟩
    else ⟨0, .failed .noSuchFile⟩

end Host
end PackRelay
