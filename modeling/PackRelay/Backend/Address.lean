import PackRelay.Url.Parse

/-! Where a backend listens. An address is a URL: `tcp://host:port`, or `unix://` and the path of a
socket. -/
namespace PackRelay

structure Descriptor where
  address : String
  token : Option String
  deriving DecidableEq, Repr

inductive AddressFault
  | url (e : Url.Error)
  | missingHost
  | missingPort
  | missingSocketPath
  deriving DecidableEq, Repr

inductive AddressError
  | invalid (address : String) (fault : AddressFault)
  | unsupportedScheme (scheme : String)
  deriving DecidableEq, Repr

def AddressFault.message : AddressFault → String
  | .url e => e.message
  | .missingHost => "missing host"
  | .missingPort => "missing port"
  | .missingSocketPath => "missing socket path"

def AddressError.message : AddressError → String
  | .invalid address fault => "invalid backend address '" ++ address ++ "': " ++ fault.message
  | .unsupportedScheme scheme => "unsupported backend address scheme '" ++ scheme ++ "'"

inductive Address
  | tcp (hostAndPort : String)
  | unix (path : String)
  deriving DecidableEq, Repr

namespace Address

def text : Address → String
  | .tcp hostAndPort => "tcp://" ++ hostAndPort
  | .unix path => "unix://" ++ path

def ofUrl (address : String) (url : Url) : Except AddressError Address :=
  if url.scheme = ['t', 'c', 'p'] then
    match url.host, url.port with
    | none, _ => .error (.invalid address .missingHost)
    | some _, none => .error (.invalid address .missingPort)
    | some host, some port => .ok (.tcp (String.ofList host.text ++ ":" ++ toString port))
  else if url.scheme = ['u', 'n', 'i', 'x'] then
    if url.path.isEmpty then .error (.invalid address .missingSocketPath)
    else .ok (.unix (String.ofList url.path))
  else .error (.unsupportedScheme (String.ofList url.scheme))

def parse (address : String) : Except AddressError Address :=
  match Url.parse address.toList with
  | .error e => .error (.invalid address (.url e))
  | .ok url => ofUrl address url

end Address

def Descriptor.place (d : Descriptor) : Except AddressError Address := Address.parse d.address

end PackRelay
