import PackRelay.Backend.Address
import PackRelay.Config.Basic
import PackRelay.Net.SocketAddress

/-! The rules that a configuration has to meet beyond its form. Every broken rule is told. -/
namespace PackRelay

inductive ConfigFault
  | bindAddress (text : String)
  | backendAddress (e : AddressError)
  | storageName
  | zeroUploadPack
  | zeroConnect
  | logFormat (text : String)
  | metricsAddress (text : String)
  deriving DecidableEq, Repr

def ConfigFault.message : ConfigFault → String
  | .bindAddress text => "listener.bind_address '" ++ text ++ "' is not a socket address"
  | .backendAddress e => "backend.address: " ++ e.message
  | .storageName => "backend.storage_name must not be empty"
  | .zeroUploadPack => "timeouts.upload_pack_secs must be greater than zero"
  | .zeroConnect => "timeouts.connect_secs must be greater than zero"
  | .logFormat text => "observability.log_format '" ++ text ++ "' must be \"text\" or \"json\""
  | .metricsAddress text => "observability.metrics_address '" ++ text ++ "' is not a socket address"

namespace Config

def bindAddressFault (c : Config) : Option ConfigFault :=
  if SocketAddress.isValid c.listener.bindAddress then none
  else some (.bindAddress c.listener.bindAddress)

def backendAddressFault (c : Config) : Option ConfigFault :=
  match Address.parse c.backend.address with
  | .ok _ => none
  | .error e => some (.backendAddress e)

def storageNameFault (c : Config) : Option ConfigFault :=
  if c.backend.storageName = "" then some .storageName else none

def uploadPackFault (c : Config) : Option ConfigFault :=
  if c.timeouts.uploadPackSecs = 0 then some .zeroUploadPack else none

def connectFault (c : Config) : Option ConfigFault :=
  if c.timeouts.connectSecs = 0 then some .zeroConnect else none

def logFormatFault (c : Config) : Option ConfigFault :=
  if c.observability.logFormat = "text" ∨ c.observability.logFormat = "json" then none
  else some (.logFormat c.observability.logFormat)

/-- The address of metrics matters only where they are wanted. -/
def metricsAddressFault (c : Config) : Option ConfigFault :=
  if c.observability.metricsEnabled && !SocketAddress.isValid c.observability.metricsAddress then
    some (.metricsAddress c.observability.metricsAddress)
  else none

def faults (c : Config) : List ConfigFault :=
  [c.bindAddressFault, c.backendAddressFault, c.storageNameFault, c.uploadPackFault, c.connectFault,
    c.logFormatFault, c.metricsAddressFault].filterMap id

def validate (c : Config) : Except (List ConfigFault) Unit :=
  match c.faults with
  | [] => .ok ()
  | fs => .error fs

end Config
end PackRelay
