import PackRelay.Duration

/-! The configuration and what holds where it says nothing. -/
namespace PackRelay

structure ListenerConfig where
  bindAddress : String := "0.0.0.0:8181"
  deriving DecidableEq, Repr, Inhabited

structure BackendConfig where
  address : String := "unix:///var/run/git-backend/backend.sock"
  token : Option String := none
  storageName : String := "default"
  gitConfigOptions : List String := []
  deriving DecidableEq, Repr, Inhabited

/-- Limits in seconds. -/
structure TimeoutConfig where
  uploadPackSecs : Nat := 600
  connectSecs : Nat := 5
  deriving DecidableEq, Repr, Inhabited

structure ObservabilityConfig where
  logLevel : String := "info"
  logFormat : String := "text"
  metricsEnabled : Bool := false
  metricsAddress : String := "127.0.0.1:9236"
  deriving DecidableEq, Repr, Inhabited

structure Config where
  listener : ListenerConfig := {}
  backend : BackendConfig := {}
  timeouts : TimeoutConfig := {}
  observability : ObservabilityConfig := {}
  deriving DecidableEq, Repr, Inhabited

def TimeoutConfig.uploadPack (t : TimeoutConfig) : Duration := .ofSecs t.uploadPackSecs

def TimeoutConfig.connect (t : TimeoutConfig) : Duration := .ofSecs t.connectSecs

end PackRelay
