import PackRelay.Config.Basic
import PackRelay.Toml.Printer

/-! A configuration as TOML, section by section. -/
namespace PackRelay

def ListenerConfig.entries (c : ListenerConfig) : Toml.Entries := [("bind_address", .text c.bindAddress)]

/-- A token is only there if one is given. -/
def BackendConfig.entries (c : BackendConfig) : Toml.Entries :=
  [("address", .text c.address)] ++ (c.token.map fun t => ("token", Toml.Value.text t)).toList
    ++ [("storage_name", .text c.storageName), ("git_config_options", .array (c.gitConfigOptions.map .text))]

def TimeoutConfig.entries (c : TimeoutConfig) : Toml.Entries :=
  [("upload_pack_secs", .integer c.uploadPackSecs), ("connect_secs", .integer c.connectSecs)]

def ObservabilityConfig.entries (c : ObservabilityConfig) : Toml.Entries :=
  [("log_level", .text c.logLevel), ("log_format", .text c.logFormat),
    ("metrics_enabled", .boolean c.metricsEnabled), ("metrics_address", .text c.metricsAddress)]

namespace Config

def sections (c : Config) : List (String × Toml.Entries) :=
  [("listener", c.listener.entries), ("backend", c.backend.entries), ("timeouts", c.timeouts.entries),
    ("observability", c.observability.entries)]

def toToml (c : Config) : String := Toml.render [] c.sections

end Config
end PackRelay
