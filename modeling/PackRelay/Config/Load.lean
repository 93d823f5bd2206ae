import PackRelay.Config.Validation
import PackRelay.IoError
import PackRelay.Text.Utf8
import PackRelay.Toml.Document
import PackRelay.Toml.Record

/-! Configurations from TOML text and from files. -/
namespace PackRelay

inductive ConfigError
  | io (e : IoError)
  | malformed
  | mismatch (m : Schema.Mismatch)
  | invalid (faults : List ConfigFault)
  deriving DecidableEq, Repr

def ConfigFault.summary (faults : List ConfigFault) : String :=
  "Validation failed: " ++ String.intercalate ", " (faults.map ConfigFault.message)

def ConfigError.message : ConfigError → String
  | .io e => "IO error: " ++ e.message
  | .malformed => "Parse error: invalid TOML"
  | .mismatch m => "Parse error: " ++ m.message
  | .invalid faults => ConfigFault.summary faults

namespace ListenerConfig

def fields : List (Toml.Field ListenerConfig) :=
  [.of "bind_address" Toml.Value.toText fun c s => { c with bindAddress := s }]

end ListenerConfig

namespace BackendConfig

def fields : List (Toml.Field BackendConfig) :=
  [.of "address" Toml.Value.toText fun c s => { c with address := s },
    .of "token" Toml.Value.toText fun c s => { c with token := some s },
    .of "storage_name" Toml.Value.toText fun c s => { c with storageName := s },
    .of "git_config_options" Toml.Value.toTexts fun c ss => { c with gitConfigOptions := ss }]

end BackendConfig

namespace TimeoutConfig

def fields : List (Toml.Field TimeoutConfig) :=
  [.of "upload_pack_secs" Toml.Value.toNat fun c n => { c with uploadPackSecs := n },
    .of "connect_secs" Toml.Value.toNat fun c n => { c with connectSecs := n }]

end TimeoutConfig

namespace ObservabilityConfig

def fields : List (Toml.Field ObservabilityConfig) :=
  [.of "log_level" Toml.Value.toText fun c s => { c with logLevel := s },
    .of "log_format" Toml.Value.toText fun c s => { c with logFormat := s },
    .of "metrics_enabled" Toml.Value.toBool fun c b => { c with metricsEnabled := b },
    .of "metrics_address" Toml.Value.toText fun c s => { c with metricsAddress := s }]

end ObservabilityConfig

namespace Config

def fields : List (Toml.Field Config) :=
  [.of "listener" (Toml.fill "struct ListenerConfig" ListenerConfig.fields {}) fun c s => { c with listener := s },
    .of "backend" (Toml.fill "struct BackendConfig" BackendConfig.fields {}) fun c s => { c with backend := s },
    .of "timeouts" (Toml.fill "struct TimeoutConfig" TimeoutConfig.fields {}) fun c s => { c with timeouts := s },
    .of "observability" (Toml.fill "struct ObservabilityConfig" ObservabilityConfig.fields {})
      fun c s => { c with observability := s }]

/-- The configuration that a document gives, with defaults for the rest. -/
def ofEntries (es : Toml.Entries) : Except Schema.Mismatch Config := Toml.fillByName fields {} es

def checked (c : Config) : Except ConfigError Config :=
  match c.validate with
  | .ok () => .ok c
  | .error faults => .error (.invalid faults)

def parse (text : String) : Except ConfigError Config :=
  match Toml.parse text with
  | none => .error .malformed
  | some es =>
    match ofEntries es with
    | .error m => .error (.mismatch m)
    | .ok c => c.checked

def load (file : Option Bytes) : Except ConfigError Config :=
  match file with
  | none => .error (.io .noSuchFile)
  | some bs =>
    match Utf8.toString? bs with
    | none => .error (.io .notText)
    | some text => parse text

end Config
end PackRelay
