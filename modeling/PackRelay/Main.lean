import PackRelay.CommandLine
import PackRelay.Server.Basic

/-! The program checks the configuration that it is given, and tells what a server would start with. -/
namespace PackRelay

def readFile? (path : String) : IO (Option Bytes) := do
  try return some (← IO.FS.readBinFile path).toList
  catch _ => return none

def loadConfig : Option String → IO (Except ConfigError Config)
  | none => return .ok {}
  | some path => return Config.load (← readFile? path)

end PackRelay

def main (arguments : List String) : IO UInt32 := do
  match PackRelay.CommandLine.parse arguments with
  | .error e =>
    IO.eprintln ("error: " ++ e.message ++ "\n\n" ++ PackRelay.CommandLine.usage)
    return 2
  | .ok l =>
    match ← PackRelay.loadConfig l.config with
    | .error e =>
      IO.eprintln ("Error: " ++ e.message)
      return 1
    | .ok c =>
      IO.println (PackRelay.Server.ofConfig c).announcement
      return 0
