/-! The command line: at most a configuration file, whose path follows `-c` or `--config`. -/
namespace PackRelay

structure CommandLine where
  /-- The path of the configuration file; without one, defaults hold. -/
  config : Option String := none
  deriving DecidableEq, Repr

inductive UsageError
  | unexpected (argument : String)
  | valueMissing (option : String)
  | repeated (option : String)
  deriving DecidableEq, Repr

def UsageError.message : UsageError → String
  | .unexpected argument => "unexpected argument '" ++ argument ++ "' found"
  | .valueMissing option => "a value is required for '" ++ option ++ "' but none was supplied"
  | .repeated option => "the argument '" ++ option ++ "' cannot be used multiple times"

namespace CommandLine

def usage : String := "Usage: pack-relay [-c|--config <CONFIG>]"

def attached? (argument : String) : Option String :=
  let cs := argument.toList
  let long := "--config=".toList
  let short := "-c".toList
  if long.isPrefixOf cs then some (String.ofList (cs.drop long.length))
  else if short.isPrefixOf cs && short.length < cs.length then
    match cs.drop short.length with
    | '=' :: value => some (String.ofList value)
    | value => some (String.ofList value)
  else none

def withConfig (path : String) (l : CommandLine) : Except UsageError CommandLine :=
  if l.config.isSome then .error (.repeated "--config <CONFIG>") else .ok { l with config := some path }

def read : List String → CommandLine → Except UsageError CommandLine
  | [], l => .ok l
  | [argument], l =>
    if argument = "-c" ∨ argument = "--config" then .error (.valueMissing "--config <CONFIG>")
    else match attached? argument with
      | some path => l.withConfig path
      | none => .error (.unexpected argument)
  | argument :: value :: rest, l =>
    if argument = "-c" ∨ argument = "--config" then do read rest (← l.withConfig value)
    else match attached? argument with
      | some path => do read (value :: rest) (← l.withConfig path)
      | none => .error (.unexpected argument)

def parse (arguments : List String) : Except UsageError CommandLine := read arguments {}

end CommandLine

end PackRelay
