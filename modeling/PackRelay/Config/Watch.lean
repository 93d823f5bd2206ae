import PackRelay.Config.Load

/-! Reloading: what is told about the configuration file, and the configurations that are published. -/
namespace PackRelay

inductive FileEvent
  | created
  | modified
  | other
  | failed
  deriving DecidableEq, Repr

/-- What is told, and what the file held when it was looked at. -/
structure FileNotice where
  event : FileEvent
  contents : Option Bytes
  deriving DecidableEq, Repr

namespace FileNotice

/-- The file is worth a look only if it may hold something new. -/
def concerns (n : FileNotice) : Bool := n.event = .created || n.event = .modified

/-- The configuration to go on with; a file that does not load changes nothing. -/
def published? (n : FileNotice) : Option Config :=
  if n.concerns then (Config.load n.contents).toOption else none

def published (ns : List FileNotice) : List Config := ns.filterMap published?

end FileNotice
end PackRelay
