import PackRelay.Backend.Address
import PackRelay.Config.Basic
import PackRelay.Wire.Message
import PackRelay.Text.Split

/-! Which backend serves a repository. -/
namespace PackRelay

/-- All that an exchange needs to reach a repository. -/
structure Target where
  backend : Descriptor
  repository : Repository
  gitConfigOptions : List String
  deriving DecidableEq, Repr

inductive LocateError
  | invalidPath (path : String)
  deriving DecidableEq, Repr

def LocateError.message : LocateError → String
  | .invalidPath path => "invalid repository path '" ++ path ++ "'"

namespace RepositoryPath

def segments (cs : List Char) : List (List Char) := splitAt (· = '/') cs

/-- A segment that leads somewhere else, or nowhere. -/
def isStray (segment : List Char) : Bool := segment = [] || segment = ['.'] || segment = ['.', '.']

def trimStart (cs : List Char) : List Char := cs.dropWhile (· = '/')

def trim (cs : List Char) : List Char := (trimStart (trimStart cs).reverse).reverse

def suffix : List Char := ['.', 'g', 'i', 't']

def withSuffix (cs : List Char) : List Char := if suffix.isSuffixOf cs then cs else cs ++ suffix

def relative? (cs : List Char) : Option (List Char) :=
  let cs := trim cs
  if (segments cs).any isStray then none else some (withSuffix cs)

end RepositoryPath

/-- Sends every repository to one backend and storage. -/
structure Locator where
  backend : Descriptor
  storageName : String
  gitConfigOptions : List String
  deriving DecidableEq, Repr

namespace Locator

def ofConfig (c : BackendConfig) : Locator := ⟨⟨c.address, c.token⟩, c.storageName, c.gitConfigOptions⟩

def locate (l : Locator) (path : String) : Except LocateError Target :=
  match RepositoryPath.relative? path.toList with
  | none => .error (.invalidPath path)
  | some cs => .ok ⟨l.backend, ⟨l.storageName, String.ofList cs⟩, l.gitConfigOptions⟩

end Locator
end PackRelay
