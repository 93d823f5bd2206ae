import PackRelay.Backend.Locator
import PackRelay.Http.Path
import PackRelay.Http.Reply
import PackRelay.Url.Percent

/-! What a request asks for: the health of the server, or the service of a repository. Everything else
is answered at once. -/
namespace PackRelay.Http

inductive Route
  | health
  | uploadPack (target : Target)
  deriving DecidableEq, Repr

def targetPath (target : String) : List Char := target.toList.takeWhile fun c => c ≠ '?' && c ≠ '#'

/-- A path with its escapes undone, once. -/
def decodePath? (cs : List Char) : Option String := Utf8.toString? (Percent.decode (Utf8.encode cs))

def healthPath : List Char := "/-/health".toList

/-- The repository at a path, with the slash before it gone and its escapes undone. -/
def locateAt (locator : Locator) (cs : List Char) : Except Reply Target :=
  match decodePath? cs with
  | none => .error .malformedPath
  | some path =>
    match uploadPackRepository? path with
    | none => .error .notFound
    | some repository =>
      match locator.locate repository with
      | .ok target => .ok target
      | .error (.invalidPath _) => .error .noRepository

def route (locator : Locator) (method target : String) : Except Reply Route :=
  let path := targetPath target
  if path = healthPath then
    if method = "GET" ∨ method = "HEAD" then .ok .health else .error (.wrongMethod "GET,HEAD")
  else match path with
    | '/' :: c :: rest =>
      if method = "POST" then (locateAt locator (c :: rest)).map .uploadPack else .error (.wrongMethod "POST")
    | _ => .error .noRoute

end PackRelay.Http
