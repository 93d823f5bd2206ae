import PackRelay.Backend.Locator

/-! The repository that a request path asks for. -/
namespace PackRelay.Http

def serviceSuffix : List Char := "/git-upload-pack".toList

/-- The part of a path before the service, without leading slashes. -/
def uploadPackRepository? (path : String) : Option String :=
  let cs := path.toList
  if serviceSuffix.isSuffixOf cs then
    match RepositoryPath.trimStart (cs.take (cs.length - serviceSuffix.length)) with
    | [] => none
    | repo => some (String.ofList repo)
  else none

end PackRelay.Http
