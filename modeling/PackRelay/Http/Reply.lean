import PackRelay.Exchange.Status
import PackRelay.Text.Utf8

/-! Whole replies to requests. -/
namespace PackRelay.Http

structure Reply where
  status : Nat
  headers : List (String × String) := []
  body : Bytes := []
  deriving DecidableEq, Repr

namespace Reply

def text (status : Nat) (s : String) : Reply :=
  ⟨status, [("content-type", "text/plain; charset=utf-8")], Utf8.ofString s⟩

/-- What was relayed, as the result of the service. Nobody may keep it. -/
def relayed (bs : Bytes) : Reply :=
  ⟨200, [("content-type", "application/x-git-upload-pack-result"), ("cache-control", "no-cache")], bs⟩

def ok : Reply := text 200 "ok"

def noRoute : Reply := ⟨404, [], []⟩

def wrongMethod (allowed : String) : Reply := ⟨405, [("allow", allowed)], []⟩

def malformedPath : Reply := text 400 "Invalid URL: Invalid UTF-8 in \x60path\x60"

def notFound : Reply := text 404 "Not found"

def noRepository : Reply := text 404 "Repository not found"

def internalError : Reply := text 500 "Internal server error"

def failureText : OutcomeKind → String
  | .deadlineExceeded => "Upload-pack timed out"
  | .clientAborted => "Client closed request"
  | _ => "Upload-pack failed"

/-- For an exchange that failed before anything was relayed. -/
def failure (e : ExchangeError) : Reply := text e.httpStatus (failureText e.kind)

end Reply
end PackRelay.Http
