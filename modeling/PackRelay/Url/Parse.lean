import PackRelay.Url.Host
import PackRelay.Url.Path

/-! Reading a URL. Blanks around it, and tabs and line ends anywhere, do not count. A scheme of the web
always has a host behind any number of slashes; any other has one only behind two. -/
namespace PackRelay

structure Url where
  scheme : List Char
  host : Option Url.Host
  port : Option Nat
  path : List Char
  deriving DecidableEq, Repr

namespace Url

inductive SchemeKind
  | web (defaultPort : Nat)
  | file
  | other
  deriving DecidableEq, Repr

def SchemeKind.of (scheme : String) : SchemeKind :=
  match scheme with
  | "http" | "ws" => .web 80
  | "https" | "wss" => .web 443
  | "ftp" => .web 21
  | "file" => .file
  | _ => .other

/-- Backslashes separate like slashes. -/
def SchemeKind.isSpecial : SchemeKind → Bool
  | .other => false
  | _ => true

def isBlank (c : Char) : Bool := c.toNat ≤ 0x20

def isDropped (c : Char) : Bool := c = '\t' || c = '\n' || c = '\r'

def significant (cs : List Char) : List Char :=
  let trimmed := ((cs.dropWhile isBlank).reverse.dropWhile isBlank).reverse
  trimmed.filter (!isDropped ·)

def isSchemeChar (c : Char) : Bool := c.isAlphanum || c = '+' || c = '-' || c = '.'

def splitScheme (cs : List Char) : Option (List Char × List Char) :=
  match cs.takeWhile isSchemeChar, cs.dropWhile isSchemeChar with
  | c :: more, ':' :: rest => if c.isAlpha then some ((c :: more).map Char.toLower, rest) else none
  | _, _ => none

def endsAuthority (special : Bool) (c : Char) : Bool :=
  c = '/' || c = '?' || c = '#' || (special && c = '\\')

def isSeparator (special : Bool) (c : Char) : Bool := c = '/' || (special && c = '\\')

/-- Credentials that are written down, and what follows the last `@` of the authority. -/
def splitUser (special : Bool) (cs : List Char) : Except Error (Bool × List Char) :=
  let authority := cs.takeWhile (!endsAuthority special ·)
  if !authority.contains '@' then .ok (false, cs)
  else
    let user := (authority.reverse.dropWhile (· ≠ '@')).drop 1
    let rest := cs.drop (user.length + 1)
    if user.isEmpty then
      match rest with
      | c :: _ => if endsAuthority special c then .error .emptyHost else .ok (false, rest)
      | [] => .ok (false, rest)
    else .ok (user ≠ [':'], rest)

/-- The host and what follows it; a colon in brackets is part of it. -/
def splitHost (special : Bool) : Bool → List Char → List Char × List Char
  | _, [] => ([], [])
  | inside, c :: rest =>
    if (c = ':' && !inside) || endsAuthority special c then ([], c :: rest)
    else
      let (host, behind) := splitHost special (if c = '[' then true else if c = ']' then false else inside) rest
      (c :: host, behind)

def portDigits : List Char → Option Nat → Except Error (Option Nat × List Char)
  | [], n => .ok (n, [])
  | c :: rest, n =>
    if c.isDigit then
      let n := n.getD 0 * 10 + (c.toNat - 48)
      if 65535 < n then .error .invalidPort else portDigits rest (some n)
    else if c = '/' || c = '\\' || c = '?' || c = '#' then .ok (n, c :: rest)
    else .error .invalidPort

def splitPort (cs : List Char) : Except Error (Option Nat × List Char) :=
  match cs with
  | ':' :: rest => portDigits rest none
  | _ => .ok (none, cs)

/-- Query and fragment are no part of the path. -/
def beforeQuery (cs : List Char) : List Char := cs.takeWhile fun c => c ≠ '?' && c ≠ '#'

def pathAfterHost (special : Bool) (cs : List Char) : List Char :=
  match beforeQuery cs with
  | [] => if special then ['/'] else []
  | c :: rest =>
    absolutePath (isSeparator special) (if isSeparator special c then rest else c :: rest)

def afterSlashes (scheme : List Char) (kind : SchemeKind) (cs : List Char) : Except Error Url := do
  let special := kind.isSpecial
  let (hasUser, cs) ← splitUser special cs
  let (hostText, cs) := splitHost special false cs
  if special && hostText.isEmpty then .error .emptyHost
  let host ← if special then webHost hostText else opaqueHost hostText
  if host = .name [] && cs.head? = some ':' then .error .emptyHost
  let (port, cs) ← splitPort cs
  if host = .name [] && hasUser then .error .emptyHost
  return {
    scheme
    host := if host = .name [] then none else some host
    port := if kind = .web (port.getD 0) then none else port
    path := pathAfterHost special cs }

def afterScheme (scheme : List Char) : List Char → Except Error Url
  | '/' :: '/' :: rest => afterSlashes scheme .other rest
  | '/' :: rest => .ok ⟨scheme, none, none, absolutePath (isSeparator false) (beforeQuery rest)⟩
  | rest => .ok ⟨scheme, none, none, Percent.encode Percent.isControl (beforeQuery rest)⟩

/-- What follows `file:`. A drive where a host could stand begins the path. -/
def afterFile (scheme : List Char) (cs : List Char) : Except Error Url := do
  let path (cs : List Char) := pathAfterHost true ('/' :: cs)
  match cs with
  | a :: b :: rest =>
    if isSeparator true a && isSeparator true b then
      let hostText := rest.takeWhile (!endsAuthority true ·)
      let behind := rest.dropWhile (!endsAuthority true ·)
      if hostText.isEmpty then return ⟨scheme, none, none, pathAfterHost true behind⟩
      else if isDrive hostText && hostText.length = 2 then return ⟨scheme, none, none, path rest⟩
      else return ⟨scheme, some (← webHost hostText), none, pathAfterHost true behind⟩
    else return ⟨scheme, none, none, pathAfterHost true cs⟩
  | _ => return ⟨scheme, none, none, pathAfterHost true cs⟩

def parse (cs : List Char) : Except Error Url :=
  match splitScheme (significant cs) with
  | none => .error .relativeWithoutBase
  | some (scheme, rest) =>
    match SchemeKind.of (String.ofList scheme) with
    | .web port => afterSlashes scheme (.web port) (rest.dropWhile (isSeparator true))
    | .file => afterFile scheme rest
    | .other => afterScheme scheme rest

end Url
end PackRelay
