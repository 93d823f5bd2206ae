import PackRelay.Url.Percent
import PackRelay.Text.Split

/-! The path of a URL: segments, each after a slash. `.` stands for nothing and `..` takes back the
segment before it, unless that names a drive. -/
namespace PackRelay.Url

def isDot : List Char → Bool
  | ['.'] => true
  | ['%', '2', e] => e = 'e' || e = 'E'
  | _ => false

def isDoubleDot : List Char → Bool
  | ['.', '.'] => true
  | '.' :: rest => isDot rest
  | '%' :: '2' :: e :: rest => isDot ['%', '2', e] && isDot rest
  | _ => false

/-- A letter and a colon or bar, at the end or before a backslash. -/
def isDrive : List Char → Bool
  | [c, m] => c.isAlpha && (m = ':' || m = '|')
  | c :: m :: b :: _ => c.isAlpha && (m = ':' || m = '|') && b = '\\'
  | _ => false

/-- The segments before the current one, the latest first, after one more of them. -/
def pushSegment (done : List (List Char)) (segment : List Char) : List (List Char) :=
  if isDoubleDot segment then
    match done with
    | [] => []
    | last :: before => if isDrive last then done else before
  else if isDot segment then done
  else segment :: done

/-- A last segment that stands for a place ends the path with a slash. -/
def lastSegment (done : List (List Char)) (segment : List Char) : List (List Char) :=
  if isDoubleDot segment || isDot segment then [] :: pushSegment done segment else segment :: done

/-- All segments, the last first, with dots resolved. -/
def resolve : List (List Char) → List (List Char) → List (List Char)
  | done, [] => done
  | done, [segment] => lastSegment done segment
  | done, segment :: rest => resolve (pushSegment done segment) rest

def absolutePath (isSeparator : Char → Bool) (cs : List Char) : List Char :=
  let escaped := (splitAt isSeparator cs).map (Percent.encode Percent.isPathEscaped)
  (resolve [] escaped).reverse.flatMap ('/' :: ·)

end PackRelay.Url
