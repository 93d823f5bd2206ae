import PackRelay.Url.Error
import PackRelay.Url.Percent
import PackRelay.Url.Ipv4
import PackRelay.Url.Ipv6
import PackRelay.Url.Domain

/-! The host of a URL. Schemes of the web have domains and addresses of either version; all others
have names that are kept as they are, and version six. -/
namespace PackRelay.Url

inductive Host
  | name (cs : List Char)
  | ipv4 (n : Nat)
  | ipv6 (words : List Nat)
  deriving DecidableEq, Repr

def Host.text : Host → List Char
  | .name cs => cs
  | .ipv4 n => Ipv4.text n
  | .ipv6 ws => '[' :: Ipv6.text ws ++ [']']

def isForbiddenInHost (c : Char) : Bool :=
  ['\x00', '\t', '\n', '\r', ' ', '#', '/', ':', '<', '>', '?', '@', '[', '\\', ']', '^', '|'].contains c

def bracketed (cs : List Char) : Except Error Host :=
  if cs.getLast? ≠ some ']' then .error .invalidIpv6
  else match Ipv6.parse (cs.drop 1).dropLast with
    | some ws => .ok (.ipv6 ws)
    | none => .error .invalidIpv6

def opaqueHost (cs : List Char) : Except Error Host :=
  if cs.head? = some '[' then bracketed cs
  else if cs.any isForbiddenInHost then .error .invalidDomainCharacter
  else .ok (.name (Percent.encode Percent.isControl cs))

def webHost (cs : List Char) : Except Error Host :=
  if cs.head? = some '[' then bracketed cs
  else match Domain.parse cs with
    | none => .error .invalidDomainName
    | some [] => .error .emptyHost
    | some name =>
      if Ipv4.endsInNumber name then
        match Ipv4.parse name with
        | some n => .ok (.ipv4 n)
        | none => .error .invalidIpv4
      else .ok (.name name)

end PackRelay.Url
