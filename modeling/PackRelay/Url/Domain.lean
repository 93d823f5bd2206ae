import PackRelay.Text.Utf8
import PackRelay.Url.Percent
import PackRelay.Url.Punycode
import PackRelay.Text.Split

/-! Domain names of web addresses. Escapes are undone, letters lowered, wide forms narrowed; what no
name can hold is refused, and an encoded label has to decode to a name. -/
namespace PackRelay.Domain

def isForbidden (c : Char) : Bool :=
  c.toNat ≤ 0x20 || c.toNat = 0x7F
    || ['%', '#', '/', ':', '<', '>', '?', '@', '[', '\\', ']', '^', '`', '\x7b', '|', '\x7d'].contains c

/-- Characters that vanish from a name. -/
def isIgnored (c : Char) : Bool :=
  let n := c.toNat
  n = 0xAD || n = 0x34F || (0x180B ≤ n && n ≤ 0x180F) || n = 0x200B || n = 0x2060 || n = 0x2064
    || (0xFE00 ≤ n && n ≤ 0xFE0F) || n = 0xFEFF

/-- Characters outside ASCII that stand for nothing a name could hold. -/
def isUnusable (c : Char) : Bool :=
  let n := c.toNat
  (0x80 ≤ n && n ≤ 0x9F) || (0x200C ≤ n && n ≤ 0x200F) || (0x2028 ≤ n && n ≤ 0x202E)
    || (0x2061 ≤ n && n ≤ 0x206F) || (0xE000 ≤ n && n ≤ 0xF8FF) || (0xFDD0 ≤ n && n ≤ 0xFDEF)
    || (0xFFF9 ≤ n && n ≤ 0xFFFF) || 0xE0000 ≤ n

/-- One character as a name holds it: wide and ideographic forms narrowed, letters lowered. -/
def narrow (c : Char) : Char :=
  let n := c.toNat
  if n = 0x3002 || n = 0xFF61 then '.'
  else if n = 0x3000 || n = 0xA0 then ' '
  else if 0xFF01 ≤ n && n ≤ 0xFF5E then (Char.ofNat (n - 0xFEE0)).toLower
  else c.toLower

def labels (name : List Char) : List (List Char) := splitAt (· = '.') name

def encodedMark : List Char := ['x', 'n', '-', '-']

/-- An encoded label holds at least one character outside ASCII, and only usable ones. -/
def isLabel (cs : List Char) : Bool :=
  if cs.take 4 = encodedMark then
    match Punycode.decode (cs.drop 4) with
    | some ds => ds.any (0x7F < ·.toNat) && ds.all fun c => !isUnusable c && !isForbidden c
    | none => false
  else true

def parse (cs : List Char) : Option (List Char) := do
  let cs ← Utf8.decode (Percent.decode (Utf8.encode cs))
  let name := (cs.filter (!isIgnored ·)).map narrow
  if name.any (fun c => isForbidden c || isUnusable c) || !(labels name).all isLabel then none
  else some name

end PackRelay.Domain
