import WikiPress.Text.Case
import WikiPress.Text.CharSet
import WikiPress.Url.Punycode

/-!
# Domain names

A domain name is brought into its ASCII form: letters into lower case, marks that are not written
dropped, wide letters into plain ones, and labels with other characters than ASCII encoded.

## Main definitions

* `Domain.prepare` : a domain name in its common form.
* `Domain.toAscii?` : the ASCII form of a domain name.
-/

namespace WikiPress.Url.Domain

open WikiPress.Text

/-- Characters that are dropped from domain names. -/
def isDropped (c : Char) : Bool :=
  let n := c.toNat
  n = 0xAD || n = 0x34F || n = 0x200B || n = 0x2060 || n = 0x2064 || n = 0xFEFF ||
    (0xFE00 ≤ n && n ≤ 0xFE0F) || (0x180B ≤ n && n ≤ 0x180D)

/-- The plain form of a wide character or of another full stop. -/
def narrow (c : Char) : Char :=
  let n := c.toNat
  if n = 0x3002 ∨ n = 0xFF61 then '.'
  else if 0xFF01 ≤ n ∧ n ≤ 0xFF5E then Char.ofNat (n - 0xFEE0)
  else c

/-- A domain name in its common form. -/
def prepare (s : List Char) : List Char :=
  lowercase ((s.filter fun c => !isDropped c).map narrow)

/-- Characters that no domain name has. -/
def isForbidden (c : Char) : Bool :=
  c.toNat ≤ 0x20 || c.toNat = 0x7F || "%#/:<>?@[\\]^|".toList.contains c

/-- The ASCII form of a label.  A label that is given in its ASCII form must be that of a label
with other characters. -/
def labelToAscii? (label : List Char) : Option (List Char) :=
  if label.any isForbidden then none
  else if label.all Punycode.isBasic then
    match dropText? ['x', 'n', '-', '-'] label with
    | some code =>
      match Punycode.decode? code with
      | some decoded =>
        if !decoded.all Punycode.isBasic ∧ prepare decoded = decoded ∧
            Punycode.encode decoded = code then some label
        else none
      | none => none
    | none => some label
  else some (['x', 'n', '-', '-'] ++ Punycode.encode label)

/-- Labels between dots. -/
def joinLabels : List (List Char) → List Char
  | [] => []
  | [label] => label
  | label :: rest => label ++ '.' :: joinLabels rest

/-- The ASCII form of a domain name. -/
def toAscii? (s : List Char) : Option (List Char) :=
  ((splitAtEach '.' (prepare s)).mapM labelToAscii?).map joinLabels

end WikiPress.Url.Domain
