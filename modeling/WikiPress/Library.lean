import WikiPress.Text.Ascii
import WikiPress.Text.Blank

/-!
# Libraries

Addresses and patterns are read by libraries.  What is said about the program holds for any of them,
and where something has to be known of a library it is a hypothesis, which is named here.  The
program itself runs with the libraries of `WikiPress.Url.Web` and `WikiPress.Pattern.Reader`.

## Main definitions

* `Url`, `UrlParser` : addresses, and a library that reads them.
* `UrlParser.ReadsSchemes` : where the scheme of an address stands.
* `PatternLibrary` : a library that reads patterns.
-/

namespace WikiPress

open Text

/-- What is known of an address that has been read. -/
structure Url where
  /-- The scheme in lower case. -/
  scheme : List Char
  /-- The canonical form of the host; addresses of some schemes have none. -/
  host? : Option (List Char)
  deriving DecidableEq, Repr, Inhabited

/-- A library that reads addresses. -/
class UrlParser where
  /-- What a text says as an address; there is none if it is not one, or is a relative one. -/
  parse? : List Char → Option Url

namespace Url

/-- Control characters and blanks, which do not count around an address. -/
def isOuter (c : Char) : Bool := c.toNat ≤ 0x20

/-- Tabs and line ends, which do not count in an address. -/
def isIgnored (c : Char) : Bool := c = '\t' || c = '\n' || c = '\r'

/-- An address as it is read: without control characters and blanks around it, and without tabs and
line ends. -/
def cleaned (href : List Char) : List Char :=
  (trimWith isOuter href).filter fun c => !isIgnored c

end Url

/-- As it is read, an address begins with its scheme, in upper or lower case, and a colon. -/
structure UrlParser.ReadsSchemes [UrlParser] : Prop where
  exists_scheme : ∀ {href : List Char} {url : Url}, UrlParser.parse? href = some url →
    ∃ scheme rest, Url.cleaned href = scheme ++ ':' :: rest ∧
      Ascii.lowerText scheme = url.scheme

/-- A library that reads patterns. -/
class PatternLibrary where
  /-- What takes the matches of a pattern out of a text; there is none if the pattern is not well
  formed. -/
  remover? : List Char → Option (List Char → List Char)

end WikiPress
