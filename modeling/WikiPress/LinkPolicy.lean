import WikiPress.Library
import WikiPress.Token

/-!
# The policy for links

Links to other hosts say how they are to be followed, and relative links are put under the base
address of the wiki.  It is for the library of addresses to find the host of a link.

## Main definitions

* `LinkPolicy` : the base address, the hosts that may be followed, and whether links to other hosts
  open a window.
* `LinkPolicy.apply` : the policy applied to one link.
* `LinkPolicy.applyAll` : the policy applied to the links in a list of tokens.
-/

namespace WikiPress

open Text

/-- The policy for links. -/
structure LinkPolicy where
  /-- The address that relative links are put under; empty if they are left alone. -/
  baseUrl : String := ""
  /-- The hosts that search engines may follow. -/
  allowedHosts : List String := []
  /-- Links to other hosts open a window of their own. -/
  newWindow : Bool := true
  deriving DecidableEq, Repr, Inhabited

namespace LinkPolicy

variable [UrlParser]

/-- What a link to an allowed host says. -/
def followed : String := "external noopener noreferrer"

/-- What a link to any other host says. -/
def unfollowed : String := "external nofollow noopener noreferrer"

/-- A host of the list of allowed ones as it is compared. -/
def normalizeHost (host : String) : String :=
  String.ofList (Ascii.lowerText (trim host.toList))

/-- Whether an address begins with the scheme of web addresses and two slashes. -/
def isWeb (href : List Char) : Bool :=
  Ascii.startsWithIgnoringCase "http://".toList href ||
    Ascii.startsWithIgnoringCase "https://".toList href

/-- Whether the host of an address is allowed. -/
def allows (p : LinkPolicy) (href : List Char) : Bool :=
  ((UrlParser.parse? href).bind (·.host?)).any fun host =>
    p.allowedHosts.contains (String.ofList (Ascii.lowerText host))

/-- Whether an address begins with a scheme. -/
def hasScheme (href : List Char) : Bool :=
  match href with
  | c :: rest =>
    Ascii.isAlpha c &&
      (rest.dropWhile fun c =>
        Ascii.isAlphanumeric c || c = '+' || c = '.' || c = '-').head? = some ':'
  | [] => false

/-- The base address without slashes at its end. -/
def base (p : LinkPolicy) : List Char := dropEndWhile (· = '/') p.baseUrl.toList

/-- Whether an address is the base or below it. -/
def isUnder (base href : List Char) : Bool :=
  match dropText? base href with
  | some rest => rest.isEmpty || rest.head? = some '/'
  | none => false

/-- The address under the base; there is none if the address is to be left as it is. -/
def prefixed? (p : LinkPolicy) (href : List Char) : Option (List Char) :=
  if p.baseUrl.isEmpty || startsWith ['/', '/'] href || hasScheme href then none
  else if !p.base.isEmpty && isUnder p.base href then none
  else some (p.base ++ '/' :: href.dropWhile (· = '/'))

/-- The token of a link to another host. -/
def applyWeb (p : LinkPolicy) (href : List Char) (t : Token) : Token :=
  let t := t.setAttribute "rel" (if p.allows href then followed else unfollowed)
  if p.newWindow then t.setAttribute "target" "_blank" else t

/-- The policy applied to the token of a link. -/
def apply (p : LinkPolicy) (t : Token) : Token :=
  match t.attribute? "href" with
  | none => t
  | some value =>
    let href := value.toList
    if href.isEmpty then t
    else if isWeb href then p.applyWeb href t
    else match p.prefixed? href with
      | some target => t.setAttribute "href" (String.ofList target)
      | none => t

/-- The policy applied to a token of a text. -/
def applyInline (p : LinkPolicy) (t : Token) : Token :=
  if t.kind = .linkOpen then p.apply t else t

/-- The policy applied to the text of a block. -/
def applyBlock (p : LinkPolicy) (t : Token) : Token :=
  if t.kind = .inline then { t with children := t.children.map p.applyInline } else t

/-- The policy applied to the links in a list of block tokens. -/
def applyAll (p : LinkPolicy) (ts : List Token) : List Token := ts.map p.applyBlock

end LinkPolicy

end WikiPress
