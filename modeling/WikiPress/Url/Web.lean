import WikiPress.Library
import WikiPress.Url.Address
import WikiPress.Url.Domain

/-!
# Web addresses

Web addresses are read as browsers read them: control characters and blanks around the address do
not count, tabs and line ends nowhere, and any number of slashes or backslashes may follow the
scheme.  Addresses of other schemes are not read, since the program asks for no others.  Of the
characters in hosts that are there for compatibility only those of full width become others.

## Main definitions

* `Url.readHost?` : the canonical form of a host.
* `Url.splitWeb?` : the scheme of a web address, and what follows the slashes.
* `Url.parseWeb?` : what a web address says.
-/

namespace WikiPress

open Text

namespace Url

/-! ### Hosts -/

/-- The bytes of a text in which a percent sign and two digits stand for one byte. -/
def percentDecode : List Char → List UInt8
  | '%' :: a :: b :: rest =>
    if Ascii.isHexDigit a ∧ Ascii.isHexDigit b then
      UInt8.ofNat (hexNumber [a, b]) :: percentDecode rest
    else String.utf8EncodeChar '%' ++ percentDecode (a :: b :: rest)
  | c :: rest => String.utf8EncodeChar c ++ percentDecode rest
  | [] => []

/-- The text that bytes stand for, if they are the UTF-8 form of one. -/
def textOfBytes? (bytes : List UInt8) : Option (List Char) :=
  (String.fromUTF8? bytes.toByteArray).map String.toList

/-- The canonical form of a host that stands without brackets. -/
def readName? (s : List Char) : Option (List Char) :=
  match (textOfBytes? (percentDecode s)).bind Domain.toAscii? with
  | none => none
  | some host =>
    if host.isEmpty then none
    else if Address.endsInNumber host then Address.readFourBytes? host
    else some host

/-- The canonical form of a host. -/
def readHost? (s : List Char) : Option (List Char) :=
  match s with
  | '[' :: rest =>
    if rest.getLast? = some ']' then Address.readGroups? rest.dropLast else none
  | _ => readName? s

/-! ### Addresses -/

/-- Characters that end the part of a web address with its host. -/
def endsAuthority (c : Char) : Bool := c = '/' || c = '\\' || c = '?' || c = '#'

/-- The text behind the last at sign, before which a name and a password stand. -/
def dropUser (s : List Char) : List Char := (s.reverse.takeWhile (· ≠ '@')).reverse

/-- The host and what follows it: a colon inside square brackets does not end it. -/
def splitHost (bracketed : Bool) : List Char → List Char × List Char
  | [] => ([], [])
  | c :: rest =>
    if c = ':' ∧ !bracketed then ([], c :: rest)
    else
      let bracketed := if c = '[' then true else if c = ']' then false else bracketed
      let (host, after) := splitHost bracketed rest
      (c :: host, after)

/-- Whether a text is a colon with a port, or nothing. -/
def isPort : List Char → Bool
  | [] => true
  | ':' :: digits => digits.all Char.isDigit && digitsValue digits ≤ 65535
  | _ => false

/-- What follows a scheme and its slashes. -/
def dropScheme? (scheme s : List Char) : Option (List Char) :=
  (Ascii.dropIgnoringCase? (scheme ++ [':']) s).map
    (List.dropWhile fun c => c = '/' || c = '\\')

/-- The scheme of a web address, and what follows the slashes. -/
def splitWeb? (s : List Char) : Option (List Char × List Char) :=
  ["https".toList, "http".toList].findSome? fun scheme =>
    (dropScheme? scheme (cleaned s)).map (scheme, ·)

/-- What a web address says; there is none if the address is not well formed. -/
def parseWeb? (s : List Char) : Option Url :=
  (splitWeb? s).bind fun (scheme, rest) =>
    let authority := dropUser (rest.takeWhile fun c => !endsAuthority c)
    let (host, port) := splitHost false authority
    if isPort port then (readHost? host).map fun host => ⟨scheme, some host⟩ else none

end Url

/-- The program asks for web addresses only. -/
instance : UrlParser := ⟨Url.parseWeb?⟩

end WikiPress
