import WikiPress.Html.Reference
import WikiPress.Markdown.Node
import WikiPress.Text.Blank
import WikiPress.Text.Category

/-!
# Addresses that are links by themselves

An address between angle brackets is a link.  The dialect may also make links of web addresses and
mail addresses that stand in the text; these end before punctuation that closes a sentence.

## Main definitions

* `Autolink.dropUri?`, `Autolink.dropMail?` : addresses between angle brackets.
* `Autolink.webEnd?`, `Autolink.wwwEnd?` : web addresses in the text.
* `Autolink.splitMail` : text nodes with mail addresses made into links.
-/

namespace WikiPress.Markdown.Autolink

open WikiPress.Text

/-! ### Between angle brackets -/

/-- Characters of a scheme after the first. -/
def isSchemeChar (c : Char) : Bool :=
  Ascii.isAlphanumeric c || c = '.' || c = '+' || c = '-'

/-- An address with a scheme up to its closing bracket, and what follows it. -/
def dropUri? (s : List Char) : Option (List Char × List Char) :=
  let scheme := s.takeWhile isSchemeChar
  match s.drop scheme.length with
  | ':' :: rest =>
    let path := rest.takeWhile fun c => !(c.toNat ≤ 0x20 || c = '<' || c = '>')
    match rest.drop path.length with
    | '>' :: rest =>
      if (scheme.head?.any Ascii.isAlpha) ∧ 2 ≤ scheme.length ∧ scheme.length ≤ 32 then
        some (scheme ++ ':' :: path, rest)
      else none
    | _ => none
  | _ => none

/-- Characters of the part of a mail address before its at sign. -/
def isMailChar (c : Char) : Bool :=
  Ascii.isAlphanumeric c || ".!#$%&'*+/=?^_\x60\x7b|\x7d~-".toList.contains c

/-- Whether a text is a label of a host name. -/
def isHostLabel (s : List Char) : Bool :=
  1 ≤ s.length && s.length ≤ 63 && s.all (fun c => Ascii.isAlphanumeric c || c = '-') &&
    s.head? != some '-' && s.getLast? != some '-'

/-- The labels of a host name. -/
def hostLabels : List Char → List (List Char)
  | [] => [[]]
  | c :: rest =>
    if c = '.' then [] :: hostLabels rest
    else match hostLabels rest with
      | [] => [[c]]
      | label :: labels => (c :: label) :: labels

/-- A mail address up to its closing bracket, and what follows it. -/
def dropMail? (s : List Char) : Option (List Char × List Char) :=
  let name := s.takeWhile isMailChar
  match s.drop name.length with
  | '@' :: rest =>
    let host := rest.takeWhile fun c => Ascii.isAlphanumeric c || c = '-' || c = '.'
    match rest.drop host.length with
    | '>' :: rest =>
      if !name.isEmpty ∧ (hostLabels host).all isHostLabel then some (name ++ '@' :: host, rest)
      else none
    | _ => none
  | _ => none

/-- A link whose text is its address. -/
def linkTo (url shown : List Char) : Node :=
  ⟨.link (String.ofList url) "", {}, [Node.text shown]⟩

/-- The link between angle brackets at the start of a text, read after the first bracket. -/
def readAngle? (s : List Char) : Option (Node × List Char) :=
  match dropUri? s with
  | some (uri, rest) => some (linkTo (Html.Reference.decode uri) (Html.Reference.decode uri), rest)
  | none =>
    (dropMail? s).map fun (mail, rest) =>
      (linkTo ("mailto:".toList ++ Html.Reference.decode mail) (Html.Reference.decode mail), rest)

/-! ### Where an address in the text ends -/

/-- Characters of a host name. -/
def isHostChar (c : Char) : Bool := !isBlank c && !isPunctuationOrSymbol c

/-- Whether a host name begins the text: it must have a dot unless `short` names are allowed, and
no underscore in its last two labels.  The counts are those of the underscores in the label before
the last and in the last label so far, and of the dots. -/
def beginsWithHost (short : Bool) (beforeLast last dots : Nat) : List Char → Bool
  | [] =>
    !((0 < beforeLast || 0 < last) && dots ≤ 10) && (short || 0 < dots)
  | c :: rest =>
    if c = '\\' ∧ !rest.isEmpty then beginsWithHost short beforeLast last dots rest
    else if c = '_' then beginsWithHost short beforeLast (last + 1) dots rest
    else if c = '.' then beginsWithHost short last 0 (dots + 1) rest
    else if !isHostChar c ∧ c ≠ '-' then
      beforeLast = 0 && last = 0 && (short || 0 < dots)
    else beginsWithHost short beforeLast last dots rest

/-- Marks that do not end an address. -/
def isTrailing (c : Char) : Bool := "?!.,:*_~'\x22".toList.contains c

/-- One step of shortening an address, given in reverse: marks at its end, a reference at its end
and closing parentheses without an opening one do not belong to it. -/
def shorten? : List Char → Option (List Char)
  | [] => none
  | c :: before =>
    if isTrailing c then some before
    else if c = ';' then
      let name := before.takeWhile Ascii.isAlpha
      match before.drop name.length with
      | '&' :: rest => if name.isEmpty then some before else some rest
      | _ => some before
    else if c = ')' then
      if before.count '(' < before.count ')' + 1 then some before else none
    else none

/-- Shortens an address, given in reverse, as long as possible. -/
def shortenAll : Nat → List Char → List Char
  | 0, s => s
  | fuel + 1, s =>
    match shorten? s with
    | some s => shortenAll fuel s
    | none => s

/-- The part of an address that is its link. -/
def trimEnd (s : List Char) : List Char :=
  let s := s.takeWhile (· ≠ '<')
  (shortenAll s.length s.reverse).reverse

/-- Characters up to the next blank. -/
def upToBlank (s : List Char) : List Char := s.takeWhile fun c => !isAsciiBlank c

/-- The schemes of web addresses in the text. -/
def schemes : List (List Char) := ["http".toList, "https".toList, "ftp".toList]

/-- The web address that goes on with a colon: the letters before the colon, given in reverse, must
be a scheme.  The result is the scheme and the address from the colon on. -/
def webEnd? (before s : List Char) : Option (List Char × List Char) :=
  match s with
  | ':' :: '/' :: '/' :: rest =>
    let scheme := (before.takeWhile Ascii.isAlpha).reverse
    if schemes.contains scheme && beginsWithHost true 0 0 0 rest then
      some (scheme, trimEnd (upToBlank s))
    else none
  | _ => none

/-- The web address at the start of a text that begins with `www.`; `before` is the character
before it. -/
def wwwEnd? (before : Option Char) (s : List Char) : Option (List Char) :=
  let mayBegin : Bool :=
    match before with
    | none => true
    | some c => isAsciiBlank c || c = '*' || c = '_' || c = '~' || c = '(' || c = '['
  if mayBegin && startsWith "www.".toList s && beginsWithHost false 0 0 0 s then
    some (trimEnd (upToBlank s))
  else none

/-! ### Mail addresses in the text -/

/-- Characters before the at sign of a mail address in the text. -/
def isLocalChar (c : Char) : Bool :=
  Ascii.isAlphanumeric c || c = '.' || c = '+' || c = '-' || c = '_'

/-- The start of a mail address before its at sign, read from the text before it in reverse: the
address in reverse, whether a scheme is part of it, and whether that scheme is the one of chats. -/
def mailStart : Nat → List Char → List Char × Bool × Bool
  | 0, _ => ([], false, false)
  | fuel + 1, before =>
    let name := before.takeWhile isLocalChar
    match before.drop name.length with
    | ':' :: rest =>
      let scheme := (rest.takeWhile Ascii.isAlpha).reverse
      let isChat := scheme = "xmpp".toList
      if scheme = "mailto".toList ∨ isChat then
        let (more, _, moreChat) := mailStart fuel rest
        (name ++ ':' :: more, true, isChat || moreChat)
      else (name, false, false)
    | _ => (name, false, false)

/-- The host after the at sign of a mail address: its length and the number of its dots. -/
def mailHost? (chat : Bool) (length dots : Nat) : List Char → Option (Nat × Nat)
  | [] => some (length, dots)
  | c :: rest =>
    if Ascii.isAlphanumeric c then mailHost? chat (length + 1) dots rest
    else if c = '@' then none
    else if c = '.' ∧ (rest.head?.any Ascii.isAlphanumeric) then
      mailHost? chat (length + 1) (dots + 1) rest
    else if (c = '/' ∧ chat) ∨ c = '-' ∨ c = '_' then mailHost? chat (length + 1) dots rest
    else some (length, dots)

/-- The mail address around an at sign: what precedes it in reverse, the address without the
scheme that is to be added, whether one is to be added, and what follows it. -/
def mailAt? (before after : List Char) : Option (List Char × List Char × Bool × List Char) :=
  let (start, hasScheme, chat) := mailStart (before.length + 1) before
  if start.isEmpty then none
  else match mailHost? chat 0 0 after with
    | none => none
    | some (length, dots) =>
      let host := after.take length
      if length = 0 ∨ dots = 0 ∨ !(host.getLast?.any fun c => Ascii.isAlpha c || c = '.') then none
      else
        let host := trimEnd ('@' :: host)
        if host.isEmpty then none
        else
          some (before.drop start.length, start.reverse ++ host, !hasScheme,
            after.drop (host.length - 1))

/-- A text as nodes, with its mail addresses made into links.  Addresses inside square brackets
are left alone: `depth` counts the brackets that are open.  `before` is what is read in reverse. -/
def splitMailFrom : Nat → Int → List Char → List Char → List Node
  | 0, _, before, s => [Node.text (before.reverse ++ s)]
  | _ + 1, _, before, [] => if before.isEmpty then [] else [Node.text before.reverse]
  | fuel + 1, depth, before, c :: rest =>
    let depth := if c = '[' then depth + 1 else if c = ']' then depth - 1 else depth
    if c = '@' ∧ depth ≤ 0 then
      match mailAt? before rest with
      | some (before, mail, addScheme, rest) =>
        let url := if addScheme then "mailto:".toList ++ mail else mail
        (if before.isEmpty then [] else [Node.text before.reverse]) ++
          linkTo url mail :: splitMailFrom fuel 0 [] rest
      | none => splitMailFrom fuel depth (c :: before) rest
    else splitMailFrom fuel depth (c :: before) rest

/-- A text as nodes, with its mail addresses made into links. -/
def splitMail (s : List Char) : List Node := splitMailFrom (s.length + 1) 0 [] s

end WikiPress.Markdown.Autolink
