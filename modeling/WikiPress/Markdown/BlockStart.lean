import WikiPress.Text.Ascii
import WikiPress.Text.Blank
import WikiPress.Text.Number

/-!
# Marks at the beginning of a block

Each block is recognised by the text from its first mark to the end of the line.  The functions
here look at such a text only; where a block may begin is decided in `Markdown.Block`.

## Main definitions

* `atxStart?`, `setextLevel?`, `isThematicBreak`, `fenceStart?`, `fenceEnd`
* `ListMarker`, `ListMarker.read?`
* `HtmlStart` : the kinds of HTML blocks with their beginnings and ends.
* `Tag` : the grammar of HTML tags, which inline HTML shares.
-/

namespace WikiPress.Markdown

open WikiPress.Text

/-! ### Headings, breaks and fences -/

/-- A heading of one line: its level and the length of its mark with the blanks after it. -/
def atxStart? (s : List Char) : Option (Nat × Nat) :=
  let hashes := s.takeWhile (· = '#')
  let rest := s.drop hashes.length
  let blanks := rest.takeWhile isSpaceOrTab
  if 1 ≤ hashes.length ∧ hashes.length ≤ 6 ∧ (rest.isEmpty ∨ !blanks.isEmpty) then
    some (hashes.length, hashes.length + blanks.length)
  else none

/-- The content of a heading of one line, from behind its mark: a closing run of hashes is dropped
if it follows a blank or is all there is. -/
def atxText (s : List Char) : List Char :=
  let s := dropEndWhile isAsciiBlank s
  let opened := dropEndWhile (· = '#') s
  if opened.length = s.length then s
  else match opened.getLast? with
    | none => []
    | some c => if isSpaceOrTab c then dropEndWhile isAsciiBlank opened else s

/-- The level of the heading that the text underlines. -/
def setextLevel? (s : List Char) : Option Nat :=
  let line (c : Char) : Bool := s.head? = some c && (s.dropWhile (· = c)).all isSpaceOrTab
  if line '=' then some 1 else if line '-' then some 2 else none

/-- Whether the text is a thematic break: at least three equal marks, with blanks among them. -/
def isThematicBreak (s : List Char) : Bool :=
  match s with
  | c :: _ =>
    (c = '*' || c = '_' || c = '-') && s.all (fun d => d = c || isSpaceOrTab d) && 3 ≤ s.count c
  | [] => false

/-- The beginning of a fenced block of code: its character and the length of the fence. -/
def fenceStart? (s : List Char) : Option (Char × Nat) :=
  match s with
  | c :: _ =>
    let n := (s.takeWhile (· = c)).length
    if 3 ≤ n ∧ (c = '~' ∨ c = '\x60' ∧ (s.drop n).all (· ≠ '\x60')) then some (c, n) else none
  | [] => none

/-- The length of the closing fence that the text consists of, or zero. -/
def fenceEnd (c : Char) (s : List Char) : Nat :=
  let n := (s.takeWhile (· = c)).length
  if 3 ≤ n ∧ (s.drop n).all isSpaceOrTab then n else 0

/-! ### Lists -/

/-- The mark of a list item: a bullet, or a number with the character after it. -/
inductive ListMarker where
  | bullet (c : Char)
  | number (start : Nat) (delimiter : Char)
  deriving DecidableEq, Repr, Inhabited

namespace ListMarker

/-- Whether two items can stand in one list. -/
def sameList : ListMarker → ListMarker → Bool
  | bullet c, bullet d => c = d
  | number _ c, number _ d => c = d
  | _, _ => false

/-- Whether a mark may be followed by the text: a blank must come first, and an item that
interrupts a paragraph must not be empty. -/
def canPrecede (interrupts : Bool) (rest : List Char) : Bool :=
  (match rest with
    | [] => true
    | c :: _ => isAsciiBlank c) &&
  !(interrupts && (rest.dropWhile isSpaceOrTab).isEmpty)

/-- The list mark at the start of the text and its length.  Numbers have at most nine digits, and
only the number one interrupts a paragraph.  A number must be followed by a blank or by the end of
its line, which is there if `ended` is set. -/
def read? (interrupts ended : Bool) (s : List Char) : Option (ListMarker × Nat) :=
  match s with
  | [] => none
  | c :: rest =>
    if c = '*' ∨ c = '-' ∨ c = '+' then
      if canPrecede interrupts rest then some (bullet c, 1) else none
    else
      let digits := (s.take 9).takeWhile Char.isDigit
      let start := digitsValue digits
      match s.drop digits.length with
      | d :: rest =>
        if !digits.isEmpty ∧ (d = '.' ∨ d = ')') ∧ !(interrupts && start != 1) ∧
            (ended || !rest.isEmpty) ∧ canPrecede interrupts rest then
          some (number start d, digits.length + 1)
        else none
      | [] => none

end ListMarker

/-! ### Tags -/

namespace Tag

/-- Characters of the name of an element after the first. -/
def isNameChar (c : Char) : Bool := Ascii.isAlphanumeric c || c = '-'

/-- What follows the name of an element. -/
def dropName? : List Char → Option (List Char)
  | c :: rest => if Ascii.isAlpha c then some (rest.dropWhile isNameChar) else none
  | [] => none

/-- First characters of the name of an attribute. -/
def isAttributeStart (c : Char) : Bool := Ascii.isAlpha c || c = '_' || c = ':'

/-- Characters of the name of an attribute after the first. -/
def isAttributeChar (c : Char) : Bool :=
  Ascii.isAlphanumeric c || c = ':' || c = '.' || c = '_' || c = '-'

/-- Characters of a value without quotes. -/
def isUnquotedChar (c : Char) : Bool :=
  !(isAsciiBlank c || c = '\x22' || c = '\x27' || c = '=' || c = '<' || c = '>' || c = '\x60')

/-- What follows a value that ends with the quote `q`. -/
def dropQuoted? (q : Char) (s : List Char) : Option (List Char) :=
  match s.dropWhile (· ≠ q) with
  | _ :: rest => some rest
  | [] => none

/-- What follows the value of an attribute. -/
def dropValue? (s : List Char) : Option (List Char) :=
  match s with
  | '\x22' :: rest => dropQuoted? '\x22' rest
  | '\x27' :: rest => dropQuoted? '\x27' rest
  | _ =>
    let rest := s.dropWhile isUnquotedChar
    if rest.length < s.length then some rest else none

/-- What follows the name of an attribute and its value, if it has one. -/
def dropAttribute? : List Char → Option (List Char)
  | c :: rest =>
    if isAttributeStart c then
      let rest := rest.dropWhile isAttributeChar
      match rest.dropWhile isAsciiBlank with
      | '=' :: value => (dropValue? (value.dropWhile isAsciiBlank)).or (some rest)
      | _ => some rest
    else none
  | [] => none

/-- What follows the attributes of a tag; `fuel` bounds their number. -/
def dropAttributes : Nat → List Char → List Char
  | 0, s => s
  | fuel + 1, s =>
    match s with
    | c :: _ =>
      if isAsciiBlank c then
        match dropAttribute? (s.dropWhile isAsciiBlank) with
        | some rest => dropAttributes fuel rest
        | none => s
      else s
    | [] => s

/-- What follows an opening tag, read after its angle bracket. -/
def dropOpening? (s : List Char) : Option (List Char) :=
  (dropName? s).bind fun rest =>
    match (dropAttributes rest.length rest).dropWhile isAsciiBlank with
    | '/' :: '>' :: rest => some rest
    | '>' :: rest => some rest
    | _ => none

/-- What follows a closing tag, read after its angle bracket. -/
def dropClosing? : List Char → Option (List Char)
  | '/' :: s =>
    (dropName? s).bind fun rest =>
      match rest.dropWhile isAsciiBlank with
      | '>' :: rest => some rest
      | _ => none
  | _ => none

/-- What follows a tag, read after its angle bracket. -/
def drop? (s : List Char) : Option (List Char) := (dropOpening? s).or (dropClosing? s)

end Tag

/-! ### HTML blocks -/

/-- The kinds of HTML blocks. -/
inductive HtmlStart where
  /-- Elements whose content is no markup, such as scripts. -/
  | verbatim
  | comment
  | instruction
  | declaration
  | characterData
  /-- Elements that are blocks. -/
  | block
  /-- Any other tag that stands alone on its line. -/
  | anyTag
  deriving DecidableEq, Repr, Inhabited

namespace HtmlStart

/-- Elements whose content is no markup. -/
def verbatimNames : List String := ["script", "pre", "textarea", "style"]

/-- Elements that are blocks. -/
def blockNames : List String :=
  ["address", "article", "aside", "base", "basefont", "blockquote", "body", "caption", "center",
    "col", "colgroup", "dd", "details", "dialog", "dir", "div", "dl", "dt", "fieldset",
    "figcaption", "figure", "footer", "form", "frame", "frameset", "h1", "h2", "h3", "h4", "h5",
    "h6", "head", "header", "hr", "html", "iframe", "legend", "li", "link", "main", "menu",
    "menuitem", "nav", "noframes", "ol", "optgroup", "option", "p", "param", "search", "section",
    "summary", "table", "tbody", "td", "tfoot", "th", "thead", "title", "tr", "track", "ul"]

/-- Whether the text is a name of the list, followed by a blank, the end of the line or one of the
given texts. -/
def beginsName (names : List String) (ends : List (List Char)) (s : List Char) : Bool :=
  names.any fun name =>
    match Ascii.dropIgnoringCase? name.toList s with
    | some [] => true
    | some (c :: rest) => isAsciiBlank c || ends.any fun e => startsWith e (c :: rest)
    | none => false

/-- The kind of HTML block that begins with the text; a tag of any name does not interrupt a
paragraph. -/
def read? (interrupts : Bool) : List Char → Option HtmlStart
  | '<' :: s =>
    if beginsName verbatimNames [['>']] s then some verbatim
    else if startsWith ['!', '-', '-'] s then some comment
    else if startsWith ['?'] s then some instruction
    else if startsWith "![CDATA[".toList s then some characterData
    else if (match s with
        | '!' :: c :: _ => Ascii.isAlpha c
        | _ => false) then some declaration
    else if beginsName blockNames [['>'], ['/', '>']]
        (match s with
          | '/' :: rest => rest
          | _ => s) then some block
    else if !interrupts && (match Tag.drop? s with
        | some rest => rest.all fun c => isSpaceOrTab c || c = '\x0c'
        | none => false) then some anyTag
    else none
  | _ => none

/-- Whether a block of this kind ends with the line that holds the text. -/
def endsIn (kind : HtmlStart) (s : List Char) : Bool :=
  let holds (part : String) : Bool := (splitAtFirst? part.toList s).isSome
  match kind with
  | verbatim =>
    verbatimNames.any fun name =>
      (splitAtFirst? ("</" ++ name ++ ">").toList (Ascii.lowerText s)).isSome
  | comment => holds "-->"
  | instruction => holds "?>"
  | declaration => holds ">"
  | characterData => holds "]]>"
  | block => false
  | anyTag => false

/-- Whether a blank line ends a block of this kind. -/
def endsAtBlank : HtmlStart → Bool
  | block => true
  | anyTag => true
  | _ => false

end HtmlStart

end WikiPress.Markdown
