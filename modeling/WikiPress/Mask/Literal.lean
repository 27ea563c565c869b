import WikiPress.Markdown.Autolink
import WikiPress.Text.Measure

/-!
# Text that rules leave alone

Escapes, code spans, addresses between angle brackets and HTML tags are taken as they stand, before
a rule could claim a part of them.  All of them lie within one line.

## Main definitions

* `Literal.codeSpanSize` : the bytes of a code span.
* `Literal.dropAngle?` : what follows an address, a tag or a comment.
* `Literal.size?` : the bytes of the literal text at the start of a text.
-/

namespace WikiPress.Literal

open WikiPress.Text

/-! ### Code spans -/

/-- The number of backticks at the start of a text. -/
def ticks (s : List Char) : Nat := (s.takeWhile (· = '\x60')).length

/-- The bytes up to the end of the first maximal run of exactly `n` backticks. -/
def sizeToTicks? (n : Nat) : List Char → Option Nat
  | [] => none
  | c :: rest =>
    if c = '\x60' then
      let more := ticks rest
      if more + 1 = n then some n
      else (sizeToTicks? n (rest.drop more)).map (· + (more + 1))
    else (sizeToTicks? n rest).map (· + c.utf8Size)
  termination_by s => s.length
  decreasing_by
    all_goals simp only [List.length_cons, List.length_drop]; omega

/-- The bytes of the code span at the start of a text, or of its opening backticks if they are not
closed. -/
def codeSpanSize (s : List Char) : Nat :=
  let n := ticks s
  match sizeToTicks? n (s.drop n) with
  | some more => n + more
  | none => n

/-! ### Angle brackets -/

/-- Characters of the name of an attribute after the first. -/
def isAttributeChar (c : Char) : Bool :=
  Ascii.isAlphanumeric c || c = '_' || c = '.' || c = ':' || c = '-'

/-- What follows the name of an attribute. -/
def dropAttributeName? : List Char → Option (List Char)
  | c :: rest =>
    if Ascii.isAlpha c || c = '_' || c = ':' then some (rest.dropWhile isAttributeChar) else none
  | [] => none

/-- What follows the next quotation mark of a kind. -/
def dropQuoted? (quote : Char) (s : List Char) : Option (List Char) :=
  match s.dropWhile (· ≠ quote) with
  | _ :: rest => some rest
  | [] => none

/-- Characters of a value without quotation marks. -/
def isBareChar (c : Char) : Bool :=
  !(isBlank c || ['\x22', '\x27', '=', '<', '>', '\x60'].contains c)

/-- What follows the value of an attribute. -/
def dropValue? : List Char → Option (List Char)
  | [] => none
  | c :: rest =>
    if c = '\x22' ∨ c = '\x27' then dropQuoted? c rest
    else if isBareChar c then some (rest.dropWhile isBareChar)
    else none

/-- What follows an attribute, which begins with blanks. -/
def dropAttribute? : List Char → Option (List Char)
  | [] => none
  | c :: rest =>
    if isBlank c then
      (dropAttributeName? (trimStart rest)).map fun afterName =>
        match trimStart afterName with
        | '=' :: value => (dropValue? (trimStart value)).getD afterName
        | _ => afterName
    else none

/-- What follows the attributes of a tag; `fuel` bounds their number. -/
def dropAttributes (fuel : Nat) (s : List Char) : List Char :=
  match fuel, dropAttribute? s with
  | fuel + 1, some rest => dropAttributes fuel rest
  | _, _ => s

/-- What follows a tag, read after its first bracket. -/
def dropTag? (s : List Char) : Option (List Char) :=
  let s := match s with
    | '/' :: rest => rest
    | _ => s
  match s with
  | c :: rest =>
    if Ascii.isAlpha c then
      let afterName := rest.dropWhile fun c => Ascii.isAlphanumeric c || c = '-'
      match trimStart (dropAttributes afterName.length afterName) with
      | '>' :: rest => some rest
      | '/' :: '>' :: rest => some rest
      | _ => none
    else none
  | [] => none

/-- What follows a comment, read after its first bracket. -/
def dropComment? (s : List Char) : Option (List Char) :=
  ((dropText? "!--".toList s).bind (splitAtFirst? "-->".toList)).map (·.2)

/-- What follows an address, a tag or a comment, read after its first bracket. -/
def dropAngle? (s : List Char) : Option (List Char) :=
  ((Markdown.Autolink.dropUri? s).map (·.2)).or
    (((Markdown.Autolink.dropMail? s).map (·.2)).or ((dropTag? s).or (dropComment? s)))

/-! ### All kinds -/

/-- The bytes of the literal text at the start of a text. -/
def size? : List Char → Option Nat
  | '\\' :: c :: _ => if Ascii.isPunctuation c then some 2 else none
  | '\x60' :: rest => some (codeSpanSize ('\x60' :: rest))
  | '<' :: rest => (dropAngle? rest).map fun after => size ('<' :: rest) - size after
  | _ => none

end WikiPress.Literal
