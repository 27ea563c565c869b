import WikiPress.Html.Reference
import WikiPress.Text.Blank
import WikiPress.Text.Case

/-!
# The parts of a link

A link has a label or a text in brackets, a destination and perhaps a title.  Inline links and
link definitions read these parts by the same rules.

## Main definitions

* `Destination.read?`, `Title.read?`, `Label.read?` : the part at the start of a text.
* `Destination.clean`, `Title.clean` : the value that the written part stands for.
* `Label.normalize` : the form in which labels are compared.
* `Definition`, `Definition.read?`, `Definition.split` : link definitions at the start of a
  paragraph.
-/

namespace WikiPress.Markdown

open WikiPress.Text

/-- The text with every escaping backslash dropped. -/
def dropEscapes : List Char → List Char
  | '\\' :: c :: rest =>
    if Ascii.isPunctuation c then c :: dropEscapes rest else '\\' :: dropEscapes (c :: rest)
  | c :: rest => c :: dropEscapes rest
  | [] => []

/-- What follows blanks and at most one line end. -/
def dropBlankLine (s : List Char) : List Char :=
  match s.dropWhile isSpaceOrTab with
  | '\r' :: '\n' :: rest => rest.dropWhile isSpaceOrTab
  | '\r' :: rest => rest.dropWhile isSpaceOrTab
  | '\n' :: rest => rest.dropWhile isSpaceOrTab
  | rest => rest

/-- What follows the blanks at the end of a line, and the line end, if nothing else stands
there. -/
def dropLineEnd? (s : List Char) : Option (List Char) :=
  match s.dropWhile isSpaceOrTab with
  | [] => some []
  | '\r' :: '\n' :: rest => some rest
  | '\r' :: rest => some rest
  | '\n' :: rest => some rest
  | _ => none

/-! ### Destinations -/

namespace Destination

/-- The most parentheses that may be open in a destination. -/
def mostOpen : Nat := 32

/-- A destination between angle brackets, read after the first; something must follow it. -/
def readPointy? : List Char → List Char → Option (List Char × List Char)
  | _, [] => none
  | read, '\\' :: c :: rest => readPointy? (c :: '\\' :: read) rest
  | read, c :: rest =>
    if c = '>' then (if rest.isEmpty then none else some (read.reverse, rest))
    else if c = '\n' ∨ c = '<' ∨ c = '\\' then none
    else readPointy? (c :: read) rest

/-- A destination without brackets: it ends at a blank, a control character or a parenthesis that
it did not open, and something must follow it. -/
def readBare? (opened : Nat) : List Char → List Char → Option (List Char × List Char)
  | _, [] => none
  | read, '\\' :: d :: rest =>
    if Ascii.isPunctuation d then readBare? opened (d :: '\\' :: read) rest
    else readBare? opened ('\\' :: read) (d :: rest)
  | read, c :: rest =>
    if c = '(' then
      if opened < mostOpen then readBare? (opened + 1) (c :: read) rest else none
    else if c = ')' then
      match opened with
      | 0 => some (read.reverse, c :: rest)
      | n + 1 => readBare? n (c :: read) rest
    else if isAsciiBlank c || Ascii.isControl c then
      if read.isEmpty || opened != 0 then none else some (read.reverse, c :: rest)
    else readBare? opened (c :: read) rest
  termination_by _ s => s.length

/-- The destination at the start of a text as it is written, and what follows it. -/
def read? : List Char → Option (List Char × List Char)
  | '<' :: rest => readPointy? [] rest
  | s => readBare? 0 [] s

/-- The address that a written destination stands for. -/
def clean (s : List Char) : List Char :=
  dropEscapes (Html.Reference.decode (trimWith isAsciiBlank s))

end Destination

/-! ### Titles -/

namespace Title

/-- A title up to its closing mark.  A mark after a backslash may stand inside the title, but it
closes the title if no later mark does; `found` is the longest title so far. -/
def readUpTo (opening closing : Char) (escaped : Bool) (found : Option (List Char × List Char)) :
    List Char → List Char → Option (List Char × List Char)
  | _, [] => found
  | read, c :: rest =>
    if c = closing then
      let found := some (read.reverse, rest)
      if escaped then readUpTo opening closing false found (c :: read) rest else found
    else if c = opening then
      if escaped then readUpTo opening closing false found (c :: read) rest else found
    else readUpTo opening closing (c = '\\') found (c :: read) rest

/-- The title at the start of a text, without its marks, and what follows it. -/
def read? : List Char → Option (List Char × List Char)
  | '\x22' :: rest => readUpTo '\x22' '\x22' false none [] rest
  | '\x27' :: rest => readUpTo '\x27' '\x27' false none [] rest
  | '(' :: rest => readUpTo '(' ')' false none [] rest
  | _ => none

/-- The text that a written title stands for. -/
def clean (s : List Char) : List Char := dropEscapes (Html.Reference.decode s)

end Title

/-! ### Labels -/

namespace Label

/-- The longest label. -/
def longest : Nat := 1000

/-- The rest of a label after its opening bracket; `length` bytes are read. -/
def readUpTo (length : Nat) : List Char → List Char → Option (List Char × List Char)
  | _, [] => none
  | read, '\\' :: d :: rest =>
    if Ascii.isPunctuation d then
      if length + 2 ≤ longest then readUpTo (length + 2) (d :: '\\' :: read) rest else none
    else if length + 1 ≤ longest then readUpTo (length + 1) ('\\' :: read) (d :: rest)
    else none
  | read, c :: rest =>
    if c = ']' then some (read.reverse, rest)
    else if c = '[' then none
    else if length + c.utf8Size ≤ longest then readUpTo (length + c.utf8Size) (c :: read) rest
    else none
  termination_by _ s => s.length

/-- The label in brackets at the start of a text, and what follows it. -/
def read? : List Char → Option (List Char × List Char)
  | '[' :: rest =>
    (readUpTo 0 [] rest).map fun (label, rest) => (trimWith isAsciiBlank label, rest)
  | _ => none

/-- Every run of blanks as one space. -/
def joinBlanks (afterBlank : Bool) : List Char → List Char
  | [] => []
  | c :: rest =>
    if isBlank c then (if afterBlank then joinBlanks true rest else ' ' :: joinBlanks true rest)
    else c :: joinBlanks false rest

/-- The form in which labels are compared: blanks joined and case removed. -/
def normalize (s : List Char) : List Char :=
  foldCase (joinBlanks false (trimWith isAsciiBlank s))

end Label

/-! ### Definitions -/

/-- A link definition. -/
structure Definition where
  /-- The label in the form in which labels are compared. -/
  label : List Char
  url : List Char
  title : List Char
  deriving Repr

namespace Definition

/-- The definition at the start of a text, and what follows its last line.  A title that does not
end its line is no part of the definition. -/
def read? (s : List Char) : Option (Definition × List Char) := do
  let (label, rest) ← Label.read? s
  if label.isEmpty then none
  let rest ← match rest with
    | ':' :: rest => some rest
    | _ => none
  let (url, rest) ← Destination.read? (dropBlankLine rest)
  let make (title : List Char) : Definition :=
    ⟨Label.normalize label, Destination.clean url, Title.clean title⟩
  let untitled := (dropLineEnd? rest).map fun rest => (make [], rest)
  let titleStart := dropBlankLine rest
  if titleStart.length = rest.length then untitled
  else match Title.read? titleStart with
    | none => untitled
    | some (title, after) =>
      ((dropLineEnd? after).map fun rest => (make title, rest)).or untitled

/-- The definitions at the start of a text, and what follows them; `fuel` bounds their number. -/
def splitWithin : Nat → List Char → List Definition × List Char
  | 0, s => ([], s)
  | fuel + 1, s =>
    match read? s with
    | none => ([], s)
    | some (d, rest) =>
      let (ds, rest) := splitWithin fuel rest
      (d :: ds, rest)

/-- The definitions at the start of a paragraph, and what is left of it. -/
def split (s : List Char) : List Definition × List Char := splitWithin s.length s

/-- The first definition with the label. -/
def find? (defs : List Definition) (label : List Char) : Option Definition :=
  let label := Label.normalize label
  if label.isEmpty then none else defs.find? (·.label = label)

end Definition

end WikiPress.Markdown
