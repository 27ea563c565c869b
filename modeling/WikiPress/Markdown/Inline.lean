import WikiPress.Html.Reference
import WikiPress.Markdown.Autolink
import WikiPress.Markdown.Delimiter
import WikiPress.Markdown.Destination
import WikiPress.Markdown.InlineHtml
import WikiPress.Markdown.Node
import WikiPress.Text.Measure

/-!
# Inline content

The text of a paragraph, a heading or a cell is read from left to right into nodes.  Runs of
delimiters and opening brackets are kept among the nodes until it is known what they mean.

## Main definitions

* `InlineState` : the text before and after the place reached, and the levels of content read.
* `InlineState.step?` : the step over the construct at the place reached.
* `readInline` : the nodes of a text.
-/

namespace WikiPress.Markdown

open WikiPress.Text

/-- The content that follows an opening bracket, or that of the whole text. -/
structure Level where
  /-- The items read at this level, newest first. -/
  items : List Item := []
  /-- The bracket begins an image. -/
  image : Bool := false
  /-- What follows the opening bracket in the text. -/
  rest : List Char := []
  /-- Another bracket was opened after this one. -/
  followed : Bool := false
  deriving Repr, Inhabited

/-- The state of reading. -/
structure InlineState where
  /-- The text already read, in reverse. -/
  before : List Char := []
  rest : List Char
  /-- The levels inside open brackets, innermost first. -/
  levels : List Level := []
  /-- The items outside all brackets, newest first. -/
  outer : List Item := []
  /-- A link was closed since the last bracket that may begin a link. -/
  noLinks : Bool := false
  /-- The last bracket read is an opening one. -/
  inBrackets : Bool := false
  deriving Repr, Inhabited

/-- The longest run of backticks that a code span may begin with. -/
def mostBackticks : Nat := 80

namespace InlineState

/-- Moves over the first `n` characters of the rest. -/
def advance (n : Nat) (s : InlineState) : InlineState :=
  { s with before := (s.rest.take n).reverse ++ s.before, rest := s.rest.drop n }

/-- Moves to a text that ends the rest. -/
def advanceTo (rest : List Char) (s : InlineState) : InlineState :=
  s.advance (s.rest.length - rest.length)

/-- Adds an item to the innermost level. -/
def add (item : Item) (s : InlineState) : InlineState :=
  match s.levels with
  | level :: levels => { s with levels := { level with items := item :: level.items } :: levels }
  | [] => { s with outer := item :: s.outer }

/-- Adds a node. -/
def addNode (kind : Kind) (s : InlineState) : InlineState := s.add (.node ⟨kind, {}, []⟩)

/-- Adds text. -/
def addText (t : List Char) (s : InlineState) : InlineState := s.add (.node (Node.text t))

/-- The items of the innermost level, newest first. -/
def items (s : InlineState) : List Item :=
  match s.levels with
  | level :: _ => level.items
  | [] => s.outer

/-- Replaces the items of the innermost level. -/
def setItems (items : List Item) (s : InlineState) : InlineState :=
  match s.levels with
  | level :: levels => { s with levels := { level with items } :: levels }
  | [] => { s with outer := items }

/-- The text of an opening bracket. -/
def bracketText (image : Bool) : List Char := if image then ['!', '['] else ['[']

/-- Turns the innermost open bracket into text. -/
def dropBracket (s : InlineState) : InlineState :=
  match s.levels with
  | [] => s
  | level :: levels =>
    let s := { s with levels }
    s.setItems (level.items ++ .node (Node.text (bracketText level.image)) :: s.items)

/-- Opens a bracket that ends at the place reached. -/
def openBracket (image : Bool) (s : InlineState) : InlineState :=
  let levels :=
    match s.levels with
    | level :: levels => { level with followed := true } :: levels
    | [] => []
  { s with
    levels := { image, rest := s.rest } :: levels
    inBrackets := true
    noLinks := if image then s.noLinks else false }

/-- Closes the innermost bracket as a link or an image. -/
def closeLink (dialect : Dialect) (url title : List Char) (s : InlineState) : InlineState :=
  match s.levels with
  | [] => s
  | level :: levels =>
    let url := String.ofList url
    let title := String.ofList title
    let kind := if level.image then Kind.image url title else Kind.link url title
    let node : Node := ⟨kind, {}, Item.resolve dialect level.items.reverse⟩
    { s with levels, noLinks := s.noLinks || !level.image }.add (.node node)

/-! ### The constructs -/

/-- A run of delimiters. -/
def readRun (dialect : Dialect) (c : Char) (s : InlineState) : InlineState :=
  let isQuote : Bool := c = '\x27' || c = '\x22'
  let length := if isQuote then 1 else (s.rest.takeWhile (· = c)).length
  let skipped (d : Char) : Bool := dialect.strikethrough && d = '~'
  let charBefore : Char :=
    match s.before.dropWhile skipped with
    | d :: _ => d
    | [] => '\n'
  let run := s.rest.take length
  let s := s.advance length
  let charAfter : Char :=
    match s.rest.dropWhile skipped with
    | d :: _ => d
    | [] => '\n'
  let (canOpen, canClose) := Delimiter.flanking c charBefore charAfter
  let text :=
    if isQuote && dialect.typography then
      (if c = '\x22' && !canClose then Delimiter.openingQuote c else Delimiter.closingQuote c)
    else run
  if (canOpen || canClose) && (!isQuote || dialect.typography) then
    s.add (.run { mark := c, length, text, canOpen, canClose })
  else s.addText text

/-- The end of a line, with the blanks at the start of the next one. -/
def readLineEnd (s : InlineState) : InlineState :=
  let hard : Bool :=
    match s.before with
    | ' ' :: ' ' :: _ => true
    | _ => false
  let rest :=
    match s.rest with
    | '\r' :: '\n' :: rest => rest
    | _ :: rest => rest
    | [] => []
  let s := s.advanceTo (rest.dropWhile isSpaceOrTab)
  s.addNode (if hard then .lineBreak else .softBreak)

/-- The text before the next run of exactly `n` backticks, and what follows the run. -/
def splitAtBackticks? (n : Nat) : Nat → List Char → Option (List Char × List Char)
  | 0, _ => none
  | fuel + 1, s =>
    let text := s.takeWhile (· ≠ '\x60')
    let s := s.drop text.length
    if s.isEmpty then none
    else
      let run := s.takeWhile (· = '\x60')
      let s := s.drop run.length
      if run.length = n then some (text, s)
      else (splitAtBackticks? n fuel s).map fun (more, s) => (text ++ run ++ more, s)

/-- The content of a code span: line ends become spaces, and one space at either end is dropped
unless there is nothing but spaces. -/
def codeText (s : List Char) : List Char :=
  let rec joinLines : List Char → List Char
    | '\r' :: '\n' :: rest => ' ' :: joinLines rest
    | c :: rest => (if isLineEnd c then ' ' else c) :: joinLines rest
    | [] => []
  let s := joinLines s
  if s.head? = some ' ' ∧ s.getLast? = some ' ' ∧ s.any (· ≠ ' ') then (s.drop 1).dropLast else s

/-- A code span, or backticks as text. -/
def readBackticks (s : InlineState) : InlineState :=
  let run := s.rest.takeWhile (· = '\x60')
  let s := s.advance run.length
  let found :=
    if run.length ≤ mostBackticks then splitAtBackticks? run.length (s.rest.length + 1) s.rest
    else none
  match found with
  | some (text, rest) => (s.advanceTo rest).addNode (.code (String.ofList (codeText text)))
  | none => s.addText run

/-- An escape, a hard line break or a backslash as text. -/
def readBackslash (s : InlineState) : InlineState :=
  match s.rest with
  | _ :: '\r' :: '\n' :: _ => (s.advance 3).addNode .lineBreak
  | _ :: c :: _ =>
    if Ascii.isPunctuation c then
      (s.advance 2).add (.node ⟨.escaped, {}, [Node.text [c]]⟩)
    else if isLineEnd c then (s.advance 2).addNode .lineBreak
    else (s.advance 1).addText ['\\']
  | _ => (s.advance 1).addText ['\\']

/-- A character reference or an ampersand as text. -/
def readAmpersand (s : InlineState) : InlineState :=
  let s := s.advance 1
  match Html.Reference.read? s.rest with
  | some (image, rest) => (s.advanceTo rest).addText image
  | none => s.addText ['&']

/-- A link between angle brackets, HTML or an angle bracket as text. -/
def readAngle (s : InlineState) : InlineState :=
  let s := s.advance 1
  match Autolink.readAngle? s.rest with
  | some (link, rest) => (s.advanceTo rest).add (.node link)
  | none =>
    match InlineHtml.drop? s.rest with
    | some rest =>
      let html := '<' :: s.rest.take (s.rest.length - rest.length)
      (s.advanceTo rest).addNode (.htmlInline (String.ofList html))
    | none => s.addText ['<']

/-- Takes text from the end of the items, given newest first. -/
def dropText : Nat → List Item → List Item
  | n, .node ⟨.text t, e, cs⟩ :: items =>
    let t := t.toList
    if n < t.length then
      .node ⟨.text (String.ofList (t.take (t.length - n))), e, cs⟩ :: items
    else dropText (n - t.length) items
  | _, items => items

/-- A web address in the text, or one character of it as text. -/
def readAddress (c : Char) (s : InlineState) : InlineState :=
  let found : Option (List Char × List Char) :=
    if s.inBrackets then none
    else if c = ':' then Autolink.webEnd? s.before s.rest
    else (Autolink.wwwEnd? s.before.head? s.rest).map fun address => ([], address)
  match found with
  | none => (s.advance 1).addText [c]
  | some (scheme, address) =>
    let url := if c = ':' then scheme ++ address else "http://".toList ++ address
    let s := s.setItems (if scheme.isEmpty then s.items else dropText scheme.length s.items)
    (s.advance address.length).add (.node (Autolink.linkTo url (scheme ++ address)))

/-- Hyphens as dashes: as many long dashes as possible, so that all have one length if the number
allows it. -/
def dashes (n : Nat) : List Char :=
  let (short, long) :=
    if n % 3 = 0 then (0, n / 3)
    else if n % 2 = 0 then (n / 2, 0)
    else if n % 3 = 2 then (1, (n - 2) / 3)
    else (2, (n - 4) / 3)
  List.replicate long '—' ++ List.replicate short '–'

/-- Hyphens, perhaps as dashes. -/
def readHyphens (s : InlineState) : InlineState :=
  let n := (s.rest.takeWhile (· = '-')).length
  if n < 2 then (s.advance 1).addText ['-'] else (s.advance n).addText (dashes n)

/-- Full stops, perhaps as an ellipsis. -/
def readPeriods (s : InlineState) : InlineState :=
  match s.rest with
  | '.' :: '.' :: '.' :: _ => (s.advance 3).addText ['…']
  | '.' :: '.' :: _ => (s.advance 2).addText ['.', '.']
  | _ => (s.advance 1).addText ['.']

/-- The destination and title in parentheses at the start of a text, and what follows them. -/
def readTarget? (s : List Char) : Option (List Char × List Char × List Char) :=
  match s with
  | '(' :: s => do
    let (url, s) ← Destination.read? (s.dropWhile isAsciiBlank)
    let afterBlanks := s.dropWhile isAsciiBlank
    let (title, s) :=
      if afterBlanks.length = s.length then ([], s)
      else (Title.read? afterBlanks).getD ([], afterBlanks)
    match s.dropWhile isAsciiBlank with
    | ')' :: s => some (Destination.clean url, Title.clean title, s)
    | _ => none
  | _ => none

/-- A closing bracket: it ends a link or an image, or it is text. -/
def readClosing (dialect : Dialect) (defs : List Definition) (s : InlineState) : InlineState :=
  let atBracket := s.rest
  let s := { s.advance 1 with inBrackets := false }
  match s.levels with
  | [] => s.addText [']']
  | level :: _ =>
    if !level.image && s.noLinks then s.dropBracket.addText [']']
    else match readTarget? s.rest with
      | some (url, title, rest) => (s.advanceTo rest).closeLink dialect url title
      | none =>
        let label? := Label.read? s.rest
        let shown := level.rest.take (level.rest.length - atBracket.length)
        let (label, rest) :=
          match label? with
          | none => (if level.followed then [] else shown, s.rest)
          | some (label, rest) =>
            (if label.isEmpty && !level.followed then shown else label, rest)
        match Definition.find? defs label with
        | some d => (s.advanceTo rest).closeLink dialect d.url d.title
        | none => s.dropBracket.addText [']']

/-- Whether a character begins a construct. -/
def isSpecial (dialect : Dialect) (inBrackets : Bool) (c : Char) : Bool :=
  "\n\r\x60\\&<*_[]!".toList.contains c ||
    (dialect.strikethrough && c = '~') || (dialect.autolinks && (c = ':' || c = 'w')) ||
    (dialect.superscript && c = '^' && !inBrackets) || (dialect.highlight && c = '=') ||
    (dialect.typography && "\x22\x27.-".toList.contains c)

/-- Text up to the next construct.  Blanks before a line end and after a hard line break do not
belong to it. -/
def readText (dialect : Dialect) (s : InlineState) : InlineState :=
  let n := 1 + ((s.rest.drop 1).takeWhile fun c => !isSpecial dialect s.inBrackets c).length
  let text := s.rest.take n
  let afterBreak : Bool :=
    match s.items with
    | .node n :: _ => n.kind = .lineBreak
    | _ => false
  let s := s.advance n
  let text := if s.rest.head?.any isLineEnd then dropEndWhile isAsciiBlank text else text
  s.addText (if afterBreak then text.dropWhile isAsciiBlank else text)

/-- The step over the construct at the place reached. -/
def step (dialect : Dialect) (defs : List Definition) (s : InlineState) : InlineState :=
  match s.rest with
  | [] => s
  | c :: rest =>
    if isLineEnd c then s.readLineEnd
    else if c = '\x60' then s.readBackticks
    else if c = '\\' then s.readBackslash
    else if c = '&' then s.readAmpersand
    else if c = '<' then s.readAngle
    else if c = '[' then (s.advance 1).openBracket false
    else if c = ']' then s.readClosing dialect defs
    else if c = '!' then
      match rest with
      | '[' :: '^' :: _ => (s.advance 1).addText ['!']
      | '[' :: _ => (s.advance 2).openBracket true
      | _ => (s.advance 1).addText ['!']
    else if c = '*' ∨ c = '_' then s.readRun dialect c
    else if !isSpecial dialect s.inBrackets c then s.readText dialect
    else if c = ':' ∨ c = 'w' then s.readAddress c
    else if c = '-' then s.readHyphens
    else if c = '.' then s.readPeriods
    else s.readRun dialect c

/-- Reads the rest of the text; `fuel` bounds the number of steps. -/
def run (dialect : Dialect) (defs : List Definition) : Nat → InlineState → InlineState
  | 0, s => s
  | fuel + 1, s => if s.rest.isEmpty then s else run dialect defs fuel (s.step dialect defs)

/-- Turns all open brackets into text. -/
def dropBrackets : Nat → InlineState → InlineState
  | 0, s => s
  | n + 1, s => dropBrackets n s.dropBracket

end InlineState

/-- The nodes of a text. -/
def readInline (dialect : Dialect) (defs : List Definition) (s : List Char) : List Node :=
  let s := dropEndWhile isAsciiBlank s
  let state := InlineState.run dialect defs s.length { rest := s }
  let state := InlineState.dropBrackets state.levels.length state
  Item.resolve dialect state.outer.reverse

/-! ### Joining texts -/

namespace Node

/-- Joins neighbouring texts of a list and drops empty ones. -/
def joinSiblings : List Node → List Node
  | [] => []
  | n :: rest =>
    match n.kind, joinSiblings rest with
    | .text t, ⟨.text u, e, cs⟩ :: rest => ⟨.text (t ++ u), e, cs⟩ :: rest
    | .text t, rest => if t.isEmpty then rest else n :: rest
    | _, rest => n :: rest

mutual

/-- Joins neighbouring texts below a node and drops empty ones. -/
def joinTexts : Node → Node
  | ⟨kind, extent, children⟩ => ⟨kind, extent, joinSiblings (joinAll children)⟩

/-- `joinTexts` on every node of a list. -/
def joinAll : List Node → List Node
  | [] => []
  | n :: rest => joinTexts n :: joinAll rest

end

end Node

end WikiPress.Markdown
