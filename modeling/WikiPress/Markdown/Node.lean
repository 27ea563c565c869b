/-!
# Documents as trees

A parsed document is a tree of nodes.  Blocks and inline content share one type of node, so that a
tree can be built, lowered and printed with any kind of node in any place.

## Main definitions

* `Extent` : the lines and columns that a node came from, counted from one; line zero means that
  the place is not known.
* `Kind`, `Node` : the kinds of nodes and the tree.
* `Node.plainText` : the text below a node without its markup.
* `Dialect` : the optional constructs of the markup.
-/

namespace WikiPress.Markdown

/-- A line and a column, counted from one; the column counts bytes. -/
structure Position where
  line : Nat := 0
  column : Nat := 0
  deriving DecidableEq, Repr, Inhabited

/-- The first and the last position of a node. -/
structure Extent where
  start : Position := {}
  stop : Position := {}
  deriving DecidableEq, Repr, Inhabited

/-- How the cells of a table column are aligned. -/
inductive Alignment where
  | unset | left | center | right
  deriving DecidableEq, Repr, Inhabited

/-- The properties of a list that its printed form depends on. -/
structure ListStyle where
  ordered : Bool := false
  start : Nat := 1
  tight : Bool := false
  deriving DecidableEq, Repr, Inhabited

/-- The kinds of nodes. -/
inductive Kind where
  | document
  | blockQuote
  | list (style : ListStyle)
  | item (style : ListStyle)
  | taskItem (symbol : Option Char)
  | paragraph
  | heading (level : Nat) (setext : Bool)
  | codeBlock (fenced : Bool) (info literal : String)
  | htmlBlock (literal : String)
  | thematicBreak
  | table (alignments : List Alignment)
  | tableRow (header : Bool)
  | tableCell
  | text (literal : String)
  | escaped
  | softBreak
  | lineBreak
  | code (literal : String)
  | emphasis
  | strong
  | strikethrough
  | superscript
  | underline
  | highlight
  /-- Content that keeps the marks around it as text. -/
  | marked (mark : String)
  | link (url title : String)
  | image (url title : String)
  | htmlInline (literal : String)
  /-- Finished HTML. -/
  | raw (literal : String)
  deriving DecidableEq, Repr, Inhabited

/-- A node of a document. -/
structure Node where
  kind : Kind
  extent : Extent := {}
  children : List Node := []
  deriving Repr, Inhabited

namespace Node

/-- A text node. -/
def text (s : List Char) : Node := ⟨.text (String.ofList s), {}, []⟩

mutual

/-- The text below a node without its markup; a break between lines counts as one space and HTML
tags count for nothing. -/
def plainText : Node → String
  | ⟨_, _, children⟩ => plainTexts children

/-- The text that one child contributes to the text of its parent. -/
def childText : Node → String
  | ⟨kind, _, children⟩ =>
    match kind with
    | .text s => s
    | .code s => s
    | .softBreak => " "
    | .lineBreak => " "
    | .htmlInline _ => ""
    | _ => plainTexts children

/-- The text of a list of children. -/
def plainTexts : List Node → String
  | [] => ""
  | n :: rest => childText n ++ plainTexts rest

end

end Node

/-- The optional constructs of the markup. -/
structure Dialect where
  tables : Bool := false
  strikethrough : Bool := false
  autolinks : Bool := false
  /-- Quotes, dashes and ellipses are replaced by their typographic forms. -/
  typography : Bool := false
  superscript : Bool := false
  underline : Bool := false
  highlight : Bool := false
  tasks : Bool := false
  deriving DecidableEq, Repr, Inhabited

end WikiPress.Markdown
