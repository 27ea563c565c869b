import WikiPress.Markdown.Printer
import WikiPress.Mask.Basic
import WikiPress.TokenStream.Heading

/-!
# Documents as streams of tokens

The tree of a document becomes a flat list of block tokens.  Each block that holds text has one
token with the tokens of the text below it.  Placeholders of the mask become the tokens of their
spans in texts, and the claimed text itself everywhere else.  Nodes that have no tokens of their own
become one token with their HTML.

## Main definitions

* `Origin` : what the tokens need to know of the source of a document.
* `Origin.inlineTokens` : the tokens of a node in a text.
* `Origin.blockTokens` : the tokens of a node among blocks.
* `ofDocument` : the tokens of a document.
-/

namespace WikiPress.TokenStream

open WikiPress.Text WikiPress.Markdown

/-- What the tokens need to know of the source of a document. -/
structure Origin where
  mask : Mask
  lines : List (List Char) := []
  /-- HTML of the source is passed through in nodes that have no tokens of their own. -/
  html : Bool := false

namespace Origin

/-- A token with the HTML of a node. -/
def rawToken (o : Origin) (around : Surroundings) (n : Node) : Token :=
  { kind := .raw, content := String.ofList (o.mask.restoreHtml (n.toHtml o.html around)) }

/-! ### Text -/

/-- An opening tag in a text. -/
def openTag (kind : TokenKind) (tag markup : String) : Token :=
  { kind, tag, markup, nesting := 1 }

/-- A closing tag in a text. -/
def closeTag (kind : TokenKind) (tag markup : String) : Token :=
  { kind, tag, markup, nesting := -1 }

/-- Tokens between an opening and a closing tag. -/
def wrap (kinds : TokenKind × TokenKind) (tag markup : String) (inner : List Token) :
    List Token :=
  openTag kinds.1 tag markup :: (inner ++ [closeTag kinds.2 tag markup])

/-- The title of a link or an image among its attributes. -/
def titleAttributes (o : Origin) (title : String) : List (String × String) :=
  if title.isEmpty then [] else [("title", o.mask.restoreString title)]

/-- A link around tokens. -/
def linkTokens (o : Origin) (url title : String) (inner : List Token) : List Token :=
  { openTag .linkOpen "a" "" with
    attributes := ("href", o.mask.restoreString url) :: o.titleAttributes title } ::
    (inner ++ [closeTag .linkClose "a" ""])

/-- An image with the tokens of its description. -/
def imageToken (o : Origin) (url title shown : String) (inner : List Token) : Token :=
  let alt := String.ofList (o.mask.restorePlain shown.toList)
  { kind := .image, tag := "img", content := alt, children := inner
    attributes := ("src", o.mask.restoreString url) :: ("alt", alt) :: o.titleAttributes title }

/-- A character behind a backslash. -/
def escapeToken (literal : String) : Token :=
  { kind := .textSpecial, content := literal, markup := "\\" ++ literal, info := "escape" }

/-- A code span. -/
def codeToken (o : Origin) (literal : String) : Token :=
  { kind := .codeInline, tag := "code", content := o.mask.restoreString literal, markup := "\x60" }

mutual

/-- The tokens of a node in a text. -/
def inlineTokens (o : Origin) (around : Surroundings) : Node → List Token
  | ⟨kind, extent, children⟩ =>
    let inner := inlineTokensAll o ⟨kind :: around.above, []⟩ children
    match kind with
    | .text literal => o.mask.expand literal.toList
    | .escaped => [escapeToken (Node.plainTexts children)]
    | .softBreak => [{ kind := .softBreak, tag := "br" }]
    | .lineBreak => [{ kind := .hardBreak, tag := "br" }]
    | .code literal => [o.codeToken literal]
    | .emphasis => wrap (.emOpen, .emClose) "em" "*" inner
    | .strong => wrap (.strongOpen, .strongClose) "strong" "**" inner
    | .strikethrough => wrap (.strikethroughOpen, .strikethroughClose) "del" "~~" inner
    | .link url title => o.linkTokens url title inner
    | .image url title => [o.imageToken url title (Node.plainTexts children) inner]
    | .htmlInline literal => [{ kind := .htmlInline, content := o.mask.restoreString literal }]
    | kind => [o.rawToken around ⟨kind, extent, children⟩]

/-- The tokens of a list of nodes in a text. -/
def inlineTokensAll (o : Origin) (around : Surroundings) : List Node → List Token
  | [] => []
  | n :: rest =>
    inlineTokens o around n ++
      inlineTokensAll o { around with before := n.kind :: around.before } rest

end

/-! ### Blocks -/

/-- The lines of a block, counted from zero, with the end not included. -/
def blockLines (extent : Extent) : Option (Nat × Nat) :=
  if extent.start.line = 0 then none else some (extent.start.line - 1, extent.stop.line)

/-- An opening tag of a block. -/
def openBlock (kind : TokenKind) (tag markup : String) (extent : Extent) : Token :=
  { kind, tag, markup, lines := blockLines extent, nesting := 1, block := true }

/-- A closing tag of a block. -/
def closeBlock (kind : TokenKind) (tag markup : String) : Token :=
  { kind, tag, markup, nesting := -1, block := true }

/-- Tokens between the tags of a block. -/
def wrapBlock (kinds : TokenKind × TokenKind) (tag markup : String) (extent : Extent)
    (inner : List Token) : List Token :=
  openBlock kinds.1 tag markup extent :: (inner ++ [closeBlock kinds.2 tag markup])

/-- A block by itself. -/
def leafBlock (kind : TokenKind) (tag : String) (extent : Extent) : Token :=
  { kind, tag, lines := blockLines extent, block := true }

/-- The text of a block without markup, with the claimed text put back. -/
def plainContent (o : Origin) (children : List Node) : String :=
  o.mask.restoreString (Node.plainTexts children)

/-- The token for the text of a block. -/
def textToken (o : Origin) (around : Surroundings) (kind : Kind) (extent : Extent)
    (content : String) (children : List Node) : Token :=
  { leafBlock .inline "" extent with
    content, children := o.inlineTokensAll ⟨kind :: around.above, []⟩ children }

/-- The tokens of a paragraph, whose tags are hidden in a tight list. -/
def paragraphTokens (o : Origin) (around : Surroundings) (tight : Bool) (extent : Extent)
    (children : List Node) : List Token :=
  [{ openBlock .paragraphOpen "p" "" extent with hidden := tight },
    o.textToken around .paragraph extent (o.plainContent children) children,
    { closeBlock .paragraphClose "p" "" with hidden := tight }]

/-- The marks of a heading. -/
def headingMarkup (level : Nat) (setext : Bool) : String :=
  if setext then if level = 1 then "=" else "-"
  else String.ofList (List.replicate level '#')

/-- The content of a heading. -/
def headingContent (o : Origin) (extent : Extent) (setext : Bool) (children : List Node) :
    String :=
  match headingContent? o.lines extent setext with
  | some content => String.ofList content
  | none => o.plainContent children

/-- The tokens of a heading. -/
def headingTokens (o : Origin) (around : Surroundings) (level : Nat) (setext : Bool)
    (extent : Extent) (children : List Node) : List Token :=
  let tag := "h" ++ toString level
  wrapBlock (.headingOpen, .headingClose) tag (headingMarkup level setext) extent
    [o.textToken around (.heading level setext) extent
      (o.headingContent extent setext children) children]

/-- The tokens of a list around those of its items. -/
def listTokens (style : ListStyle) (extent : Extent) (inner : List Token) : List Token :=
  if style.ordered then
    let opened := openBlock .orderedListOpen "ol" "." extent
    let attributes := if style.start = 1 then [] else [("start", toString style.start)]
    { opened with attributes } :: (inner ++ [closeBlock .orderedListClose "ol" "."])
  else wrapBlock (.bulletListOpen, .bulletListClose) "ul" "-" extent inner

/-! ### Tables -/

/-- The style that aligns a cell. -/
def alignmentStyle? : Markdown.Alignment → Option String
  | .unset => none
  | .left => some "text-align:left"
  | .center => some "text-align:center"
  | .right => some "text-align:right"

/-- The tokens of a cell. -/
def cellTokens (o : Origin) (around : Surroundings) (header : Bool) (alignment : Markdown.Alignment)
    (cell : Node) : List Token :=
  let style := match alignmentStyle? alignment with
    | some style => [("style", style)]
    | none => []
  let text :=
    o.textToken around cell.kind cell.extent (o.plainContent cell.children) cell.children
  if header then
    [{ openBlock .thOpen "th" "" cell.extent with attributes := style }, text,
      closeBlock .thClose "th" ""]
  else
    [{ openBlock .tdOpen "td" "" cell.extent with attributes := style }, text,
      closeBlock .tdClose "td" ""]

/-- The tokens of the cells of a row; columns without an alignment of their own come last. -/
def cellsTokens (o : Origin) (around : Surroundings) (header : Bool) :
    List Markdown.Alignment → List Node → List Token
  | _, [] => []
  | alignments, cell :: rest =>
    o.cellTokens around header (alignments.headD .unset) cell ++
      cellsTokens o around header alignments.tail rest

/-- Whether a node is the header row of a table. -/
def isHeader (row : Node) : Bool :=
  match row.kind with
  | .tableRow header => header
  | _ => false

/-- The tokens of a row. -/
def rowTokens (o : Origin) (around : Surroundings) (alignments : List Markdown.Alignment)
    (row : Node) : List Token :=
  wrapBlock (.trOpen, .trClose) "tr" "" row.extent
    (o.cellsTokens ⟨row.kind :: around.above, []⟩ (isHeader row) alignments row.children)

/-- The tokens of the rows of a table up to the end of its body.  The body begins with the first
row that is not a header, and a header inside the body has its own tags there. -/
def rowsTokens (o : Origin) (around : Surroundings) (alignments : List Markdown.Alignment)
    (inBody : Bool) : List Node → List Token
  | [] => if inBody then [closeBlock .tbodyClose "tbody" ""] else []
  | row :: rest =>
    let tokens := o.rowTokens around alignments row
    if isHeader row then
      wrapBlock (.theadOpen, .theadClose) "thead" "" row.extent tokens ++
        rowsTokens o around alignments inBody rest
    else
      (if inBody then [] else [openBlock .tbodyOpen "tbody" "" row.extent]) ++ tokens ++
        rowsTokens o around alignments true rest

/-! ### All blocks -/

mutual

/-- The tokens of a node among blocks; `tight` tells whether it is in a tight list. -/
def blockTokens (o : Origin) (around : Surroundings) (tight : Bool) : Node → List Token
  | ⟨kind, extent, children⟩ =>
    let below : Surroundings := ⟨kind :: around.above, []⟩
    match kind with
    | .document => blockTokensAll o below false children
    | .blockQuote =>
      wrapBlock (.blockquoteOpen, .blockquoteClose) "blockquote" ">" extent
        (blockTokensAll o below false children)
    | .list style => listTokens style extent (blockTokensAll o below style.tight children)
    | .item _ =>
      wrapBlock (.listItemOpen, .listItemClose) "li" "" extent
        (blockTokensAll o below tight children)
    | .paragraph => o.paragraphTokens around tight extent children
    | .heading level setext => o.headingTokens around level setext extent children
    | .codeBlock fenced info literal =>
      [{ leafBlock (if fenced then .fence else .codeBlock) "code" extent with
          info := o.mask.restoreString info, content := o.mask.restoreString literal }]
    | .htmlBlock literal =>
      [{ leafBlock .htmlBlock "" extent with content := o.mask.restoreString literal }]
    | .thematicBreak => [{ leafBlock .rule "hr" extent with markup := "---" }]
    | .table alignments =>
      wrapBlock (.tableOpen, .tableClose) "table" "" extent
        (o.rowsTokens below alignments false children)
    | kind =>
      [{ o.rawToken around ⟨kind, extent, children⟩ with
          lines := blockLines extent, block := true }]

/-- The tokens of a list of nodes among blocks. -/
def blockTokensAll (o : Origin) (around : Surroundings) (tight : Bool) :
    List Node → List Token
  | [] => []
  | n :: rest =>
    blockTokens o around tight n ++
      blockTokensAll o { around with before := n.kind :: around.before } tight rest

end

end Origin

/-- The tokens of a document that was read from the masked form of a source. -/
def ofDocument (mask : Mask) (source : List Char) (html : Bool) (root : Node) : List Token :=
  Origin.blockTokensAll ⟨mask, sourceLines source, html⟩ ⟨[root.kind], []⟩ false root.children

end WikiPress.TokenStream
