import WikiPress.Heading
import WikiPress.Html.Escape
import WikiPress.Options
import WikiPress.Text.Blank
import WikiPress.Toc

/-!
# Tokens as HTML

Most tokens are written as tags.  The tag of a block is followed by a line feed unless text or its
own closing tag comes next, and hidden tokens are not written.  How the tokens of one kind are
written can be overridden.

## Main definitions

* `RenderOptions.plain` : what a token is usually written as.
* `Override` : how the tokens of one kind are written instead.
* `Renderer`, `Renderer.write` : the HTML of a list of tokens.
* `headingAnchors`, `tocOverrides` : the overrides for headings and for tables of contents.
-/

namespace WikiPress

open Text

/-- A token with its neighbours. -/
structure Site where
  before : Option Token := none
  token : Token
  after : Option Token := none
  deriving Repr, Inhabited

namespace RenderOptions

/-- The attributes of a tag. -/
def attributes (as : List (String × String)) : List Char :=
  as.flatMap fun a =>
    ' ' :: (Html.escape a.1.toList ++ '=' :: '\x22' :: (Html.escape a.2.toList ++ ['\x22']))

/-- Whether no line feed comes between an opening tag and what follows it. -/
def staysOnLine (t : Token) (after : Option Token) : Bool :=
  t.nesting = 1 && after.any fun next =>
    next.kind = .inline || next.hidden || (next.nesting = -1 && next.tag = t.tag)

/-- A token as a tag. -/
def tag (o : RenderOptions) (site : Site) : List Char :=
  let t := site.token
  if t.hidden then []
  else
    (if t.block && t.nesting ≠ -1 && site.before.any (·.hidden) then ['\n'] else []) ++
      (if t.nesting = -1 then ['<', '/'] else ['<']) ++ t.tag.toList ++ attributes t.attributes ++
      (if t.nesting = 0 && o.xhtmlOut then [' ', '/'] else []) ++
      (if t.block && !staysOnLine t site.after then ['>', '\n'] else ['>'])

/-- A break as a tag. -/
def lineBreak (o : RenderOptions) : List Char :=
  if o.xhtmlOut then "<br />\n".toList else "<br>\n".toList

/-- The class of a code block in a language. -/
def codeClass (o : RenderOptions) (language : List Char) : List Char :=
  if language.isEmpty then []
  else
    " class=\"".toList ++ Html.escape o.langPrefix.toList ++ Html.escape language ++ ['\x22']

/-- A fenced code block. -/
def fence (o : RenderOptions) (t : Token) : List Char :=
  "<pre><code".toList ++ o.codeClass (firstWord t.info.toList) ++ '>' ::
    (Html.escape t.content.toList ++ "</code></pre>\n".toList)

/-- A code block. -/
def codeBlock (t : Token) : List Char :=
  "<pre".toList ++ attributes t.attributes ++ "><code>".toList ++
    Html.escape t.content.toList ++ "</code></pre>\n".toList

/-- A code span. -/
def codeSpan (t : Token) : List Char :=
  "<code".toList ++ attributes t.attributes ++ '>' :: (Html.escape t.content.toList ++
    "</code>".toList)

/-- HTML of the source that stands as a block. -/
def htmlBlock (o : RenderOptions) (t : Token) : List Char :=
  if o.html then t.content.toList
  else "<p>".toList ++ Html.escape (trimEnd t.content.toList) ++ "</p>\n".toList

/-- HTML of the source in a text. -/
def htmlInline (o : RenderOptions) (t : Token) : List Char :=
  if o.html then t.content.toList else Html.escape t.content.toList

/-- A token that is no text of its own; `inner` is what the tokens inside are written as. -/
def plain (o : RenderOptions) (site : Site) (inner : List Char) : List Char :=
  let t := site.token
  match t.kind with
  | .text => Html.escape t.content.toList
  | .textSpecial => Html.escape t.content.toList
  | .softBreak => if o.breaks then o.lineBreak else ['\n']
  | .hardBreak => o.lineBreak
  | .codeInline => codeSpan t
  | .codeBlock => codeBlock t
  | .fence => o.fence t
  | .htmlBlock => o.htmlBlock t
  | .htmlInline => o.htmlInline t
  | .raw => t.content.toList
  | .inline => inner
  | .tocOpen => []
  | .tocBody => []
  | .tocClose => []
  | _ => o.tag site

end RenderOptions

/-- How the tokens of one kind are written instead of as usual. -/
structure Override where
  kind : TokenKind
  /-- What a token is written as, given the options, the headings of the document and what the token
  is usually written as. -/
  write : RenderOptions → List Heading → Site → List Char → List Char

/-- A writer of tokens for one document. -/
structure Renderer where
  options : RenderOptions := {}
  overrides : List Override := []
  headings : List Heading := []

namespace Renderer

/-- The override for a kind of tokens: the last one counts. -/
def override? (r : Renderer) (kind : TokenKind) : Option Override :=
  (r.overrides.filter (·.kind = kind)).getLast?

/-- What a token is written as; `inner` is what the tokens inside are written as. -/
def writeAt (r : Renderer) (site : Site) (inner : List Char) : List Char :=
  let usual := r.options.plain site inner
  match r.override? site.token.kind with
  | some o => o.write r.options r.headings site usual
  | none => usual

mutual

/-- What a token is written as. -/
def writeToken (r : Renderer) (before after : Option Token) : Token → List Char
  | ⟨kind, tag, attributes, lines, nesting, content, markup, info, children, block, hidden⟩ =>
    r.writeAt
      ⟨before,
        ⟨kind, tag, attributes, lines, nesting, content, markup, info, children, block, hidden⟩,
        after⟩
      (writeInline r none children)

/-- What the tokens of a text are written as; `before` is the token in front of them. -/
def writeInline (r : Renderer) (before : Option Token) : List Token → List Char
  | [] => []
  | t :: rest => writeToken r before rest.head? t ++ writeInline r (some t) rest

end

/-- What block tokens are written as; the texts of blocks are not overridden as a whole. -/
def writeBlocks (r : Renderer) (before : Option Token) : List Token → List Char
  | [] => []
  | t :: rest =>
    (if t.kind = .inline then r.writeInline none t.children
      else r.writeToken before rest.head? t) ++ writeBlocks r (some t) rest

/-- What a list of tokens is written as. -/
def write (r : Renderer) (ts : List Token) : List Char := r.writeBlocks none ts

end Renderer

/-! ### Overrides -/

/-- Headings are written with their anchors, if there is text in them. -/
def headingAnchors (slugger : Slugger) : Override where
  kind := .headingOpen
  write options _ site _ :=
    match site.after with
    | none => options.tag site
    | some text =>
      if text.kind = .inline ∧ !text.children.isEmpty then
        let line := Heading.firstLine (site.token.lines.or text.lines)
        let id := Heading.anchorOf (slugger.slugString text.content) line
        options.tag { site with token := site.token.setAttribute "id" id }
      else options.tag site

/-- The overrides for the three tokens of a table of contents. -/
def tocOverrides (o : TocOptions) : List Override :=
  [⟨.tocOpen, fun _ _ _ _ => o.openingTag.toList⟩,
    ⟨.tocBody, fun _ headings _ _ => Toc.toHtml o.listClass headings⟩,
    ⟨.tocClose, fun _ _ _ _ => o.closingTag.toList⟩]

end WikiPress
