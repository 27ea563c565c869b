import WikiPress.Markdown.Node
import WikiPress.Text.Blank
import WikiPress.Text.CharSet
import WikiPress.Text.Measure

/-!
# The source text of headings

The content of a heading is taken from the lines of the source, without the marks that make the
lines a heading.

## Main definitions

* `sourceLines` : the lines of a source.
* `atxContent` : the content of a heading that begins with number signs.
* `setextContent?` : the content of a heading that is underlined.
-/

namespace WikiPress.TokenStream

open WikiPress.Text WikiPress.Markdown

/-- A line without the carriage return at its end. -/
def dropReturn (line : List Char) : List Char :=
  match line.reverse with
  | '\r' :: before => before.reverse
  | _ => line

/-- The lines of a list of pieces between line feeds.  A carriage return in front of a line feed
does not belong to the line, and there is no line after the last line feed. -/
def linesOfPieces : List (List Char) → List (List Char)
  | [] => []
  | [last] => if last.isEmpty then [] else [last]
  | piece :: rest => dropReturn piece :: linesOfPieces rest

/-- The lines of a source. -/
def sourceLines (source : List Char) : List (List Char) :=
  linesOfPieces (splitAtEach '\n' source)

/-- The content of a heading that begins with number signs: what is left of its line without these,
and without a closing run of number signs that stands behind a space or a tab. -/
def atxContent (line : List Char) : List Char :=
  let content := trim ((trimStart line).dropWhile (· = '#'))
  let opened := dropEndWhile (· = '#') content
  if opened.isEmpty then []
  else if opened.length < content.length ∧ opened.getLast?.any isSpaceOrTab then trimEnd opened
  else content

/-- Lines joined by line feeds. -/
def joinLines : List (List Char) → List Char
  | [] => []
  | [line] => line
  | line :: rest => line ++ '\n' :: joinLines rest

/-- The content of a heading that is underlined: its lines down to the underline, each of them
trimmed. -/
def setextContent? (lines : List (List Char)) (extent : Extent) : Option (List Char) :=
  let first := extent.start.line - 1
  let underline := extent.stop.line - 1
  if 0 < extent.stop.line ∧ first ≤ underline ∧ underline ≤ lines.length then
    some (trim (joinLines (((lines.take underline).drop first).map trim)))
  else none

/-- The content that a heading has in the lines of the source, if they have it. -/
def headingContent? (lines : List (List Char)) (extent : Extent) (setext : Bool) :
    Option (List Char) :=
  if extent.start.line = 0 then none
  else if setext then
    if extent.start.column ≤ 1 then setextContent? lines extent else none
  else
    lines[extent.start.line - 1]?.map fun line =>
      atxContent ((dropBytes? line (extent.start.column - 1)).getD line)

end WikiPress.TokenStream
