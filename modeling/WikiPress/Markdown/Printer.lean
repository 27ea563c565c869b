import WikiPress.Html.Escape
import WikiPress.Markdown.Node
import WikiPress.Text.Ascii
import WikiPress.Text.Blank

/-!
# Documents as HTML

Every node has an HTML form of its own, which depends on the nodes around it: paragraphs in tight
lists have no tags, and the cells of a table look at its header and its columns.

## Main definitions

* `Surroundings` : what the form of a node depends on besides the node.
* `Node.write` : the HTML of a node put behind an output.
* `Node.toHtml` : the HTML of a node.
-/

namespace WikiPress.Markdown

open WikiPress.Text

/-- What the form of a node depends on besides the node. -/
structure Surroundings where
  /-- The nodes above, from the parent to the root. -/
  above : List Kind := []
  /-- The siblings before the node, the nearest first. -/
  before : List Kind := []
  deriving Repr, Inhabited

namespace Surroundings

/-- Whether the node is in the item of a tight list. -/
def tight (around : Surroundings) : Bool :=
  match around.above with
  | _ :: .list style :: _ => style.tight
  | _ => false

/-- Whether the node is in a list. -/
def inList (around : Surroundings) : Bool :=
  match around.above with
  | .list _ :: _ => true
  | _ => false

/-- Whether the node is in the header row of a table. -/
def inHeader (around : Surroundings) : Bool :=
  match around.above with
  | .tableRow header :: _ => header
  | _ => false

/-- Whether the node comes right behind the header row. -/
def afterHeader (around : Surroundings) : Bool :=
  match around.before with
  | .tableRow header :: _ => header
  | _ => false

/-- How a cell at this place is aligned. -/
def alignment (around : Surroundings) : Alignment :=
  match around.above with
  | _ :: .table alignments :: _ => alignments.getD around.before.length .unset
  | _ => .unset

end Surroundings

/-! ### Output -/

/-- An output, its last character first. -/
abbrev Output := List Char

namespace Output

/-- A text put behind the output. -/
def put (out : Output) (s : List Char) : Output := s.reverse ++ out

/-- A string put behind the output. -/
def puts (out : Output) (s : String) : Output := out.put s.toList

/-- A line feed put behind the output, unless it is at the start of a line. -/
def newLine (out : Output) : Output :=
  match out with
  | [] => []
  | '\n' :: rest => '\n' :: rest
  | out => '\n' :: out

/-- Escaped text put behind the output. -/
def escaped (out : Output) (s : String) : Output := out.put (Html.escape s.toList)

end Output

/-- Whether an address may run a program or show a file when it is opened. -/
def isDangerous (url : List Char) : Bool :=
  let begins := fun (start : String) => Ascii.startsWithIgnoringCase start.toList url
  if ["png", "gif", "jpeg", "webp"].any fun format => begins ("data:image/" ++ format) then false
  else ["javascript:", "vbscript:", "file:", "data:"].any begins

/-- The address in a link, left out if it is dangerous and HTML is not passed through. -/
def addressOf (html : Bool) (url : String) : List Char :=
  if html || !isDangerous url.toList then Html.escapeAddress url.toList else []

/-- HTML of the source, replaced by a comment if it is not passed through. -/
def passHtml (html : Bool) (literal : String) : String :=
  if html then literal else "<!-- raw HTML omitted -->"

/-- The opening tags of a code block. -/
def codeBlockStart (info : String) : List Char :=
  if info = "math" then
    "<pre><code class=\"language-math\" data-math-style=\"display\">".toList
  else if info.isEmpty then "<pre><code>".toList
  else
    let language := info.toList.takeWhile fun c => !isAsciiBlank c
    "<pre><code class=\"".toList ++ Html.escape ("language-".toList ++ language) ++
      "\">".toList

/-- The attribute that aligns a cell. -/
def alignmentAttribute : Alignment → String
  | .unset => ""
  | .left => " align=\"left\""
  | .center => " align=\"center\""
  | .right => " align=\"right\""

/-- The title of a link or an image behind its address. -/
def titleAttribute (title : String) : List Char :=
  if title.isEmpty then [] else "\" title=\"".toList ++ Html.escape title.toList

/-! ### Nodes -/

/-- What stands before the content of a node. -/
def startOf (html : Bool) (around : Surroundings) (kind : Kind) (out : Output) : Output :=
  match kind with
  | .document => out
  | .blockQuote => out.newLine.puts "<blockquote>\n"
  | .list style =>
    if style.ordered then
      if style.start = 1 then out.newLine.puts "<ol>\n"
      else out.newLine.puts ("<ol start=\"" ++ toString style.start ++ "\">\n")
    else out.newLine.puts "<ul>\n"
  | .item _ => out.newLine.puts "<li>"
  | .taskItem symbol =>
    let out := if around.inList then out.newLine.puts "<li>" else out.newLine
    let out := out.puts "<input type=\"checkbox\""
    let out := if symbol.isSome then out.puts " checked=\"\"" else out
    out.puts " disabled=\"\" /> "
  | .paragraph => if around.tight then out else out.newLine.puts "<p>"
  | .heading level _ => out.newLine.puts ("<h" ++ toString level ++ ">")
  | .codeBlock _ info literal =>
    ((out.newLine.put (codeBlockStart info)).escaped literal).puts "</code></pre>\n"
  | .htmlBlock literal => (out.newLine.puts (passHtml html literal)).newLine
  | .thematicBreak => out.newLine.puts "<hr />\n"
  | .table _ => out.newLine.puts "<table>\n"
  | .tableRow header =>
    let out := out.newLine
    let out :=
      if header then out.puts "<thead>\n"
      else if around.afterHeader then out.puts "<tbody>\n"
      else out
    out.puts "<tr>"
  | .tableCell =>
    ((out.newLine.puts (if around.inHeader then "<th" else "<td")).puts
      (alignmentAttribute around.alignment)).puts ">"
  | .text literal => out.escaped literal
  | .escaped => out
  | .softBreak => out.puts "\n"
  | .lineBreak => out.puts "<br />\n"
  | .code literal => ((out.puts "<code>").escaped literal).puts "</code>"
  | .emphasis => out.puts "<em>"
  | .strong => out.puts "<strong>"
  | .strikethrough => out.puts "<del>"
  | .superscript => out.puts "<sup>"
  | .underline => out.puts "<u>"
  | .highlight => out.puts "<mark>"
  | .marked mark => out.puts mark
  | .link url title =>
    (((out.puts "<a href=\"").put (addressOf html url)).put (titleAttribute title)).puts "\">"
  | .image url _ => ((out.puts "<img src=\"").put (addressOf html url)).puts "\" alt=\""
  | .htmlInline literal => out.puts (passHtml html literal)
  | .raw literal => out.puts literal

/-- What stands behind the content of a node; `rows` is the number of its children. -/
def endOf (around : Surroundings) (rows : Nat) (kind : Kind) (out : Output) : Output :=
  match kind with
  | .blockQuote => out.newLine.puts "</blockquote>\n"
  | .list style => out.puts (if style.ordered then "</ol>\n" else "</ul>\n")
  | .item _ => out.puts "</li>\n"
  | .taskItem _ => if around.inList then out.puts "</li>\n" else out
  | .paragraph => if around.tight then out else out.puts "</p>\n"
  | .heading level _ => out.puts ("</h" ++ toString level ++ ">\n")
  | .table _ =>
    let out := if 1 < rows then out.newLine.puts "</tbody>\n" else out
    out.newLine.puts "</table>\n"
  | .tableRow header =>
    let out := out.newLine.puts "</tr>"
    if header then out.newLine.puts "</thead>" else out
  | .tableCell => out.puts (if around.inHeader then "</th>" else "</td>")
  | .emphasis => out.puts "</em>"
  | .strong => out.puts "</strong>"
  | .strikethrough => out.puts "</del>"
  | .superscript => out.puts "</sup>"
  | .underline => out.puts "</u>"
  | .highlight => out.puts "</mark>"
  | .marked mark => out.puts mark
  | .link _ _ => out.puts "</a>"
  | .image _ title => (out.put (titleAttribute title)).puts "\" />"
  | _ => out

/-- What a node adds by itself to a text without tags. -/
def plainOf (kind : Kind) (out : Output) : Output :=
  match kind with
  | .text literal => out.escaped literal
  | .code literal => out.escaped literal
  | .htmlInline literal => out.escaped literal
  | .softBreak => out.puts " "
  | .lineBreak => out.puts " "
  | _ => out

namespace Node

mutual

/-- The text of a node put behind an output without tags. -/
def writePlain (out : Output) : Node → Output
  | ⟨kind, _, children⟩ => writePlainAll (plainOf kind out) children

/-- The texts of a list of nodes put behind an output without tags. -/
def writePlainAll (out : Output) : List Node → Output
  | [] => out
  | n :: rest => writePlainAll (writePlain out n) rest

end

/-- Whether the content of a node is written without tags. -/
def hasPlainContent : Kind → Bool
  | .image _ _ => true
  | _ => false

mutual

/-- The HTML of a node put behind an output; `html` tells whether HTML of the source is passed
through. -/
def write (html : Bool) (around : Surroundings) (out : Output) : Node → Output
  | ⟨kind, _, children⟩ =>
    let out := startOf html around kind out
    let out :=
      if hasPlainContent kind then writePlainAll out children
      else writeAll html ⟨kind :: around.above, []⟩ out children
    endOf around children.length kind out

/-- The HTML of a list of siblings put behind an output. -/
def writeAll (html : Bool) (around : Surroundings) (out : Output) : List Node → Output
  | [] => out
  | n :: rest =>
    writeAll html { around with before := n.kind :: around.before } (write html around out n) rest

end

/-- The HTML of a node. -/
def toHtml (html : Bool) (around : Surroundings) (n : Node) : List Char :=
  (write html around [] n).reverse

end Node

end WikiPress.Markdown
