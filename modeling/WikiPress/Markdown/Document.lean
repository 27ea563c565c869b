import WikiPress.Markdown.Block
import WikiPress.Markdown.Inline

/-!
# Documents

A text is read in two steps: first its blocks and link definitions, then the inline content of
each block, for which all definitions must be known.

## Main definitions

* `Node.linkMail` : mail addresses in the texts below a node made into links.
* `Block.toNode` : a block with its inline content read.
* `parse` : the document that a text stands for.
-/

namespace WikiPress.Markdown

open WikiPress.Text

namespace Node

/-- What a node with its children changed stands for when mail addresses are made into links. -/
def linkMailAt (kind : Kind) (extent : Extent) (children : List Node) : List Node :=
  match kind with
  | .text t => Autolink.splitMail t.toList
  | _ => [⟨kind, extent, children⟩]

mutual

/-- Makes links of the mail addresses in the texts below a node, apart from texts in links and
images. -/
def linkMail : Node → List Node
  | ⟨kind, extent, children⟩ =>
    match kind with
    | .link _ _ => [⟨kind, extent, children⟩]
    | .image _ _ => [⟨kind, extent, children⟩]
    | _ => linkMailAt kind extent (linkMailAll children)

/-- `linkMail` on every node of a list. -/
def linkMailAll : List Node → List Node
  | [] => []
  | n :: rest => linkMail n ++ linkMailAll rest

end

/-- The box at the start of a text, an unchecked one being `none`, and what follows it. -/
def readTaskBox? (s : List Char) : Option (Option Char × List Char) :=
  match s.dropWhile isAsciiBlank with
  | '[' :: c :: ']' :: rest =>
    if (c = ' ' ∨ c = 'x' ∨ c = 'X') ∧ (rest.isEmpty ∨ rest.head?.any isAsciiBlank) then
      some (if c = ' ' then none else some c, rest.drop 1)
    else none
  | _ => none

/-- An item as a task, if the paragraph it begins with begins with a box. -/
def asTask (n : Node) : Node :=
  match n.kind, n.children with
  | .item _, ⟨.paragraph, extent, ⟨.text t, e, cs⟩ :: inlines⟩ :: blocks =>
    match readTaskBox? t.toList with
    | some (symbol, rest) =>
      let inlines :=
        if rest.isEmpty then inlines else ⟨.text (String.ofList rest), e, cs⟩ :: inlines
      ⟨.taskItem symbol, n.extent, ⟨.paragraph, extent, inlines⟩ :: blocks⟩
    | none => n
  | _, _ => n

end Node

/-- The inline content of a text. -/
def inlineNodes (dialect : Dialect) (defs : List Definition) (s : List Char) : List Node :=
  Node.joinSiblings (Node.joinAll (readInline dialect defs s))

/-- Whether the text of a block is read as inline content. -/
def Kind.holdsInline : Kind → Bool
  | .paragraph => true
  | .heading _ _ => true
  | .tableCell => true
  | _ => false

namespace Block

mutual

/-- A block with its inline content read. -/
def toNode (dialect : Dialect) (defs : List Definition) : Block → Node
  | ⟨kind, extent, content, _, children⟩ =>
    if kind.holdsInline then ⟨kind, extent, inlineNodes dialect defs content⟩
    else
      let n : Node := ⟨kind, extent, toNodes dialect defs children⟩
      if dialect.tasks then n.asTask else n

/-- `toNode` on every block of a list. -/
def toNodes (dialect : Dialect) (defs : List Definition) : List Block → List Node
  | [] => []
  | b :: rest => toNode dialect defs b :: toNodes dialect defs rest

end

end Block

/-- The document that a text stands for. -/
def parse (dialect : Dialect) (s : List Char) : Node :=
  let (block, defs) := Block.ofText dialect s
  let document := block.toNode dialect defs
  if dialect.autolinks then
    { document with children := Node.linkMailAll document.children }
  else document

end WikiPress.Markdown
