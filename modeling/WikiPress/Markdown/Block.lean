import WikiPress.Markdown.BlockStart
import WikiPress.Markdown.Cursor
import WikiPress.Markdown.Destination
import WikiPress.Markdown.TableRow
import WikiPress.Text.Ascii

/-!
# Blocks

The lines of a document are read one after the other.  At each line the blocks that are still open
form a chain from the document to the innermost block.  A line first continues as many of them as
it can, then begins new blocks inside the last of these, and leaves its remaining text to the
innermost one.  Blocks that a line does not continue are closed, unless the line merely carries
on a paragraph.

## Main definitions

* `Block` : a closed block; paragraphs, headings and cells still hold their text unread.
* `OpenBlock`, `BlockState` : the chain of open blocks and the definitions found so far.
* `BlockState.readLine` : the step from one line to the next.
* `Block.ofText` : the blocks of a text and its link definitions.
-/

namespace WikiPress.Markdown

open WikiPress.Text

/-- A closed block. -/
structure Block where
  kind : Kind
  extent : Extent
  /-- The text that inline content is read from. -/
  content : List Char := []
  /-- The block is followed by a blank line. -/
  beforeBlank : Bool := false
  children : List Block := []
  deriving Repr, Inhabited

namespace Block

/-- Whether a list or another block ends with a blank line, which may belong to the last of its
parts. -/
def endsBlank : Block → Bool
  | ⟨kind, _, _, beforeBlank, children⟩ =>
    beforeBlank ||
      match kind with
      | .list _ => lastEndsBlank children
      | .item _ => lastEndsBlank children
      | _ => false
where
  /-- Whether the last block of a list ends with a blank line. -/
  lastEndsBlank : List Block → Bool
    | [] => false
    | [b] => endsBlank b
    | _ :: rest => lastEndsBlank rest

/-- Whether the blocks of an item leave the list tight: none of them that is followed by another
block or another item may end with a blank line. -/
def tightParts (moreItems : Bool) : List Block → Bool
  | [] => true
  | b :: rest => !((moreItems || !rest.isEmpty) && b.endsBlank) && tightParts moreItems rest

/-- Whether no blank lines separate the items of a list or the blocks in them. -/
def tightItems : List Block → Bool
  | [] => true
  | item :: rest =>
    !(item.beforeBlank && !rest.isEmpty) && tightParts (!rest.isEmpty) item.children &&
      tightItems rest

end Block

/-- An open block, with what later lines need to know of it. -/
inductive Container where
  | document
  | quote
  | list (marker : ListMarker)
  /-- An item whose content begins `width` columns to the right. -/
  | item (marker : ListMarker) (width : Nat)
  /-- A paragraph; `settled` means that its last line is known not to be the header of a table. -/
  | paragraph (settled : Bool)
  | heading (level : Nat) (setext : Bool)
  /-- Fenced code: the fence and the blanks before it. -/
  | fenced (fence : Char) (length indent : Nat)
  | indented
  | html (kind : HtmlStart)
  | thematicBreak
  | table (alignments : List Alignment)
  deriving DecidableEq, Repr, Inhabited

namespace Container

/-- Whether a block of any kind but an item can stand directly inside. -/
def holdsBlocks : Container → Bool
  | document => true
  | quote => true
  | item _ _ => true
  | _ => false

/-- Whether the second block can stand directly inside the first. -/
def canHold (outer inner : Container) : Bool :=
  match outer, inner with
  | list _, item _ _ => true
  | _, item _ _ => false
  | _, _ => outer.holdsBlocks

/-- Whether the text of lines goes into the block itself. -/
def holdsLines : Container → Bool
  | paragraph _ => true
  | heading _ _ => true
  | fenced _ _ _ => true
  | indented => true
  | html _ => true
  | _ => false

/-- Whether the lines of the block are kept as they are. -/
def isVerbatim : Container → Bool
  | fenced _ _ _ => true
  | indented => true
  | html _ => true
  | _ => false

/-- Whether the block is a paragraph. -/
def isParagraph : Container → Bool
  | paragraph _ => true
  | _ => false

end Container

/-- A block that later lines may add to. -/
structure OpenBlock where
  container : Container
  start : Position
  /-- The lines of the block, newest first, each with its line end. -/
  lines : List (List Char) := []
  /-- The closed blocks inside, newest first. -/
  children : List Block := []
  beforeBlank : Bool := false
  deriving Repr, Inhabited

namespace OpenBlock

/-- The text of the lines of the block. -/
def content (b : OpenBlock) : List Char := b.lines.reverse.flatten

/-- Adds a line to the text of the block. -/
def addLine (b : OpenBlock) (line : List Char) : OpenBlock :=
  { b with lines := (line ++ ['\n']) :: b.lines }

/-- Adds what is left of a line to the text of the block, with the line end only if the line has
it. -/
def addVerbatim (b : OpenBlock) (k : Cursor) : OpenBlock :=
  { b with lines := (if k.ended then k.text ++ ['\n'] else k.text) :: b.lines }

/-- Adds a closed block. -/
def addChild (b : OpenBlock) (child : Block) : OpenBlock :=
  { b with children := child :: b.children }

/-- Marks the newest of the closed blocks inside as followed by a blank line. -/
def markLastChild (b : OpenBlock) : OpenBlock :=
  match b.children with
  | [] => b
  | child :: rest => { b with children := { child with beforeBlank := true } :: rest }

/-- Text without the blank lines at its end. -/
def dropBlankLines (s : List Char) : List Char :=
  let blankEnd := (s.reverse.takeWhile fun c => isSpaceOrTab c || isLineEnd c).reverse
  s.take (s.length - (blankEnd.dropWhile isSpaceOrTab).length)

/-- The text of an info string. -/
def infoText (s : List Char) : List Char :=
  dropEscapes (trimWith isAsciiBlank (Html.Reference.decode s))

/-- Closes a block whose last line is `line`.  A paragraph gives up the definitions at its start;
nothing is left of it if there is nothing else in it. -/
def close (line : Nat) (b : OpenBlock) : Option Block × List Definition :=
  let children := b.children.reverse
  let make (kind : Kind) (stop : Nat) (content : List Char) : Block :=
    ⟨kind, ⟨b.start, ⟨stop, 0⟩⟩, content, b.beforeBlank, children⟩
  let lastLine : Nat :=
    match b.children with
    | [] => line
    | child :: _ => child.extent.stop.line
  match b.container with
  | .document => (some (make .document line []), [])
  | .quote => (some (make .blockQuote line []), [])
  | .list marker =>
    let tight := Block.tightItems children
    let style : ListStyle :=
      match marker with
      | .bullet _ => ⟨false, 0, tight⟩
      | .number start _ => ⟨true, start, tight⟩
    (some (make (.list style) lastLine []), [])
  | .item marker _ =>
    let style : ListStyle :=
      match marker with
      | .bullet _ => ⟨false, 0, false⟩
      | .number start _ => ⟨true, start, false⟩
    (some (make (.item style) lastLine []), [])
  | .paragraph _ =>
    let (defs, rest) := Definition.split b.content
    if rest.all isAsciiBlank then (none, defs) else (some (make .paragraph line rest), defs)
  | .heading level setext => (some (make (.heading level setext) line b.content), [])
  | .fenced _ _ _ =>
    let text := b.content
    let info := text.takeWhile fun c => !isLineEnd c
    let literal := text.drop (info.length + 1)
    (some (make (.codeBlock true (String.ofList (infoText info)) (String.ofList literal)) line []),
      [])
  | .indented =>
    let literal := dropBlankLines b.content ++ ['\n']
    (some (make (.codeBlock false "" (String.ofList literal)) line []), [])
  | .html _ =>
    let literal := b.content
    let stop := b.start.line + (dropBlankLines literal).count '\n'
    (some (make (.htmlBlock (String.ofList literal)) stop []), [])
  | .thematicBreak => (some (make .thematicBreak b.start.line []), [])
  | .table alignments => (some (make (.table alignments) line []), [])

end OpenBlock

/-- The chain of open blocks and the definitions found so far. -/
structure BlockState where
  /-- The open blocks, innermost first; the last is the document. -/
  chain : List OpenBlock := [{ container := .document, start := ⟨1, 1⟩ }]
  /-- The definitions, newest first. -/
  definitions : List Definition := []
  /-- The number of lines read. -/
  lineNumber : Nat := 0
  deriving Repr, Inhabited

namespace BlockState

/-! ### Closing and opening -/

/-- Closes the innermost block, whose last line is `line`. -/
def closeInnermost (line : Nat) (s : BlockState) : BlockState :=
  match s.chain with
  | b :: outer :: rest =>
    let (block?, defs) := b.close line
    let outer :=
      match block? with
      | some block => outer.addChild block
      | none => outer
    { s with chain := outer :: rest, definitions := defs.reverse ++ s.definitions }
  | _ => s

/-- The last line of a block that the line now read does not continue.  A fence that was not
closed reaches to that line. -/
def lastLineOf (s : BlockState) (b : OpenBlock) : Nat :=
  match b.container with
  | .fenced _ _ _ => s.lineNumber
  | _ => s.lineNumber - 1

/-- Closes the innermost block before the line now read. -/
def closeBefore (s : BlockState) : BlockState :=
  match s.chain with
  | b :: _ => s.closeInnermost (s.lastLineOf b)
  | [] => s

/-- Closes blocks until `keep` of them are open. -/
def closeTo (keep : Nat) : Nat → BlockState → BlockState
  | 0, s => s
  | n + 1, s => if s.chain.length ≤ keep then s else closeTo keep n s.closeBefore

/-- Closes blocks until the innermost one can hold the new one. -/
def closeUntilHolds (inner : Container) : Nat → BlockState → BlockState
  | 0, s => s
  | n + 1, s =>
    match s.chain with
    | b :: _ :: _ =>
      if b.container.canHold inner then s else closeUntilHolds inner n s.closeBefore
    | _ => s

/-- Begins a block at a byte column of the line now read. -/
def push (container : Container) (column : Nat) (s : BlockState) : BlockState :=
  let s := closeUntilHolds container s.chain.length s
  { s with chain := { container, start := ⟨s.lineNumber, column⟩ } :: s.chain }

/-- Replaces the innermost block. -/
def modifyInnermost (f : OpenBlock → OpenBlock) (s : BlockState) : BlockState :=
  match s.chain with
  | b :: rest => { s with chain := f b :: rest }
  | [] => s

/-! ### Continuing open blocks -/

/-- What a line does to an open block. -/
inductive Continuation where
  /-- The line continues the block; the cursor stands after its mark. -/
  | continues (k : Cursor)
  | ends
  /-- The line is the closing fence of the block. -/
  | closes

/-- What the line does to an open block; `hasChild` tells whether there are blocks inside. -/
def continuation (b : OpenBlock) (hasChild : Bool) (k : Cursor) : Continuation :=
  match b.container with
  | .document => .continues k
  | .quote =>
    if k.indent < codeIndent ∧ k.mark.head? = some '>' then
      let k := k.skipColumns (k.indent + 1)
      .continues (if k.atBlank then k.skipColumn else k)
    else .ends
  | .list _ => .continues k
  | .item _ width =>
    if width ≤ k.indent then .continues (k.skipColumns width)
    else if k.isBlank && hasChild then .continues k.toMark
    else .ends
  | .paragraph _ => if k.isBlank then .ends else .continues k
  | .heading _ _ => .ends
  | .fenced fence length indent =>
    if k.indent < codeIndent ∧ k.mark.head? = some fence ∧ length ≤ fenceEnd fence k.mark then
      .closes
    else
      .continues (skipFenceIndent indent k)
  | .indented =>
    if codeIndent ≤ k.indent then .continues (k.skipColumns codeIndent)
    else if k.isBlank then .continues k.toMark
    else .ends
  | .html kind => if kind.endsAtBlank && k.isBlank then .ends else .continues k
  | .thematicBreak => .continues k
  | .table _ => if (TableRow.read? (k.mark ++ ['\n'])).isSome then .continues k else .ends
where
  /-- Moves over as many columns of blanks as stood before the fence. -/
  skipFenceIndent : Nat → Cursor → Cursor
    | 0, k => k
    | n + 1, k => if k.atBlank then skipFenceIndent n k.skipColumn else k

/-- How far a line continues the open blocks. -/
structure Reach where
  /-- The number of blocks it continues. -/
  continued : Nat
  cursor : Cursor
  closesFence : Bool := false

/-- Follows the open blocks, given from the outside, as far as the line continues them. -/
def follow (k : Cursor) (continued : Nat) : List OpenBlock → Reach
  | [] => ⟨continued, k, false⟩
  | b :: inner =>
    match continuation b (!inner.isEmpty || !b.children.isEmpty) k with
    | .continues k => follow k (continued + 1) inner
    | .ends => ⟨continued, k, false⟩
    | .closes => ⟨continued, k, true⟩

/-! ### Beginning new blocks -/

/-- Where a line stands after some blocks are begun. -/
structure Progress where
  state : BlockState
  cursor : Cursor
  /-- The number of open blocks down to the one that the next block would go into. -/
  depth : Nat
  /-- Whether a block was begun. -/
  began : Bool := false

/-- The block that the next block would go into. -/
def Progress.target? (p : Progress) : Option OpenBlock :=
  p.state.chain[p.state.chain.length - p.depth]?

/-- Begins a block after closing what the line did not continue. -/
def Progress.begin (p : Progress) (container : Container) (column : Nat) (k : Cursor) : Progress :=
  let s := closeTo p.depth p.state.chain.length p.state
  let s := s.push container column
  ⟨s, k, s.chain.length, true⟩

/-- The place of the content of a list item after its mark: at most four blanks belong to the
mark, and of a longer run or an empty line only one does. -/
def itemContent (k : Cursor) (markLength : Nat) : Nat × Cursor :=
  let after := (skipBlankColumns 6 k)
  let width := after.column - k.column
  if 1 ≤ width ∧ width ≤ 4 ∧ !after.rest.isEmpty then (markLength + width, after)
  else (markLength + 1, if width = 0 then k else k.skipColumn)
where
  /-- Moves over at most the given number of columns of blanks. -/
  skipBlankColumns : Nat → Cursor → Cursor
    | 0, k => k
    | n + 1, k => if k.atBlank then skipBlankColumns n k.skipColumn else k

/-- After so many blocks in one line no list begins. -/
def mostBegunInLine : Nat := 99

/-- Turns the paragraph in which a table begins into the table, keeping the lines before the
header as a paragraph. -/
def openTable (before : List Char) (cells : List (List Char)) (alignments : List Alignment)
    (s : BlockState) : BlockState :=
  match s.chain with
  | paragraph :: outer :: rest =>
    let lines := before.count '\n'
    let start : Position := ⟨paragraph.start.line + lines, paragraph.start.column⟩
    let outer :=
      if before.isEmpty then outer
      else
        let stop := paragraph.start.line + lines - 1
        outer.addChild ⟨.paragraph, ⟨paragraph.start, ⟨stop, 0⟩⟩,
          trimWith isAsciiBlank (TableRow.dropBarEscapes before), false, []⟩
    let place : Extent := ⟨start, ⟨start.line, 0⟩⟩
    let header : Block :=
      { kind := .tableRow true, extent := place,
        children := cells.map fun cell => { kind := .tableCell, extent := place, content := cell } }
    let table : OpenBlock := { container := .table alignments, start, children := [header] }
    { s with chain := table :: outer :: rest }
  | _ => s

/-- Adds a row to the innermost block, a table: cells too many are dropped, cells too few are
empty. -/
def addRow (cells : List (List Char)) (columns : Nat) (s : BlockState) : BlockState :=
  let place : Extent := ⟨⟨s.lineNumber, 1⟩, ⟨s.lineNumber, 0⟩⟩
  let cells := cells.take columns ++ List.replicate (columns - cells.length) []
  let row : Block :=
    { kind := .tableRow false, extent := place,
      children := cells.map fun cell => { kind := .tableCell, extent := place, content := cell } }
  s.modifyInnermost (·.addChild row)

/-- Begins a table or adds a row to it, if the text from the mark does so. -/
def Progress.table? (p : Progress) (target : OpenBlock) : Option Progress :=
  let line := p.cursor.mark ++ ['\n']
  match target.container with
  | .paragraph false =>
    if !TableRow.isDelimiter p.cursor.mark then none
    else
      let settle : Progress :=
        { p with state := p.state.modifyInnermost fun b => { b with container := .paragraph true } }
      match TableRow.read? line, TableRow.read? target.content with
      | some (_, marks), some (before, cells) =>
        if marks.length = cells.length then
          let s := openTable before cells (marks.map TableRow.alignment) p.state
          some ⟨s, p.cursor.toEnd, s.chain.length, true⟩
        else some settle
      | _, _ => some settle
  | .table alignments =>
    if p.cursor.isBlank then none
    else (TableRow.read? line).map fun (_, cells) =>
      ⟨addRow cells alignments.length p.state, p.cursor.toEnd, p.depth, true⟩
  | _ => none

/-- Turns the paragraph that the line underlines into a heading.  If the paragraph holds nothing
but definitions, they are taken out and the line remains a line of the paragraph. -/
def Progress.underline (p : Progress) (level : Nat) (target : OpenBlock) : Progress :=
  let (defs, rest) := Definition.split target.content
  let isEmpty := rest.all isAsciiBlank
  let container := if isEmpty then target.container else .heading level true
  let s := p.state.modifyInnermost fun b => { b with container, lines := [rest] }
  { p with
    state := { s with definitions := defs.reverse ++ s.definitions }
    cursor := if isEmpty then p.cursor else p.cursor.toEnd
    began := !isEmpty }

/-- The block that the text at the cursor begins, if it begins one.  `lazy` tells whether the line
may merely carry on a paragraph, `allContinued` whether it continues all open blocks, and `begun`
counts the blocks begun in the line. -/
def Progress.step? (dialect : Dialect) (lazy allContinued : Bool) (begun : Nat) (p : Progress)
    (target : OpenBlock) : Option Progress :=
  let k := p.cursor
  let indented : Bool := codeIndent ≤ k.indent
  let atMark := k.toMark
  let mark := k.mark
  let column := atMark.offset + 1
  let inParagraph := target.container.isParagraph
  let unindented {α : Type} (start? : Option α) : Option α := if indented then none else start?
  if (unindented (mark.head?.filter (· = '>'))).isSome then
    let after := atMark.skipOne
    some (p.begin .quote column (if after.atBlank then after.skipColumn else after))
  else if let some (level, length) := unindented (atxStart? mark) then
    some (p.begin (.heading level false) column (atMark.skip length))
  else if let some (fence, length) := unindented (fenceStart? mark) then
    some (p.begin (.fenced fence length (atMark.offset - k.offset)) column (atMark.skip length))
  else if let some kind := unindented (HtmlStart.read? inParagraph mark) then
    some (p.begin (.html kind) column k)
  else if let some level := unindented ((setextLevel? mark).filter fun _ => inParagraph) then
    some (p.underline level target)
  else if !indented && !(inParagraph && !allContinued) && isThematicBreak mark then
    some (p.begin .thematicBreak column k.toEnd)
  else if let some (marker, length) :=
      unindented ((ListMarker.read? inParagraph k.ended mark).filter
        fun _ => begun < mostBegunInLine) then
    let (width, after) := itemContent (atMark.skip length) length
    let inList : Bool :=
      match target.container with
      | .list other => other.sameList marker
      | _ => false
    let p := if inList then p else p.begin (.list marker) column k
    some (p.begin (.item marker (k.indent + width)) column after)
  else if indented && !lazy && !k.isBlank then
    let after := k.skipColumns codeIndent
    some (p.begin .indented (after.offset + 1) after)
  else if !indented && dialect.tables then p.table? target
  else none

/-- Begins blocks as long as the text at the cursor begins one; `fuel` bounds their number. -/
def Progress.run (dialect : Dialect) (allContinued : Bool) :
    Nat → Bool → Nat → Progress → Progress
  | 0, _, _, p => p
  | fuel + 1, lazy, begun, p =>
    match p.target? with
    | none => p
    | some target =>
      if target.container.isVerbatim then p
      else match p.step? dialect lazy allContinued begun target with
        | none => p
        | some p =>
          match p.target? with
          | some target =>
            if target.container.holdsLines then p
            else Progress.run dialect allContinued fuel false (begun + 1) p
          | none => p

/-! ### Adding the text of a line -/

/-- Notes whether the line is blank: the last block inside `depth` open blocks is followed by the
blank line, and so is the block itself unless its kind says otherwise. -/
def noteBlank (depth : Nat) (blank : Bool) (s : BlockState) : BlockState :=
  let inner := s.chain.length - depth
  let mark (i : Nat) (b : OpenBlock) : OpenBlock :=
    if i + 1 = inner then (if blank then { b with beforeBlank := true } else b)
    else if i < inner then b
    else if i = inner then
      let hasChild := !b.children.isEmpty || 0 < inner
      let b := if blank && inner = 0 then b.markLastChild else b
      let counts : Bool :=
        match b.container with
        | .quote => false
        | .heading _ _ => false
        | .thematicBreak => false
        | .fenced _ _ _ => false
        | .item _ _ => hasChild || b.start.line != s.lineNumber
        | _ => true
      { b with beforeBlank := blank && counts }
    else { b with beforeBlank := false }
  { s with chain := s.chain.zipIdx.map fun (b, i) => mark i b }

/-- Adds what is left of a line to the block at the given depth. -/
def addText (p : Progress) : BlockState :=
  let k := p.cursor
  let blank := k.isBlank
  let s := p.state.noteBlank p.depth blank
  let innermostIsParagraph : Bool :=
    match s.chain with
    | b :: _ => b.container.isParagraph
    | [] => false
  if p.depth < s.chain.length ∧ p.began = false ∧ blank = false ∧ innermostIsParagraph then
    s.modifyInnermost (·.addLine k.text)
  else
    let s := closeTo p.depth s.chain.length s
    match s.chain with
    | [] => s
    | b :: _ =>
      match b.container with
      | .fenced _ _ _ => s.modifyInnermost (·.addVerbatim k)
      | .indented => s.modifyInnermost (·.addVerbatim k)
      | .html kind =>
        let s := s.modifyInnermost (·.addVerbatim k)
        if kind.endsIn k.mark then s.closeBefore else s
      | .paragraph _ =>
        if blank then s else s.modifyInnermost (·.addLine k.toMark.text)
      | .heading _ setext =>
        if blank then s
        else if setext then s.modifyInnermost (·.addLine k.toMark.text)
        else s.modifyInnermost fun b => { b with lines := [atxText k.toMark.text] }
      | _ =>
        if blank then s
        else (s.push (.paragraph false) (k.toMark.offset + 1)).modifyInnermost
          (·.addLine k.toMark.text)

/-- Reads one line. -/
def readLine (dialect : Dialect) (s : BlockState) (line : Line) : BlockState :=
  let k := line.start (s.lineNumber = 0)
  let s := { s with lineNumber := s.lineNumber + 1 }
  let reach := follow k 0 s.chain.reverse
  if reach.closesFence then
    s.closeInnermost s.lineNumber
  else
    let lazy : Bool :=
      match s.chain with
      | b :: _ => b.container.isParagraph
      | [] => false
    addText (Progress.run dialect (reach.continued = s.chain.length) (line.text.length + 1) lazy 0
      ⟨s, reach.cursor, reach.continued, false⟩)

/-- Closes all open blocks at the end of the document, and gives the document. -/
def finish (s : BlockState) : Block × List Definition :=
  let s := closeAll s.chain.length s
  match s.chain with
  | b :: _ =>
    ((b.close s.lineNumber).1.getD ⟨.document, {}, [], false, []⟩, s.definitions.reverse)
  | [] => (⟨.document, {}, [], false, []⟩, s.definitions.reverse)
where
  /-- Closes blocks until only the document is open. -/
  closeAll : Nat → BlockState → BlockState
    | 0, s => s
    | n + 1, s => closeAll n (s.closeInnermost s.lineNumber)

end BlockState

namespace Block

/-- The blocks of a text and its link definitions, in order. -/
def ofText (dialect : Dialect) (s : List Char) : Block × List Definition :=
  ((Line.ofText s).foldl (BlockState.readLine dialect) {}).finish

end Block

end WikiPress.Markdown
