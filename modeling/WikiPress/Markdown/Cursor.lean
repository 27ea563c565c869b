import WikiPress.Text.Blank

/-!
# Reading a line from left to right

Blocks are recognised by the columns at which their marks stand.  A tab reaches to the next
multiple of four columns, and a container may use up only some of the columns of a tab, so the
place in a line is a number of bytes together with a column.

## Main definitions

* `Cursor` : what is left of a line and where it stands.
* `Cursor.skip` : moves over characters.
* `Cursor.skipColumns` : moves over columns, possibly into a tab.
* `Cursor.indent` : the width of the blanks before the next mark.
* `Line`, `Line.ofText` : the lines of a text.
-/

namespace WikiPress.Markdown

open WikiPress.Text

/-- The distance between tab stops. -/
def tabStop : Nat := 4

/-- The indentation that makes a line of code. -/
def codeIndent : Nat := 4

/-- A place in a line, the end of the line being the end of `rest`. -/
structure Cursor where
  /-- What is left of the line; a tab of which some columns are used is still its first
  character. -/
  rest : List Char
  /-- The number of bytes before `rest`. -/
  offset : Nat := 0
  column : Nat := 0
  /-- Some columns of the tab at the start of `rest` are used. -/
  insideTab : Bool := false
  /-- The line has its line end; the last line of a text may lack it. -/
  ended : Bool := true
  deriving Repr

namespace Cursor

/-- The columns from the cursor to the next tab stop. -/
def toTabStop (column : Nat) : Nat := tabStop - column % tabStop

/-- Moves over one character. -/
def skipOne (k : Cursor) : Cursor :=
  match k.rest with
  | [] => k
  | '\t' :: rest => ⟨rest, k.offset + 1, k.column + toTabStop k.column, false, k.ended⟩
  | c :: rest => ⟨rest, k.offset + c.utf8Size, k.column + 1, false, k.ended⟩

/-- Moves over a number of characters. -/
def skip : Nat → Cursor → Cursor
  | 0, k => k
  | n + 1, k => skip n k.skipOne

/-- Moves over one column. -/
def skipColumn (k : Cursor) : Cursor :=
  match k.rest with
  | [] => k
  | '\t' :: rest =>
    if toTabStop k.column = 1 then ⟨rest, k.offset + 1, k.column + 1, false, k.ended⟩
    else { k with column := k.column + 1, insideTab := true }
  | c :: rest => ⟨rest, k.offset + c.utf8Size, k.column + 1, false, k.ended⟩

/-- Moves over a number of columns. -/
def skipColumns : Nat → Cursor → Cursor
  | 0, k => k
  | n + 1, k => skipColumns n k.skipColumn

/-- The number of blanks before the next mark. -/
def blanks (k : Cursor) : Nat := (k.rest.takeWhile isSpaceOrTab).length

/-- The cursor at the next mark. -/
def toMark (k : Cursor) : Cursor := k.skip k.blanks

/-- The next mark and what follows it. -/
def mark (k : Cursor) : List Char := k.rest.dropWhile isSpaceOrTab

/-- The width of the blanks before the next mark. -/
def indent (k : Cursor) : Nat := k.toMark.column - k.column

/-- Whether only blanks are left of the line. -/
def isBlank (k : Cursor) : Bool := k.mark.isEmpty

/-- Whether the next character is a space or a tab. -/
def atBlank (k : Cursor) : Bool :=
  match k.rest with
  | c :: _ => isSpaceOrTab c
  | [] => false

/-- The cursor at the end of its line. -/
def toEnd (k : Cursor) : Cursor := k.skip k.rest.length

/-- The text that is left of the line; the unused columns of a tab become spaces. -/
def text (k : Cursor) : List Char :=
  if k.insideTab then List.replicate (toTabStop k.column) ' ' ++ k.rest.drop 1 else k.rest

end Cursor

/-! ### Lines -/

/-- A line without its line end, and whether it has one. -/
structure Line where
  text : List Char
  ended : Bool := true
  deriving DecidableEq, Repr, Inhabited

namespace Line

/-- The lines of a text, of whose first line the characters in `before` are read in reverse. -/
def ofTextAfter (before : List Char) : List Char → List Line
  | [] => if before.isEmpty then [] else [⟨before.reverse, false⟩]
  | '\r' :: '\n' :: rest => ⟨before.reverse, true⟩ :: ofTextAfter [] rest
  | c :: rest =>
    if isLineEnd c then ⟨before.reverse, true⟩ :: ofTextAfter [] rest
    else ofTextAfter (c :: before) rest

/-- The lines of a text.  A line ends with a line feed, a carriage return or both; the last line
may lack its end. -/
def ofText (s : List Char) : List Line := ofTextAfter [] s

/-- The start of a line; a mark of byte order in front of the first line does not count. -/
def start (line : Line) (first : Bool) : Cursor :=
  match line.text with
  | c :: rest =>
    if first ∧ c.toNat = 0xFEFF then ⟨rest, 3, 0, false, line.ended⟩
    else ⟨c :: rest, 0, 0, false, line.ended⟩
  | [] => ⟨[], 0, 0, false, line.ended⟩

end Line

end WikiPress.Markdown
