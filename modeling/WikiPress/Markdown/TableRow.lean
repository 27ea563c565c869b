import WikiPress.Markdown.Node
import WikiPress.Text.Blank

/-!
# Rows of tables

A row is a line of cells between vertical bars; the bars at its two ends may be left out, and a
bar after a backslash belongs to its cell.  The delimiter row under the header gives the number of
columns and their alignments.

## Main definitions

* `TableRow.read?` : the cells of the last line of a text, and the lines before it.
* `TableRow.isDelimiter`, `TableRow.alignment`
-/

namespace WikiPress.Markdown.TableRow

open WikiPress.Text

/-- Blanks between cells. -/
def isCellBlank (c : Char) : Bool := c = ' ' || c = '\t' || c = '\x0b' || c = '\x0c'

/-- What follows a bar and the blanks after it. -/
def dropBar? : List Char → Option (List Char)
  | '|' :: rest => some (rest.dropWhile isCellBlank)
  | _ => none

/-- The text of a cell up to a bar that no backslash precedes, and what follows it. -/
def takeCell (escaped : Bool) : List Char → List Char × List Char
  | [] => ([], [])
  | c :: rest =>
    if c = '\n' ∨ c = '\r' ∨ (c = '|' ∧ escaped = false) then ([], c :: rest)
    else
      let (cell, rest) := takeCell (c = '\\') rest
      (c :: cell, rest)

/-- A text with every escaped bar as a plain one. -/
def dropBarEscapes : List Char → List Char
  | '\\' :: '|' :: rest => '|' :: dropBarEscapes rest
  | c :: rest => c :: dropBarEscapes rest
  | [] => []

/-- The content of a cell. -/
def cellContent (s : List Char) : List Char := trimWith isAsciiBlank (dropBarEscapes s)

/-- What follows the line end at the start of a text. -/
def dropRowEnd? (s : List Char) : Option (List Char) :=
  match s.dropWhile isCellBlank with
  | '\r' :: '\n' :: rest => some rest
  | '\n' :: rest => some rest
  | _ => none

/-- A row: the length of the text from its line to the end, and its cells. -/
structure Row where
  length : Nat
  cells : List (List Char)

/-- Reads cells up to the end of the text.  A line end that is not the last one begins the row
anew.  `length` is the length of the text from the line of the row to the end, `cells` are its
cells so far in reverse, and `fuel` bounds the number of cells. -/
def readCells? (length : Nat) (cells : List (List Char)) : Nat → List Char → Option Row
  | 0, _ => none
  | _ + 1, [] => if cells.isEmpty then none else some ⟨length, cells.reverse⟩
  | fuel + 1, s =>
    let (cell, rest) := takeCell false s
    match dropBar? rest with
    | some rest => readCells? length (cellContent cell :: cells) fuel rest
    | none =>
      let cells := if cell.isEmpty then cells else cellContent cell :: cells
      match dropRowEnd? rest with
      | none => none
      | some [] => if cells.isEmpty then none else some ⟨length, cells.reverse⟩
      | some (c :: rest) =>
        readCells? (rest.length + 1) [] fuel ((dropBar? (c :: rest)).getD (c :: rest))

/-- The cells of the last line of a text that ends with a line end, and the lines before it. -/
def read? (s : List Char) : Option (List Char × List (List Char)) :=
  (readCells? s.length [] (s.length + 2) ((dropBar? s).getD s)).map fun row =>
    (s.take (s.length - row.length), row.cells)

/-! ### Delimiter rows -/

/-- What follows one mark of a delimiter row: dashes with a colon at either end. -/
def dropMark? (s : List Char) : Option (List Char) :=
  let s := s.dropWhile isCellBlank
  let s := if s.head? = some ':' then s.drop 1 else s
  let rest := s.dropWhile (· = '-')
  if rest.length = s.length then none
  else
    let rest := if rest.head? = some ':' then rest.drop 1 else rest
    some (rest.dropWhile isCellBlank)

/-- Whether a text consists of marks between bars; `fuel` bounds their number. -/
def areMarks : Nat → List Char → Bool
  | 0, _ => false
  | fuel + 1, s =>
    match dropMark? s with
    | none => false
    | some [] => true
    | some ('|' :: rest) => rest.all isCellBlank || areMarks fuel rest
    | some _ => false

/-- Whether a line is a delimiter row. -/
def isDelimiter (s : List Char) : Bool :=
  areMarks (s.length + 1) (if s.head? = some '|' then s.drop 1 else s)

/-- The alignment that a mark of a delimiter row asks for. -/
def alignment (mark : List Char) : Alignment :=
  match mark.head? == some ':', mark.getLast? == some ':' with
  | true, true => .center
  | true, false => .left
  | false, true => .right
  | false, false => .unset

end WikiPress.Markdown.TableRow
