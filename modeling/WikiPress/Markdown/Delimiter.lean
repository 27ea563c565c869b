import WikiPress.Markdown.Node
import WikiPress.Text.Blank
import WikiPress.Text.Category

/-!
# Runs of delimiters

Emphasis is written with runs of marks that may open, close or do both.  While a text is read, the
runs are kept among the nodes read so far; `Item.resolve` then pairs them from left to right, each
closing run with the nearest run before it that can open.

## Main definitions

* `Delimiter`, `Delimiter.flanking` : a run of marks and what it can do.
* `Item` : a node or a run among the content read so far.
* `Item.resolve` : the nodes that a list of items stands for.
-/

namespace WikiPress.Markdown

open WikiPress.Text

/-- A run of marks that may open or close emphasis. -/
structure Delimiter where
  mark : Char
  /-- The number of marks that the run was written with. -/
  length : Nat
  /-- The text that is left of the run. -/
  text : List Char
  canOpen : Bool
  canClose : Bool
  deriving Repr, Inhabited

/-- A part of the content read so far. -/
inductive Item where
  | node (n : Node)
  | run (d : Delimiter)
  deriving Repr, Inhabited

namespace Delimiter

/-- Whether a run between two characters can open and whether it can close.  An underscore does
neither inside a word, and a quote opens at the start of a word only. -/
def flanking (mark before after : Char) : Bool × Bool :=
  let leftFlanking : Bool := !isBlank after &&
    !(isPunctuationOrSymbol after && !isBlank before && !isPunctuationOrSymbol before)
  let rightFlanking : Bool := !isBlank before &&
    !(isPunctuationOrSymbol before && !isBlank after && !isPunctuationOrSymbol after)
  if mark = '_' then
    (leftFlanking && (!rightFlanking || isPunctuationOrSymbol before),
      rightFlanking && (!leftFlanking || isPunctuationOrSymbol after))
  else if mark = '\x27' ∨ mark = '\x22' then
    (leftFlanking && (!rightFlanking || before = '(' || before = '[') &&
      before != ']' && before != ')', rightFlanking)
  else (leftFlanking, rightFlanking)

/-- Whether the lengths of two runs forbid that they form a pair: the sum is a multiple of three,
one of the runs can both open and close, and not both lengths are multiples of three. -/
def lengthsClash (opener closer : Delimiter) : Bool :=
  (closer.canOpen || opener.canClose) && (opener.length + closer.length) % 3 = 0 &&
    !(opener.length % 3 = 0 && closer.length % 3 = 0)

/-- Whether the first run can be closed by the second. -/
def pairs (opener closer : Delimiter) : Bool :=
  opener.canOpen && opener.mark = closer.mark && !lengthsClash opener closer

/-- The text of the run as a node. -/
def toNode (d : Delimiter) : Node := Node.text d.text

/-- Whether the mark is a quotation mark. -/
def isQuote (d : Delimiter) : Bool := d.mark = '\x27' || d.mark = '\x22'

/-- The form of a quotation mark that opens. -/
def openingQuote (mark : Char) : List Char := if mark = '\x27' then ['‘'] else ['“']

/-- The form of a quotation mark that closes. -/
def closingQuote (mark : Char) : List Char := if mark = '\x27' then ['’'] else ['”']

/-- The kind of node that a pair of runs makes, `used` marks of each being used. -/
def pairKind (dialect : Dialect) (mark : Char) (used : Nat) : Kind :=
  if mark = '~' then .strikethrough
  else if mark = '^' then .superscript
  else if mark = '=' then
    if used = 2 then .highlight else .marked "="
  else if mark = '_' ∧ used = 2 ∧ dialect.underline then .underline
  else if used = 1 then .emphasis
  else .strong

end Delimiter

namespace Item

/-- The node of an item; a run that is left over is text. -/
def toNode : Item → Node
  | node n => n
  | run d => d.toNode

/-- Splits the items before a closing run, nearest first, at the run that it closes: the items
between the two, nearest first, the opening run, and the items before that. -/
def splitAtOpener? (closer : Delimiter) : List Item → Option (List Item × Delimiter × List Item)
  | [] => none
  | node n :: rest =>
    (splitAtOpener? closer rest).map fun (between, opener, before) =>
      (node n :: between, opener, before)
  | run d :: rest =>
    if d.pairs closer then some ([], d, rest)
    else (splitAtOpener? closer rest).map fun (between, opener, before) =>
      (run d :: between, opener, before)

/-- The run with some of its marks used up, if any are left. -/
def leftOf (d : Delimiter) (used : Nat) : List Item :=
  let text := d.text.drop used
  if text.isEmpty then [] else [run { d with text }]

/-- Pairs runs from left to right.  `before` holds the items already passed, nearest first.  Two
strikethrough runs pair only if they have one or two marks each and equally many; where they do
not, no later run pairs either. -/
def resolveFrom (dialect : Dialect) : Nat → List Item → List Item → List Node
  | 0, before, after => (before.reverse ++ after).map toNode
  | _ + 1, before, [] => before.reverse.map toNode
  | fuel + 1, before, node n :: after => resolveFrom dialect fuel (node n :: before) after
  | fuel + 1, before, run c :: after =>
    if !c.canClose then resolveFrom dialect fuel (run c :: before) after
    else if c.isQuote then
      let closed : Delimiter := { c with text := Delimiter.closingQuote c.mark }
      match splitAtOpener? c before with
      | some (between, opener, outer) =>
        let opened := node (Node.text (Delimiter.openingQuote opener.mark))
        resolveFrom dialect fuel (node closed.toNode :: (between ++ opened :: outer)) after
      | none =>
        let passed := if c.canOpen then run closed else node closed.toNode
        resolveFrom dialect fuel (passed :: before) after
    else
      match splitAtOpener? c before with
      | none =>
        let passed := if c.canOpen then run c else node c.toNode
        resolveFrom dialect fuel (passed :: before) after
      | some (between, opener, outer) =>
        let used := if 2 ≤ opener.text.length ∧ 2 ≤ c.text.length then 2 else 1
        if c.mark = '~' ∧ dialect.strikethrough ∧
            (opener.text.length ≠ c.text.length ∨ used < c.text.length) then
          (before.reverse ++ run c :: after).map toNode
        else
          let pair : Node :=
            ⟨Delimiter.pairKind dialect c.mark used, {}, (between.reverse).map toNode⟩
          resolveFrom dialect fuel (node pair :: (leftOf opener used ++ outer))
            (leftOf c used ++ after)

/-- A bound for the number of steps: each one passes an item or uses up marks. -/
def stepBound (items : List Item) : Nat :=
  items.foldl (fun n item =>
    match item with
    | node _ => n + 1
    | run d => n + 1 + d.text.length) 1

/-- The nodes that a list of items stands for. -/
def resolve (dialect : Dialect) (items : List Item) : List Node :=
  resolveFrom dialect (stepBound items) [] items

end Item

end WikiPress.Markdown
