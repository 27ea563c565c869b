import WikiPress.Heading
import WikiPress.Html.Escape
import WikiPress.Rule
import WikiPress.Text.Blank

/-!
# Tables of contents

A line `[toc]` stands for the table of contents of the whole document.  The table nests the
headings by their levels.  While the headings are read, one list is open for every level down to
that of the last heading; a list that ends up without headings of its own is then replaced by what
it holds, so that levels without headings leave no empty lists.

## Main definitions

* `Toc.Entry` : an item or a list of a table of contents.
* `Toc.Stack`, `Toc.Stack.place?` : the lists that are open, and what a heading does to them.
* `Toc.collapse` : entries without the lists that hold no headings of their own.
* `Toc.shown` : the headings that a table shows.
* `Toc.build?`, `Toc.ofHeadings` : the tree of the headings.
* `Toc.toHtml` : the tree as HTML.
* `Toc.rule` : the rule for the line that stands for the table.
-/

namespace WikiPress.Toc

/-- An entry of a table of contents. -/
inductive Entry where
  | item (heading : Heading)
  | list (level : Nat) (entries : List Entry)
  deriving Repr, Inhabited

/-- Whether an entry is a heading. -/
def Entry.isItem : Entry → Bool
  | .item _ => true
  | .list _ _ => false

/-! ### Open lists -/

/-- The largest level; levels are bytes. -/
def mostLevel : Nat := 255

/-- A list that is open, with the entries it has so far. -/
structure OpenList where
  level : Nat
  entries : List Entry := []
  deriving Repr, Inhabited

/-- The list with one more entry at its end. -/
def OpenList.push (l : OpenList) (e : Entry) : OpenList := { l with entries := l.entries ++ [e] }

/-- The list as an entry of the list around it. -/
def OpenList.close (l : OpenList) : Entry := .list l.level l.entries

/-- The lists that are open: the one that was opened last, and those around it from the inside out.
The outermost one is the root of the table. -/
structure Stack where
  top : OpenList
  around : List OpenList := []
  deriving Repr, Inhabited

namespace Stack

/-- Only the root is open. -/
def root : Stack := ⟨⟨0, []⟩, []⟩

/-- The last list with one more entry at its end. -/
def push (s : Stack) (e : Entry) : Stack := { s with top := s.top.push e }

/-- Opens a list one level deeper, if there is such a level. -/
def open? (s : Stack) : Option Stack :=
  if s.top.level < mostLevel then some ⟨⟨s.top.level + 1, []⟩, s.top :: s.around⟩ else none

/-- Opens lists, each of them one level deeper than the one before. -/
def openMore? : Nat → Stack → Option Stack
  | 0, s => some s
  | n + 1, s => s.open?.bind (openMore? n)

/-- Closes the lists that are deeper than a level, except for the root. -/
def closeFrom (level : Nat) (top : OpenList) : List OpenList → Stack
  | [] => ⟨top, []⟩
  | outer :: around =>
    if level < top.level then closeFrom level (outer.push top.close) around
    else ⟨top, outer :: around⟩

/-- The stack with a heading: deeper lists are closed, and lists are opened down to the level of the
heading. -/
def place? (s : Stack) (h : Heading) : Option Stack :=
  let closed := closeFrom h.level s.top s.around
  (closed.openMore? (h.level - closed.top.level)).map (·.push (.item h))

/-- The entries of the root after all other lists are closed. -/
def closeAll (top : OpenList) : List OpenList → List Entry
  | [] => top.entries
  | outer :: around => closeAll (outer.push top.close) around

end Stack

/-! ### Trees -/

mutual

/-- What an entry becomes: a list without items of its own is replaced by its entries. -/
def collapseEntry : Entry → List Entry
  | .item h => [.item h]
  | .list level entries =>
    if entries.any Entry.isItem then [.list level (collapse entries)] else collapse entries

/-- Entries without the lists that have no items of their own. -/
def collapse : List Entry → List Entry
  | [] => []
  | e :: rest => collapseEntry e ++ collapse rest

end

/-- The headings that a table of contents shows: those without content are left out. -/
def shown (hs : List Heading) : List Heading := hs.filter fun h => !h.content.isEmpty

/-- The table of contents of a list of headings.  There is none if a list would have to be opened
below the largest level. -/
def build? (hs : List Heading) : Option (List Entry) :=
  ((shown hs).foldlM Stack.place? Stack.root).map fun s => collapse (Stack.closeAll s.top s.around)

/-- The table of contents of a list of headings, and an empty one if there is none. -/
def ofHeadings (hs : List Heading) : List Entry := (build? hs).getD []

/-! ### HTML -/

/-- The link to a heading. -/
def itemHtml (h : Heading) : List Char :=
  let content := Html.escape h.content.toList
  "<li><a href=\"#".toList ++ Html.escape h.anchor.toList ++ "\" title=\"".toList ++ content ++
    "\">".toList ++ content ++ "</a></li>".toList

/-- The opening tag of a list. -/
def listStart (listClass : String) (level : Nat) : List Char :=
  "<ul class=\"".toList ++ Html.escape listClass.toList ++ "-h".toList ++ Nat.toDigits 10 level ++
    "\">".toList

mutual

/-- An entry as HTML. -/
def entryHtml (listClass : String) : Entry → List Char
  | .item h => itemHtml h
  | .list level entries =>
    listStart listClass level ++ (entriesHtml listClass entries ++ "</ul>".toList)

/-- A list of entries as HTML. -/
def entriesHtml (listClass : String) : List Entry → List Char
  | [] => []
  | e :: rest => entryHtml listClass e ++ entriesHtml listClass rest

end

/-- The table of contents of a list of headings as HTML. -/
def toHtml (listClass : String) (hs : List Heading) : List Char :=
  entriesHtml listClass (ofHeadings hs)

/-! ### The line that stands for a table -/

/-- What the line must say. -/
def marker : String := "[toc]"

/-- The three tokens of a table of contents. -/
def tokens : List Token :=
  [TokenKind.tocOpen, .tocBody, .tocClose].map fun kind => { kind, markup := marker }

/-- The rule for the line that stands for a table of contents. -/
def rule : Rule where
  name := "toc"
  attempt place :=
    if place.atLineStart && place.lineIsComplete &&
        Ascii.equalsIgnoringCase (Text.trim place.line) marker.toList then
      ⟨true, tokens, Text.size place.line⟩
    else .declined

end WikiPress.Toc
