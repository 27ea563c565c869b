import WikiPress.Text.Measure
import WikiPress.Text.CharSet

/-!
# Paths

A path is a text of names with slashes between them.  The pieces of a path are what lies between its
slashes; empty pieces and single dots behind the first piece are idle, that is, they lead nowhere.

## Main definitions

* `Path.name?`, `Path.parent?` : the last name of a path, and what stands in front of it.
* `Path.extension?`, `Path.withExtension` : what follows the last point of the name.
* `Path.join`, `Path.dropBase` : a path put behind another one, and taken from behind it.
* `Path.selfAndParents` : a path and the directories around it.
* `Path.steps` : the names that lead along a path.
-/

namespace WikiPress

/-- The text of a path. -/
abbrev Path := List Char

/-- The name of a file or of a directory. -/
abbrev Name := List Char

namespace Path

open Text

/-- The dot that stands for a directory itself. -/
def here : Name := ['.']

/-- The dots that stand for the directory around a directory. -/
def above : Name := ['.', '.']

/-- Whether a path starts at the root of all files. -/
def isAbsolute (p : Path) : Bool := p.head? = some '/'

/-! ### Pieces -/

/-- Whether a piece behind the first one leads nowhere. -/
def isIdle (piece : Name) : Bool := piece.isEmpty || piece = here

/-- The first piece of a path, and the others in reverse. -/
def pieces (p : Path) : Name × List Name :=
  match splitAtEach '/' p with
  | [] => ([], [])
  | first :: rest => (first, rest.reverse)

/-- The path of a first piece and of the others in reverse. -/
def ofPieces (first : Name) (others : List Name) : Path :=
  if first.isEmpty ∧ others.isEmpty then ['/']
  else first ++ others.reverse.flatMap ('/' :: ·)

/-- The last name of a path; there is none if the path ends with a step upwards. -/
def name? (p : Path) : Option Name :=
  let (first, others) := pieces p
  let last := (others.dropWhile isIdle).headD first
  if isIdle last || last = above then none else some last

/-- What stands in front of the last piece of a path that is not idle. -/
def parent? (p : Path) : Option Path :=
  let (first, others) := pieces p
  match others.dropWhile isIdle with
  | _ :: others => some (ofPieces first (others.dropWhile isIdle))
  | [] => if first.isEmpty then none else some []

/-! ### Extensions -/

/-- What stands in front of the last point of a name and behind it; a name that has no other point
than a first one is not split. -/
def splitName (name : Name) : Name × Option Name :=
  let ending := name.reverse.takeWhile (· ≠ '.')
  match name.reverse.drop ending.length with
  | _ :: start => if start.isEmpty then (name, none) else (start.reverse, some ending.reverse)
  | [] => (name, none)

/-- What follows the last point of the last name of a path. -/
def extension? (p : Path) : Option Name := (name? p).bind fun name => (splitName name).2

/-- The path with another name in the place of its last one and of what follows that. -/
def withName (p : Path) (name : Name) : Path :=
  let (first, others) := pieces p
  match others.dropWhile isIdle with
  | _ :: others => ofPieces first (name :: others)
  | [] => name

/-- The path with another extension behind the last name.  The old extension is cut off first, and
if what is left has no name, it stays as it is. -/
def withExtension (ending : Name) (p : Path) : Path :=
  let bare := p.take (p.length - ((extension? p).getD []).length)
  match name? bare with
  | none => bare
  | some name => withName bare ((splitName name).1 ++ '.' :: ending)

/-! ### Composed paths -/

/-- A path put behind another one; an absolute path stays as it is. -/
def join (p q : Path) : Path :=
  if isAbsolute q then q
  else if p.isEmpty ∨ p.getLast? = some '/' then p ++ q
  else p ++ '/' :: q

/-- What leads to a path from a path that it begins with. -/
def dropBase (base p : Path) : Path := (p.drop base.length).dropWhile (· = '/')

/-- The directories around a path that has a first piece and the others in reverse, inside to
outside; the working directory and the root are left out. -/
def parentsOf (first : Name) : List Name → List Path
  | [] => []
  | piece :: others =>
    if isIdle piece then parentsOf first others
    else
      (match others.dropWhile isIdle with
        | [] => if first.isEmpty then [] else [first]
        | others => [ofPieces first others]) ++ parentsOf first others

/-- A path and the directories around it, inside to outside; the working directory and the root are
left out. -/
def selfAndParents (p : Path) : List Path :=
  let (first, others) := pieces p
  if (parent? p).isNone then [] else p :: parentsOf first others

/-- The names that lead along a path. -/
def steps (p : Path) : List Name := (splitAtEach '/' p).filter (!·.isEmpty)

end Path

end WikiPress
