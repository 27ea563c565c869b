import WikiPress.Files.Store

/-!
# Trees of files in memory

A tree is a file or a directory, whose entries stand in the order of their names.  A tree is a store
of files: paths start at its root, which has nothing around it, also those without a slash in front,
since the root is the working directory as well.

## Main definitions

* `FileTree`, `FileTree.at?`, `FileTree.put` : trees, and what is at a place in them.
* `FileTree.follow` : the place that the steps of a path lead to.
* `FileTree.read`, `FileTree.write`, `FileTree.makeDirectory`, `FileTree.filesBelow` : the
  operations of a store.
-/

namespace WikiPress

/-- A file or a directory. -/
inductive FileTree where
  | file (bytes : ByteArray)
  /-- A directory, whose entries stand in the order of their names. -/
  | directory (entries : List (Name × FileTree))

namespace FileTree

open Text

instance : Inhabited FileTree := ⟨.directory []⟩

/-- An empty directory. -/
def empty : FileTree := .directory []

/-- The names that lead to a place in a tree. -/
abbrev Place := List Name

/-! ### Places -/

/-- The entry of a directory with a name. -/
def entryOf? (name : Name) : List (Name × FileTree) → Option FileTree
  | [] => none
  | (n, t) :: rest => if n = name then some t else entryOf? name rest

/-- The entries of a directory with one of them replaced or put in its place. -/
def putEntry (name : Name) (t : FileTree) : List (Name × FileTree) → List (Name × FileTree)
  | [] => [(name, t)]
  | (n, u) :: rest =>
    if n = name then (name, t) :: rest
    else if name < n then (name, t) :: (n, u) :: rest
    else (n, u) :: putEntry name t rest

/-- What is at a place. -/
def at? : FileTree → Place → Option FileTree
  | t, [] => some t
  | .file _, _ :: _ => none
  | .directory entries, name :: place => (entryOf? name entries).bind fun t => t.at? place

/-- The tree with something else at a place in one of its directories. -/
def put (new : FileTree) : FileTree → Place → FileTree
  | _, [] => new
  | .file bytes, _ :: _ => .file bytes
  | .directory entries, name :: place =>
    .directory (putEntry name (put new ((entryOf? name entries).getD empty) place) entries)

/-- What is at a place. -/
def kind : FileTree → FileKind
  | .file _ => .file
  | .directory _ => .directory

/-! ### Paths -/

/-- The largest number of bytes of a name. -/
def longestName : Nat := 255

/-- The place that steps lead to from a place.  The step of one dot stays, the step of two dots
leads upwards, and each step starts from a directory. -/
def follow (t : FileTree) (place : Place) : List Name → Except FileError Place
  | [] => .ok place
  | step :: rest =>
    match t.at? place with
    | none => .error .notFound
    | some (.file _) => .error .notDirectory
    | some (.directory _) =>
      if step = Path.here then follow t place rest
      else if step = Path.above then follow t place.dropLast rest
      else if longestName < size step then .error .nameTooLong
      else follow t (place ++ [step]) rest

/-- The steps of a path from the root, if a path can be written like that. -/
def stepsOf (p : Path) : Except FileError (List Name) :=
  if p.contains '\x00' then .error .badPath
  else if p.isEmpty then .error .notFound
  else .ok p.steps

/-- Whether a slash stands at the end of a path. -/
def endsWithSlash (p : Path) : Bool := p.getLast? = some '/'

/-- What a path leads to.  A slash at its end asks for a directory. -/
def find (t : FileTree) (p : Path) : Except FileError FileTree := do
  let steps ← stepsOf p
  let place ← t.follow [] (if endsWithSlash p then steps ++ [Path.here] else steps)
  match t.at? place with
  | some u => .ok u
  | none => .error .notFound

/-- The directory that a new entry is made in, and the last step of its path. -/
def findParent (t : FileTree) (p : Path) : Except FileError (Place × Name) := do
  let steps ← stepsOf p
  let place ← t.follow [] (steps.dropLast ++ [Path.here])
  let last := steps.getLast?.getD Path.here
  if longestName < size last then .error .nameTooLong
  else .ok (place, last)

/-- Whether a step is one of dots. -/
def isDots (step : Name) : Bool := step = Path.here || step = Path.above

/-! ### Operations -/

/-- The bytes of a file. -/
def read (t : FileTree) (p : Path) : Except FileError ByteArray :=
  match t.find p with
  | .ok (.file bytes) => .ok bytes
  | .ok (.directory _) => .error .isDirectory
  | .error e => .error e

/-- The tree with a file made or replaced. -/
def write (t : FileTree) (p : Path) (bytes : ByteArray) : Except FileError FileTree := do
  let (place, last) ← t.findParent p
  if isDots last || endsWithSlash p then .error .isDirectory
  else match t.at? (place ++ [last]) with
    | some (.directory _) => .error .isDirectory
    | _ => .ok (put (.file bytes) t (place ++ [last]))

/-- The tree with a directory made. -/
def makeDirectory (t : FileTree) (p : Path) : Except FileError FileTree := do
  let (place, last) ← t.findParent p
  if isDots last || (t.at? (place ++ [last])).isSome then .error .alreadyExists
  else .ok (put empty t (place ++ [last]))

mutual

/-- The files of a tree in order; their paths begin with the given one. -/
def files (p : Path) : FileTree → List Path
  | .file _ => [p]
  | .directory entries => entriesFiles p entries

/-- The files of the entries of a directory. -/
def entriesFiles (p : Path) : List (Name × FileTree) → List Path
  | [] => []
  | (name, t) :: rest => files (p.join name) t ++ entriesFiles p rest

end

/-- The files at or below a path. -/
def filesBelow (t : FileTree) (p : Path) : List Path :=
  match t.find p with
  | .ok u => u.files p
  | .error _ => []

/-- An operation that changes the tree unless it fails. -/
def update (f : FileTree → Except FileError FileTree) : StateM FileTree (Except FileError Unit) :=
  fun t =>
    match f t with
    | .ok u => (.ok (), u)
    | .error e => (.error e, t)

instance : FileStore (StateM FileTree) where
  kind? p := fun t => ((t.find p).toOption.map kind, t)
  read p := fun t => (t.read p, t)
  write p bytes := update fun t => t.write p bytes
  makeDirectory p := update fun t => t.makeDirectory p
  filesBelow p := fun t => (t.filesBelow p, t)

end FileTree

end WikiPress
