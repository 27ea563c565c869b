import WikiPress.Files.Path

/-!
# Stores of files

Commands read and write files through the few operations of a store.  A store is a tree in memory
or the files of the machine.

## Main definitions

* `FileError`, `FileError.message` : why an operation failed.
* `FileStore` : the operations of a store.
* `FileStore.readText`, `FileStore.makeDirectories`, `FileStore.exists?`, `FileStore.isFile`
-/

namespace WikiPress

/-- Why an operation on files failed. -/
inductive FileError where
  | notFound
  | alreadyExists
  | notDirectory
  | isDirectory
  | nameTooLong
  /-- The path holds a character that no path may hold. -/
  | badPath
  /-- The bytes of the file are not UTF-8. -/
  | notText
  /-- Any other reason, in words. -/
  | other (reason : String)
  deriving DecidableEq, Repr, Inhabited

/-- The words for an error. -/
def FileError.message : FileError → String
  | .notFound => "No such file or directory (os error 2)"
  | .alreadyExists => "File exists (os error 17)"
  | .notDirectory => "Not a directory (os error 20)"
  | .isDirectory => "Is a directory (os error 21)"
  | .nameTooLong => "File name too long (os error 36)"
  | .badPath => "file name contained an unexpected NUL byte"
  | .notText => "stream did not contain valid UTF-8"
  | .other reason => reason

/-- What a path leads to. -/
inductive FileKind where
  | file
  | directory
  deriving DecidableEq, Repr, Inhabited

/-- The operations of a store of files. -/
class FileStore (m : Type → Type) where
  /-- What a path leads to, if it leads to anything. -/
  kind? : Path → m (Option FileKind)
  /-- The bytes of a file. -/
  read : Path → m (Except FileError ByteArray)
  /-- Makes a file, or replaces its bytes. -/
  write : Path → ByteArray → m (Except FileError Unit)
  /-- Makes one directory. -/
  makeDirectory : Path → m (Except FileError Unit)
  /-- The paths of the files at or below a path, which they begin with.  What is in a directory
  comes in the order of the names. -/
  filesBelow : Path → m (List Path)

namespace FileStore

variable {m : Type → Type} [Monad m] [FileStore m]

/-- Whether a path leads to anything. -/
def exists? (p : Path) : m Bool := return (← kind? p).isSome

/-- Whether a path leads to a file. -/
def isFile (p : Path) : m Bool := return (← kind? p) = some .file

/-- The text of a file. -/
def readText (p : Path) : m (Except FileError String) := do
  match ← read p with
  | .error e => return .error e
  | .ok bytes =>
    match String.fromUTF8? bytes with
    | some s => return .ok s
    | none => return .error .notText

/-- Writes a text into a file. -/
def writeText (p : Path) (s : String) : m (Except FileError Unit) := write p s.toUTF8

/-- Makes a directory that may be there already. -/
def ensureDirectory (p : Path) : m (Except FileError Unit) := do
  match ← makeDirectory p with
  | .error .alreadyExists =>
    if (← kind? p) = some .directory then return .ok () else return .error .alreadyExists
  | r => return r

/-- Makes the first directory of a list, of which each is in the next one; the others are made as
far as they are missing. -/
def makeEach : List Path → m (Except FileError Unit)
  | [] => return .ok ()
  | p :: around => do
    match ← ensureDirectory p with
    | .error .notFound =>
      match ← makeEach around with
      | .ok () => ensureDirectory p
      | .error e => return .error e
    | r => return r

/-- Makes a directory and the directories around it, as far as they are missing. -/
def makeDirectories (p : Path) : m (Except FileError Unit) := makeEach p.selfAndParents

end FileStore

end WikiPress
