import WikiPress.Command.Program

/-!
# The program on the files of the machine

## Main definitions

* `Machine.kind?`, `Machine.read`, `Machine.write`, `Machine.makeDirectory`, `Machine.filesBelow` :
  the operations of a store of files, on the files of the machine.
* `main`
-/

namespace WikiPress.Machine

/-- The error of an operation of the machine. -/
def errorOf : IO.Error → FileError
  | .noFileOrDirectory .. => .notFound
  | .alreadyExists .. => .alreadyExists
  | e => .other (toString e)

/-- What an operation of the machine yields. -/
def attempt {α : Type} (x : IO α) : IO (Except FileError α) := do
  try return .ok (← x)
  catch e => return .error (errorOf e)

/-- What a path leads to. -/
def kind? (p : Path) : IO (Option FileKind) := do
  try
    match (← (← IO.FS.realPath (String.ofList p)).metadata).type with
    | .dir => return some .directory
    | _ => return some .file
  catch _ => return none

/-- The bytes of a file. -/
def read (p : Path) : IO (Except FileError ByteArray) :=
  attempt (IO.FS.readBinFile (String.ofList p))

/-- Makes a file, or replaces its bytes. -/
def write (p : Path) (bytes : ByteArray) : IO (Except FileError Unit) :=
  attempt (IO.FS.writeBinFile (String.ofList p) bytes)

/-- Makes one directory. -/
def makeDirectory (p : Path) : IO (Except FileError Unit) :=
  attempt (IO.FS.createDir (String.ofList p))

/-- The names in a directory in order. -/
def names (p : Path) : IO (List Name) := do
  let entries ← (← IO.FS.realPath (String.ofList p)).readDir
  return (entries.toList.map fun e => e.fileName.toList).mergeSort fun a b => !(decide (b < a))

/-- The files at or below a path. -/
partial def filesBelow (p : Path) : IO (List Path) := do
  match ← kind? p with
  | none => return []
  | some .file => return [p]
  | some .directory =>
    let found ← (← names p).mapM fun name => filesBelow (p.join name)
    return found.flatten

instance : FileStore IO where
  kind? := kind?
  read := read
  write := write
  makeDirectory := makeDirectory
  filesBelow := filesBelow

end WikiPress.Machine

/-- Runs the program with the arguments of the command line. -/
def main (args : List String) : IO UInt32 := do
  let result : WikiPress.Program.Result ← WikiPress.Program.run args
  IO.print result.output
  IO.eprint result.messages
  return result.code.toUInt32
