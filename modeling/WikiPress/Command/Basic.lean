import WikiPress.Config.Load

/-!
# Commands

A command works on a store of files.  It fails at the first thing that goes wrong, and what it did
up to then stays.

## Main definitions

* `CommandError`, `CommandError.message` : why a command failed.
* `Command`, `Command.attempt` : commands, and their steps.
-/

namespace WikiPress

/-- Why a command failed. -/
inductive CommandError where
  /-- A file that is not to be replaced is there. -/
  | alreadyExists (path : Path)
  | noDirectory (path : Path) (reason : FileError)
  | noTemplate (path : Path) (reason : ConfigError)
  /-- The configuration cannot be loaded. -/
  | noConfig (reason : ConfigError)
  /-- The options of the configuration are wrong. -/
  | badOptions (reason : ConfigError)
  | noInput
  | missingInput (path : Path)
  | unreadable (path : Path) (reason : FileError)
  /-- There is a directory to be rendered, and none for the pages. -/
  | outputNeeded (path : Path)
  | noOutputDirectory (path : Path) (reason : FileError)
  | unwritable (path : Path) (reason : FileError)
  deriving DecidableEq, Repr, Inhabited

/-- The words for an error. -/
def CommandError.message : CommandError → String
  | alreadyExists path =>
    "Configuration file already exists: " ++ String.ofList path ++ ". Use --force to overwrite."
  | noDirectory path reason =>
    "Failed to create directory: " ++ String.ofList path ++ ": " ++ reason.message
  | noTemplate path reason =>
    "Failed to generate configuration file: " ++ String.ofList path ++ ": " ++ reason.message
  | noConfig reason => reason.message
  | badOptions reason => "Invalid markdown configuration: " ++ reason.message
  | noInput => "No input given. Pass --input or set input_dir in the config file."
  | missingInput path => "Input path does not exist: " ++ String.ofList path
  | unreadable path reason =>
    "Failed to read markdown file: " ++ String.ofList path ++ ": " ++ reason.message
  | outputNeeded path => "An output directory is required to render " ++ String.ofList path
  | noOutputDirectory path reason =>
    "Failed to create output directory: " ++ String.ofList path ++ ": " ++ reason.message
  | unwritable path reason =>
    "Failed to write output file: " ++ String.ofList path ++ ": " ++ reason.message

/-- A command on a store of files. -/
abbrev Command (m : Type → Type) := ExceptT CommandError m

variable {m : Type → Type} [Monad m]

/-- A step of a command, with the error of the command for an error of the step. -/
def Command.attempt {ε α : Type} (wrap : ε → CommandError) (step : m (Except ε α)) :
    Command m α :=
  ExceptT.mk do return (← step).mapError wrap

end WikiPress
