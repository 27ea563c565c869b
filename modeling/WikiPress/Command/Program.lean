import WikiPress.Command.Init
import WikiPress.Command.Render
import WikiPress.Pattern.Reader
import WikiPress.Url.Web

/-!
# The program

The program does what its arguments ask for, and ends with an exit code and texts for the two
streams of its output.  The libraries that it runs with are those of `WikiPress.Url.Web` and
`WikiPress.Pattern.Reader`.

## Main definitions

* `Program.Result` : how the program ends.
* `Program.perform` : what an invocation does.
* `Program.run` : the whole program.
-/

namespace WikiPress

/-- The words for arguments that are not accepted. -/
def UsageError.message : UsageError → String
  | helpAsked => ""
  | versionAsked => ""
  | nothingGiven => "error: a subcommand is needed"
  | missingCommand => "error: a subcommand is needed"
  | unknownCommand => "error: there is no such subcommand"
  | unknownArgument => "error: there is no such argument"
  | invalidValue => "error: a value is missing or not allowed"
  | notNumber => "error: a value is not a number"
  | repeated => "error: a switch is given twice"
  | unneededValue => "error: a switch is given a value that it does not take"

namespace Program

/-- How the program ends. -/
structure Result where
  code : UInt8 := 0
  /-- The text for the output. -/
  output : String := ""
  /-- The text for messages. -/
  messages : String := ""
  deriving DecidableEq, Repr, Inhabited

/-- The name of the program with its version. -/
def versionText : String := "wikimark 0.3.0\n"

/-- The lines of the help. -/
def helpLines : List String :=
  [ "wikimark: wiki-flavored Markdown to HTML",
    "",
    "Usage: wikimark [OPTIONS] <COMMAND>",
    "",
    "Commands:",
    "  init    Write a new configuration file: [-o PATH] [-F toml|json] [--force]",
    "  render  Render documents to HTML: [-i PATH] [-o DIR] [--base-url URL] [-p JOBS]",
    "  help    Print this help",
    "",
    "Options:",
    "  -v, --verbose             Print more messages",
    "  -c, --config-file <PATH>  Take the configuration from this file",
    "  -h, --help                Print this help",
    "  -V, --version             Print the version" ]

/-- The help. -/
def helpText : String := String.join (helpLines.map (· ++ "\n"))

/-- How the program ends when its arguments are not accepted. -/
def ofUsageError (e : UsageError) : Result :=
  match e with
  | .helpAsked => { output := helpText }
  | .versionAsked => { output := versionText }
  | e => { code := 2, messages := e.message ++ "\n" }

variable [PatternLibrary] [UrlParser] {m : Type → Type} [Monad m] [FileStore m]

/-- What an invocation does, and the text that it prints. -/
def perform (i : Invocation) : Command m String :=
  match i.request with
  | .init output format force => do
    Command.init output.toList format force
    return ""
  | .render overrides => do
    let c ← Command.attempt .noConfig (Config.load (m := m) (i.configFile.map String.toList))
    return (← Command.render (overrides.apply c)).printed

/-- What the program does with its arguments. -/
def run (args : List String) : m Result := do
  match Invocation.ofArguments args with
  | .error e => return ofUsageError e
  | .ok i =>
    match ← (perform i : Command m String).run with
    | .ok output => return { output }
    | .error e => return { code := 1, messages := "Error: " ++ e.message ++ "\n" }

end Program

end WikiPress
