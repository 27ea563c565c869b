import WikiPress.Command.Switch
import WikiPress.Files.Path

/-!
# The command line

There are two subcommands, `init` and `render`, and `help` for both of them.  The switches for
messages and for the file of the configuration may stand in front of a subcommand or behind it.

## Main definitions

* `Overrides` : settings that come before those of a configuration.
* `Request`, `Invocation` : what a command line asks for.
* `Invocation.ofArguments` : what arguments ask for.
-/

namespace WikiPress

/-- Settings that come before those of a configuration. -/
structure Overrides where
  input : Option String := none
  outputDir : Option String := none
  baseUrl : Option String := none
  jobs : Option Nat := none
  deriving DecidableEq, Repr, Inhabited

/-- What a subcommand does. -/
inductive Request where
  /-- Writes a new configuration. -/
  | init (output format : String) (force : Bool)
  /-- Renders documents. -/
  | render (overrides : Overrides)
  deriving DecidableEq, Repr, Inhabited

/-- What a command line asks for. -/
structure Invocation where
  request : Request
  /-- There are more messages. -/
  verbose : Bool := false
  /-- The file of the configuration. -/
  configFile : Option String := none
  deriving DecidableEq, Repr, Inhabited

namespace CommandLine

/-- The switches of all commands. -/
def commonSwitches : List Switch :=
  [⟨"verbose", some 'v', .flag⟩, ⟨"config-file", some 'c', .value .path⟩,
    ⟨"help", some 'h', .help⟩]

/-- What may be given in front of a subcommand. -/
def mainGrammar : Grammar where
  switches := ⟨"version", some 'V', .version⟩ :: commonSwitches
  subcommands := ["init", "render", "help"]

/-- The names of the formats for new configurations. -/
def formatNames : List String := ["toml", "json"]

/-- What may be given to `init`. -/
def initGrammar : Grammar where
  switches :=
    [⟨"output", some 'o', .value .path⟩, ⟨"format", some 'F', .value (.oneOf formatNames)⟩,
      ⟨"force", some 'f', .flag⟩] ++ commonSwitches

/-- What may be given to `render`. -/
def renderGrammar : Grammar where
  switches :=
    [⟨"input", some 'i', .value .path⟩, ⟨"output-dir", some 'o', .value .path⟩,
      ⟨"base-url", none, .value .text⟩, ⟨"jobs", some 'p', .value .number⟩] ++ commonSwitches

/-- The switches of some arguments to the end. -/
def readAll (g : Grammar) (args : List String) : Except UsageError Reading :=
  (readArguments g {} args).bind fun (r, _) => r.settle

/-- What is wrong with a request for help on some subcommands: at most one of them may be named. -/
def helpOn : List String → UsageError
  | [] => .helpAsked
  | [name] => if mainGrammar.subcommands.contains name then .helpAsked else .unknownCommand
  | _ => .unknownCommand

/-- The switches of a subcommand and its request. -/
def readRequest (name : String) (args : List String) : Except UsageError (Reading × Request) :=
  if name = "help" then .error (helpOn args)
  else if name = "init" then
    (readAll initGrammar args).map fun r =>
      (r, .init ((r.value? "output").getD "wikimark.toml") ((r.value? "format").getD "toml")
        (r.has "force"))
  else
    (readAll renderGrammar args).map fun r =>
      (r, .render {
        input := r.value? "input"
        outputDir := r.value? "output-dir"
        baseUrl := r.value? "base-url"
        jobs := (r.value? "jobs").bind fun v => Text.readNumber? Text.mostWord v.toList })

end CommandLine

open CommandLine

/-- What arguments ask for. -/
def Invocation.ofArguments (args : List String) : Except UsageError Invocation := do
  match ← readArguments mainGrammar {} args with
  | (r, none) =>
    let r ← r.settle
    throw (if r.values.isEmpty then .nothingGiven else .missingCommand)
  | (r, some (name, rest)) =>
    let (inner, request) ← readRequest name rest
    let r ← r.settle
    return { request, verbose := r.has "verbose" || inner.has "verbose",
             configFile := (inner.value? "config-file").or (r.value? "config-file") }

end WikiPress
