import WikiPress.Files.Store
import WikiPress.Options.Json

/-!
# Configurations

A configuration says what is rendered, where the pages go, and with which options.

## Main definitions

* `Config`, `Config.ofJson?`, `Config.toJson`
* `ConfigError`, `ConfigError.message` : why there is no configuration.
* `Config.checkShape` : what must be there before a configuration is read.
* `Config.validate` : what must hold of a configuration that was read.
* `Config.ofDocument` : both of them, with the reading in between.
-/

namespace WikiPress

/-- A configuration. -/
structure Config where
  /-- The file or the directory of files to be rendered. -/
  inputDir : Option String := none
  /-- The directory for the pages. -/
  outputDir : Option String := none
  /-- How many pages are rendered at a time. -/
  jobs : Option Nat := none
  markdown : MarkdownOptions := {}
  deriving DecidableEq, Repr, Inhabited

/-- Why there is no configuration. -/
inductive ConfigError where
  /-- There are no jobs at all. -/
  | noJobs
  | unreadable (path : Path) (reason : FileError)
  | unwritable (path : Path) (reason : FileError)
  /-- The extension of a file names no format. -/
  | unknownExtension (path : Path)
  | noExtension (path : Path)
  | missingKey (key : String)
  /-- The value of a key is no list. -/
  | notList (key : String)
  /-- The pattern of slug options is wrong. -/
  | badPattern
  /-- There is no template for a format. -/
  | unknownFormat (format : String)
  | badJson
  | badToml
  /-- The values of a document are no configuration. -/
  | badRecord
  deriving DecidableEq, Repr, Inhabited

namespace ConfigError

/-- The words for a format that has no template. -/
def unsupported (format : String) : String := "Unsupported config format: " ++ format

/-- The words for an error. -/
def message : ConfigError → String
  | noJobs => "Configuration error: 'jobs' must be at least 1"
  | unreadable path reason =>
    "Configuration error: Failed to read config file: " ++ String.ofList path ++ ": " ++
      reason.message
  | unwritable path reason =>
    "Configuration error: Failed to write default config to " ++ String.ofList path ++ ": " ++
      reason.message
  | unknownExtension path =>
    "Configuration error: Unsupported config file format: " ++ String.ofList path
  | noExtension path =>
    "Configuration error: Config file has no extension: " ++ String.ofList path
  | missingKey key => "Configuration key '" ++ key ++ "' is missing."
  | notList key => "'" ++ key ++ "' is missing or not an array."
  | badPattern => "Invalid slug options"
  | unknownFormat format => "Template error: " ++ unsupported format
  | badJson => "The text is not JSON."
  | badToml => "The text is not TOML."
  | badRecord => "The values are no configuration."

end ConfigError

namespace Config

/-! ### JSON -/

/-- The fields of a configuration. -/
def fields : List Json.Field :=
  [⟨"input_dir", none⟩, ⟨"output_dir", none⟩, ⟨"jobs", none⟩, ⟨"markdown", none⟩]

/-- A configuration read from JSON. -/
def ofJson? (j : Json) : Option Config :=
  match Json.fields? fields j with
  | some [inputDir, outputDir, jobs, markdown] => do
    let inputDir ← Json.orElse none (Json.nullable? Json.text?) inputDir
    let outputDir ← Json.orElse none (Json.nullable? Json.text?) outputDir
    let jobs ← Json.orElse none (Json.nullable? (Json.nat? Text.mostWord)) jobs
    let markdown ← Json.orElse {} MarkdownOptions.ofJson? markdown
    return { inputDir, outputDir, jobs, markdown }
  | _ => none

/-- A configuration written as JSON. -/
def toJson (c : Config) : Json :=
  .object [("input_dir", Json.textOrNull c.inputDir), ("output_dir", Json.textOrNull c.outputDir),
    ("jobs", match c.jobs with
      | some n => .ofNat n
      | none => .null),
    ("markdown", c.markdown.toJson)]

/-! ### Validation -/

/-- The allowed hosts of a wiki; the first spelling counts. -/
def allowedHosts? (wiki : Json) : Option Json :=
  (wiki.member? "allowed_external_domains").or (wiki.member? "allowedExternalDomains")

/-- Checks that a document has the options of a wiki with a list of allowed hosts. -/
def checkShape (document : Json) : Except ConfigError Unit :=
  match (document.member? "markdown").filter Json.isObject with
  | none => .error (.missingKey "markdown")
  | some markdown =>
    match (markdown.member? "wiki").filter Json.isObject with
    | none => .error (.missingKey "markdown.wiki")
    | some wiki =>
      if (allowedHosts? wiki).any Json.isList then .ok ()
      else .error (.notList "markdown.wiki.allowed_external_domains")

variable [PatternLibrary] [UrlParser]

/-- The processor of a configuration. -/
def processor (c : Config) : Except ConfigError Processor :=
  match Processor.ofOptions? c.markdown with
  | some p => .ok p
  | none => .error .badPattern

/-- Checks that there are jobs and that the patterns can be read. -/
def validate (c : Config) : Except ConfigError Unit :=
  if c.jobs = some 0 then .error .noJobs
  else c.processor.map fun _ => ()

/-- The configuration of a document. -/
def ofDocument (document : Json) : Except ConfigError Config := do
  checkShape document
  match ofJson? document with
  | none => .error .badRecord
  | some c =>
    c.validate
    return c

end Config

end WikiPress
