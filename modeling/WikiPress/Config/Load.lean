import WikiPress.Config.Basic
import WikiPress.Config.Template
import WikiPress.Json.Reader
import WikiPress.Toml.Reader

/-!
# Loading configurations

The extension of a file names the format of its configuration.  When no file is named, the first
file of a list of usual names is taken, and without one the usual configuration.

## Main definitions

* `Config.ofText` : the configuration that a text of some format writes.
* `Config.ofFile`, `Config.find?`, `Config.load` : configurations in a store of files.
* `Config.writeTemplate` : a new configuration in a store of files.
-/

namespace WikiPress.Config

variable [PatternLibrary] [UrlParser]

/-- The values of a text of some format. -/
def documentOfText (format : ConfigFormat) (s : List Char) : Except ConfigError Json :=
  match format with
  | .json =>
    match Json.read? s with
    | some j => .ok j
    | none => .error .badJson
  | .toml =>
    match Toml.read? s with
    | some entries => .ok (.object (Toml.entriesToJson entries))
    | none => .error .badToml

/-- The configuration that a text of some format writes. -/
def ofText (format : ConfigFormat) (s : List Char) : Except ConfigError Config :=
  (documentOfText format s).bind ofDocument

/-- The format that the extension of a path names. -/
def formatOf (p : Path) : Except ConfigError ConfigFormat :=
  match p.extension? with
  | none => .error (.noExtension p)
  | some ending =>
    match ConfigFormat.ofName? ending with
    | some format => .ok format
    | none => .error (.unknownExtension p)

variable {m : Type → Type} [Monad m] [FileStore m]

/-- The configuration of a file. -/
def ofFile (p : Path) : m (Except ConfigError Config) := do
  match ← FileStore.readText p with
  | .error e => return .error (.unreadable p e)
  | .ok s => return (formatOf p).bind fun format => ofText format s.toList

/-- The usual names of files with configurations. -/
def fileNames : List String :=
  ["wikimark.toml", "wikimark.json", ".config/wikimark.toml", ".config/wikimark.json"]

/-- The first of some paths that leads to a file. -/
def findFirst? : List Path → m (Option Path)
  | [] => return none
  | p :: rest => do if ← FileStore.isFile p then return some p else findFirst? rest

/-- The path of the configuration in the working directory. -/
def find? : m (Option Path) := findFirst? (fileNames.map String.toList)

/-- The configuration of a file that is named, or else of one that is found. -/
def load (named : Option Path) : m (Except ConfigError Config) := do
  match named with
  | some p => ofFile p
  | none =>
    match ← find? with
    | some p => ofFile p
    | none => return .ok {}

/-- Writes the template of a format into a file. -/
def writeTemplate (format : String) (p : Path) : m (Except ConfigError Unit) := do
  match ConfigFormat.ofName? format.toList with
  | none => return .error (.unknownFormat format)
  | some f =>
    match ← FileStore.writeText p f.template with
    | .ok () => return .ok ()
    | .error e => return .error (.unwritable p e)

end WikiPress.Config
