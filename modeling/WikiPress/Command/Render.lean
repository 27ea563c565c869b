import WikiPress.Command.Basic
import WikiPress.Command.Line

/-!
# Rendering files

The command `render` renders a file, or the files of a directory with the extension `md`.  Each page
goes to the same place below the output directory, with the extension `html`.  The pages do not
depend on the number of jobs.

## Main definitions

* `Overrides.apply` : a configuration with other settings.
* `Command.markdownFiles` : the files that are rendered.
* `Command.pagePath` : where the page of a file goes.
* `Command.renderDirectory`, `Command.render`
-/

namespace WikiPress

/-- A configuration with settings that come before its own. -/
def Overrides.apply (o : Overrides) (c : Config) : Config :=
  { c with
    inputDir := o.input.or c.inputDir
    outputDir := o.outputDir.or c.outputDir
    jobs := o.jobs.or c.jobs
    markdown.wiki.baseUrl := o.baseUrl.getD c.markdown.wiki.baseUrl }

namespace Command

variable [PatternLibrary] [UrlParser] {m : Type → Type} [Monad m] [FileStore m]

/-- What a command wrote: the paths of the pages, and a text for the one who called it. -/
structure Output where
  written : List Path := []
  printed : String := ""
  deriving DecidableEq, Repr, Inhabited

/-- The files at or below a path that have the extension `md`. -/
def markdownFiles (p : Path) : m (List Path) :=
  return (← FileStore.filesBelow p).filter fun file => file.extension? = some "md".toList

/-- Where the page goes for a path below the input. -/
def pagePath (outputDir relative : Path) : Path :=
  (outputDir.join relative).withExtension "html".toList

/-- Renders a file into its page below the output directory. -/
def renderFile (p : Processor) (outputDir file relative : Path) : Command m Path := do
  let source ← attempt (.unreadable file) (FileStore.readText (m := m) file)
  let target := pagePath outputDir relative
  match target.parent? with
  | none => pure ()
  | some parent => attempt (.noDirectory parent) (FileStore.makeDirectories (m := m) parent)
  attempt (.unwritable target)
    (FileStore.writeText (m := m) target (p.renderHtml source.toList))
  return target

/-- Renders the files below a directory. -/
def renderDirectory (p : Processor) (input outputDir : Path) : Command m (List Path) := do
  let files ← (markdownFiles input : m (List Path))
  attempt (.noOutputDirectory outputDir) (FileStore.makeDirectories (m := m) outputDir)
  files.mapM fun file => renderFile p outputDir file (Path.dropBase input file)

/-- Renders a file into its page, or into a text if there is no output directory. -/
def renderSingle (p : Processor) (input : Path) (outputDir : Option Path) : Command m Output := do
  match outputDir with
  | some dir =>
    let target ← renderFile p dir input (input.name?.getD input)
    return { written := [target] }
  | none =>
    let source ← attempt (.unreadable input) (FileStore.readText (m := m) input)
    return { printed := p.renderHtml source.toList ++ "\n" }

/-- Renders what a configuration asks for. -/
def render (c : Config) : Command m Output := do
  match c.inputDir.map String.toList with
  | none => throw .noInput
  | some input =>
    if !(← (FileStore.exists? input : m Bool)) then throw (.missingInput input)
    let p ← attempt .badOptions (pure c.processor : m (Except ConfigError Processor))
    let outputDir := c.outputDir.map String.toList
    if ← (FileStore.isFile input : m Bool) then renderSingle p input outputDir
    else match outputDir with
      | none => throw (.outputNeeded input)
      | some dir => return { written := ← renderDirectory p input dir }

end Command

end WikiPress
