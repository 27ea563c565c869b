import WikiPress.Engine
import WikiPress.Json.Basic
import WikiPress.MissingLink
import WikiPress.Wikilink

/-!
# Processors

A processor is an engine with the extensions of a wiki: wikilinks, tables of contents, anchors for
headings and a policy for links.

## Main definitions

* `Processor`, `Processor.ofOptions`, `Processor.ofOptions?`
* `Rendered`, `Processor.render` : a document as HTML with its headings and its title.
* `Processor.renderFiles` : files, some of which cannot be read.
* `Document`, `Processor.renderCollection` : documents with further members.
-/

namespace WikiPress

open Text

/-- A rendered document. -/
structure Rendered where
  html : String := ""
  headings : List Heading := []
  title : Option String := none
  deriving DecidableEq, Repr, Inhabited

/-- The policy for links that options ask for. -/
def WikiOptions.linkPolicy (o : WikiOptions) : LinkPolicy where
  baseUrl := o.baseUrl
  allowedHosts := o.allowedExternalDomains.map LinkPolicy.normalizeHost
  newWindow := o.openNewWindow

/-- An engine with the options that it was made from. -/
structure Processor where
  options : MarkdownOptions
  engine : Engine

namespace Processor

variable [PatternLibrary] [UrlParser]

/-- The engine for options whose slug options are read. -/
def engineOf (o : MarkdownOptions) (anchors targets : Slugger) : Engine where
  options := o.toEngineOptions
  sourceRules := [Wikilink.rule targets]
  inlineRules := [Toc.rule]
  passes := [Pass.headings anchors, Pass.links o.wiki.linkPolicy]
  overrides := headingAnchors anchors :: tocOverrides o.wiki.toc

/-- The processor for options, in which wrong patterns are dropped. -/
def ofOptions (o : MarkdownOptions) : Processor :=
  ⟨o, engineOf o (Slugger.ofOptionsLossy o.wiki.toc.slugify)
    (Slugger.ofOptionsLossy o.wiki.wikilinks.slugify)⟩

/-- The processor for options; there is none if a pattern is wrong. -/
def ofOptions? (o : MarkdownOptions) : Option Processor :=
  (Slugger.ofOptions? o.wiki.toc.slugify).bind fun anchors =>
    (Slugger.ofOptions? o.wiki.wikilinks.slugify).map fun targets =>
      ⟨o, engineOf o anchors targets⟩

/-- The title of a document: its first heading of level one that has content. -/
def titleOf? (hs : List Heading) : Option String :=
  (hs.find? fun h => h.level = 1 && !h.content.isEmpty).map (·.content)

/-- A document as HTML with its headings and its title. -/
def render (p : Processor) (source : List Char) : Rendered :=
  if (trim source).isEmpty then {}
  else
    let (html, headings) := p.engine.render (MissingLink.fill source)
    ⟨String.ofList (trim html), headings, titleOf? headings⟩

/-- A document as HTML. -/
def renderHtml (p : Processor) (source : List Char) : String := (p.render source).html

/-- What becomes of a file that was read, or that could not be read for the given reason. -/
def renderFile (p : Processor) : Except String String → Except String Rendered
  | .ok content => .ok (p.render content.toList)
  | .error reason => .error ("Failed to read file: " ++ reason)

/-- What becomes of files, each of which is read by itself. -/
def renderFiles (p : Processor) (read : String → Except String String) (paths : List String) :
    List (String × Except String Rendered) :=
  paths.map fun path => (path, p.renderFile (read path))

end Processor

/-! ### Documents with further members -/

/-- A document of a collection. -/
structure Document where
  html : Option String := none
  /-- The other members, which stay as they are. -/
  extra : List (String × Json) := []
  deriving Repr, Inhabited

/-- A document with its source rendered; a document without source counts as empty. -/
def Processor.renderDocument (p : Processor) (d : Document) : Document :=
  { d with html := some (p.renderHtml (d.html.getD "").toList) }

/-- A collection of documents with the source of each one rendered. -/
def Processor.renderCollection (p : Processor) (ds : List Document) : List Document :=
  ds.map p.renderDocument

end WikiPress
