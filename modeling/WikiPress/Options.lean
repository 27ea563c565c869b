import WikiPress.Slug

/-!
# Options

## Main definitions

* `RenderOptions` : how tokens are written as HTML.
* `EngineOptions` : these, with the optional constructs of the markup.
* `TocOptions`, `WikilinkOptions`, `WikiOptions` : tables of contents, wikilinks, and links.
* `MarkdownOptions` : all options of a processor.
-/

namespace WikiPress

/-- How tokens are written. -/
structure RenderOptions where
  /-- HTML of the source is passed through and not escaped. -/
  html : Bool := false
  /-- Tags that stand by themselves end with a slash. -/
  xhtmlOut : Bool := false
  /-- A break between the lines of a text is written as a tag. -/
  breaks : Bool := false
  /-- What the classes of code blocks begin with. -/
  langPrefix : String := "language-"
  deriving DecidableEq, Repr, Inhabited

/-- How documents are read and written. -/
structure EngineOptions extends RenderOptions where
  /-- Addresses in texts are made into links. -/
  linkify : Bool := false
  /-- Quotes and dashes are replaced by their typographic forms. -/
  typographer : Bool := false
  /-- There are tables and strikethrough. -/
  gfm : Bool := true
  deriving DecidableEq, Repr, Inhabited

/-- How tables of contents are written. -/
structure TocOptions where
  /-- What stands in front of the lists. -/
  openingTag : String := "<nav class=\"table-of-contents\">"
  /-- What stands behind the lists. -/
  closingTag : String := "</nav>"
  /-- What the classes of the lists begin with. -/
  listClass : String := "table-of-contents"
  /-- How the slugs of headings are made. -/
  slugify : SlugOptions := SlugOptions.lowercase
  deriving DecidableEq, Repr, Inhabited

/-- How wikilinks are read. -/
structure WikilinkOptions where
  /-- How targets become addresses. -/
  slugify : SlugOptions := SlugOptions.lowercase
  deriving DecidableEq, Repr, Inhabited

/-- What a document has of a wiki. -/
structure WikiOptions where
  /-- The address that relative links are put under; empty if they are left alone. -/
  baseUrl : String := ""
  /-- The hosts that search engines may follow, each of them once. -/
  allowedExternalDomains : List String := []
  /-- Links to other hosts open a window of their own. -/
  openNewWindow : Bool := true
  toc : TocOptions := {}
  wikilinks : WikilinkOptions := {}
  deriving DecidableEq, Repr, Inhabited

/-- Options with these hosts as the ones that may be followed, in the order in which each of them is
named first. -/
def WikiOptions.allowOnly (o : WikiOptions) (hosts : List String) : WikiOptions :=
  { o with allowedExternalDomains := hosts.eraseDups }

/-- The options of a processor. -/
structure MarkdownOptions extends EngineOptions where
  wiki : WikiOptions := {}
  deriving DecidableEq, Repr, Inhabited

/-- What can be asked about the options of a processor. -/
inductive Feature where
  /-- Tables and text that is struck through. -/
  | gfm
  /-- HTML of the source is kept. -/
  | rawHtml
  /-- Relative links are put under an address. -/
  | baseUrl
  /-- Links to other hosts open a window of their own. -/
  | newWindow
  deriving DecidableEq, Repr, Inhabited

/-- Whether options have a feature. -/
def MarkdownOptions.has (o : MarkdownOptions) : Feature → Bool
  | .gfm => o.gfm
  | .rawHtml => o.html
  | .baseUrl => !o.wiki.baseUrl.isEmpty
  | .newWindow => o.wiki.openNewWindow

end WikiPress
