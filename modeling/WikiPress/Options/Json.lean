import WikiPress.Json.Record
import WikiPress.Options
import WikiPress.Processor
import WikiPress.Text.Number

/-!
# Options in JSON

Options are records in JSON.  Missing fields have their usual values.

## Main definitions

* `SlugOptions.ofJson?`, `TocOptions.ofJson?`, `WikilinkOptions.ofJson?`, `WikiOptions.ofJson?`,
  `MarkdownOptions.ofJson?` : options read from JSON; the same names with `toJson` write them.
* `Heading.ofJson?`, `Document.ofJson?`, `Document.toJson`
-/

namespace WikiPress

/-! ### Slugs -/

/-- The fields of the options for slugs. -/
def SlugOptions.fields : List Json.Field :=
  [⟨"replacement", none⟩, ⟨"remove", none⟩, ⟨"lower", none⟩, ⟨"strict", none⟩, ⟨"trim", none⟩]

/-- Options for slugs read from JSON. -/
def SlugOptions.ofJson? (j : Json) : Option SlugOptions :=
  match Json.fields? fields j with
  | some [replacement, remove, lower, strict, trim] => do
    let usual : SlugOptions := {}
    let replacement ← Json.orElse usual.replacement Json.text? replacement
    let remove ← Json.orElse usual.remove (Json.nullable? Json.text?) remove
    let lower ← Json.orElse usual.lower Json.bool? lower
    let strict ← Json.orElse usual.strict Json.bool? strict
    let trim ← Json.orElse usual.trim Json.bool? trim
    return { replacement, remove, lower, strict, trim }
  | _ => none

/-- Options for slugs written as JSON. -/
def SlugOptions.toJson (o : SlugOptions) : Json :=
  .object [("replacement", .text o.replacement), ("remove", Json.textOrNull o.remove),
    ("lower", .bool o.lower), ("strict", .bool o.strict), ("trim", .bool o.trim)]

/-! ### Wikis -/

/-- The fields of the options for tables of contents. -/
def TocOptions.fields : List Json.Field :=
  [⟨"opening_tag", some "openingTag"⟩, ⟨"closing_tag", some "closingTag"⟩,
    ⟨"list_class", some "listClass"⟩, ⟨"slugify", none⟩]

/-- Options for tables of contents read from JSON. -/
def TocOptions.ofJson? (j : Json) : Option TocOptions :=
  match Json.fields? fields j with
  | some [openingTag, closingTag, listClass, slugify] => do
    let usual : TocOptions := {}
    let openingTag ← Json.orElse usual.openingTag Json.text? openingTag
    let closingTag ← Json.orElse usual.closingTag Json.text? closingTag
    let listClass ← Json.orElse usual.listClass Json.text? listClass
    let slugify ← Json.orElse usual.slugify SlugOptions.ofJson? slugify
    return { openingTag, closingTag, listClass, slugify }
  | _ => none

/-- Options for tables of contents written as JSON. -/
def TocOptions.toJson (o : TocOptions) : Json :=
  .object [("opening_tag", .text o.openingTag), ("closing_tag", .text o.closingTag),
    ("list_class", .text o.listClass), ("slugify", o.slugify.toJson)]

/-- Options for wikilinks read from JSON. -/
def WikilinkOptions.ofJson? (j : Json) : Option WikilinkOptions :=
  match Json.fields? [⟨"slugify", none⟩] j with
  | some [slugify] => do
    let slugify ← Json.orElse SlugOptions.lowercase SlugOptions.ofJson? slugify
    return { slugify }
  | _ => none

/-- Options for wikilinks written as JSON. -/
def WikilinkOptions.toJson (o : WikilinkOptions) : Json :=
  .object [("slugify", o.slugify.toJson)]

/-- The fields of the options of a wiki. -/
def WikiOptions.fields : List Json.Field :=
  [⟨"base_url", some "baseUrl"⟩, ⟨"allowed_external_domains", some "allowedExternalDomains"⟩,
    ⟨"open_new_window", some "openNewWindow"⟩, ⟨"toc", none⟩, ⟨"wikilinks", none⟩]

/-- Options of a wiki read from JSON. -/
def WikiOptions.ofJson? (j : Json) : Option WikiOptions :=
  match Json.fields? fields j with
  | some [baseUrl, allowed, openNewWindow, toc, wikilinks] => do
    let usual : WikiOptions := {}
    let baseUrl ← Json.orElse usual.baseUrl Json.text? baseUrl
    let hosts ← Json.orElse usual.allowedExternalDomains Json.texts? allowed
    let openNewWindow ← Json.orElse usual.openNewWindow Json.bool? openNewWindow
    let toc ← Json.orElse usual.toc TocOptions.ofJson? toc
    let wikilinks ← Json.orElse usual.wikilinks WikilinkOptions.ofJson? wikilinks
    return WikiOptions.allowOnly { baseUrl, openNewWindow, toc, wikilinks } hosts
  | _ => none

/-- Options of a wiki written as JSON. -/
def WikiOptions.toJson (o : WikiOptions) : Json :=
  .object [("base_url", .text o.baseUrl),
    ("allowed_external_domains", .list (o.allowedExternalDomains.map .text)),
    ("open_new_window", .bool o.openNewWindow), ("toc", o.toc.toJson),
    ("wikilinks", o.wikilinks.toJson)]

/-! ### Processors -/

/-- The fields of the options of a processor. -/
def MarkdownOptions.fields : List Json.Field :=
  [⟨"html", none⟩, ⟨"xhtml_out", some "xhtmlOut"⟩, ⟨"breaks", none⟩,
    ⟨"lang_prefix", some "langPrefix"⟩, ⟨"linkify", none⟩, ⟨"typographer", none⟩, ⟨"gfm", none⟩,
    ⟨"wiki", none⟩]

/-- Options of a processor read from JSON. -/
def MarkdownOptions.ofJson? (j : Json) : Option MarkdownOptions :=
  match Json.fields? fields j with
  | some [html, xhtmlOut, breaks, langPrefix, linkify, typographer, gfm, wiki] => do
    let usual : MarkdownOptions := {}
    let html ← Json.orElse usual.html Json.bool? html
    let xhtmlOut ← Json.orElse usual.xhtmlOut Json.bool? xhtmlOut
    let breaks ← Json.orElse usual.breaks Json.bool? breaks
    let langPrefix ← Json.orElse usual.langPrefix Json.text? langPrefix
    let linkify ← Json.orElse usual.linkify Json.bool? linkify
    let typographer ← Json.orElse usual.typographer Json.bool? typographer
    let gfm ← Json.orElse usual.gfm Json.bool? gfm
    let wiki ← Json.orElse usual.wiki WikiOptions.ofJson? wiki
    return { html, xhtmlOut, breaks, langPrefix, linkify, typographer, gfm, wiki }
  | _ => none

/-- Options of a processor written as JSON. -/
def MarkdownOptions.toJson (o : MarkdownOptions) : Json :=
  .object [("html", .bool o.html), ("xhtml_out", .bool o.xhtmlOut), ("breaks", .bool o.breaks),
    ("lang_prefix", .text o.langPrefix), ("linkify", .bool o.linkify),
    ("typographer", .bool o.typographer), ("gfm", .bool o.gfm), ("wiki", o.wiki.toJson)]

/-! ### Headings and documents -/

/-- A heading read from JSON, of which no field may be missing. -/
def Heading.ofJson? (j : Json) : Option Heading :=
  match Json.fields? [⟨"content", none⟩, ⟨"index", none⟩, ⟨"level", none⟩, ⟨"slug", none⟩] j with
  | some [content, line, level, slug] => do
    let content ← Json.required Json.text? content
    let line ← Json.required (Json.nat? Text.mostWord) line
    let level ← Json.required (Json.nat? 255) level
    let slug ← Json.required Json.text? slug
    return { content, line, level, slug }
  | _ => none

/-- A document read from JSON; it must be an object. -/
def Document.ofJson? : Json → Option Document
  | .object members => do
    let html ← Json.orElse none (Json.nullable? Json.text?) (Json.findMember? "html" members)
    return { html, extra := members.filter fun m => m.1 ≠ "html" }
  | _ => none

/-- A document written as JSON. -/
def Document.toJson (d : Document) : Json :=
  match d.html with
  | some html => .object (("html", .text html) :: d.extra)
  | none => .object d.extra

end WikiPress
