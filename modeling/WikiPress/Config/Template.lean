import WikiPress.Text.Case

/-!
# Templates of configurations

A new configuration begins as a template that has every option with its usual value.  There is one
with comments for TOML, and one for JSON.

## Main definitions

* `ConfigFormat`, `ConfigFormat.ofName?` : the formats of configurations.
* `ConfigFormat.template` : the template of a format.
-/

namespace WikiPress

/-- A format of configurations. -/
inductive ConfigFormat where
  | toml
  | json
  deriving DecidableEq, Repr, Inhabited

namespace ConfigFormat

/-- The format with a name, which may be written in letters of any case. -/
def ofName? (name : List Char) : Option ConfigFormat :=
  let name := Text.lowercase name
  if name = "toml".toList then some .toml
  else if name = "json".toList then some .json
  else none

/-- The lines of the template for TOML. -/
def tomlLines : List String :=
  [ "# wikimark configuration file",
    "",
    "# Directory (or single file) containing markdown documents",
    "input_dir = \"content\"",
    "",
    "# Output directory for rendered HTML",
    "output_dir = \"public\"",
    "",
    "# Number of threads to use for parallel rendering (defaults to number of CPU cores)",
    "# jobs = 4",
    "",
    "[markdown]",
    "# Pass raw HTML in documents through instead of escaping it",
    "html = false",
    "",
    "# Close void tags XHTML style (<br />)",
    "xhtml_out = false",
    "",
    "# Convert newlines inside paragraphs into <br>",
    "breaks = false",
    "",
    "# CSS class prefix for fenced code block languages",
    "lang_prefix = \"language-\"",
    "",
    "# Turn bare URLs into links",
    "linkify = false",
    "",
    "# Smart quotes and dashes",
    "typographer = false",
    "",
    "# GitHub tables and strikethrough",
    "gfm = true",
    "",
    "[markdown.wiki]",
    "# Prefix for relative links, e.g. \"/wiki\". Empty disables prefixing.",
    "base_url = \"\"",
    "",
    "# Hosts whose links are followed by search engines. Links to every other host",
    "# get rel=\"nofollow\".",
    "allowed_external_domains = []",
    "",
    "# Open external links in a new window",
    "open_new_window = true",
    "",
    "[markdown.wiki.toc]",
    "# Markup wrapped around a [toc] table of contents",
    "opening_tag = '<nav class=\"table-of-contents\">'",
    "closing_tag = \"</nav>\"",
    "",
    "# Class prefix of the nested lists, suffixed with -h1, -h2, ...",
    "list_class = \"table-of-contents\"",
    "",
    "# Slug options for heading anchors",
    "[markdown.wiki.toc.slugify]",
    "lower = true",
    "# replacement = \"-\"",
    "# remove = \"[*+~.()'\\\"!:@]\"",
    "# strict = false",
    "# trim = true",
    "",
    "[markdown.wiki.wikilinks.slugify]",
    "lower = true" ]

/-- The lines of the template for JSON. -/
def jsonLines : List String :=
  [ "\x7b",
    "  \"input_dir\": \"content\",",
    "  \"output_dir\": \"public\",",
    "  \"markdown\": \x7b",
    "    \"html\": false,",
    "    \"xhtml_out\": false,",
    "    \"breaks\": false,",
    "    \"lang_prefix\": \"language-\",",
    "    \"linkify\": false,",
    "    \"typographer\": false,",
    "    \"gfm\": true,",
    "    \"wiki\": \x7b",
    "      \"base_url\": \"\",",
    "      \"allowed_external_domains\": [],",
    "      \"open_new_window\": true,",
    "      \"toc\": \x7b",
    "        \"opening_tag\": \"<nav class=\\\"table-of-contents\\\">\",",
    "        \"closing_tag\": \"</nav>\",",
    "        \"list_class\": \"table-of-contents\",",
    "        \"slugify\": \x7b",
    "          \"lower\": true",
    "        \x7d",
    "      \x7d,",
    "      \"wikilinks\": \x7b",
    "        \"slugify\": \x7b",
    "          \"lower\": true",
    "        \x7d",
    "      \x7d",
    "    \x7d",
    "  \x7d",
    "\x7d" ]

/-- The lines of the template of a format. -/
def templateLines : ConfigFormat → List String
  | .toml => tomlLines
  | .json => jsonLines

/-- The template of a format. -/
def template (f : ConfigFormat) : String := String.join (f.templateLines.map (· ++ "\n"))

end ConfigFormat

end WikiPress
