import WikiPress.LinkPolicy
import WikiPress.Markdown.Document
import WikiPress.Renderer
import WikiPress.Splice
import WikiPress.Text.Category
import WikiPress.TokenStream.Basic

/-!
# Engines

An engine turns a source into tokens and the tokens into HTML.  It can be extended at four places:
rules claim spans of the source before the markup is read, rules are tried among the tokens of each
text, passes change the tokens of the whole document, and overrides change how tokens are written.

## Main definitions

* `Pass`, `Pass.headings`, `Pass.links` : changes to the tokens of a whole document.
* `Engine`, `Engine.tokens`, `Engine.render`
* `Engine.describe` : the options of an engine and the names of its extensions.
-/

namespace WikiPress

open Text

/-- A change to the tokens of a whole document and to the headings collected from it. -/
structure Pass where
  name : String
  run : List Token → List Heading → List Token × List Heading

namespace Pass

/-- The pass that collects the headings. -/
def headings (slugger : Slugger) : Pass where
  name := "heading_collector"
  run ts _ := (ts, Heading.collect slugger ts)

/-- The pass that applies the policy for links. -/
def links [UrlParser] (policy : LinkPolicy) : Pass where
  name := "link_policy"
  run ts hs := (policy.applyAll ts, hs)

/-- Runs passes one after the other. -/
def runAll (passes : List Pass) (ts : List Token) (hs : List Heading) :
    List Token × List Heading :=
  passes.foldl (fun state pass => pass.run state.1 state.2) (ts, hs)

end Pass

/-- The constructs of the markup that options ask for. -/
def EngineOptions.dialect (o : EngineOptions) : Markdown.Dialect where
  tables := o.gfm
  strikethrough := o.gfm
  autolinks := o.linkify
  typography := o.typographer

/-- Options with extensions. -/
structure Engine where
  options : EngineOptions := {}
  sourceRules : List Rule := []
  inlineRules : List Rule := []
  passes : List Pass := []
  overrides : List Override := []

namespace Engine

/-- The token of a block after the rules for texts are applied. -/
def spliceBlock (rules : List Rule) (t : Token) : Token :=
  if t.kind = .inline then { t with children := spliceRules rules t.children } else t

/-- The tokens of a source before the passes. -/
def blockTokens (e : Engine) (source : List Char) : List Token :=
  let mask := Mask.ofText e.sourceRules source
  let root := Markdown.parse e.options.dialect mask.text
  (TokenStream.ofDocument mask source e.options.html root).map (spliceBlock e.inlineRules)

/-- The tokens of a source and its headings. -/
def tokens (e : Engine) (source : List Char) : List Token × List Heading :=
  Pass.runAll e.passes (e.blockTokens source) []

/-- The HTML of tokens in a document with the given headings. -/
def write (e : Engine) (ts : List Token) (hs : List Heading) : List Char :=
  Renderer.write ⟨e.options.toRenderOptions, e.overrides, hs⟩ ts

/-- The HTML of a source and its headings. -/
def render (e : Engine) (source : List Char) : List Char × List Heading :=
  let (ts, hs) := e.tokens source
  (e.write ts hs, hs)

/-! ### Descriptions -/

/-- Whether a character is written as it is in a quoted text. -/
def isPrintable (c : Char) : Bool :=
  c = ' ' ||
    hasCategory (Category.letters ++ [.spacingMark] ++ Category.numbers ++
      Category.punctuation ++ Category.symbols) c

/-- One character of a quoted text. -/
def quoteChar (c : Char) : List Char :=
  if c = '\x22' then ['\\', '\x22']
  else if c = '\\' then ['\\', '\\']
  else if c = '\n' then ['\\', 'n']
  else if c = '\r' then ['\\', 'r']
  else if c = '\t' then ['\\', 't']
  else if c.toNat = 0 then ['\\', '0']
  else if isPrintable c then [c]
  else ['\\', 'u', '\x7b'] ++ Nat.toDigits 16 c.toNat ++ ['\x7d']

/-- A text between double quotes. -/
def quote (s : String) : String :=
  String.ofList ('\x22' :: (s.toList.flatMap quoteChar ++ ['\x22']))

/-- Names between square brackets. -/
def quoteAll (names : List String) : String :=
  "[" ++ String.intercalate ", " (names.map quote) ++ "]"

/-- A record with named fields. -/
def describeFields (name : String) (fields : List (String × String)) : String :=
  name ++ " \x7b " ++ String.intercalate ", " (fields.map fun f => f.1 ++ ": " ++ f.2) ++ " \x7d"

/-- Options as a record. -/
def describeOptions (o : EngineOptions) : String :=
  describeFields "EngineOptions"
    [("html", toString o.html), ("xhtml_out", toString o.xhtmlOut), ("breaks", toString o.breaks),
      ("lang_prefix", quote o.langPrefix), ("linkify", toString o.linkify),
      ("typographer", toString o.typographer), ("gfm", toString o.gfm)]

/-- The names of the kinds that are overridden, in ascending order and each of them once. -/
def overriddenKinds (e : Engine) : List String :=
  ((e.overrides.map fun o => o.kind.name).mergeSort (· ≤ ·)).eraseReps

/-- The options of an engine and the names of its extensions. -/
def describe (e : Engine) : String :=
  describeFields "Engine"
    [("options", describeOptions e.options),
      ("source_rules", quoteAll (e.sourceRules.map (·.name))),
      ("inline_rules", quoteAll (e.inlineRules.map (·.name))),
      ("core_passes", quoteAll (e.passes.map (·.name))), ("overrides", quoteAll e.overriddenKinds)]

end Engine

end WikiPress
