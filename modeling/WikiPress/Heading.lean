import WikiPress.Slug
import WikiPress.Token

/-!
# Headings

The headings of a document are collected from its tokens.  The anchor of a heading is its slug
followed by the line that it stands on, so that headings with the same text differ.

## Main definitions

* `Heading`, `Heading.anchor`
* `Heading.collect` : the headings of a list of tokens.
-/

namespace WikiPress

/-- A heading of a document. -/
structure Heading where
  /-- The text of the heading as it stands in the source. -/
  content : String
  /-- The line that the heading stands on, counted from zero. -/
  line : Nat
  level : Nat
  slug : String
  deriving DecidableEq, Repr, Inhabited

namespace Heading

/-- A slug with the number of a line. -/
def anchorOf (slug : String) (line : Nat) : String := slug ++ "-" ++ toString line

/-- The anchor of a heading. -/
def anchor (h : Heading) : String := anchorOf h.slug h.line

/-- The first line of a token, and zero if it is not known. -/
def firstLine (lines : Option (Nat × Nat)) : Nat :=
  match lines with
  | some (first, _) => first
  | none => 0

/-- The heading that ends with a token; `before` is the token in front of it. -/
def ofEnd? (slugger : Slugger) (before : Option Token) (t : Token) : Option Heading :=
  if t.kind = .headingClose then
    match before, t.headingLevel? with
    | some text, some level =>
      if text.kind = .inline then
        some ⟨text.content, firstLine text.lines, level, slugger.slugString text.content⟩
      else none
    | _, _ => none
  else none

/-- The headings of a list of tokens; `before` is the token in front of the list. -/
def collectFrom (slugger : Slugger) (before : Option Token) : List Token → List Heading
  | [] => []
  | t :: rest => (ofEnd? slugger before t).toList ++ collectFrom slugger (some t) rest

/-- The headings of a list of tokens. -/
def collect (slugger : Slugger) (ts : List Token) : List Heading := collectFrom slugger none ts

end Heading

end WikiPress
