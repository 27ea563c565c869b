import WikiPress.Rule
import WikiPress.Slug

/-!
# Wikilinks

A wikilink is written `[[target]]` or `[[target|label]]` on one line.  Brackets inside it must
come in closed pairs, and a backslash takes the character after it out of the count.

## Main definitions

* `Wikilink.splitClose?` : the text of a wikilink, up to the brackets that close it.
* `Wikilink.parts` : its target and its label.
* `Wikilink.rule` : the rule for wikilinks.
-/

namespace WikiPress

open Text

namespace Wikilink

/-- The text up to the pair of closing brackets that brings the depth to zero, and what follows
the pair.  `depth` counts the open pairs less one, and `inner` is the text so far in reverse. -/
def splitClose? (depth : Nat) (inner : List Char) : List Char → Option (List Char × List Char)
  | [] => none
  | '\\' :: c :: rest =>
    if c = '\n' then none else splitClose? depth (c :: '\\' :: inner) rest
  | '[' :: '[' :: rest => splitClose? (depth + 1) ('[' :: '[' :: inner) rest
  | ']' :: ']' :: rest =>
    match depth with
    | 0 => some (inner.reverse, rest)
    | depth + 1 => splitClose? depth (']' :: ']' :: inner) rest
  | c :: rest => if c = '\n' then none else splitClose? depth (c :: inner) rest

/-- The text of the wikilink at the start of a text, and what follows the wikilink. -/
def split? : List Char → Option (List Char × List Char)
  | '[' :: '[' :: rest => splitClose? 0 [] rest
  | _ => none

/-- The target and the label of a wikilink: the text up to the first bar, and the text after it
unless that is empty. -/
def parts (inner : List Char) : List Char × List Char :=
  let target := inner.takeWhile (· ≠ '|')
  match inner.drop target.length with
  | _ :: c :: label => (target, c :: label)
  | _ => (target, target)

/-- The tokens of a wikilink. -/
def tokens (slugger : Slugger) (inner : List Char) : List Token :=
  let (target, label) := parts inner
  [{ kind := .linkOpen, tag := "a", nesting := 1, markup := "wikilink",
      attributes := [("href", String.ofList (slugger.slug target))] },
    Token.ofText (String.ofList label),
    { kind := .linkClose, tag := "a", nesting := -1 }]

/-- The rule for wikilinks; targets become addresses by their slugs. -/
def rule (slugger : Slugger) : Rule where
  name := "wikilink"
  attempt place :=
    match split? place.rest with
    | some (inner, _) => ⟨true, tokens slugger inner, size inner + 4⟩
    | none => .declined

end Wikilink

end WikiPress
