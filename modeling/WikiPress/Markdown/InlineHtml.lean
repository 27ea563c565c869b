import WikiPress.Markdown.BlockStart

/-!
# HTML inside a text

Tags, comments, instructions, declarations and sections of character data are kept as they are
written.

## Main definitions

* `InlineHtml.drop?` : what follows the HTML at the start of a text.
-/

namespace WikiPress.Markdown.InlineHtml

open WikiPress.Text

/-- What follows the first closing mark `marks ++ ">"`, where `mark` is repeated in front of the
angle bracket twice.  Marks are taken three at a time, so that a run of marks closes only if its
length is two more than a multiple of three. -/
def dropClosed? (mark : Char) (run : Nat) : List Char → Option (List Char)
  | [] => none
  | c :: rest =>
    if c = mark then dropClosed? mark (run + 1) rest
    else if c = '>' ∧ run % 3 = 2 then some rest
    else dropClosed? mark 0 rest

/-- What follows a comment, read after its angle bracket. -/
def dropComment? : List Char → Option (List Char)
  | '!' :: '-' :: '-' :: '>' :: rest => some rest
  | '!' :: '-' :: '-' :: '-' :: '>' :: rest => some rest
  | '!' :: '-' :: '-' :: rest => dropClosed? '-' 0 rest
  | _ => none

/-- What follows a processing instruction, read after its angle bracket. -/
def dropInstruction? : List Char → Option (List Char)
  | '?' :: rest => (splitAtFirst? ['?', '>'] rest).map (·.2)
  | _ => none

/-- What follows a section of character data, read after its angle bracket. -/
def dropCharacterData? (s : List Char) : Option (List Char) :=
  (dropText? "![CDATA[".toList s).bind (dropClosed? ']' 0)

/-- What follows a declaration, read after its angle bracket. -/
def dropDeclaration? : List Char → Option (List Char)
  | '!' :: c :: rest =>
    if Ascii.isAlpha c then
      match rest.dropWhile (· ≠ '>') with
      | _ :: rest => some rest
      | [] => none
    else none
  | _ => none

/-- What follows the HTML at the start of a text, read after its angle bracket. -/
def drop? (s : List Char) : Option (List Char) :=
  (((dropComment? s).or (dropCharacterData? s)).or (dropDeclaration? s)).or
    ((dropInstruction? s).or (Tag.drop? s))

end WikiPress.Markdown.InlineHtml
