import WikiPress.Text.Number

/-!
# Tokens

Between the document tree and its HTML stands a flat list of tokens.  Blocks are pairs of opening
and closing tokens; a block that holds text has one `inline` token, whose children are the tokens
of the text, flat again.

## Main definitions

* `TokenKind`, `TokenKind.name`, `TokenKind.ofName?`
* `Token`, with `Token.attribute?` and `Token.setAttribute`
* `Token.headingLevel?`
-/

namespace WikiPress

/-- The kinds of tokens. -/
inductive TokenKind where
  | paragraphOpen
  | paragraphClose
  | headingOpen
  | headingClose
  | blockquoteOpen
  | blockquoteClose
  | bulletListOpen
  | bulletListClose
  | orderedListOpen
  | orderedListClose
  | listItemOpen
  | listItemClose
  | tableOpen
  | tableClose
  | theadOpen
  | theadClose
  | tbodyOpen
  | tbodyClose
  | trOpen
  | trClose
  | thOpen
  | thClose
  | tdOpen
  | tdClose
  | codeBlock
  | fence
  | htmlBlock
  | rule
  | inline
  | text
  | textSpecial
  | softBreak
  | hardBreak
  | codeInline
  | emOpen
  | emClose
  | strongOpen
  | strongClose
  | strikethroughOpen
  | strikethroughClose
  | linkOpen
  | linkClose
  | image
  | htmlInline
  | tocOpen
  | tocBody
  | tocClose
  | raw
  deriving DecidableEq, Repr, Inhabited

namespace TokenKind

/-- All kinds. -/
def all : List TokenKind :=
  [.paragraphOpen, .paragraphClose, .headingOpen, .headingClose, .blockquoteOpen,
    .blockquoteClose, .bulletListOpen, .bulletListClose, .orderedListOpen, .orderedListClose,
    .listItemOpen, .listItemClose, .tableOpen, .tableClose, .theadOpen, .theadClose, .tbodyOpen,
    .tbodyClose, .trOpen, .trClose, .thOpen, .thClose, .tdOpen, .tdClose, .codeBlock, .fence,
    .htmlBlock, .rule, .inline, .text, .textSpecial, .softBreak, .hardBreak, .codeInline,
    .emOpen, .emClose, .strongOpen, .strongClose, .strikethroughOpen, .strikethroughClose,
    .linkOpen, .linkClose, .image, .htmlInline, .tocOpen, .tocBody, .tocClose, .raw]

/-- The name of a kind. -/
def name : TokenKind → String
  | paragraphOpen => "paragraph_open"
  | paragraphClose => "paragraph_close"
  | headingOpen => "heading_open"
  | headingClose => "heading_close"
  | blockquoteOpen => "blockquote_open"
  | blockquoteClose => "blockquote_close"
  | bulletListOpen => "bullet_list_open"
  | bulletListClose => "bullet_list_close"
  | orderedListOpen => "ordered_list_open"
  | orderedListClose => "ordered_list_close"
  | listItemOpen => "list_item_open"
  | listItemClose => "list_item_close"
  | tableOpen => "table_open"
  | tableClose => "table_close"
  | theadOpen => "thead_open"
  | theadClose => "thead_close"
  | tbodyOpen => "tbody_open"
  | tbodyClose => "tbody_close"
  | trOpen => "tr_open"
  | trClose => "tr_close"
  | thOpen => "th_open"
  | thClose => "th_close"
  | tdOpen => "td_open"
  | tdClose => "td_close"
  | codeBlock => "code_block"
  | fence => "fence"
  | htmlBlock => "html_block"
  | rule => "hr"
  | inline => "inline"
  | text => "text"
  | textSpecial => "text_special"
  | softBreak => "softbreak"
  | hardBreak => "hardbreak"
  | codeInline => "code_inline"
  | emOpen => "em_open"
  | emClose => "em_close"
  | strongOpen => "strong_open"
  | strongClose => "strong_close"
  | strikethroughOpen => "s_open"
  | strikethroughClose => "s_close"
  | linkOpen => "link_open"
  | linkClose => "link_close"
  | image => "image"
  | htmlInline => "html_inline"
  | tocOpen => "toc_open"
  | tocBody => "toc_body"
  | tocClose => "toc_close"
  | raw => "raw"

/-- The kind with the given name. -/
def ofName? (s : String) : Option TokenKind := all.find? (·.name = s)

/-- Kinds that are plain text or a break in it. -/
def isPlain : TokenKind → Bool
  | text => true
  | textSpecial => true
  | softBreak => true
  | hardBreak => true
  | _ => false

end TokenKind

/-- A token. -/
structure Token where
  kind : TokenKind
  /-- The name of the HTML element; empty if the token is no element. -/
  tag : String := ""
  /-- The attributes in the order in which they are written. -/
  attributes : List (String × String) := []
  /-- The first line of the token and the line after its last one, counted from zero. -/
  lines : Option (Nat × Nat) := none
  /-- One for an opening tag, minus one for a closing tag, zero for a token by itself. -/
  nesting : Int := 0
  content : String := ""
  markup : String := ""
  info : String := ""
  /-- The tokens inside. -/
  children : List Token := []
  /-- The token is a block. -/
  block : Bool := false
  /-- The token is not written, as paragraphs in tight lists. -/
  hidden : Bool := false
  deriving Repr, Inhabited

namespace Token

/-- A text token. -/
def ofText (s : String) : Token := { kind := .text, content := s }

/-- The value of the first attribute with a key, among attributes. -/
def findAttribute? (key : String) : List (String × String) → Option String
  | [] => none
  | (k, v) :: rest => if k = key then some v else findAttribute? key rest

/-- The attributes with one of them set: its value is changed in place if the key is there, and
the attribute is added at the end if it is not. -/
def updateAttribute (key value : String) : List (String × String) → List (String × String)
  | [] => [(key, value)]
  | (k, v) :: rest =>
    if k = key then (k, value) :: rest else (k, v) :: updateAttribute key value rest

/-- The value of an attribute. -/
def attribute? (t : Token) (key : String) : Option String := findAttribute? key t.attributes

/-- The token with an attribute set. -/
def setAttribute (t : Token) (key value : String) : Token :=
  { t with attributes := updateAttribute key value t.attributes }

/-- The level that a heading tag such as `h2` names. -/
def headingLevel? (t : Token) : Option Nat :=
  match t.tag.toList with
  | 'h' :: digits => (Text.readNumber? 255 digits).filter fun n => 1 ≤ n && n ≤ 6
  | _ => none

theorem findAttribute?_updateAttribute_self (key value : String) (as : List (String × String)) :
    findAttribute? key (updateAttribute key value as) = some value := by
  induction as with
  | nil => simp [updateAttribute, findAttribute?]
  | cons a as ih =>
    obtain ⟨k, v⟩ := a
    by_cases h : k = key <;> simp [updateAttribute, findAttribute?, h, ih]

theorem findAttribute?_updateAttribute_of_ne {key other : String} (value : String)
    (as : List (String × String)) (h : other ≠ key) :
    findAttribute? other (updateAttribute key value as) = findAttribute? other as := by
  induction as with
  | nil => simp [updateAttribute, findAttribute?, Ne.symm h]
  | cons a as ih =>
    obtain ⟨k, v⟩ := a
    by_cases hk : k = key
    · subst hk; simp [updateAttribute, findAttribute?, Ne.symm h]
    · by_cases ho : k = other <;> simp [updateAttribute, findAttribute?, h, hk, ho, ih]

end Token

end WikiPress
