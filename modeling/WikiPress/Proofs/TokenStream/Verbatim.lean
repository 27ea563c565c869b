import Mathlib.Data.List.Forall2
import WikiPress.Proofs.Mask.Restore
import WikiPress.Proofs.Mask.Span
import WikiPress.Proofs.TokenStream.Free

/-!
# What tokens take over as it stands

Code, HTML, addresses and titles are shown as the source has them.  The tokens of a document take
them from the document one after the other, with each placeholder replaced by the text that was
claimed for its span.  The tokens of a span bring strings of their own, which stay as they are.

## Main definitions

* `Verbatim` : a string that a token takes over.
* `Token.verbatims` : the strings that a token and the tokens below it take over, in order.
* `VerbatimSource`, `VerbatimSource.Gives` : where such a string comes from, and what becomes of it.
* `Node.inlineSources`, `Node.blockSources` : the sources of the strings of a document, in order.

## Main results

* `TokenStream.Origin.forall₂_inlineSources`, `TokenStream.Origin.forall₂_blockSources` : the tokens
  of a node take over the strings of the node.
* `TokenStream.restored_ofDocument` : no placeholder is left in the tokens of a document, and what
  they take over is the text of the source.
-/

namespace WikiPress

open Text Markdown Mask

/-! ### Strings of tokens -/

/-- A string that a token takes over, with the field of the token or the key of the attribute that
has it. -/
structure Verbatim where
  kind : TokenKind
  field : String
  text : String
  deriving DecidableEq, Repr

namespace Token

/-- The strings that a token takes over itself: code with its info string, HTML, and the addresses
and titles of links and images. -/
def ownVerbatims (t : Token) : List Verbatim :=
  match t.kind with
  | .codeInline => [⟨.codeInline, "content", t.content⟩]
  | .codeBlock => [⟨.codeBlock, "info", t.info⟩, ⟨.codeBlock, "content", t.content⟩]
  | .fence => [⟨.fence, "info", t.info⟩, ⟨.fence, "content", t.content⟩]
  | .htmlBlock => [⟨.htmlBlock, "content", t.content⟩]
  | .htmlInline => [⟨.htmlInline, "content", t.content⟩]
  | .linkOpen => t.attributes.map fun a => ⟨.linkOpen, a.1, a.2⟩
  | .image => (t.attributes.filter fun a => a.1 ≠ "alt").map fun a => ⟨.image, a.1, a.2⟩
  | _ => []

mutual

/-- The strings that a token and the tokens below it take over, in order. -/
def verbatims : Token → List Verbatim
  | ⟨kind, tag, attributes, lines, nesting, content, markup, info, children, block, hidden⟩ =>
    ownVerbatims
      ⟨kind, tag, attributes, lines, nesting, content, markup, info, children, block, hidden⟩ ++
      verbatimsAll children

/-- The strings that a list of tokens takes over, in order. -/
def verbatimsAll : List Token → List Verbatim
  | [] => []
  | t :: rest => verbatims t ++ verbatimsAll rest

end

theorem verbatims_eq (t : Token) : t.verbatims = t.ownVerbatims ++ verbatimsAll t.children := by
  cases t
  rw [verbatims]

theorem verbatimsAll_append (ts us : List Token) :
    verbatimsAll (ts ++ us) = verbatimsAll ts ++ verbatimsAll us := by
  induction ts with
  | nil => rfl
  | cons t ts ih => rw [List.cons_append, verbatimsAll, verbatimsAll, ih, List.append_assoc]

theorem verbatimsAll_singleton (t : Token) : verbatimsAll [t] = t.verbatims := by
  rw [verbatimsAll, verbatimsAll, List.append_nil]

theorem verbatimsAll_flatMap {α : Type*} (f : α → List Token) (as : List α) :
    verbatimsAll (as.flatMap f) = as.flatMap fun a => verbatimsAll (f a) := by
  induction as with
  | nil => rfl
  | cons a as ih => rw [List.flatMap_cons, verbatimsAll_append, ih, List.flatMap_cons]

/-- Tokens between two tokens that take nothing over. -/
theorem verbatimsAll_wrapped {t c : Token} (inner : List Token) (ht : t.verbatims = [])
    (hc : c.verbatims = []) : verbatimsAll (t :: (inner ++ [c])) = verbatimsAll inner := by
  rw [verbatimsAll, verbatimsAll_append, verbatimsAll_singleton, ht, hc, List.nil_append,
    List.append_nil]

end Token

/-! ### Strings of documents -/

/-- Where a string that a token takes over comes from. -/
inductive VerbatimSource where
  /-- A string of the document, in which placeholders may stand. -/
  | document (v : Verbatim)
  /-- A string of a token of a claimed span. -/
  | span (v : Verbatim)
  deriving DecidableEq, Repr

/-- What a token takes over from a source: a string of the document with its placeholders replaced
by the claimed text, and a string of a claimed span as it is. -/
inductive VerbatimSource.Gives (m : Mask) : VerbatimSource → Verbatim → Prop
  | document {kind : TokenKind} {field s t : String} : Fills m Span.raw s.toList t.toList →
      Gives m (.document ⟨kind, field, s⟩) ⟨kind, field, t⟩
  | span (v : Verbatim) : Gives m (.span v) v

namespace Markdown.Node

/-- The strings of the tokens of the spans that are claimed in a text. -/
def spanSources (m : Mask) (literal : String) : List VerbatimSource :=
  (m.claimedIn literal.toList).flatMap fun span =>
    (Token.verbatimsAll span.tokens).map .span

/-- The address and the title of a link or an image; an empty title counts for none. -/
def addressSources (kind : TokenKind) (key url title : String) : List VerbatimSource :=
  .document ⟨kind, key, url⟩ ::
    if title.isEmpty then [] else [.document ⟨kind, "title", title⟩]

mutual

/-- The sources of the strings of a node in a text, in order. -/
def inlineSources (m : Mask) : Node → List VerbatimSource
  | ⟨kind, _, children⟩ =>
    match kind with
    | .text literal => spanSources m literal
    | .code literal => [.document ⟨.codeInline, "content", literal⟩]
    | .htmlInline literal => [.document ⟨.htmlInline, "content", literal⟩]
    | .emphasis => inlineSourcesAll m children
    | .strong => inlineSourcesAll m children
    | .strikethrough => inlineSourcesAll m children
    | .link url title => addressSources .linkOpen "href" url title ++ inlineSourcesAll m children
    | .image url title => addressSources .image "src" url title ++ inlineSourcesAll m children
    | _ => []

/-- The sources of the strings of a list of nodes in a text, in order. -/
def inlineSourcesAll (m : Mask) : List Node → List VerbatimSource
  | [] => []
  | n :: rest => inlineSources m n ++ inlineSourcesAll m rest

end

/-- The sources of the strings of the rows of a table, in order. -/
def rowSources (m : Mask) (rows : List Node) : List VerbatimSource :=
  rows.flatMap fun row => row.children.flatMap fun cell => inlineSourcesAll m cell.children

mutual

/-- The sources of the strings of a node among blocks, in order. -/
def blockSources (m : Mask) : Node → List VerbatimSource
  | ⟨kind, _, children⟩ =>
    match kind with
    | .document => blockSourcesAll m children
    | .blockQuote => blockSourcesAll m children
    | .list _ => blockSourcesAll m children
    | .item _ => blockSourcesAll m children
    | .paragraph => inlineSourcesAll m children
    | .heading _ _ => inlineSourcesAll m children
    | .codeBlock fenced info literal =>
      let kind := if fenced then .fence else .codeBlock
      [.document ⟨kind, "info", info⟩, .document ⟨kind, "content", literal⟩]
    | .htmlBlock literal => [.document ⟨.htmlBlock, "content", literal⟩]
    | .table _ => rowSources m children
    | _ => []

/-- The sources of the strings of a list of nodes among blocks, in order. -/
def blockSourcesAll (m : Mask) : List Node → List VerbatimSource
  | [] => []
  | n :: rest => blockSources m n ++ blockSourcesAll m rest

end

end Markdown.Node

/-! ### Texts with placeholders -/

theorem Mask.verbatimsAll_expand (m : Mask) (s : List Char) :
    Token.verbatimsAll (m.expand s) =
      (m.claimedIn s).flatMap fun span => Token.verbatimsAll span.tokens := by
  unfold expand
  split
  · next hnone =>
    have hclaimed : m.claimedIn s = [] := by
      rw [Bool.not_eq_true', holdsPlaceholder_eq_false_iff] at hnone
      rcases hnone with hnone | hnone
      · exact claimedIn_of_spans_eq_nil hnone s
      · exact claimedIn_of_notMem hnone
    rw [hclaimed]
    rfl
  · rw [Token.verbatimsAll_flatMap, claimedIn]
    induction m.segments s with
    | nil => rfl
    | cons segment rest ih =>
      rw [List.flatMap_cons, ih]
      cases segment with
      | plain t => rfl
      | span span => rfl

theorem forall₂_spanSources (m : Mask) (literal : String) :
    List.Forall₂ (VerbatimSource.Gives m) (Node.spanSources m literal)
      (Token.verbatimsAll (m.expand literal.toList)) := by
  have hspan : ∀ vs : List Verbatim, List.Forall₂ (VerbatimSource.Gives m) (vs.map .span) vs := by
    intro vs
    induction vs with
    | nil => exact .nil
    | cons v vs ih => exact .cons (.span v) ih
  rw [Mask.verbatimsAll_expand, Node.spanSources]
  induction m.claimedIn literal.toList with
  | nil => exact .nil
  | cons span rest ih => exact List.rel_append (hspan _) ih

namespace TokenStream.Origin

variable {o : Origin} {around : Surroundings} {extent : Extent}

open Token VerbatimSource

/-! ### Text -/

section Text

variable {kind : TokenKind} {field key s url title : String}

/-- A string of the document, as the tokens take it over. -/
theorem gives_restoreString (h : o.mask.Whole s.toList) :
    Gives o.mask (.document ⟨kind, field, s⟩) ⟨kind, field, o.mask.restoreString s⟩ := by
  refine .document ?_
  rw [Mask.restoreString, String.toList_ofList]
  exact h.fills Span.raw

/-- The address and the title of a link or an image, as its token takes them over. -/
theorem forall₂_addressSources (hurl : o.mask.Whole url.toList)
    (htitle : o.mask.Whole title.toList) :
    List.Forall₂ (Gives o.mask) (Node.addressSources kind key url title)
      (⟨kind, key, o.mask.restoreString url⟩ ::
        (o.titleAttributes title).map fun a => ⟨kind, a.1, a.2⟩) := by
  refine .cons (gives_restoreString hurl) ?_
  unfold titleAttributes
  split
  · exact .nil
  · exact .cons (gives_restoreString htitle) .nil

theorem verbatimsAll_linkTokens (inner : List Token) :
    verbatimsAll (o.linkTokens url title inner) =
      ⟨.linkOpen, "href", o.mask.restoreString url⟩ ::
        ((o.titleAttributes title).map fun a => ⟨.linkOpen, a.1, a.2⟩) ++ verbatimsAll inner := by
  have hclose : (closeTag .linkClose "a" "").verbatims = [] := rfl
  rw [linkTokens, verbatimsAll, verbatimsAll_append, verbatimsAll_singleton, hclose,
    List.append_nil, verbatims_eq]
  exact congrArg (· ++ _) (List.append_nil _)

theorem verbatims_imageToken (shown : String) (inner : List Token) :
    (o.imageToken url title shown inner).verbatims =
      ⟨.image, "src", o.mask.restoreString url⟩ ::
        ((o.titleAttributes title).map fun a => ⟨.image, a.1, a.2⟩) ++ verbatimsAll inner := by
  have htitle : (o.titleAttributes title).filter (fun a => a.1 ≠ "alt") =
      o.titleAttributes title := by
    unfold titleAttributes
    split <;> rfl
  rw [verbatims_eq]
  refine congrArg (· ++ _) ?_
  show (List.filter (fun a => a.1 ≠ "alt") (("src", _) :: ("alt", _) :: _)).map _ = _
  rw [List.filter_cons_of_pos (by simp), List.filter_cons_of_neg (by simp), htitle]
  rfl

end Text

mutual

/-- The tokens of a node in a text take over the strings of the node. -/
theorem forall₂_inlineSources (around : Surroundings) : ∀ n : Node, n.Whole o.mask →
    List.Forall₂ (Gives o.mask) (n.inlineSources o.mask) (verbatimsAll (o.inlineTokens around n))
  | ⟨kind, extent, children⟩, .intro hstrings _ hchildren => by
    have hinner := forall₂_inlineSourcesAll ⟨kind :: around.above, []⟩ children hchildren
    cases kind with
    | text literal => exact forall₂_spanSources o.mask literal
    | code literal =>
      exact .cons (gives_restoreString (hstrings literal (List.mem_cons_self ..))) .nil
    | htmlInline literal =>
      exact .cons (gives_restoreString (hstrings literal (List.mem_cons_self ..))) .nil
    | emphasis =>
      rw [inlineTokens, wrap, verbatimsAll_wrapped _ rfl rfl]
      exact hinner
    | strong =>
      rw [inlineTokens, wrap, verbatimsAll_wrapped _ rfl rfl]
      exact hinner
    | strikethrough =>
      rw [inlineTokens, wrap, verbatimsAll_wrapped _ rfl rfl]
      exact hinner
    | link url title =>
      rw [inlineTokens, verbatimsAll_linkTokens]
      exact List.rel_append (forall₂_addressSources (hstrings url (List.mem_cons_self ..))
        (hstrings title (List.mem_cons_of_mem _ (List.mem_cons_self ..)))) hinner
    | image url title =>
      rw [inlineTokens, verbatimsAll_singleton, verbatims_imageToken]
      exact List.rel_append (forall₂_addressSources (hstrings url (List.mem_cons_self ..))
        (hstrings title (List.mem_cons_of_mem _ (List.mem_cons_self ..)))) hinner
    | _ => exact .nil

/-- The tokens of a list of nodes in a text take over the strings of the nodes. -/
theorem forall₂_inlineSourcesAll (around : Surroundings) : ∀ ns : List Node,
    (∀ n ∈ ns, n.Whole o.mask) → List.Forall₂ (Gives o.mask) (Node.inlineSourcesAll o.mask ns)
      (verbatimsAll (o.inlineTokensAll around ns))
  | [], _ => .nil
  | n :: rest, h => by
    rw [List.forall_mem_cons] at h
    rw [inlineTokensAll, verbatimsAll_append, Node.inlineSourcesAll]
    exact List.rel_append (forall₂_inlineSources around n h.1)
      (forall₂_inlineSourcesAll _ rest h.2)

end

/-! ### Blocks -/

theorem forall₂_textToken (around : Surroundings) (kind : Kind) (extent : Extent)
    (content : String) {children : List Node} (h : ∀ n ∈ children, n.Whole o.mask) :
    List.Forall₂ (Gives o.mask) (Node.inlineSourcesAll o.mask children)
      (verbatimsAll [o.textToken around kind extent content children]) := by
  rw [verbatimsAll_singleton, verbatims_eq]
  exact forall₂_inlineSourcesAll _ children h

theorem verbatimsAll_listTokens (style : ListStyle) (inner : List Token) :
    verbatimsAll (listTokens style extent inner) = verbatimsAll inner := by
  unfold listTokens
  split
  · exact verbatimsAll_wrapped _ rfl rfl
  · exact verbatimsAll_wrapped _ rfl rfl

/-! ### Tables -/

theorem verbatimsAll_cellTokens (around : Surroundings) (header : Bool)
    (alignment : Markdown.Alignment) (cell : Node) :
    verbatimsAll (o.cellTokens around header alignment cell) =
      verbatimsAll [o.textToken around cell.kind cell.extent (o.plainContent cell.children)
        cell.children] := by
  cases header
  all_goals exact verbatimsAll_wrapped [_] rfl rfl

theorem forall₂_cellsTokens (around : Surroundings) (header : Bool)
    (alignments : List Markdown.Alignment) {cells : List Node}
    (h : ∀ cell ∈ cells, cell.Whole o.mask) :
    List.Forall₂ (Gives o.mask)
      (cells.flatMap fun cell => Node.inlineSourcesAll o.mask cell.children)
      (verbatimsAll (o.cellsTokens around header alignments cells)) := by
  induction cells generalizing alignments with
  | nil => exact .nil
  | cons cell rest ih =>
    rw [List.forall_mem_cons] at h
    rw [List.flatMap_cons, cellsTokens, verbatimsAll_append, verbatimsAll_cellTokens]
    exact List.rel_append (forall₂_textToken _ _ _ _ h.1.children) (ih _ h.2)

theorem forall₂_rowTokens (around : Surroundings) (alignments : List Markdown.Alignment)
    {row : Node} (h : row.Whole o.mask) :
    List.Forall₂ (Gives o.mask)
      (row.children.flatMap fun cell => Node.inlineSourcesAll o.mask cell.children)
      (verbatimsAll (o.rowTokens around alignments row)) := by
  rw [rowTokens, wrapBlock, verbatimsAll_wrapped _ rfl rfl]
  exact forall₂_cellsTokens _ _ _ h.children

theorem forall₂_rowsTokens (around : Surroundings) (alignments : List Markdown.Alignment)
    (inBody : Bool) {rows : List Node} (h : ∀ row ∈ rows, row.Whole o.mask) :
    List.Forall₂ (Gives o.mask) (Node.rowSources o.mask rows)
      (verbatimsAll (o.rowsTokens around alignments inBody rows)) := by
  induction rows generalizing inBody with
  | nil => cases inBody <;> exact .nil
  | cons row rest ih =>
    rw [List.forall_mem_cons] at h
    have hrow := forall₂_rowTokens around alignments h.1
    rw [Node.rowSources, List.flatMap_cons, rowsTokens]
    split
    · rw [verbatimsAll_append, wrapBlock, verbatimsAll_wrapped _ rfl rfl]
      exact List.rel_append hrow (ih inBody h.2)
    · have hopen : verbatimsAll (if inBody then [] else [openBlock .tbodyOpen "tbody" "" row.extent]) =
          [] := by cases inBody <;> rfl
      rw [verbatimsAll_append, verbatimsAll_append, hopen, List.nil_append]
      exact List.rel_append hrow (ih true h.2)

/-! ### All blocks -/

mutual

/-- The tokens of a node among blocks take over the strings of the node. -/
theorem forall₂_blockSources (around : Surroundings) (tight : Bool) : ∀ n : Node,
    n.Whole o.mask → List.Forall₂ (Gives o.mask) (n.blockSources o.mask)
      (verbatimsAll (o.blockTokens around tight n))
  | ⟨kind, extent, children⟩, .intro hstrings _ hchildren => by
    have hinner := fun tight =>
      forall₂_blockSourcesAll ⟨kind :: around.above, []⟩ tight children hchildren
    cases kind with
    | document => exact hinner false
    | blockQuote =>
      rw [blockTokens, wrapBlock, verbatimsAll_wrapped _ rfl rfl]
      exact hinner false
    | list style =>
      rw [blockTokens, verbatimsAll_listTokens]
      exact hinner style.tight
    | item =>
      rw [blockTokens, wrapBlock, verbatimsAll_wrapped _ rfl rfl]
      exact hinner tight
    | paragraph =>
      have htokens : verbatimsAll (o.paragraphTokens around tight extent children) =
          verbatimsAll [o.textToken around .paragraph extent (o.plainContent children) children] :=
        verbatimsAll_wrapped [_] rfl rfl
      rw [blockTokens, htokens]
      exact forall₂_textToken _ _ _ _ hchildren
    | heading level setext =>
      rw [blockTokens, headingTokens, wrapBlock, verbatimsAll_wrapped _ rfl rfl]
      exact forall₂_textToken _ _ _ _ hchildren
    | codeBlock fenced info literal =>
      have hinfo := hstrings info (List.mem_cons_self ..)
      have hliteral := hstrings literal (List.mem_cons_of_mem _ (List.mem_cons_self ..))
      cases fenced
      all_goals exact .cons (gives_restoreString hinfo) (.cons (gives_restoreString hliteral) .nil)
    | htmlBlock literal =>
      exact .cons (gives_restoreString (hstrings literal (List.mem_cons_self ..))) .nil
    | table alignments =>
      rw [blockTokens, wrapBlock, verbatimsAll_wrapped _ rfl rfl]
      exact forall₂_rowsTokens _ _ _ hchildren
    | _ => exact .nil

/-- The tokens of a list of nodes among blocks take over the strings of the nodes. -/
theorem forall₂_blockSourcesAll (around : Surroundings) (tight : Bool) : ∀ ns : List Node,
    (∀ n ∈ ns, n.Whole o.mask) → List.Forall₂ (Gives o.mask) (Node.blockSourcesAll o.mask ns)
      (verbatimsAll (o.blockTokensAll around tight ns))
  | [], _ => .nil
  | n :: rest, h => by
    rw [List.forall_mem_cons] at h
    rw [blockTokensAll, verbatimsAll_append, Node.blockSourcesAll]
    exact List.rel_append (forall₂_blockSources around tight n h.1)
      (forall₂_blockSourcesAll _ tight rest h.2)

end

end TokenStream.Origin

/-! ### Documents -/

namespace TokenStream

variable {rules : List Rule} {source : List Char} {html : Bool} {root : Node}

/-- A source without placeholders has none in its lines and in what is claimed in it. -/
theorem free_origin (hfree : Mask.Free source)
    (hemits : ∀ r ∈ rules, r.Emits fun s ts => Mask.Free s → ∀ t ∈ ts, t.Free) :
    Origin.Free ⟨ofText rules source, sourceLines source, html⟩ := by
  have hspans : ∀ span ∈ (ofText rules source).spans,
      Mask.Free span.raw ∧ ∀ t ∈ span.tokens, t.Free := by
    intro span hspan
    obtain ⟨line, hline, htokens, hraw⟩ := exists_line_of_mem_spans hemits hspan
    have hfree' : Mask.Free line := hfree.of_subset fun _ hc => mem_of_mem_splitAtEach hline hc
    exact ⟨hfree'.of_subset hraw, htokens hfree'⟩
  exact ⟨fun span hspan => (hspans span hspan).1, fun span hspan => (hspans span hspan).2,
    free_sourceLines hfree⟩

/-- No placeholder is left in the tokens of a document that was read from a masked source, and what
they take over is the document with each placeholder replaced by the text of the source that it
stands for. -/
theorem restored_ofDocument (hfree : Mask.Free source)
    (hrules : ∀ r ∈ rules, ∀ line ∈ splitAtEach '\n' source, r.ClaimsWhole line)
    (hemits : ∀ r ∈ rules, r.Emits fun s ts => Mask.Free s → ∀ t ∈ ts, t.Free)
    (hroot : root.Whole (ofText rules source)) :
    Fills (ofText rules source) Span.raw (ofText rules source).text source ∧
    (∀ t ∈ ofDocument (ofText rules source) source html root, t.Free) ∧
    List.Forall₂ (VerbatimSource.Gives (ofText rules source))
      (Node.blockSourcesAll (ofText rules source) root.children)
      (Token.verbatimsAll (ofDocument (ofText rules source) source html root)) :=
  ⟨fills_ofText hrules hfree,
    Origin.free_blockTokensAll (free_origin hfree hemits) _ false root.children hroot.children,
    Origin.forall₂_blockSourcesAll (o := ⟨ofText rules source, sourceLines source, html⟩) _ false
      root.children hroot.children⟩

/-- A document with the placeholders of two wikilinks in a text, in code, in an address and in an
info string. -/
def placeholdersEverywhere : Node :=
  ⟨.document, {}, [
    ⟨.paragraph, {}, [Node.text "\uE0000\uE001x".toList, ⟨.code "\uE0001\uE001", {}, []⟩,
      ⟨.link "u\uE0000\uE001" "t", {}, [⟨.escaped, {}, [Node.text "*".toList]⟩]⟩]⟩,
    ⟨.codeBlock true "\uE0001\uE001" "y", {}, []⟩]⟩

theorem restored_placeholdersEverywhere :
    Mask.Free "[[a]] [[b|c]]".toList ∧
    (∀ r ∈ [Wikilink.rule Slugger.lowercase], ∀ line ∈ splitAtEach '\n' "[[a]] [[b|c]]".toList,
      r.ClaimsWhole line) ∧
    (∀ r ∈ [Wikilink.rule Slugger.lowercase],
      r.Emits fun s ts => Mask.Free s → ∀ t ∈ ts, t.Free) ∧
    placeholdersEverywhere.Whole
      (ofText [Wikilink.rule Slugger.lowercase] "[[a]] [[b|c]]".toList) ∧
    (∀ t ∈ ofDocument (ofText [Wikilink.rule Slugger.lowercase] "[[a]] [[b|c]]".toList)
      "[[a]] [[b|c]]".toList false placeholdersEverywhere, t.Free) ∧
    Token.verbatimsAll (ofDocument
      (ofText [Wikilink.rule Slugger.lowercase] "[[a]] [[b|c]]".toList) "[[a]] [[b|c]]".toList
      false placeholdersEverywhere) =
      [⟨.linkOpen, "href", "a"⟩, ⟨.codeInline, "content", "[[b|c]]"⟩,
        ⟨.linkOpen, "href", "u[[a]]"⟩, ⟨.linkOpen, "title", "t"⟩, ⟨.fence, "info", "[[b|c]]"⟩,
        ⟨.fence, "content", "y"⟩] := by
  have hfree : Mask.Free "[[a]] [[b|c]]".toList := by decide
  have hrules : ∀ r ∈ [Wikilink.rule Slugger.lowercase],
      ∀ line ∈ splitAtEach '\n' "[[a]] [[b|c]]".toList, r.ClaimsWhole line :=
    List.forall_mem_singleton.mpr fun line _ => Wikilink.claimsWhole_rule _ line
  have hemits : ∀ r ∈ [Wikilink.rule Slugger.lowercase],
      r.Emits fun s ts => Mask.Free s → ∀ t ∈ ts, t.Free :=
    List.forall_mem_singleton.mpr
      (Wikilink.emits_free_rule rfl (List.forall_mem_singleton.mpr (by decide)))
  have hlength : (ofText [Wikilink.rule Slugger.lowercase] "[[a]] [[b|c]]".toList).spans.length =
      2 := by decide +kernel
  have hroot : placeholdersEverywhere.Whole
      (ofText [Wikilink.rule Slugger.lowercase] "[[a]] [[b|c]]".toList) := by
    generalize ofText [Wikilink.rule Slugger.lowercase] "[[a]] [[b|c]]".toList = m at hlength
    have hfirst : m.Whole "\uE0000\uE001".toList := .of_placeholder 0 (by omega)
    have hsecond : m.Whole "\uE0001\uE001".toList := .of_placeholder 1 (by omega)
    have htext : m.Whole ("\uE0000\uE001".toList ++ ['x']) := hfirst.append (.of_free (by decide))
    have hurl : m.Whole ('u' :: "\uE0000\uE001".toList) :=
      .append (s := ['u']) (.of_free (by decide)) hfirst
    have ht : m.Whole "t".toList := .of_free (by decide)
    have hy : m.Whole "y".toList := .of_free (by decide)
    have hstar : m.Whole "*".toList := .of_free (by decide)
    have hescaped : Mask.Free (Node.plainTexts [Node.text "*".toList]).toList := by decide
    simp only [placeholdersEverywhere, Node.whole_iff, Node.text, Kind.strings,
      List.forall_mem_cons, List.not_mem_nil, IsEmpty.forall_iff, implies_true, reduceCtorEq,
      true_and, and_true, forall_const]
    exact ⟨⟨htext, hsecond, ⟨hurl, ht⟩, hescaped, hstar⟩, hsecond, hy⟩
  exact ⟨hfree, hrules, hemits, hroot, (restored_ofDocument hfree hrules hemits hroot).2.1,
    by decide +kernel⟩

end TokenStream

end WikiPress
