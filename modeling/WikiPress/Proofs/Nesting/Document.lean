import WikiPress.Processor
import WikiPress.Proofs.Mask.Placeholder
import WikiPress.Proofs.Mask.Span
import WikiPress.Proofs.Nesting.Splice
import WikiPress.Proofs.Toc.Marker
import WikiPress.Proofs.Wikilink
import WikiPress.TokenStream.Basic

/-!
# The tokens of a document are nested

Whatever tree a document is, its tokens are nested: every node writes a closing token behind what it
opens, at any place in the tree.  In a table the body is opened by the first row that is no header
and closed behind the last row, with the headers in between as they come.  The placeholders in a
text are replaced by the tokens of their spans, which have to be nested by themselves.

## Main results

* `TokenStream.Origin.wellNested_inlineTokens` : the tokens of a node in a text are nested.
* `TokenStream.Origin.wellNested_rowsTokens` : the tokens of the rows of a table are nested.
* `TokenStream.Origin.wellNested_blockTokens` : the tokens of a node among blocks are nested.
* `TokenStream.wellNested_document` : the tokens of a document are nested, also with rules applied.
* `Engine.wellNested_blockTokens`, `Processor.wellNested_blockTokens` : the same for the tokens that
  an engine reads from a source, and for the rules of a wiki.
-/

namespace WikiPress

open Text Markdown

/-! ### Texts with placeholders -/

theorem wellNested_ofText (s : String) : WellNested [Token.ofText s] :=
  wellNested_singleton rfl (Token.nestedBelow_of_children_eq_nil rfl)

theorem Mask.wellNested_expand {m : Mask} (hspans : ∀ span ∈ m.spans, WellNested span.tokens)
    (s : List Char) : WellNested (m.expand s) := by
  unfold Mask.expand
  split
  · exact wellNested_ofText _
  · refine wellNested_flatMap fun segment hsegment => ?_
    cases segment with
    | plain t => exact wellNested_ofText _
    | span span => exact hspans span (mem_spans_of_mem_segments s hsegment)

namespace TokenStream.Origin

variable {o : Origin} {around : Surroundings} {extent : Extent} {inner : List Token}

/-! ### Tags and leaves -/

theorem wellNested_wrap {kinds : TokenKind × TokenKind} (hkinds : kinds.1.closing? = some kinds.2)
    (tag markup : String) (h : WellNested inner) : WellNested (wrap kinds tag markup inner) :=
  h.wrap ⟨rfl, rfl⟩ ⟨rfl, rfl⟩ ⟨hkinds, rfl, rfl⟩

theorem wellNested_wrapBlock {kinds : TokenKind × TokenKind}
    (hkinds : kinds.1.closing? = some kinds.2) (tag markup : String) (h : WellNested inner) :
    WellNested (wrapBlock kinds tag markup extent inner) :=
  h.wrap ⟨rfl, rfl⟩ ⟨rfl, rfl⟩ ⟨hkinds, rfl, rfl⟩

/-- A token without content that neither opens nor closes anything. -/
theorem wellNested_leaf {t : Token} (hnesting : t.nesting = 0) (hchildren : t.children = []) :
    WellNested [t] :=
  wellNested_singleton hnesting (Token.nestedBelow_of_children_eq_nil hchildren)

theorem wellNested_rawToken (n : Node) : WellNested [o.rawToken around n] :=
  wellNested_leaf rfl rfl

/-! ### Text -/

theorem wellNested_linkTokens (url title : String) (h : WellNested inner) :
    WellNested (o.linkTokens url title inner) :=
  h.wrap ⟨rfl, rfl⟩ ⟨rfl, rfl⟩ ⟨rfl, rfl, rfl⟩

theorem wellNested_imageToken (url title shown : String) (h : WellNested inner) :
    WellNested [o.imageToken url title shown inner] :=
  wellNested_singleton rfl h.nestedBelow

mutual

/-- The tokens of a node in a text are nested. -/
theorem wellNested_inlineTokens (hspans : ∀ span ∈ o.mask.spans, WellNested span.tokens)
    (around : Surroundings) : ∀ n : Node, WellNested (o.inlineTokens around n)
  | ⟨kind, extent, children⟩ => by
    have hinner := wellNested_inlineTokensAll hspans ⟨kind :: around.above, []⟩ children
    unfold inlineTokens
    split
    · exact Mask.wellNested_expand hspans _
    · exact wellNested_leaf rfl rfl
    · exact wellNested_leaf rfl rfl
    · exact wellNested_leaf rfl rfl
    · exact wellNested_leaf rfl rfl
    · exact wellNested_wrap rfl _ _ hinner
    · exact wellNested_wrap rfl _ _ hinner
    · exact wellNested_wrap rfl _ _ hinner
    · exact wellNested_linkTokens _ _ hinner
    · exact wellNested_imageToken _ _ _ hinner
    · exact wellNested_leaf rfl rfl
    · exact wellNested_rawToken _

/-- The tokens of a list of nodes in a text are nested. -/
theorem wellNested_inlineTokensAll (hspans : ∀ span ∈ o.mask.spans, WellNested span.tokens)
    (around : Surroundings) : ∀ ns : List Node, WellNested (o.inlineTokensAll around ns)
  | [] => wellNested_nil
  | n :: rest => by
    rw [inlineTokensAll]
    exact (wellNested_inlineTokens hspans around n).append (wellNested_inlineTokensAll hspans _ rest)

end

/-! ### Blocks -/

section Blocks

variable (hspans : ∀ span ∈ o.mask.spans, WellNested span.tokens)

include hspans

theorem wellNested_textToken (around : Surroundings) (kind : Kind) (extent : Extent)
    (content : String) (children : List Node) :
    WellNested [o.textToken around kind extent content children] :=
  wellNested_singleton rfl
    (wellNested_inlineTokensAll hspans ⟨kind :: around.above, []⟩ children).nestedBelow

theorem wellNested_paragraphTokens (tight : Bool) (children : List Node) :
    WellNested (o.paragraphTokens around tight extent children) := by
  refine (wellNested_textToken hspans around _ extent _ children).wrap ?_ ?_ ?_
  · exact ⟨rfl, rfl⟩
  · exact ⟨rfl, rfl⟩
  · exact ⟨rfl, rfl, rfl⟩

theorem wellNested_headingTokens (level : Nat) (setext : Bool) (children : List Node) :
    WellNested (o.headingTokens around level setext extent children) :=
  wellNested_wrapBlock rfl _ _ (wellNested_textToken hspans around _ extent _ children)

omit hspans in
theorem wellNested_listTokens (style : ListStyle) (h : WellNested inner) :
    WellNested (listTokens style extent inner) := by
  unfold listTokens
  split
  · exact h.wrap ⟨rfl, rfl⟩ ⟨rfl, rfl⟩ ⟨rfl, rfl, rfl⟩
  · exact wellNested_wrapBlock rfl _ _ h

/-! ### Tables -/

theorem wellNested_cellTokens (header : Bool) (alignment : Markdown.Alignment) (cell : Node) :
    WellNested (o.cellTokens around header alignment cell) := by
  have htext := wellNested_textToken hspans around cell.kind cell.extent
    (o.plainContent cell.children) cell.children
  cases header
  all_goals
    refine htext.wrap ?_ ?_ ?_
    · exact ⟨rfl, rfl⟩
    · exact ⟨rfl, rfl⟩
    · exact ⟨rfl, rfl, rfl⟩

theorem wellNested_cellsTokens (header : Bool) (alignments : List Markdown.Alignment)
    (cells : List Node) : WellNested (o.cellsTokens around header alignments cells) := by
  induction cells generalizing alignments with
  | nil => exact wellNested_nil
  | cons cell rest ih => exact (wellNested_cellTokens hspans header _ cell).append (ih _)

theorem wellNested_rowTokens (around : Surroundings) (alignments : List Markdown.Alignment)
    (row : Node) : WellNested (o.rowTokens around alignments row) :=
  wellNested_wrapBlock rfl _ _ (wellNested_cellsTokens hspans _ alignments row.children)

/-- Inside the body of a table, the rows are nested and the tag that closes the body follows. -/
theorem rowsTokens_of_inBody (around : Surroundings) (alignments : List Markdown.Alignment)
    (rows : List Node) :
    ∃ body, WellNested body ∧
      o.rowsTokens around alignments true rows = body ++ [closeBlock .tbodyClose "tbody" ""] := by
  induction rows with
  | nil => exact ⟨[], wellNested_nil, rfl⟩
  | cons row rest ih =>
    obtain ⟨body, hbody, hrest⟩ := ih
    have hrow := wellNested_rowTokens hspans around alignments row
    simp only [rowsTokens, hrest, if_true, List.nil_append, ← List.append_assoc]
    split
    · exact ⟨_, (wellNested_wrapBlock rfl _ _ hrow).append hbody, rfl⟩
    · exact ⟨_, hrow.append hbody, rfl⟩

/-- The tokens of the rows of a table are nested, wherever its headers stand. -/
theorem wellNested_rowsTokens (alignments : List Markdown.Alignment) (rows : List Node) :
    WellNested (o.rowsTokens around alignments false rows) := by
  induction rows with
  | nil => exact wellNested_nil
  | cons row rest ih =>
    have hrow := wellNested_rowTokens hspans around alignments row
    obtain ⟨body, hbody, hrest⟩ := rowsTokens_of_inBody hspans around alignments rest
    simp only [rowsTokens, hrest, Bool.false_eq_true, if_false]
    split
    · exact (wellNested_wrapBlock rfl _ _ hrow).append ih
    · rw [List.append_assoc, ← List.append_assoc _ body]
      refine (hrow.append hbody).wrap ?_ ?_ ?_
      · exact ⟨rfl, rfl⟩
      · exact ⟨rfl, rfl⟩
      · exact ⟨rfl, rfl, rfl⟩

omit hspans

/-! ### All blocks -/

mutual

/-- The tokens of a node among blocks are nested. -/
theorem wellNested_blockTokens (hspans : ∀ span ∈ o.mask.spans, WellNested span.tokens)
    (around : Surroundings) (tight : Bool) : ∀ n : Node, WellNested (o.blockTokens around tight n)
  | ⟨kind, extent, children⟩ => by
    have hinner := fun tight =>
      wellNested_blockTokensAll hspans ⟨kind :: around.above, []⟩ tight children
    unfold blockTokens
    split
    · exact hinner false
    · exact wellNested_wrapBlock rfl _ _ (hinner false)
    · exact wellNested_listTokens _ (hinner _)
    · exact wellNested_wrapBlock rfl _ _ (hinner tight)
    · exact wellNested_paragraphTokens hspans tight children
    · exact wellNested_headingTokens hspans _ _ children
    · exact wellNested_leaf rfl rfl
    · exact wellNested_leaf rfl rfl
    · exact wellNested_leaf rfl rfl
    · exact wellNested_wrapBlock rfl _ _ (wellNested_rowsTokens hspans _ children)
    · exact wellNested_leaf rfl rfl

/-- The tokens of a list of nodes among blocks are nested. -/
theorem wellNested_blockTokensAll (hspans : ∀ span ∈ o.mask.spans, WellNested span.tokens)
    (around : Surroundings) (tight : Bool) :
    ∀ ns : List Node, WellNested (o.blockTokensAll around tight ns)
  | [] => wellNested_nil
  | n :: rest => by
    rw [blockTokensAll]
    exact (wellNested_blockTokens hspans around tight n).append
      (wellNested_blockTokensAll hspans _ tight rest)

end

end Blocks

end TokenStream.Origin

/-! ### Documents -/

theorem TokenStream.wellNested_ofDocument {mask : Mask}
    (hspans : ∀ span ∈ mask.spans, WellNested span.tokens) (source : List Char) (html : Bool)
    (root : Node) : WellNested (ofDocument mask source html root) :=
  Origin.wellNested_blockTokensAll hspans _ false root.children

/-- The tokens of a document are nested at every depth if those of the claimed spans are, and they
stay so when rules that emit nested lists are applied to the texts. -/
theorem TokenStream.wellNested_document {mask : Mask}
    (hspans : ∀ span ∈ mask.spans, WellNested span.tokens) (source : List Char) (html : Bool)
    (root : Node) :
    WellNested (ofDocument mask source html root) ∧
    ∀ rules : List Rule, (∀ r ∈ rules, r.Emits fun _ ts => WellNested ts) →
      WellNested ((ofDocument mask source html root).map (Engine.spliceBlock rules)) :=
  ⟨wellNested_ofDocument hspans source html root, fun _ hrules =>
    wellNested_map_spliceBlock hrules (wellNested_ofDocument hspans source html root)⟩

/-! ### The rules of a wiki -/

/-- The tokens that stand for a table of contents are nested, since each of them stands alone. -/
theorem Toc.emits_wellNested_rule : rule.Emits fun _ ts => WellNested ts := by
  intro p a ha
  rw [eq_of_claim?_rule ha]
  exact wellNested_of_single (List.forall_mem_map.mpr fun _ _ =>
    ⟨rfl, Token.nestedBelow_of_children_eq_nil rfl⟩)

example : Nested Toc.tokens := by decide

/-- A table whose only header is its second row, with a claimed span in the first cell and another
wikilink in the text of an image, and the marker of a table of contents behind it. -/
def lateHeader : Node :=
  ⟨.document, {}, [⟨.table [.left], {}, [
    ⟨.tableRow false, {}, [⟨.tableCell, {}, [Node.text "\uE0000\uE001".toList]⟩]⟩,
    ⟨.tableRow true, {}, [⟨.tableCell, {}, [⟨.emphasis, {}, [
      ⟨.image "i" "", {}, [Node.text "[[b]]".toList]⟩, Node.text "[[c]]".toList]⟩]⟩]⟩]⟩,
    ⟨.paragraph, {}, [Node.text "[toc]".toList]⟩]⟩

theorem TokenStream.wellNested_lateHeader :
    let rules := [Toc.rule, Wikilink.rule .lowercase]
    let mask := Mask.ofText [Wikilink.rule .lowercase] "[[a]]".toList
    let blocks := ofDocument mask "[[a]]".toList false lateHeader
    (∀ span ∈ mask.spans, WellNested span.tokens) ∧
    (∀ r ∈ rules, r.Emits fun _ ts => WellNested ts) ∧
    blocks.map Token.kind =
      [.tableOpen, .tbodyOpen, .trOpen, .tdOpen, .inline, .tdClose, .trClose, .theadOpen, .trOpen,
        .thOpen, .inline, .thClose, .trClose, .theadClose, .tbodyClose, .tableClose,
        .paragraphOpen, .inline, .paragraphClose] ∧
    ((blocks.map (Engine.spliceBlock rules)).filter (·.kind = .inline)).map
        (fun t => t.children.map Token.kind) =
      [[.linkOpen, .text, .linkClose], [.emOpen, .image, .linkOpen, .text, .linkClose, .emClose],
        [.tocOpen, .tocBody, .tocClose]] ∧
    WellNested (blocks.map (Engine.spliceBlock rules)) := by
  intro rules mask blocks
  have hwikilink := Wikilink.emits_wellNested_rule .lowercase
  have hspans : ∀ span ∈ mask.spans, WellNested span.tokens := by
    intro span hspan
    obtain ⟨line, _, h, _⟩ :=
      Mask.exists_line_of_mem_spans (List.forall_mem_singleton.mpr hwikilink) hspan
    exact h
  have hrules : ∀ r ∈ rules, r.Emits fun _ ts => WellNested ts :=
    List.forall_mem_cons.mpr ⟨Toc.emits_wellNested_rule, List.forall_mem_singleton.mpr hwikilink⟩
  exact ⟨hspans, hrules, by decide +kernel, by decide +kernel,
    (wellNested_document hspans _ _ _).2 rules hrules⟩

/-- The tokens that an engine reads from a source are nested if its rules emit nested lists. -/
theorem Engine.wellNested_blockTokens (e : Engine)
    (hsource : ∀ r ∈ e.sourceRules, r.Emits fun _ ts => WellNested ts)
    (hinline : ∀ r ∈ e.inlineRules, r.Emits fun _ ts => WellNested ts) (source : List Char) :
    WellNested (e.blockTokens source) := by
  refine wellNested_map_spliceBlock hinline (TokenStream.wellNested_ofDocument ?_ _ _ _)
  intro span hspan
  obtain ⟨line, _, hspan, _⟩ := Mask.exists_line_of_mem_spans hsource hspan
  exact hspan

/-- The tokens that a processor reads from a source are nested. -/
theorem Processor.wellNested_blockTokens [UrlParser] (o : MarkdownOptions)
    (anchors targets : Slugger) (source : List Char) : WellNested ((engineOf o anchors targets).blockTokens source) :=
  Engine.wellNested_blockTokens (engineOf o anchors targets)
    (List.forall_mem_singleton.mpr (Wikilink.emits_wellNested_rule targets))
    (List.forall_mem_singleton.mpr Toc.emits_wellNested_rule) source

end WikiPress
