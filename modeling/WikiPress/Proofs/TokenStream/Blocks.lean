import WikiPress.Engine
import WikiPress.Proofs.LinkPolicy.Link
import WikiPress.Proofs.Mask.Placeholder
import WikiPress.Proofs.Mask.Span
import WikiPress.Proofs.Splice.Tokens
import WikiPress.Proofs.Toc.Marker
import WikiPress.Proofs.Wikilink
import WikiPress.TokenStream.Basic

/-!
# Headings and texts among the tokens of a document

At the level of blocks, a heading of the tree becomes three tokens: its opening tag, its text and
its closing tag.  All other tokens there belong to no heading, and no link stands among them.  Links
stand in the texts of blocks, and a text holds no further texts, so that all of them are found below
the tokens of the blocks.

Headings of the tree become tokens where block quotes, lists and their items are the only blocks
around them; below all other nodes they become part of other tokens.

## Main definitions

* `HeadingNode`, `headingNodes` : the headings of a tree that become tokens.
* `Flat` : tokens that can stand in a text.
* `IsOther` : tokens that belong to no heading.
* `Headed` : tokens at the level of blocks, with their headings.

## Main results

* `Origin.headed_blockTokensAll` : the tokens of a tree have the headings of the tree.
* `Headed.map_spliceBlock`, `Headed.applyAll` : rules for texts and the policy for links leave the
  headings as they are.
* `Processor.headed_blocksOfTree` : the tokens that a processor makes of a tree.
-/

namespace WikiPress.TokenStream

open Text Markdown

/-! ### The headings of a tree -/

/-- A heading of a tree. -/
structure HeadingNode where
  level : Nat
  setext : Bool
  extent : Extent
  children : List Node

mutual

/-- The headings that a node has among the blocks of a document. -/
def headingNodes : Node → List HeadingNode
  | ⟨kind, extent, children⟩ =>
    match kind with
    | .document => headingNodesAll children
    | .blockQuote => headingNodesAll children
    | .list _ => headingNodesAll children
    | .item _ => headingNodesAll children
    | .heading level setext => [⟨level, setext, extent, children⟩]
    | _ => []

/-- The headings of a list of nodes. -/
def headingNodesAll : List Node → List HeadingNode
  | [] => []
  | n :: rest => headingNodes n ++ headingNodesAll rest

end

namespace HeadingNode

variable (h : HeadingNode)

/-- The content that is recorded for a heading. -/
def content (o : Origin) : String := o.headingContent h.extent h.setext h.children

/-- The opening tag of a heading. -/
def openToken : Token :=
  Origin.openBlock .headingOpen ("h" ++ toString h.level) (Origin.headingMarkup h.level h.setext)
    h.extent

/-- The closing tag of a heading. -/
def closeToken : Token :=
  Origin.closeBlock .headingClose ("h" ++ toString h.level)
    (Origin.headingMarkup h.level h.setext)

end HeadingNode

/-! ### Texts -/

/-- A token of a text: neither it nor any token below it is the text of a block, and each of them
has its attributes once. -/
inductive IsInner : Token → Prop
  | intro {t : Token} : t.kind ≠ .inline → (t.attributes.map Prod.fst).Nodup →
      (∀ u ∈ t.children, IsInner u) → IsInner t

section IsInner

variable {t : Token}

theorem IsInner.kind_ne (h : IsInner t) : t.kind ≠ .inline := by
  cases h with
  | intro h _ _ => exact h

theorem IsInner.nodup (h : IsInner t) : (t.attributes.map Prod.fst).Nodup := by
  cases h with
  | intro _ h _ => exact h

theorem IsInner.children (h : IsInner t) : ∀ u ∈ t.children, IsInner u := by
  cases h with
  | intro _ _ h => exact h

/-- A token with no attributes and nothing below it. -/
theorem isInner_of_bare (hkind : (t.kind == .inline) = false) (hattributes : t.attributes = [])
    (hchildren : t.children = []) : IsInner t :=
  .intro (ne_of_beq_false hkind) (by simp [hattributes]) (by simp [hchildren])

end IsInner

/-- Tokens that can stand in a text: there are some. -/
structure Flat (ts : List Token) : Prop where
  ne_nil : ts ≠ []
  inner : ∀ t ∈ ts, IsInner t

section Flat

variable {t : Token} {ts : List Token}

theorem flat_singleton (h : IsInner t) : Flat [t] :=
  ⟨List.cons_ne_nil _ _, List.forall_mem_singleton.mpr h⟩

theorem flat_wrap {opening closing : Token} (hopening : IsInner opening)
    (hclosing : IsInner closing) (h : ∀ t ∈ ts, IsInner t) :
    Flat (opening :: (ts ++ [closing])) := by
  refine ⟨List.cons_ne_nil _ _, List.forall_mem_cons.mpr ⟨hopening, ?_⟩⟩
  exact List.forall_mem_append.mpr ⟨h, List.forall_mem_singleton.mpr hclosing⟩

theorem flat_ofText (s : String) : Flat [Token.ofText s] :=
  flat_singleton (isInner_of_bare rfl rfl rfl)

end Flat

/-- A text with a mark of a placeholder is cut into at least one piece. -/
theorem segments_ne_nil {m : Mask} {s : List Char} (h : Mask.opening ∈ s) : m.segments s ≠ [] := by
  induction s using Mask.segments_induction (m := m) with
  | plain s hs => exact absurd h hs
  | span before after span rest hbefore hr _ =>
    rw [Mask.segments_append_of_readSpan? hbefore hr]
    simp
  | stray before after hbefore hr _ =>
    rw [Mask.segments_append_of_none hbefore hr]
    exact List.cons_ne_nil _ _

theorem flat_expand {m : Mask} (hspans : ∀ span ∈ m.spans, Flat span.tokens) (s : List Char) :
    Flat (m.expand s) := by
  unfold Mask.expand
  split
  · exact flat_ofText _
  · next hmark =>
    have hsegment : ∀ segment ∈ m.segments s, Flat (Mask.segmentTokens segment) := by
      intro segment hsegment
      cases segment with
      | plain t => exact flat_ofText _
      | span span => exact hspans span (Mask.mem_spans_of_mem_segments s hsegment)
    have hne : m.segments s ≠ [] := by
      refine segments_ne_nil (Classical.byContradiction fun hnot => hmark ?_)
      rw [Bool.not_eq_true', Mask.holdsPlaceholder_eq_false_iff]
      exact .inr hnot
    refine ⟨fun hnil => ?_, ?_⟩
    · obtain ⟨segment, hmem⟩ := List.exists_mem_of_ne_nil _ hne
      exact (hsegment segment hmem).ne_nil (List.flatMap_eq_nil_iff.mp hnil segment hmem)
    · intro t ht
      obtain ⟨segment, hmem, ht⟩ := List.mem_flatMap.mp ht
      exact (hsegment segment hmem).inner t ht

namespace Origin

variable {o : Origin} (hspans : ∀ span ∈ o.mask.spans, Flat span.tokens)

theorem nodup_linkKeys (o : Origin) (url title : String) :
    ((("href", url) :: o.titleAttributes title).map Prod.fst).Nodup := by
  unfold titleAttributes
  split <;> simp

theorem nodup_imageKeys (o : Origin) (url alt title : String) :
    ((("src", url) :: ("alt", alt) :: o.titleAttributes title).map Prod.fst).Nodup := by
  unfold titleAttributes
  split <;> simp

theorem flat_linkTokens (url title : String) {inner : List Token}
    (h : ∀ t ∈ inner, IsInner t) : Flat (o.linkTokens url title inner) :=
  flat_wrap (.intro (ne_of_beq_false rfl) (nodup_linkKeys o _ title) (by simp [openTag]))
    (isInner_of_bare rfl rfl rfl) h

theorem isInner_imageToken (url title shown : String) {inner : List Token}
    (h : ∀ t ∈ inner, IsInner t) : IsInner (o.imageToken url title shown inner) :=
  .intro (ne_of_beq_false rfl) (nodup_imageKeys o _ _ title) h

mutual

/-- The tokens of a node in a text. -/
theorem flat_inlineTokens (hspans : ∀ span ∈ o.mask.spans, Flat span.tokens)
    (around : Surroundings) : ∀ n : Node, Flat (o.inlineTokens around n)
  | ⟨kind, extent, children⟩ => by
    have hinner := isInner_of_mem_inlineTokensAll hspans ⟨kind :: around.above, []⟩ children
    have hwrap (kinds : TokenKind × TokenKind) (hopen : (kinds.1 == .inline) = false)
        (hclose : (kinds.2 == .inline) = false) (tag markup : String) :
        Flat (wrap kinds tag markup
          (o.inlineTokensAll ⟨kind :: around.above, []⟩ children)) :=
      flat_wrap (isInner_of_bare hopen rfl rfl) (isInner_of_bare hclose rfl rfl) hinner
    cases kind with
    | text => exact flat_expand hspans _
    | emphasis => exact hwrap _ rfl rfl _ _
    | strong => exact hwrap _ rfl rfl _ _
    | strikethrough => exact hwrap _ rfl rfl _ _
    | link url title => exact flat_linkTokens url title hinner
    | image url title => exact flat_singleton (isInner_imageToken url title _ hinner)
    | _ => exact flat_singleton (isInner_of_bare rfl rfl rfl)

theorem isInner_of_mem_inlineTokensAll (hspans : ∀ span ∈ o.mask.spans, Flat span.tokens)
    (around : Surroundings) :
    ∀ ns : List Node, ∀ t ∈ o.inlineTokensAll around ns, IsInner t
  | [] => by simp [inlineTokensAll]
  | n :: rest => by
    rw [inlineTokensAll, List.forall_mem_append]
    exact ⟨(flat_inlineTokens hspans around n).inner,
      isInner_of_mem_inlineTokensAll hspans _ rest⟩

end

include hspans in
theorem inlineTokensAll_ne_nil (around : Surroundings) {ns : List Node} (h : ns ≠ []) :
    o.inlineTokensAll around ns ≠ [] := by
  cases ns with
  | nil => exact absurd rfl h
  | cons n rest =>
    rw [inlineTokensAll]
    exact List.append_ne_nil_of_left_ne_nil (flat_inlineTokens hspans around n).ne_nil _

end Origin

/-! ### Blocks -/

/-- Whether tokens of a kind neither begin nor end a heading and begin no link. -/
def isOtherKind : TokenKind → Bool
  | .headingOpen => false
  | .headingClose => false
  | .linkOpen => false
  | _ => true

/-- A token at the level of blocks, with its attributes once and tokens of a text below it. -/
structure IsOuter (t : Token) : Prop where
  nodup : (t.attributes.map Prod.fst).Nodup
  inner : ∀ u ∈ t.children, IsInner u

/-- A token at the level of blocks that belongs to no heading and is no link. -/
structure IsOther (t : Token) : Prop extends IsOuter t where
  kind : isOtherKind t.kind = true

theorem IsOther.kind_ne {t : Token} (h : IsOther t) {kind : TokenKind}
    (hkind : isOtherKind kind = false) : t.kind ≠ kind := by
  rintro rfl
  exact Bool.noConfusion (h.kind.symm.trans hkind)

/-- The token for the text of a heading.  If there are nodes in the heading, there are tokens. -/
structure HeadingNode.IsText (o : Origin) (h : HeadingNode) (t : Token) : Prop
    extends IsOuter t where
  kind : t.kind = .inline
  content : t.content = h.content o
  lines : t.lines = Origin.blockLines h.extent
  ne_nil : h.children ≠ [] → t.children ≠ []

/-- Tokens at the level of blocks, in which the given headings of a tree have their three tokens. -/
inductive Headed (o : Origin) : List Token → List HeadingNode → Prop
  | nil : Headed o [] []
  | other {t : Token} {ts : List Token} {hs : List HeadingNode} : IsOther t → Headed o ts hs →
      Headed o (t :: ts) hs
  | heading {h : HeadingNode} {text : Token} {ts : List Token} {hs : List HeadingNode} :
      h.IsText o text → Headed o ts hs →
      Headed o (h.openToken :: text :: h.closeToken :: ts) (h :: hs)

section Headed

variable {o : Origin} {t : Token} {ts us : List Token} {hs gs : List HeadingNode}

theorem Headed.append (h : Headed o ts hs) (h' : Headed o us gs) :
    Headed o (ts ++ us) (hs ++ gs) := by
  induction h with
  | nil => exact h'
  | other ht _ ih => exact .other ht ih
  | heading htext _ ih => exact .heading htext ih

/-- Blocks between two tokens. -/
theorem Headed.wrap {opening closing : Token} (hopening : IsOther opening)
    (hclosing : IsOther closing) (h : Headed o ts hs) :
    Headed o (opening :: (ts ++ [closing])) hs := by
  have := h.append (.other hclosing .nil)
  rw [List.append_nil] at this
  exact .other hopening this

theorem headed_of_forall (h : ∀ t ∈ ts, IsOther t) : Headed o ts [] := by
  induction ts with
  | nil => exact .nil
  | cons t ts ih =>
    rw [List.forall_mem_cons] at h
    exact .other h.1 (ih h.2)

end Headed

namespace Origin

variable {o : Origin} {around : Surroundings} {extent : Extent}
  (hspans : ∀ span ∈ o.mask.spans, Flat span.tokens)

/-- A token with nothing below it. -/
theorem isOther_of_children_eq_nil {t : Token} (hkind : isOtherKind t.kind = true)
    (hkeys : (t.attributes.map Prod.fst).Nodup) (hchildren : t.children = []) : IsOther t :=
  ⟨⟨hkeys, by simp [hchildren]⟩, hkind⟩

/-- A token with no attributes and nothing below it. -/
theorem isOther_of_bare {t : Token} (hkind : isOtherKind t.kind = true)
    (hattributes : t.attributes = []) (hchildren : t.children = []) : IsOther t :=
  isOther_of_children_eq_nil hkind (by simp [hattributes]) hchildren

include hspans in
theorem isOther_textToken (around : Surroundings) (kind : Kind) (extent : Extent)
    (content : String) (children : List Node) :
    IsOther (o.textToken around kind extent content children) :=
  ⟨⟨List.nodup_nil, isInner_of_mem_inlineTokensAll hspans _ children⟩, rfl⟩

include hspans in
theorem headed_headingTokens (level : Nat) (setext : Bool) (children : List Node) :
    Headed o (o.headingTokens around level setext extent children)
      [⟨level, setext, extent, children⟩] :=
  .heading (h := ⟨level, setext, extent, children⟩)
    ⟨⟨List.nodup_nil, isInner_of_mem_inlineTokensAll hspans _ _⟩, rfl, rfl, rfl,
      inlineTokensAll_ne_nil hspans _⟩ .nil

theorem nodup_styleKeys (alignment : Markdown.Alignment) :
    ((match alignmentStyle? alignment with
      | some style => [("style", style)]
      | none => []).map Prod.fst).Nodup := by
  cases alignment <;> decide

include hspans in
theorem isOther_of_mem_cellsTokens (header : Bool) (alignments : List Markdown.Alignment)
    (cells : List Node) : ∀ t ∈ o.cellsTokens around header alignments cells, IsOther t := by
  induction cells generalizing alignments with
  | nil => simp [cellsTokens]
  | cons cell rest ih =>
    rw [cellsTokens, List.forall_mem_append]
    refine ⟨?_, ih _⟩
    have htext := isOther_textToken hspans around cell.kind cell.extent
      (o.plainContent cell.children) cell.children
    cases header
    all_goals
      refine List.forall_mem_cons.mpr ⟨?_, List.forall_mem_cons.mpr
        ⟨htext, List.forall_mem_singleton.mpr ?_⟩⟩
      · exact isOther_of_children_eq_nil rfl (nodup_styleKeys _) rfl
      · exact isOther_of_bare rfl rfl rfl

include hspans in
theorem isOther_of_mem_rowTokens (around : Surroundings) (alignments : List Markdown.Alignment)
    (row : Node) : ∀ t ∈ o.rowTokens around alignments row, IsOther t := by
  rw [rowTokens, wrapBlock, List.forall_mem_cons, List.forall_mem_append, List.forall_mem_singleton]
  exact ⟨isOther_of_bare rfl rfl rfl, isOther_of_mem_cellsTokens hspans _ _ _,
    isOther_of_bare rfl rfl rfl⟩

include hspans in
theorem isOther_of_mem_rowsTokens (around : Surroundings) (alignments : List Markdown.Alignment)
    (inBody : Bool) (rows : List Node) :
    ∀ t ∈ o.rowsTokens around alignments inBody rows, IsOther t := by
  induction rows generalizing inBody with
  | nil =>
    rw [rowsTokens]
    split
    · exact List.forall_mem_singleton.mpr (isOther_of_bare rfl rfl rfl)
    · simp
  | cons row rest ih =>
    have hrow := isOther_of_mem_rowTokens hspans around alignments row
    simp only [rowsTokens]
    split
    · rw [List.forall_mem_append, wrapBlock, List.forall_mem_cons, List.forall_mem_append,
        List.forall_mem_singleton]
      exact ⟨⟨isOther_of_bare rfl rfl rfl, hrow, isOther_of_bare rfl rfl rfl⟩,
        ih inBody⟩
    · rw [List.forall_mem_append, List.forall_mem_append]
      refine ⟨⟨?_, hrow⟩, ih true⟩
      split
      · simp
      · exact List.forall_mem_singleton.mpr (isOther_of_bare rfl rfl rfl)

theorem headed_listTokens (style : ListStyle) {inner : List Token} {hs : List HeadingNode}
    (h : Headed o inner hs) : Headed o (listTokens style extent inner) hs := by
  unfold listTokens
  split
  · refine h.wrap (isOther_of_children_eq_nil rfl ?_ rfl) (isOther_of_bare rfl rfl rfl)
    split <;> simp
  · exact h.wrap (isOther_of_bare rfl rfl rfl) (isOther_of_bare rfl rfl rfl)

theorem headed_wrapBlock {kinds : TokenKind × TokenKind} (hopen : isOtherKind kinds.1 = true)
    (hclose : isOtherKind kinds.2 = true) (tag markup : String) {inner : List Token}
    {hs : List HeadingNode} (h : Headed o inner hs) :
    Headed o (wrapBlock kinds tag markup extent inner) hs :=
  h.wrap (isOther_of_bare hopen rfl rfl) (isOther_of_bare hclose rfl rfl)

theorem headed_singleton {t : Token} (h : IsOther t) : Headed o [t] [] := .other h .nil

mutual

/-- The tokens of a node have the headings of the node. -/
theorem headed_blockTokens (hspans : ∀ span ∈ o.mask.spans, Flat span.tokens)
    (around : Surroundings) (tight : Bool) :
    ∀ n : Node, Headed o (o.blockTokens around tight n) (headingNodes n)
  | ⟨kind, extent, children⟩ => by
    have hinner := fun tight =>
      headed_blockTokensAll hspans ⟨kind :: around.above, []⟩ tight children
    cases kind with
    | document => exact hinner false
    | blockQuote => exact headed_wrapBlock rfl rfl _ _ (hinner false)
    | list style => exact headed_listTokens style (hinner style.tight)
    | item => exact headed_wrapBlock rfl rfl _ _ (hinner tight)
    | heading level setext => exact headed_headingTokens hspans level setext children
    | paragraph =>
      refine Headed.wrap ?_ ?_
        (headed_singleton (isOther_textToken hspans around _ extent _ children))
      · exact isOther_of_bare rfl rfl rfl
      · exact isOther_of_bare rfl rfl rfl
    | codeBlock fenced =>
      exact headed_singleton (isOther_of_bare (by cases fenced <;> rfl) rfl rfl)
    | table alignments =>
      exact headed_wrapBlock rfl rfl _ _
        (headed_of_forall (isOther_of_mem_rowsTokens hspans _ _ _ _))
    | _ => exact headed_singleton (isOther_of_bare rfl rfl rfl)

/-- The tokens of a list of nodes have the headings of the nodes. -/
theorem headed_blockTokensAll (hspans : ∀ span ∈ o.mask.spans, Flat span.tokens)
    (around : Surroundings) (tight : Bool) :
    ∀ ns : List Node, Headed o (o.blockTokensAll around tight ns) (headingNodesAll ns)
  | [] => .nil
  | n :: rest => by
    rw [blockTokensAll, headingNodesAll]
    exact (headed_blockTokens hspans around tight n).append
      (headed_blockTokensAll hspans _ tight rest)

end

end Origin

/-! ### Changes to texts -/

/-- A token with the tokens of its text changed, if it is the text of a block. -/
def mapText (f : List Token → List Token) (t : Token) : Token :=
  if t.kind = .inline then { t with children := f t.children } else t

/-- The headings stay when texts are changed, if no text vanishes. -/
theorem Headed.map_mapText {o : Origin} {f : List Token → List Token} {ts : List Token}
    {hs : List HeadingNode} (hne : ∀ us, us ≠ [] → f us ≠ [])
    (hinner : ∀ us, (∀ u ∈ us, IsInner u) → ∀ u ∈ f us, IsInner u)
    (h : Headed o ts hs) : Headed o (ts.map (mapText f)) hs := by
  induction h with
  | nil => exact .nil
  | @other t ts hs ht _ ih =>
    refine .other ?_ ih
    unfold mapText
    split
    · exact ⟨⟨ht.nodup, hinner _ ht.inner⟩, ht.kind⟩
    · exact ht
  | @heading h text ts hs htext _ ih =>
    have hmap : mapText f text = { text with children := f text.children } := if_pos htext.kind
    have htext' : h.IsText o (mapText f text) := by
      rw [hmap]
      exact ⟨⟨htext.nodup, hinner _ htext.inner⟩, htext.kind, htext.content, htext.lines,
        fun hchildren => hne _ (htext.ne_nil hchildren)⟩
    exact .heading htext' ih

/-- Rules leave the headings as they are. -/
theorem Headed.map_spliceBlock {o : Origin} {rules : List Rule} {ts : List Token}
    {hs : List HeadingNode} (hrules : ∀ r ∈ rules, r.Emits fun _ ts => Flat ts)
    (h : Headed o ts hs) : Headed o (ts.map (Engine.spliceBlock rules)) hs := by
  refine h.map_mapText (fun us hus => ?_) fun us hus => ?_
  · exact spliceRules_ne_nil (fun r hr p a ha => (hrules r hr p a ha).ne_nil) hus
  · exact forall_mem_spliceRules (fun _ => isInner_of_bare rfl rfl rfl)
      (fun r hr p a ha => (hrules r hr p a ha).inner) hus

theorem isInner_applyInline [UrlParser] (p : LinkPolicy) {t : Token} (h : IsInner t) :
    IsInner (p.applyInline t) := by
  unfold LinkPolicy.applyInline
  split
  · obtain ⟨as, heq, _, hnodup⟩ := LinkPolicy.reworked_apply p t
    rw [heq]
    exact .intro h.kind_ne (hnodup h.nodup) h.children
  · exact h

/-- The policy for links leaves the headings as they are. -/
theorem Headed.applyAll [UrlParser] {o : Origin} {ts : List Token} {hs : List HeadingNode}
    (p : LinkPolicy) (h : Headed o ts hs) : Headed o (p.applyAll ts) hs := by
  refine h.map_mapText (f := List.map p.applyInline) (fun us hus => by simpa using hus) ?_
  intro us hus
  exact List.forall_mem_map.mpr fun u hu => isInner_applyInline p (hus u hu)

/-! ### The rules of a wiki -/

theorem flat_wikilink (slugger : Slugger) (inner : List Char) :
    Flat (Wikilink.tokens slugger inner) :=
  show Flat (_ :: ([_] ++ [_])) from flat_wrap
    (.intro (ne_of_beq_false rfl) (by simp) (by simp))
    (isInner_of_bare rfl rfl rfl) (flat_ofText _).inner

theorem emits_flat_wikilink (slugger : Slugger) :
    (Wikilink.rule slugger).Emits fun _ ts => Flat ts := by
  intro p a ha
  obtain ⟨inner, rest, _, rfl⟩ := Wikilink.eq_of_claim?_rule ha
  exact flat_wikilink slugger inner

theorem emits_flat_toc : Toc.rule.Emits fun _ ts => Flat ts := by
  intro p a ha
  rw [Toc.eq_of_claim?_rule ha]
  exact show Flat (_ :: ([_] ++ [_])) from flat_wrap (isInner_of_bare rfl rfl rfl)
    (isInner_of_bare rfl rfl rfl) (List.forall_mem_singleton.mpr (isInner_of_bare rfl rfl rfl))

end WikiPress.TokenStream

/-! ### Documents -/

namespace WikiPress

open Text Markdown TokenStream

/-- The tokens of a tree that was read from the masked form of a source, before the passes. -/
def Engine.blocksOfTree (e : Engine) (source : List Char) (root : Node) : List Token :=
  (ofDocument (Mask.ofText e.sourceRules source) source e.options.html root).map
    (Engine.spliceBlock e.inlineRules)

theorem Engine.blockTokens_eq (e : Engine) (source : List Char) :
    e.blockTokens source =
      e.blocksOfTree source (parse e.options.dialect (Mask.ofText e.sourceRules source).text) := rfl

/-- What the tokens of a processor need to know of a source. -/
def Processor.origin (o : MarkdownOptions) (targets : Slugger) (source : List Char) : Origin where
  mask := Mask.ofText [Wikilink.rule targets] source
  lines := sourceLines source
  html := o.html

/-- The tokens that a processor makes of a tree have the headings of the tree. -/
theorem Processor.headed_blocksOfTree [UrlParser] (o : MarkdownOptions)
    (anchors targets : Slugger) (source : List Char) (root : Node) :
    Headed (origin o targets source) ((engineOf o anchors targets).blocksOfTree source root)
      (headingNodesAll root.children) := by
  have hspans : ∀ span ∈ (origin o targets source).mask.spans, Flat span.tokens := by
    intro span hspan
    obtain ⟨line, _, hflat, _⟩ := Mask.exists_line_of_mem_spans
      (List.forall_mem_singleton.mpr (emits_flat_wikilink targets)) hspan
    exact hflat
  exact (Origin.headed_blockTokensAll hspans _ false root.children).map_spliceBlock
    (List.forall_mem_singleton.mpr emits_flat_toc)

end WikiPress
