import WikiPress.Proofs.Markdown.Whole
import WikiPress.Proofs.Text.Blank
import WikiPress.TokenStream.Basic

/-!
# The tokens of a document have no placeholders

Every string of a token is a fixed one, comes from the source, or has its placeholders replaced.
If the strings of a document have whole placeholders and the source and the tokens of the claimed
spans have none, no character of a placeholder is left in the tokens of the document.

## Main definitions

* `Token.strings` : the strings of a token.
* `Token.Free` : a token without characters of placeholders at every depth.
* `TokenStream.Origin.Free` : spans and lines of a source without these characters.

## Main results

* `TokenStream.free_headingContent?` : the text of a heading in its source has no placeholders.
* `TokenStream.Origin.free_inlineTokens` : the tokens of a node in a text have none.
* `TokenStream.Origin.free_blockTokens` : the tokens of a node among blocks have none.
-/

namespace WikiPress

open Text Markdown Mask

/-! ### Tokens -/

/-- The strings of a token, without those of its children. -/
def Token.strings (t : Token) : List String :=
  t.tag :: t.content :: t.markup :: t.info :: t.attributes.flatMap fun a => [a.1, a.2]

/-- At every depth, the strings of a token have no characters of placeholders. -/
inductive Token.Free : Token → Prop
  | intro {t : Token} : (∀ s ∈ t.strings, Mask.Free s.toList) → (∀ u ∈ t.children, Token.Free u) →
      Token.Free t

theorem Token.forall_mem_strings_iff {t : Token} {P : String → Prop} :
    (∀ s ∈ t.strings, P s) ↔ P t.tag ∧ P t.content ∧ P t.markup ∧ P t.info ∧
      ∀ a ∈ t.attributes, P a.1 ∧ P a.2 := by
  rw [strings, List.forall_mem_cons, List.forall_mem_cons, List.forall_mem_cons,
    List.forall_mem_cons]
  refine and_congr Iff.rfl (and_congr Iff.rfl (and_congr Iff.rfl (and_congr Iff.rfl ?_)))
  simp only [List.mem_flatMap, List.mem_cons, List.not_mem_nil, or_false]
  constructor
  · exact fun h a ha => ⟨h a.1 ⟨a, ha, Or.inl rfl⟩, h a.2 ⟨a, ha, Or.inr rfl⟩⟩
  · rintro h s ⟨a, ha, rfl | rfl⟩
    · exact (h a ha).1
    · exact (h a ha).2

/-- Attributes whose keys and values have no characters of placeholders. -/
def FreeAttributes (attributes : List (String × String)) : Prop :=
  ∀ a ∈ attributes, Mask.Free a.1.toList ∧ Mask.Free a.2.toList

theorem freeAttributes_nil : FreeAttributes [] := fun _ h => absurd h List.not_mem_nil

theorem FreeAttributes.cons {key value : String} {attributes : List (String × String)}
    (hkey : Mask.Free key.toList) (hvalue : Mask.Free value.toList)
    (h : FreeAttributes attributes) : FreeAttributes ((key, value) :: attributes) :=
  List.forall_mem_cons.mpr ⟨⟨hkey, hvalue⟩, h⟩

/-- A token is free if its strings and its children are. -/
theorem Token.free_mk {kind : TokenKind} {tag content markup info : String}
    {attributes : List (String × String)} {lines : Option (Nat × Nat)} {nesting : Int}
    {children : List Token} {block hidden : Bool} (htag : Mask.Free tag.toList)
    (hcontent : Mask.Free content.toList) (hmarkup : Mask.Free markup.toList)
    (hinfo : Mask.Free info.toList) (hattributes : FreeAttributes attributes)
    (hchildren : ∀ u ∈ children, u.Free) :
    Token.Free ⟨kind, tag, attributes, lines, nesting, content, markup, info, children, block,
      hidden⟩ :=
  .intro (forall_mem_strings_iff.mpr ⟨htag, hcontent, hmarkup, hinfo, hattributes⟩) hchildren

theorem Token.forall_mem_nil_free : ∀ u ∈ ([] : List Token), u.Free :=
  fun _ h => absurd h List.not_mem_nil

theorem Token.free_ofText {s : List Char} (h : Mask.Free s) :
    (Token.ofText (String.ofList s)).Free := by
  have hs : Mask.Free (String.ofList s).toList := by rwa [String.toList_ofList]
  exact free_mk free_nil hs free_nil free_nil freeAttributes_nil forall_mem_nil_free

/-! ### Texts with placeholders -/

namespace Mask

variable {m : Mask} {s : List Char}

theorem free_textOf {ts : List Token} (h : ∀ t ∈ ts, t.Free) : Free (textOf ts) := by
  refine .flatMap fun t ht => ?_
  cases h t (List.mem_of_mem_filter ht) with
  | intro hstrings _ => exact (Token.forall_mem_strings_iff.mp hstrings).2.1

/-- A text with whole placeholders stands for tokens without any. -/
theorem Whole.free_expand (hspans : ∀ span ∈ m.spans, ∀ t ∈ span.tokens, t.Free)
    (h : m.Whole s) : ∀ t ∈ m.expand s, t.Free := by
  intro t ht
  unfold expand at ht
  split at ht
  · next hnone =>
    rw [List.mem_singleton.mp ht]
    refine Token.free_ofText ?_
    rw [Bool.not_eq_true', holdsPlaceholder_eq_false_iff] at hnone
    rcases hnone with hnone | hnone
    · exact h.free_of_spans_eq_nil hnone
    · exact h.free_of_opening_notMem hnone
  · obtain ⟨segment, hsegment, ht⟩ := List.mem_flatMap.mp ht
    cases segment with
    | plain u =>
      rw [List.mem_singleton.mp ht]
      exact Token.free_ofText (h.free_of_mem_segments hsegment)
    | span span => exact hspans span (mem_spans_of_mem_segments s hsegment) t ht

end Mask

namespace TokenStream

/-! ### Headings -/

section Headings

variable {s : List Char} {lines : List (List Char)}

theorem atxContent_subset (line : List Char) : atxContent line ⊆ line := by
  have hcontent : trim ((trimStart line).dropWhile (· = '#')) ⊆ line := fun c hc =>
    (List.dropWhile_sublist _).subset ((List.dropWhile_sublist _).subset (trim_subset _ hc))
  have hopened := dropEndWhile_subset (· = '#') (trim ((trimStart line).dropWhile (· = '#')))
  simp only [atxContent]
  split
  · exact List.nil_subset _
  split
  · exact fun c hc => hcontent (hopened (dropEndWhile_subset _ _ hc))
  · exact hcontent

theorem free_joinLines (h : ∀ line ∈ lines, Mask.Free line) : Mask.Free (joinLines lines) := by
  fun_induction joinLines lines with
  | case1 => exact free_nil
  | case2 line => exact h line (List.mem_singleton_self line)
  | case3 line rest _ ih =>
    rw [List.forall_mem_cons] at h
    exact free_append_iff.mpr ⟨h.1, free_cons_iff.mpr ⟨by decide, ih h.2⟩⟩

/-- The text of a heading in its source has no placeholders. -/
theorem free_headingContent? {extent : Extent} {setext : Bool}
    (h : ∀ line ∈ lines, Mask.Free line) (hs : headingContent? lines extent setext = some s) :
    Mask.Free s := by
  unfold headingContent? at hs
  split at hs
  · simp at hs
  split at hs
  · split at hs
    · simp only [setextContent?] at hs
      split at hs
      · rw [← Option.some.inj hs]
        refine (free_joinLines fun line hline => ?_).of_subset (trim_subset _)
        obtain ⟨line, hmem, rfl⟩ := List.mem_map.mp hline
        have hline : line ∈ lines := List.mem_of_mem_take (List.mem_of_mem_drop hmem)
        exact (h line hline).of_subset (trim_subset line)
      · simp at hs
    · simp at hs
  · obtain ⟨line, hline, rfl⟩ := Option.map_eq_some_iff.mp hs
    refine Mask.Free.of_subset ?_ (atxContent_subset _)
    have hfree := h line (List.mem_of_getElem? hline)
    cases hdrop : dropBytes? line (extent.start.column - 1) with
    | none => exact hfree
    | some rest =>
      obtain ⟨u, rfl, _⟩ := dropBytes?_eq_some_iff.mp hdrop
      exact (free_append_iff.mp hfree).2

theorem mem_of_mem_linesOfPieces {pieces : List (List Char)} {line : List Char} {c : Char}
    (hline : line ∈ linesOfPieces pieces) (hc : c ∈ line) : ∃ piece ∈ pieces, c ∈ piece := by
  fun_induction linesOfPieces pieces with
  | case1 => exact absurd hline List.not_mem_nil
  | case2 last hlast => exact absurd hline List.not_mem_nil
  | case3 last hlast =>
    rw [List.mem_singleton.mp hline] at hc
    exact ⟨last, List.mem_singleton_self last, hc⟩
  | case4 piece rest _ ih =>
    rcases List.mem_cons.mp hline with rfl | hline
    · refine ⟨piece, List.mem_cons_self .., ?_⟩
      unfold dropReturn at hc
      split at hc
      · next before heq =>
        rw [← List.mem_reverse, heq]
        exact List.mem_cons_of_mem _ (List.mem_reverse.mp hc)
      · exact hc
    · obtain ⟨piece', hpiece, hc⟩ := ih hline
      exact ⟨piece', List.mem_cons_of_mem _ hpiece, hc⟩

theorem free_sourceLines {source : List Char} (h : Mask.Free source) :
    ∀ line ∈ sourceLines source, Mask.Free line := by
  intro line hline c hc
  obtain ⟨piece, hpiece, hc⟩ := mem_of_mem_linesOfPieces hline hc
  exact h c (mem_of_mem_splitAtEach hpiece hc)

end Headings

namespace Origin

/-- Nothing of a placeholder is in the spans or in the lines of the source. -/
structure Free (o : Origin) : Prop where
  raw : ∀ span ∈ o.mask.spans, Mask.Free span.raw
  tokens : ∀ span ∈ o.mask.spans, ∀ t ∈ span.tokens, t.Free
  lines : ∀ line ∈ o.lines, Mask.Free line

variable {o : Origin} {around : Surroundings} {extent : Extent} {inner : List Token}

/-! ### Strings of tokens -/

section Strings

variable {s title url : String} {children : List Node}

/-- A string with its placeholders replaced by the claimed text. -/
theorem Free.restoreString (ho : o.Free) (h : o.mask.Whole s.toList) :
    Mask.Free (o.mask.restoreString s).toList := by
  rw [Mask.restoreString, String.toList_ofList]
  exact h.free_replace ho.raw

theorem Free.plainContent (ho : o.Free) (h : ∀ n ∈ children, n.Whole o.mask) :
    Mask.Free (o.plainContent children).toList :=
  ho.restoreString (Node.whole_plainTexts children h)

theorem Free.titleAttributes (ho : o.Free) (h : o.mask.Whole title.toList) :
    FreeAttributes (o.titleAttributes title) := by
  unfold Origin.titleAttributes
  split
  · exact freeAttributes_nil
  · exact .cons (by decide) (ho.restoreString h) freeAttributes_nil

end Strings

/-! ### Single tokens -/

theorem free_wrapped {t c : Token} (ht : t.Free) (hc : c.Free) (h : ∀ u ∈ inner, u.Free) :
    ∀ u ∈ t :: (inner ++ [c]), u.Free :=
  List.forall_mem_cons.mpr
    ⟨ht, List.forall_mem_append.mpr ⟨h, List.forall_mem_singleton.mpr hc⟩⟩

section Tags

variable {tag markup : String} (htag : Mask.Free tag.toList) (hmarkup : Mask.Free markup.toList)

include htag hmarkup

theorem free_openTag (kind : TokenKind) : (openTag kind tag markup).Free :=
  Token.free_mk htag free_nil hmarkup free_nil freeAttributes_nil Token.forall_mem_nil_free

theorem free_closeTag (kind : TokenKind) : (closeTag kind tag markup).Free :=
  Token.free_mk htag free_nil hmarkup free_nil freeAttributes_nil Token.forall_mem_nil_free

theorem free_wrap (kinds : TokenKind × TokenKind) (h : ∀ u ∈ inner, u.Free) :
    ∀ u ∈ wrap kinds tag markup inner, u.Free :=
  free_wrapped (free_openTag htag hmarkup _) (free_closeTag htag hmarkup _) h

/-- An opening tag of a block with attributes, which may be hidden. -/
theorem free_openBlock {attributes : List (String × String)} (kind : TokenKind) (hidden : Bool)
    (h : FreeAttributes attributes) :
    ({ openBlock kind tag markup extent with attributes, hidden } : Token).Free :=
  Token.free_mk htag free_nil hmarkup free_nil h Token.forall_mem_nil_free

theorem free_closeBlock (kind : TokenKind) (hidden : Bool) :
    ({ closeBlock kind tag markup with hidden } : Token).Free :=
  Token.free_mk htag free_nil hmarkup free_nil freeAttributes_nil Token.forall_mem_nil_free

theorem free_wrapBlock (kinds : TokenKind × TokenKind) (h : ∀ u ∈ inner, u.Free) :
    ∀ u ∈ wrapBlock kinds tag markup extent inner, u.Free :=
  free_wrapped (free_openBlock htag hmarkup _ false freeAttributes_nil)
    (free_closeBlock htag hmarkup _ false) h

end Tags

section Leaves

variable {literal url title shown : String}

theorem Free.restoreHtml (ho : o.Free) {n : Node} (h : n.Whole o.mask) :
    Mask.Free (String.ofList (o.mask.restoreHtml (n.toHtml o.html around))).toList := by
  rw [String.toList_ofList]
  exact (Node.whole_toHtml o.html around h).free_replace fun span hspan =>
    free_escapeText (ho.raw span hspan)

theorem free_rawToken (ho : o.Free) {n : Node} (h : n.Whole o.mask) : (o.rawToken around n).Free :=
  Token.free_mk (by decide) (ho.restoreHtml h) (by decide) (by decide) freeAttributes_nil
    Token.forall_mem_nil_free

theorem free_escapeToken (h : Mask.Free literal.toList) : (escapeToken literal).Free :=
  Token.free_mk (by decide) h (free_string_append (by decide) h) (by decide) freeAttributes_nil
    Token.forall_mem_nil_free

theorem free_codeToken (ho : o.Free) (h : o.mask.Whole literal.toList) :
    (o.codeToken literal).Free :=
  Token.free_mk (by decide) (ho.restoreString h) (by decide) (by decide) freeAttributes_nil
    Token.forall_mem_nil_free

theorem free_linkTokens (ho : o.Free) (hurl : o.mask.Whole url.toList)
    (htitle : o.mask.Whole title.toList) (h : ∀ u ∈ inner, u.Free) :
    ∀ u ∈ o.linkTokens url title inner, u.Free := by
  refine free_wrapped ?_ (free_closeTag (by decide) (by decide) _) h
  exact Token.free_mk (by decide) (by decide) (by decide) (by decide)
    (.cons (by decide) (ho.restoreString hurl) (ho.titleAttributes htitle))
    Token.forall_mem_nil_free

theorem free_imageToken (ho : o.Free) (hurl : o.mask.Whole url.toList)
    (htitle : o.mask.Whole title.toList) (hshown : o.mask.Whole shown.toList)
    (h : ∀ u ∈ inner, u.Free) : (o.imageToken url title shown inner).Free := by
  have halt : Mask.Free (String.ofList (o.mask.restorePlain shown.toList)).toList := by
    rw [String.toList_ofList]
    exact hshown.free_replace fun span hspan => free_textOf (ho.tokens span hspan)
  exact Token.free_mk (by decide) halt (by decide) (by decide)
    (.cons (by decide) (ho.restoreString hurl) (.cons (by decide) halt (ho.titleAttributes htitle)))
    h

end Leaves

/-! ### Text -/

mutual

/-- The tokens of a node in a text have no placeholders. -/
theorem free_inlineTokens (ho : o.Free) (around : Surroundings) :
    ∀ n : Node, n.Whole o.mask → ∀ t ∈ o.inlineTokens around n, t.Free
  | ⟨kind, extent, children⟩, .intro hstrings hescaped hchildren => by
    have hinner := free_inlineTokensAll ho ⟨kind :: around.above, []⟩ children hchildren
    unfold inlineTokens
    split
    · exact (hstrings _ (List.mem_cons_self ..)).free_expand ho.tokens
    · exact List.forall_mem_singleton.mpr (free_escapeToken (hescaped rfl))
    · exact List.forall_mem_singleton.mpr (Token.free_mk (by decide) free_nil free_nil free_nil
        freeAttributes_nil Token.forall_mem_nil_free)
    · exact List.forall_mem_singleton.mpr (Token.free_mk (by decide) free_nil free_nil free_nil
        freeAttributes_nil Token.forall_mem_nil_free)
    · exact List.forall_mem_singleton.mpr
        (free_codeToken ho (hstrings _ (List.mem_cons_self ..)))
    · exact free_wrap (by decide) (by decide) _ hinner
    · exact free_wrap (by decide) (by decide) _ hinner
    · exact free_wrap (by decide) (by decide) _ hinner
    · exact free_linkTokens ho (hstrings _ (List.mem_cons_self ..))
        (hstrings _ (List.mem_cons_of_mem _ (List.mem_cons_self ..))) hinner
    · exact List.forall_mem_singleton.mpr
        (free_imageToken ho (hstrings _ (List.mem_cons_self ..))
          (hstrings _ (List.mem_cons_of_mem _ (List.mem_cons_self ..)))
          (Node.whole_plainTexts children hchildren) hinner)
    · exact List.forall_mem_singleton.mpr (Token.free_mk free_nil
        (ho.restoreString (hstrings _ (List.mem_cons_self ..))) free_nil free_nil
        freeAttributes_nil Token.forall_mem_nil_free)
    · exact List.forall_mem_singleton.mpr
        (free_rawToken ho (.intro hstrings hescaped hchildren))

/-- The tokens of a list of nodes in a text have no placeholders. -/
theorem free_inlineTokensAll (ho : o.Free) (around : Surroundings) :
    ∀ ns : List Node, (∀ n ∈ ns, n.Whole o.mask) → ∀ t ∈ o.inlineTokensAll around ns, t.Free
  | [], _ => Token.forall_mem_nil_free
  | n :: rest, h => by
    rw [List.forall_mem_cons] at h
    rw [inlineTokensAll]
    exact List.forall_mem_append.mpr
      ⟨free_inlineTokens ho around n h.1, free_inlineTokensAll ho _ rest h.2⟩

end

/-! ### Blocks -/

section Blocks

variable (ho : o.Free) {children : List Node} (hchildren : ∀ n ∈ children, n.Whole o.mask)

include ho hchildren

theorem free_textToken (around : Surroundings) (kind : Kind) (extent : Extent) {content : String}
    (hcontent : Mask.Free content.toList) :
    (o.textToken around kind extent content children).Free :=
  Token.free_mk free_nil hcontent free_nil free_nil freeAttributes_nil
    (free_inlineTokensAll ho _ children hchildren)

theorem free_paragraphTokens (tight : Bool) :
    ∀ t ∈ o.paragraphTokens around tight extent children, t.Free := by
  have htext := free_textToken ho hchildren around .paragraph extent (ho.plainContent hchildren)
  have htag : Mask.Free "p".toList := by decide
  have hmarkup : Mask.Free "".toList := by decide
  exact free_wrapped (free_openBlock htag hmarkup _ tight freeAttributes_nil)
    (free_closeBlock htag hmarkup _ tight) (List.forall_mem_singleton.mpr htext)

theorem free_headingContent (setext : Bool) :
    Mask.Free (o.headingContent extent setext children).toList := by
  unfold headingContent
  split
  · next content hcontent =>
    rw [String.toList_ofList]
    exact free_headingContent? ho.lines hcontent
  · exact ho.plainContent hchildren

theorem free_headingTokens (level : Nat) (setext : Bool) :
    ∀ t ∈ o.headingTokens around level setext extent children, t.Free := by
  have htag : Mask.Free ("h" ++ toString level).toList :=
    free_string_append (by decide) (free_ofList_toDigits level)
  have hmarkup : Mask.Free (headingMarkup level setext).toList := by
    unfold headingMarkup
    split
    · split <;> decide
    · rw [String.toList_ofList]
      intro c hc
      rw [List.eq_of_mem_replicate hc]
      decide
  exact free_wrapBlock htag hmarkup _ (List.forall_mem_singleton.mpr
    (free_textToken ho hchildren around _ extent (free_headingContent ho hchildren setext)))

end Blocks

theorem free_listTokens (style : ListStyle) (h : ∀ u ∈ inner, u.Free) :
    ∀ t ∈ listTokens style extent inner, t.Free := by
  unfold listTokens
  split
  · refine free_wrapped (free_openBlock (by decide) (by decide) _ false ?_)
      (free_closeBlock (by decide) (by decide) _ false) h
    split
    · exact freeAttributes_nil
    · exact .cons (by decide) (free_ofList_toDigits _) freeAttributes_nil
  · exact free_wrapBlock (by decide) (by decide) _ h

/-! ### Tables -/

section Tables

variable (ho : o.Free)

include ho

theorem free_cellTokens (header : Bool) (alignment : Markdown.Alignment) {cell : Node}
    (h : cell.Whole o.mask) : ∀ t ∈ o.cellTokens around header alignment cell, t.Free := by
  have htext := free_textToken ho h.children around cell.kind cell.extent
    (ho.plainContent h.children)
  have hth : Mask.Free "th".toList := by decide
  have htd : Mask.Free "td".toList := by decide
  have hmarkup : Mask.Free "".toList := by decide
  have hcell : ∀ {tag : String} {style : List (String × String)}, Mask.Free tag.toList →
      FreeAttributes style → ∀ opening closing : TokenKind,
      ∀ t ∈ { openBlock opening tag "" cell.extent with attributes := style } ::
        ([o.textToken around cell.kind cell.extent (o.plainContent cell.children) cell.children] ++
          [closeBlock closing tag ""]), t.Free :=
    fun htag hstyle _ _ => free_wrapped (free_openBlock htag hmarkup _ false hstyle)
      (free_closeBlock htag hmarkup _ false) (List.forall_mem_singleton.mpr htext)
  cases header with
  | true =>
    cases alignment with
    | unset => exact hcell hth freeAttributes_nil _ _
    | left => exact hcell hth (.cons (by decide) (by decide) freeAttributes_nil) _ _
    | center => exact hcell hth (.cons (by decide) (by decide) freeAttributes_nil) _ _
    | right => exact hcell hth (.cons (by decide) (by decide) freeAttributes_nil) _ _
  | false =>
    cases alignment with
    | unset => exact hcell htd freeAttributes_nil _ _
    | left => exact hcell htd (.cons (by decide) (by decide) freeAttributes_nil) _ _
    | center => exact hcell htd (.cons (by decide) (by decide) freeAttributes_nil) _ _
    | right => exact hcell htd (.cons (by decide) (by decide) freeAttributes_nil) _ _

theorem free_cellsTokens (header : Bool) (alignments : List Markdown.Alignment)
    {cells : List Node} (h : ∀ cell ∈ cells, cell.Whole o.mask) :
    ∀ t ∈ o.cellsTokens around header alignments cells, t.Free := by
  induction cells generalizing alignments with
  | nil => exact Token.forall_mem_nil_free
  | cons cell rest ih =>
    rw [List.forall_mem_cons] at h
    exact List.forall_mem_append.mpr ⟨free_cellTokens ho header _ h.1, ih _ h.2⟩

theorem free_rowTokens (around : Surroundings) (alignments : List Markdown.Alignment) {row : Node}
    (h : row.Whole o.mask) : ∀ t ∈ o.rowTokens around alignments row, t.Free :=
  free_wrapBlock (by decide) (by decide) _ (free_cellsTokens ho _ _ h.children)

theorem free_rowsTokens (alignments : List Markdown.Alignment) (inBody : Bool)
    {rows : List Node} (h : ∀ row ∈ rows, row.Whole o.mask) :
    ∀ t ∈ o.rowsTokens around alignments inBody rows, t.Free := by
  have htbody : Mask.Free "tbody".toList := by decide
  have hmarkup : Mask.Free "".toList := by decide
  induction rows generalizing inBody with
  | nil =>
    unfold rowsTokens
    split
    · exact List.forall_mem_singleton.mpr (free_closeBlock htbody hmarkup _ false)
    · exact Token.forall_mem_nil_free
  | cons row rest ih =>
    rw [List.forall_mem_cons] at h
    have hrow := free_rowTokens ho around alignments h.1
    rw [rowsTokens]
    split
    · exact List.forall_mem_append.mpr
        ⟨free_wrapBlock (by decide) (by decide) _ hrow, ih inBody h.2⟩
    · refine List.forall_mem_append.mpr ⟨List.forall_mem_append.mpr ⟨?_, hrow⟩, ih true h.2⟩
      split
      · exact Token.forall_mem_nil_free
      · exact List.forall_mem_singleton.mpr
          (free_openBlock htbody hmarkup _ false freeAttributes_nil)

end Tables

/-! ### All blocks -/

mutual

/-- The tokens of a node among blocks have no placeholders. -/
theorem free_blockTokens (ho : o.Free) (around : Surroundings) (tight : Bool) :
    ∀ n : Node, n.Whole o.mask → ∀ t ∈ o.blockTokens around tight n, t.Free
  | ⟨kind, extent, children⟩, .intro hstrings hescaped hchildren => by
    have hinner := fun tight =>
      free_blockTokensAll ho ⟨kind :: around.above, []⟩ tight children hchildren
    have hcode : Mask.Free "code".toList := by decide
    have hrule : Mask.Free "hr".toList := by decide
    unfold blockTokens
    split
    · exact hinner false
    · exact free_wrapBlock (by decide) (by decide) _ (hinner false)
    · exact free_listTokens _ (hinner _)
    · exact free_wrapBlock (by decide) (by decide) _ (hinner tight)
    · exact free_paragraphTokens ho hchildren tight
    · exact free_headingTokens ho hchildren _ _
    · exact List.forall_mem_singleton.mpr (Token.free_mk hcode
        (ho.restoreString (hstrings _ (List.mem_cons_of_mem _ (List.mem_cons_self ..)))) free_nil
        (ho.restoreString (hstrings _ (List.mem_cons_self ..))) freeAttributes_nil
        Token.forall_mem_nil_free)
    · exact List.forall_mem_singleton.mpr (Token.free_mk free_nil
        (ho.restoreString (hstrings _ (List.mem_cons_self ..))) free_nil free_nil
        freeAttributes_nil Token.forall_mem_nil_free)
    · exact List.forall_mem_singleton.mpr (Token.free_mk hrule free_nil (by decide) free_nil
        freeAttributes_nil Token.forall_mem_nil_free)
    · exact free_wrapBlock (by decide) (by decide) _ (free_rowsTokens ho _ false hchildren)
    · exact List.forall_mem_singleton.mpr (Token.free_mk free_nil
        (ho.restoreHtml (.intro hstrings hescaped hchildren)) free_nil free_nil
        freeAttributes_nil Token.forall_mem_nil_free)

/-- The tokens of a list of nodes among blocks have no placeholders. -/
theorem free_blockTokensAll (ho : o.Free) (around : Surroundings) (tight : Bool) :
    ∀ ns : List Node, (∀ n ∈ ns, n.Whole o.mask) →
      ∀ t ∈ o.blockTokensAll around tight ns, t.Free
  | [], _ => Token.forall_mem_nil_free
  | n :: rest, h => by
    rw [List.forall_mem_cons] at h
    rw [blockTokensAll]
    exact List.forall_mem_append.mpr
      ⟨free_blockTokens ho around tight n h.1, free_blockTokensAll ho _ tight rest h.2⟩

end

end Origin

end TokenStream

end WikiPress
