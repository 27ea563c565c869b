import Mathlib.Data.List.Chain
import WikiPress.Markdown.Cursor
import WikiPress.Proofs.Text.Blank
import WikiPress.Proofs.Text.Offset
import WikiPress.Proofs.TokenStream.Blocks

/-!
# Two tables of lines

The positions in a tree count the lines of the markup, which end with a line feed, a carriage return
or both.  The content of a heading is looked up in a table in which lines end with a line feed only.
Up to the first carriage return that no line feed follows, the two tables have the same lines, so
that a heading has the content of its own line.  From there on the numbers of a tree point to later
lines of the table.

## Main definitions

* `ReturnsFeed` : a carriage return stands only in front of a line feed, or at the end of the text.

## Main results

* `getElem?_sourceLines` : a line of the markup has its number in the table too.
* `Origin.headingTokens_infix_blockTokensAll` : the tokens of a heading stand together.
* `content_of_returnsFeed` : a heading has the content of its own line.
-/

namespace WikiPress.TokenStream

open Text Markdown

variable {s upper lower body : List Char} {n : Nat} {line : Line}

/-! ### Carriage returns -/

/-- A carriage return stands only in front of a line feed, or at the end of the text. -/
def ReturnsFeed (s : List Char) : Prop := s.IsChain fun c d => c = '\r' → d = '\n'

instance (s : List Char) : Decidable (ReturnsFeed s) :=
  inferInstanceAs (Decidable (s.IsChain fun c d => c = '\r' → d = '\n'))

/-- No character of the text ends a line. -/
def IsBody (s : List Char) : Prop := ∀ c ∈ s, isLineEnd c = false

theorem isBody_of_notMem (hfeed : '\n' ∉ s) (hreturn : '\r' ∉ s) : IsBody s := by
  intro c hc
  simp only [isLineEnd, Bool.or_eq_false_iff, decide_eq_false_iff_not]
  exact ⟨ne_of_mem_of_not_mem hc hfeed, ne_of_mem_of_not_mem hc hreturn⟩

theorem IsBody.return_notMem (h : IsBody s) : '\r' ∉ s := fun hmem =>
  Bool.noConfusion (h _ hmem)

/-- Between two line feeds the only carriage return is one at the end. -/
theorem ReturnsFeed.isBody_or (h : ReturnsFeed s) (hfeed : '\n' ∉ s) :
    IsBody s ∨ ∃ body, s = body ++ ['\r'] ∧ IsBody body := by
  by_cases hreturn : '\r' ∈ s
  · obtain ⟨body, rest, rfl, hbody⟩ := List.eq_append_cons_of_mem hreturn
    cases rest with
    | nil =>
      have hfeed : '\n' ∉ body := fun hmem => hfeed (List.mem_append_left _ hmem)
      exact .inr ⟨body, rfl, isBody_of_notMem hfeed hbody⟩
    | cons c rest =>
      obtain rfl : c = '\n' := (List.isChain_append_cons_cons.mp h).2.1 rfl
      exact absurd (by simp) hfeed
  · exact .inl (isBody_of_notMem hfeed hreturn)

theorem dropReturn_append_return (body : List Char) : dropReturn (body ++ ['\r']) = body := by
  simp [dropReturn]

theorem dropReturn_of_notMem (h : '\r' ∉ s) : dropReturn s = s := by
  unfold dropReturn
  split
  · next before heq =>
    refine absurd ?_ h
    rw [← List.mem_reverse, heq]
    exact List.mem_cons_self
  · rfl

/-- A carriage return at the end of a line does not count for the content of a heading. -/
theorem atxContent_append_return (s : List Char) : atxContent (s ++ ['\r']) = atxContent s := by
  have hcontent : trim ((trimStart (s ++ ['\r'])).dropWhile (· = '#')) =
      trim ((trimStart s).dropWhile (· = '#')) := by
    rcases trimStart_append_blank s (c := '\r') rfl with heq | heq
    · rw [heq]
    · rw [heq, List.dropWhile_append]
      split
      · next hempty =>
        rw [List.isEmpty_iff.mp hempty]
        rfl
      · exact trim_append_blank _ rfl
  simp only [atxContent, hcontent]

/-! ### Lines -/

/-- A text is met line feed by line feed. -/
theorem pieces_induction {P : List Char → Prop} (sep : Char) (last : ∀ s, sep ∉ s → P s)
    (piece : ∀ s rest, sep ∉ s → P rest → P (s ++ sep :: rest)) (s : List Char) : P s := by
  induction hk : s.length using Nat.strongRecOn generalizing s with
  | ind k ih =>
    by_cases hs : sep ∈ s
    · obtain ⟨s, rest, rfl, hsep⟩ := List.eq_append_cons_of_mem hs
      rw [List.length_append, List.length_cons] at hk
      exact piece s rest hsep (ih _ (by omega) rest rfl)
    · exact last s hs

/-- Characters that do not end a line are gathered. -/
theorem ofTextAfter_append (h : IsBody body) (before rest : List Char) :
    Line.ofTextAfter before (body ++ rest) = Line.ofTextAfter (body.reverse ++ before) rest := by
  induction body generalizing before with
  | nil => rfl
  | cons c body ih =>
    obtain ⟨hc, hbody⟩ := List.forall_mem_cons.mp h
    have hreturn : ∀ after, c = '\r' → body ++ rest = '\n' :: after → False := fun _ heq _ =>
      Bool.noConfusion (heq ▸ hc : isLineEnd '\r' = false)
    rw [List.cons_append, Line.ofTextAfter.eq_3 before c _ hreturn, if_neg (ne_true_of_eq_false hc),
      ih hbody, List.reverse_cons, List.append_assoc, List.singleton_append]

theorem ofText_append (h : IsBody body) (rest : List Char) :
    Line.ofText (body ++ rest) = Line.ofTextAfter body.reverse rest := by
  rw [Line.ofText, ofTextAfter_append h, List.append_nil]

/-- A line of the markup that ends with a line feed. -/
theorem ofText_append_feed (hreturns : ReturnsFeed s) (hfeed : '\n' ∉ s) (rest : List Char) :
    Line.ofText (s ++ '\n' :: rest) = ⟨dropReturn s, true⟩ :: Line.ofText rest := by
  rcases hreturns.isBody_or hfeed with hbody | ⟨body, rfl, hbody⟩
  · rw [ofText_append hbody, dropReturn_of_notMem hbody.return_notMem]
    simp [Line.ofTextAfter, Line.ofText, isLineEnd]
  · rw [List.append_assoc, ofText_append hbody, dropReturn_append_return]
    simp [Line.ofTextAfter, Line.ofText]

/-- A line of the table that ends with a line feed. -/
theorem sourceLines_append_feed (hfeed : '\n' ∉ s) (rest : List Char) :
    sourceLines (s ++ '\n' :: rest) = dropReturn s :: sourceLines rest := by
  rw [sourceLines, splitAtEach_append_cons rest hfeed, sourceLines]
  exact linesOfPieces.eq_3 _ _ (splitAtEach_ne_nil _ _)

/-- The last line of the markup may end with a carriage return. -/
theorem exists_ofText_eq_singleton (hreturns : ReturnsFeed s) (hfeed : '\n' ∉ s) (hne : s ≠ []) :
    ∃ line : Line, Line.ofText s = [line] ∧ (s = line.text ∨ s = line.text ++ ['\r']) := by
  rcases hreturns.isBody_or hfeed with hbody | ⟨body, rfl, hbody⟩
  · refine ⟨⟨s, false⟩, ?_, .inl rfl⟩
    have heq := ofText_append hbody []
    simpa [Line.ofTextAfter, hne] using heq
  · refine ⟨⟨body, true⟩, ?_, .inr rfl⟩
    rw [ofText_append hbody]
    simp [Line.ofTextAfter, isLineEnd]

/-- The last line of the table keeps a carriage return at its end. -/
theorem sourceLines_eq_singleton (hfeed : '\n' ∉ s) (hne : s ≠ []) : sourceLines s = [s] := by
  rw [sourceLines, splitAtEach_of_notMem hfeed, linesOfPieces,
    if_neg (mt List.isEmpty_iff.mp hne)]

/-- In front of the first carriage return that no line feed follows, a line of the markup has its
number in the table too. -/
theorem getElem?_sourceLines (hreturns : ReturnsFeed upper)
    (hends : (∀ c ∈ upper.getLast?, c = '\n') ∨ lower = [])
    (hline : (Line.ofText upper)[n]? = some line) :
    (Line.ofText (upper ++ lower))[n]? = some line ∧
      ∃ l, (sourceLines (upper ++ lower))[n]? = some l ∧
        (l = line.text ∨ l = line.text ++ ['\r']) := by
  induction upper using pieces_induction '\n' generalizing n with
  | last s hfeed =>
    have hne : s ≠ [] := by
      rintro rfl
      simp [Line.ofText, Line.ofTextAfter] at hline
    obtain rfl : lower = [] := hends.resolve_left fun hlast => by
      have heq := hlast _ (List.getLast?_eq_getLast_of_ne_nil hne)
      exact hfeed (heq ▸ List.getLast_mem hne)
    obtain ⟨line', heq, hs⟩ := exists_ofText_eq_singleton hreturns hfeed hne
    rw [heq] at hline
    obtain ⟨rfl, rfl⟩ : n = 0 ∧ line' = line := by simpa [List.getElem?_singleton] using hline
    rw [List.append_nil, heq, sourceLines_eq_singleton hfeed hne]
    exact ⟨rfl, s, rfl, hs⟩
  | piece s rest hfeed ih =>
    have hs : ReturnsFeed s := hreturns.left_of_append
    have hrest : ReturnsFeed rest := hreturns.right_of_append.tail
    rw [List.append_assoc, List.cons_append, ofText_append_feed hs hfeed,
      sourceLines_append_feed hfeed]
    rw [ofText_append_feed hs hfeed] at hline
    cases n with
    | zero =>
      obtain rfl := Option.some.inj hline
      exact ⟨rfl, _, rfl, .inl rfl⟩
    | succ n =>
      refine ih hrest (hends.imp_left fun hlast c hc => hlast c ?_) hline
      have hc : rest.getLast? = some c := hc
      simp [List.getLast?_cons, hc]

/-! ### Headings -/

namespace Origin

variable {o : Origin} {h : HeadingNode}

mutual

/-- The tokens of a heading below a node stand together. -/
theorem headingTokens_infix_blockTokens (around : Surroundings) (tight : Bool) :
    ∀ n : Node, h ∈ headingNodes n →
      ∃ around', o.headingTokens around' h.level h.setext h.extent h.children <:+:
        o.blockTokens around tight n
  | ⟨kind, extent, children⟩, hmem => by
    have hinner := fun tight =>
      headingTokens_infix_blockTokensAll ⟨kind :: around.above, []⟩ tight children
    have hwrap (opening closing : Token) {inner : List Token} :
        inner <:+: opening :: (inner ++ [closing]) := ⟨[opening], [closing], by simp⟩
    cases kind with
    | document => exact hinner false hmem
    | blockQuote => exact (hinner false hmem).imp fun _ hinfix => hinfix.trans (hwrap _ _)
    | list style =>
      obtain ⟨around', hinfix⟩ := hinner style.tight hmem
      refine ⟨around', hinfix.trans ?_⟩
      simp only [blockTokens, listTokens]
      split
      · exact hwrap _ _
      · exact hwrap _ _
    | item => exact (hinner tight hmem).imp fun _ hinfix => hinfix.trans (hwrap _ _)
    | heading level setext =>
      obtain rfl := List.mem_singleton.mp hmem
      exact ⟨around, List.infix_rfl⟩
    | _ => exact absurd hmem List.not_mem_nil

/-- The tokens of a heading below a list of nodes stand together. -/
theorem headingTokens_infix_blockTokensAll (around : Surroundings) (tight : Bool) :
    ∀ ns : List Node, h ∈ headingNodesAll ns →
      ∃ around', o.headingTokens around' h.level h.setext h.extent h.children <:+:
        o.blockTokensAll around tight ns
  | [], hmem => absurd hmem List.not_mem_nil
  | n :: rest, hmem => by
    rw [blockTokensAll]
    rcases List.mem_append.mp hmem with hmem | hmem
    · exact (headingTokens_infix_blockTokens around tight n hmem).imp fun _ hinfix =>
        hinfix.trans (List.infix_append' [] _ _)
    · exact (headingTokens_infix_blockTokensAll _ tight rest hmem).imp fun _ hinfix =>
        hinfix.trans (List.suffix_append _ _).isInfix

end

end Origin

/-- Up to the first carriage return that no line feed follows, a heading that begins with number
signs at the start of a line has the content of its own line. -/
theorem content_of_returnsFeed (mask : Mask) (html : Bool) {source : List Char} {root : Node}
    {h : HeadingNode} (hsource : source = upper ++ lower) (hreturns : ReturnsFeed upper)
    (hends : (∀ c ∈ upper.getLast?, c = '\n') ∨ lower = [])
    (hmem : h ∈ headingNodesAll root.children) (hsetext : h.setext = false)
    (hcolumn : h.extent.start.column = 1) (hnumber : h.extent.start.line = n + 1)
    (hline : (Line.ofText upper)[n]? = some line) :
    (Line.ofText source)[n]? = some line ∧
      ∃ text : Token, [h.openToken, text, h.closeToken] <:+: ofDocument mask source html root ∧
        text.kind = .inline ∧ text.content = String.ofList (atxContent line.text) := by
  subst hsource
  obtain ⟨hline, l, hl, hreturn⟩ := getElem?_sourceLines hreturns hends hline
  have hcontent : headingContent? (sourceLines (upper ++ lower)) h.extent h.setext =
      some (atxContent line.text) := by
    have hatx : atxContent l = atxContent line.text := by
      rcases hreturn with rfl | rfl
      · rfl
      · exact atxContent_append_return _
    simp [headingContent?, hnumber, hsetext, hcolumn, hl, dropBytes?, hatx]
  let o : Origin := ⟨mask, sourceLines (upper ++ lower), html⟩
  have hown : h.content o = String.ofList (atxContent line.text) := by
    rw [HeadingNode.content, Origin.headingContent, hcontent]
  obtain ⟨_, hinfix⟩ := Origin.headingTokens_infix_blockTokensAll (o := o) ⟨[root.kind], []⟩ false
    root.children hmem
  exact ⟨hline, _, hinfix, rfl, hown⟩

/-- Headings at two line ends of two characters, and a lone carriage return behind them. -/
theorem content_of_carriageReturns :
    let source := "# A #\r\n\r\n## B\t\r\nc\rd\n".toList
    let upper := "# A #\r\n\r\n## B\t\r\n".toList
    let second : Node := ⟨.heading 2 false, ⟨⟨3, 1⟩, ⟨3, 5⟩⟩, [.text ['B']]⟩
    let root : Node :=
      ⟨.document, {}, [⟨.heading 1 false, ⟨⟨1, 1⟩, ⟨1, 5⟩⟩, [.text ['A']]⟩, second]⟩
    let h : HeadingNode := ⟨2, false, second.extent, second.children⟩
    source = upper ++ "c\rd\n".toList ∧ ReturnsFeed upper ∧ upper.getLast? = some '\n' ∧
      h ∈ headingNodesAll root.children ∧
      (Line.ofText upper)[2]? = some ⟨"## B\t".toList, true⟩ ∧
      ∃ text : Token, [h.openToken, text, h.closeToken] <:+:
          ofDocument (Mask.ofText [] source) source false root ∧
        text.kind = .inline ∧ text.content = "B" := by
  intro source upper second root h
  have hreturns : ReturnsFeed upper := by decide
  have hlast : upper.getLast? = some '\n' := by decide
  have hmem : h ∈ headingNodesAll root.children := .tail _ (.head _)
  have hline : (Line.ofText upper)[2]? = some ⟨"## B\t".toList, true⟩ := by decide
  obtain ⟨_, text, htext⟩ := content_of_returnsFeed (Mask.ofText [] source) false
    rfl hreturns (.inl (by simp [hlast])) hmem rfl rfl rfl hline
  exact ⟨rfl, hreturns, hlast, hmem, hline, text, htext⟩

/-- A heading behind a lone carriage return has the content of a later line. -/
theorem exists_content_of_otherLine :
    let source := "a\r# B\nc\n".toList
    let heading : Node := ⟨.heading 1 false, ⟨⟨2, 1⟩, ⟨2, 3⟩⟩, [.text ['B']]⟩
    let root : Node := ⟨.document, {}, [⟨.paragraph, ⟨⟨1, 1⟩, ⟨1, 1⟩⟩, [.text ['a']]⟩, heading,
      ⟨.paragraph, ⟨⟨3, 1⟩, ⟨3, 1⟩⟩, [.text ['c']]⟩]⟩
    let h : HeadingNode := ⟨1, false, heading.extent, heading.children⟩
    headingNodesAll root.children = [h] ∧
      (Line.ofText source)[1]? = some ⟨"# B".toList, true⟩ ∧ atxContent "# B".toList = ['B'] ∧
      (Line.ofText source)[2]? = some ⟨['c'], true⟩ ∧
      ∃ text : Token, [h.openToken, text, h.closeToken] <:+:
          ofDocument (Mask.ofText [] source) source false root ∧
        text.kind = .inline ∧ text.content = "c" := by
  intro source heading root h
  let o : Origin := ⟨Mask.ofText [] source, sourceLines source, false⟩
  have hcontent : h.content o = "c" := by decide +kernel
  obtain ⟨_, hinfix⟩ := Origin.headingTokens_infix_blockTokensAll (o := o) (h := h)
    ⟨[root.kind], []⟩ false root.children (.head _)
  exact ⟨rfl, by decide, by decide, by decide, _, hinfix, rfl, hcontent⟩

end WikiPress.TokenStream
