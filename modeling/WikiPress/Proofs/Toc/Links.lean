import Mathlib.Data.List.Forall2
import Mathlib.Data.List.ReduceOption
import WikiPress.Processor
import WikiPress.Proofs.Heading
import WikiPress.Proofs.Toc.Build
import WikiPress.Url.Web

/-!
# Links of a table of contents

Every heading in a table of contents is a link to the anchor of the heading.  The anchors in the
table come from the headings that were recorded, and the identifiers in the document from the tokens
that are written; they are the same, and no two of them are equal.

## Main definitions

* `Toc.fragments` : the fragments that the links of a text lead to.

## Main results

* `Toc.fragments_toHtml` : the links of a table lead to the anchors of its headings.
* `Processor.headingIds_eq_fragments` : the links of a table lead to the headings of the document.
-/

namespace WikiPress

open Text TokenStream Html

/-! ### The links of a table -/

namespace Toc

/-- The fragment that a tag leads to, if it is a link to a fragment. -/
def fragment? (t : Tag) : Option String :=
  if t.name = "a" then
    (Token.findAttribute? "href" t.attributes).bind fun href =>
      (dropText? ['#'] href.toList).map String.ofList
  else none

/-- The fragments that the links of a text lead to, in order. -/
def fragments (names : Names) (s : List Char) : List String := (tags names s).filterMap fragment?

/-- A piece of a text is read, and its links lead to the given fragments. -/
def Links (names : Names) (s : List Char) (targets : List String) : Prop :=
  ∃ is, Reads names s is ∧ (is.filterMap Item.tag?).filterMap fragment? = targets

variable {names : Names} {s s' inner attributes : List Char} {targets targets' : List String}

theorem links_nil : Links names [] [] := ⟨[], reads_nil, rfl⟩

theorem Links.append (h : Links names s targets) (h' : Links names s' targets') :
    Links names (s ++ s') (targets ++ targets') := by
  obtain ⟨is, hread, rfl⟩ := h
  obtain ⟨is', hread', rfl⟩ := h'
  exact ⟨is ++ is', hread.append hread', by rw [List.filterMap_append, List.filterMap_append]⟩

theorem Links.fragments_eq (h : Links names s targets) : fragments names s = targets := by
  obtain ⟨is, hread, rfl⟩ := h
  rw [fragments, hread.tags_eq]

theorem links_escape (names : Names) (s : List Char) : Links names (escape s) [] := by
  refine ⟨_, reads_escape names s, ?_⟩
  rw [filterMap_char, List.filterMap_nil]

/-- An element around a text with links. -/
theorem links_element {name : String} {as : List (String × String)} (hname : IsTagName name)
    (has : ReadsAttributes names attributes as) (h : Links names s targets) :
    Links names
      (tagStart false ++ (name.toList ++ (attributes ++ tagEnd false)) ++
        (s ++ (tagStart true ++ (name.toList ++ ([] ++ tagEnd false)))))
      ((fragment? { name, attributes := as }).toList ++ targets) := by
  obtain ⟨is, hread, rfl⟩ := h
  refine ⟨_, reads_element hname has hread, ?_⟩
  have hclosing : fragment? { closing := true, name } = none := by
    unfold fragment?
    split <;> rfl
  have hopening : [({ name, attributes := as } : Tag)].filterMap fragment? =
      (fragment? { name, attributes := as }).toList := by
    rw [List.filterMap_cons]
    cases fragment? { name, attributes := as } <;> rfl
  rw [filterMap_elementItems, ← List.singleton_append, List.filterMap_append,
    List.filterMap_append, hopening, List.filterMap_cons_none hclosing, List.filterMap_nil,
    List.append_nil]

/-- The attributes of a link of a table. -/
theorem readsAttributes_item (names : Names) (h : Heading) :
    ReadsAttributes names
      (attributeText "href".toList ('#' :: escape h.anchor.toList) ++
        attributeText "title".toList (escape h.content.toList))
      [("href", "#" ++ h.anchor), ("title", h.content)] := by
  have hhref : IsValue names ('#' :: escape h.anchor.toList) ('#' :: h.anchor.toList) :=
    (isValue_char (by decide) (by decide) (by decide)).append (isValue_escape names _)
  have := (readsAttributes_attribute (show IsName "href" by decide) hhref).append
    (readsAttributes_attribute (show IsName "title" by decide)
      (isValue_escape names h.content.toList))
  rwa [String.ofList_toList, show String.ofList ('#' :: h.anchor.toList) = "#" ++ h.anchor by
    rw [← String.toList_inj]; simp] at this

/-- The link of a heading leads to the anchor of the heading. -/
theorem links_itemHtml (names : Names) (h : Heading) : Links names (itemHtml h) [h.anchor] := by
  have hlink := links_element (show IsTagName "a" by decide) (readsAttributes_item names h)
    (links_escape names h.content.toList)
  have hitem := links_element (show IsTagName "li" by decide) readsAttributes_nil hlink
  have htarget : fragment? { name := "a", attributes := [("href", "#" ++ h.anchor),
      ("title", h.content)] } = some h.anchor := by
    simp [fragment?, Token.findAttribute?, dropText?]
  rw [htarget, show fragment? { name := "li", attributes := [] } = none from rfl] at hitem
  unfold itemHtml
  simp only [tagStart, tagEnd, attributeText, Bool.false_eq_true, if_true, if_false,
    String.reduceToList, List.append_assoc, List.cons_append, List.nil_append] at hitem ⊢
  exact hitem

/-- The class of a list is that of all lists of the table with the level of the list. -/
theorem readsAttributes_list (names : Names) (listClass : String) (level : Nat) :
    ReadsAttributes names
      (attributeText "class".toList
        (escape listClass.toList ++ ("-h".toList ++ Nat.toDigits 10 level)))
      [("class", String.ofList (listClass.toList ++ ("-h".toList ++ Nat.toDigits 10 level)))] := by
  refine readsAttributes_attribute (show IsName "class" by decide)
    ((isValue_escape names _).append (isValue_plain names ?_))
  rw [List.forall_mem_append]
  refine ⟨by simp, fun c hc => ?_⟩
  have hdigit : c.isDigit = true := Nat.isDigit_of_mem_toDigits (by decide) (by decide) hc
  refine ⟨?_, ?_, ?_⟩ <;>
  · rintro rfl
    exact nomatch hdigit

theorem links_listHtml (listClass : String) (level : Nat) (h : Links names inner targets) :
    Links names (listStart listClass level ++ (inner ++ "</ul>".toList)) targets := by
  have hlist := links_element (show IsTagName "ul" by decide)
    (readsAttributes_list names listClass level) h
  unfold listStart
  simp only [tagStart, tagEnd, attributeText, Bool.false_eq_true, if_true, if_false,
    String.reduceToList, List.append_assoc, List.cons_append, List.nil_append] at hlist ⊢
  exact hlist

mutual

/-- The links of an entry lead to the anchors of its headings. -/
theorem links_entryHtml (names : Names) (listClass : String) :
    ∀ e : Entry, Links names (entryHtml listClass e) (e.headings.map Heading.anchor)
  | .item h => by
    rw [entryHtml, Entry.headings]
    exact links_itemHtml names h
  | .list level entries => by
    rw [entryHtml, Entry.headings]
    exact links_listHtml listClass level (links_entriesHtml names listClass entries)

/-- The links of a list of entries lead to the anchors of its headings. -/
theorem links_entriesHtml (names : Names) (listClass : String) :
    ∀ es : List Entry, Links names (entriesHtml listClass es) ((headings es).map Heading.anchor)
  | [] => by
    rw [entriesHtml, headings]
    exact links_nil
  | e :: rest => by
    rw [entriesHtml, headings, List.map_append]
    exact (links_entryHtml names listClass e).append (links_entriesHtml names listClass rest)

end

/-- The links of a table of contents lead to the anchors of the headings with content. -/
theorem fragments_toHtml (names : Names) (listClass : String) {hs : List Heading}
    (hlevel : ∀ h ∈ hs, h.level ≤ mostLevel) :
    fragments names (toHtml listClass hs) = (shown hs).map Heading.anchor := by
  rw [toHtml, (links_entriesHtml names listClass _).fragments_eq, headings_ofHeadings hlevel]

end Toc

/-! ### Identifiers and links -/

section Identifiers

variable {α : Type*} {as : List α} {ids : List (Option String)} {f : α → String}

/-- The identifiers that are there come from the elements, in order. -/
theorem reduceOption_sublist_of_forall₂
    (h : List.Forall₂ (fun a id => id = some (f a) ∨ id = none) as ids) :
    ids.reduceOption.Sublist (as.map f) := by
  induction h with
  | nil => exact List.Sublist.slnil
  | @cons a id as ids hid _ ih =>
    rcases hid with rfl | rfl
    · exact ih.cons_cons (f a)
    · exact ih.cons (f a)

/-- Anchors on different lines differ. -/
theorem nodup_map_anchor {o : Origin} {slugger : Slugger} {hs : List HeadingNode}
    (hlines : ∀ h ∈ hs, 1 ≤ h.extent.start.line)
    (hdistinct : (hs.map (·.extent.start.line)).Nodup) :
    (hs.map fun h => (h.record o slugger).anchor).Nodup := by
  rw [List.Nodup, List.pairwise_map] at hdistinct ⊢
  refine hdistinct.imp_of_mem fun {h h'} hmem hmem' hne heq => hne ?_
  have hline : h.extent.start.line - 1 = h'.extent.start.line - 1 := Heading.anchorOf_inj heq
  have := hlines h hmem
  have := hlines h' hmem'
  omega

end Identifiers

variable {o : Origin} {slugger : Slugger} {hs : List HeadingNode} {ids : List (Option String)}

/-- The identifiers of the headings with content are their anchors, if there are nodes in those. -/
theorem map_anchor_shown_eq
    (hids : List.Forall₂
      (fun h id => id = some (h.record o slugger).anchor ∨ h.children = [] ∧ id = none) hs ids)
    (hcontent : ∀ h ∈ hs, h.content o ≠ "" → h.children ≠ []) :
    ((Toc.shown (hs.map (HeadingNode.record o slugger))).map Heading.anchor).map some =
      (((hs.map (HeadingNode.record o slugger)).zip ids).filter fun p =>
        !p.1.content.isEmpty).map Prod.snd := by
  unfold Toc.shown
  induction hids with
  | nil => rfl
  | @cons h id hs ids hid _ ih =>
    rw [List.forall_mem_cons] at hcontent
    rw [List.map_cons, List.zip_cons_cons, List.filter_cons, List.filter_cons]
    split
    · next hne =>
      have hne' : h.content o ≠ "" := by
        simpa [HeadingNode.record, String.isEmpty_iff] using hne
      have hid' : id = some (h.record o slugger).anchor :=
        hid.resolve_right fun hnone => hcontent.1 hne' hnone.1
      rw [List.map_cons, List.map_cons, List.map_cons, ih hcontent.2, hid']
    · exact ih hcontent.2

/-- **Links of a table of contents and identifiers of headings agree.**  A processor records the
headings of a tree, each of them once and in order, with their levels, lines and contents.  When the
tokens are written, every heading has at most one identifier and no two of these are equal, whatever
the slugs are.  The links of the table of contents are those of the headings with content, in order,
and each of them leads to the identifier that its heading is written with. -/
theorem Processor.headingIds_eq_fragments [UrlParser] (names : Names) (o : MarkdownOptions)
    (anchors targets : Slugger) (source : List Char) (root : Markdown.Node)
    (hlines : ∀ h ∈ headingNodesAll root.children, 1 ≤ h.extent.start.line)
    (hdistinct : ((headingNodesAll root.children).map (·.extent.start.line)).Nodup)
    (hlevels : ∀ h ∈ headingNodesAll root.children, 1 ≤ h.level ∧ h.level ≤ 6)
    (hcontent : ∀ h ∈ headingNodesAll root.children,
      h.content (origin o targets source) ≠ "" → h.children ≠ []) :
    let e := engineOf o anchors targets
    let result := Pass.runAll e.passes (e.blocksOfTree source root) []
    let ids := Renderer.headingIds names ⟨o.toRenderOptions, e.overrides, result.2⟩ none result.1
    result.2 =
        (headingNodesAll root.children).map
          (HeadingNode.record (origin o targets source) anchors) ∧
      ids.length = result.2.length ∧ ids.reduceOption.Nodup ∧
      (Toc.fragments names (Toc.toHtml o.wiki.toc.listClass result.2)).map some =
        ((result.2.zip ids).filter fun p => !p.1.content.isEmpty).map Prod.snd := by
  intro e result ids
  have hheaded := headed_blocksOfTree o anchors targets source root
  have hrecorded : result.2 = (headingNodesAll root.children).map
      (HeadingNode.record (origin o targets source) anchors) :=
    Heading.collect_of_headed anchors hheaded hlevels
  have hoverride : Renderer.override? ⟨o.toRenderOptions, e.overrides, result.2⟩ .headingOpen =
      some (headingAnchors anchors) := rfl
  have hids := Renderer.headingIds_of_headed names hoverride
    (hheaded.applyAll o.wiki.linkPolicy) none
  have hmost : ∀ h ∈ result.2, h.level ≤ Toc.mostLevel := by
    rw [hrecorded, List.forall_mem_map]
    exact fun h hh => ((hlevels h hh).2).trans (by decide)
  refine ⟨hrecorded, ?_, ?_, ?_⟩
  · rw [hrecorded, List.length_map]
    exact hids.length_eq.symm
  · have hanchors := hids.imp fun h id hid => hid.imp_right And.right
    exact (nodup_map_anchor hlines hdistinct).sublist (reduceOption_sublist_of_forall₂ hanchors)
  · rw [Toc.fragments_toHtml names _ hmost, hrecorded]
    exact map_anchor_shown_eq hids hcontent

/-- Two headings with the same text, the second of them in a block quote, and an empty one. -/
def sameTexts : Markdown.Node :=
  ⟨.document, {},
    [⟨.heading 1 false, ⟨⟨1, 1⟩, ⟨1, 3⟩⟩, [.text ['a']]⟩,
      ⟨.blockQuote, ⟨⟨2, 1⟩, ⟨2, 6⟩⟩, [⟨.heading 2 false, ⟨⟨2, 3⟩, ⟨2, 6⟩⟩, [.text ['a']]⟩]⟩,
      ⟨.heading 1 false, ⟨⟨3, 1⟩, ⟨3, 1⟩⟩, []⟩]⟩

theorem Processor.headingIds_sameTexts :
    let result := Pass.runAll (engineOf {} .lowercase .lowercase).passes
      ((engineOf {} .lowercase .lowercase).blocksOfTree "# a\n> ## a\n#\n".toList sameTexts) []
    let ids := Renderer.headingIds .predefined
      ⟨{}, (engineOf {} .lowercase .lowercase).overrides, result.2⟩ none result.1
    result.2 = [⟨"a", 0, 1, "a"⟩, ⟨"a", 1, 2, "a"⟩, ⟨"", 2, 1, ""⟩] ∧
      ids.length = 3 ∧ ids.reduceOption.Nodup ∧
      (Toc.fragments .predefined (Toc.toHtml "table-of-contents" result.2)).map some =
        ((result.2.zip ids).filter fun p => !p.1.content.isEmpty).map Prod.snd := by
  have h := headingIds_eq_fragments .predefined {} .lowercase .lowercase
    "# a\n> ## a\n#\n".toList sameTexts (by decide) (by decide) (by decide) (by decide +kernel)
  have hrecorded := h.1.trans (show _ = [⟨"a", 0, 1, "a"⟩, ⟨"a", 1, 2, "a"⟩, ⟨"", 2, 1, ""⟩] by
    decide +kernel)
  exact ⟨hrecorded, h.2.1.trans (congrArg List.length hrecorded), h.2.2⟩

end WikiPress
