import WikiPress.Proofs.Nesting.Links
import WikiPress.Proofs.Renderer.Markup

/-!
# Anchors inside anchors

The tags of links are the only anchors among the tags of a text, so that an anchor stands inside
another one in the HTML of a text exactly where a link stands inside another one among its tokens.

## Main definitions

* `Html.AnchorInside` : an anchor opens while another one is open.
* `Token.IsAnchored` : tokens whose tags are anchors if they are links, and no anchors otherwise.
* `OpensInside`, `openLinks` : a link opens while others are open.
* `NestsAnchors` : whether there are anchors inside anchors in the HTML of some tokens.

## Main results

* `anchorInside_itemsOfText` : anchors inside anchors are links inside links.
* `TokenStream.nestsLinks_ofDocument` : links inside links in a document with wikilinks, among the
  tokens and in the HTML.
-/

namespace WikiPress

open Text Html

/-! ### Anchors among tags -/

namespace Html

/-- Among the tags, of which those before left `depth` anchors open, an anchor opens while another
one is open. -/
def AnchorInside (depth : Nat) : List Tag → Prop
  | [] => False
  | t :: rest =>
    if t.name = "a" then
      if t.closing then AnchorInside (depth - 1) rest
      else 0 < depth ∨ AnchorInside (depth + 1) rest
    else AnchorInside depth rest

variable {depth : Nat} {t : Tag} {ts us : List Tag}

theorem anchorInside_append_of_forall_ne (h : ∀ t ∈ ts, t.name ≠ "a") :
    AnchorInside depth (ts ++ us) ↔ AnchorInside depth us := by
  induction ts with
  | nil => rfl
  | cons t ts ih =>
    rw [List.forall_mem_cons] at h
    rw [List.cons_append, AnchorInside, if_neg h.1, ih h.2]

end Html

/-! ### The tags of tokens -/

/-- Whether tokens of a kind can stand in a text and have a tag and a nesting: the tags of links are
anchors, which open and close, and the tags of other tokens are no anchors. -/
def TokenKind.hasTag (kind : TokenKind) (tag : String) (nesting : Int) : Bool :=
  kind != .inline && kind != .headingOpen &&
    ((tag == "a") == (kind == .linkOpen || kind == .linkClose)) &&
    (!kind.isTag || decide (IsTagName tag)) &&
    (kind != .linkOpen || nesting == 1) && (kind != .linkClose || nesting == -1)

namespace Token

/-- A token of a text with plain names that is written as an anchor if it is a link, and not
otherwise. -/
structure IsAnchored (t : Token) : Prop where
  hidden : t.hidden = false
  keys : ∀ a ∈ t.attributes, IsName a.1
  kind_ne : t.kind ≠ .inline ∧ t.kind ≠ .headingOpen
  tag_eq_iff : t.tag = "a" ↔ t.kind = .linkOpen ∨ t.kind = .linkClose
  isTagName : t.kind.isTag = true → IsTagName t.tag
  opens : t.kind = .linkOpen → t.nesting = 1
  closes : t.kind = .linkClose → t.nesting = -1

variable {t : Token}

theorem isAnchored_of_hasTag (hhidden : t.hidden = false) (hkeys : ∀ a ∈ t.attributes, IsName a.1)
    (h : t.kind.hasTag t.tag t.nesting = true) : t.IsAnchored := by
  simp only [TokenKind.hasTag, Bool.and_eq_true, bne_iff_ne, beq_iff_eq, Bool.or_eq_true,
    Bool.not_eq_true', decide_eq_true_eq] at h
  obtain ⟨⟨⟨⟨hkind, htag⟩, hname⟩, hopens⟩, hcloses⟩ := h
  refine ⟨hhidden, hkeys, hkind, ?_, fun htag => hname.resolve_left (by simp [htag]),
    fun hopen => hopens.resolve_left (not_not.mpr hopen),
    fun hclose => hcloses.resolve_left (not_not.mpr hclose)⟩
  simpa using Bool.eq_iff_iff.mp htag

theorem isAnchored_of_bare (hhidden : t.hidden = false) (hattributes : t.attributes = [])
    (h : t.kind.hasTag t.tag t.nesting = true) : t.IsAnchored :=
  isAnchored_of_hasTag hhidden (by simp [hattributes]) h

theorem IsAnchored.writable (h : t.IsAnchored) (hraw : t.kind ≠ .raw) : t.Writable :=
  IsPlain.writable ⟨hraw, fun htag _ => h.isTagName htag, h.keys⟩ h.kind_ne.1

end Token

/-- There is no anchor among the tags of the items. -/
def NoAnchors (is : List Item) : Prop := ∀ u ∈ is.filterMap Item.tag?, u.name ≠ "a"

section NoAnchors

variable {is js : List Item}

theorem noAnchors_char (s : List Char) : NoAnchors (s.map .char) := by
  rw [NoAnchors, filterMap_char]
  exact fun _ hu => absurd hu List.not_mem_nil

theorem NoAnchors.append (h : NoAnchors is) (h' : NoAnchors js) : NoAnchors (is ++ js) := by
  rw [NoAnchors, List.filterMap_append, List.forall_mem_append]
  exact ⟨h, h'⟩

theorem NoAnchors.element {name : String} (hname : name ≠ "a") (as : List (String × String))
    (h : NoAnchors is) : NoAnchors (elementItems name as is) := by
  rw [NoAnchors, filterMap_elementItems, List.forall_mem_cons, List.forall_mem_append,
    List.forall_mem_singleton]
  exact ⟨hname, h, hname⟩

/-- A token whose own tag is no anchor is read with no anchors. -/
theorem noAnchors_items (o : RenderOptions) {t : Token} (hhidden : t.hidden = false)
    (hkind : t.kind ≠ .inline) (htag : t.tag ≠ "a") (before after : Option Token)
    (inner : List Item) : NoAnchors (o.items ⟨before, t, after⟩ inner) := by
  have hcontent := noAnchors_char t.content.toList
  have hfeed : NoAnchors [.char '\n'] := noAnchors_char ['\n']
  have hbreak : NoAnchors o.breakItems := by simp [NoAnchors, RenderOptions.breakItems, Item.tag?]
  unfold RenderOptions.items
  dsimp only
  split
  · exact hcontent
  · exact hcontent
  · split
    · exact hbreak
    · exact hfeed
  · exact hbreak
  · exact hcontent.element (by decide) _
  · exact ((hcontent.element (by decide) _).element (by decide) _).append hfeed
  · exact ((hcontent.element (by decide) _).element (by decide) _).append hfeed
  · exact ((noAnchors_char _).element (by decide) _).append hfeed
  · exact hcontent
  · exact noAnchors_char []
  · next hinline => exact absurd hinline hkind
  · exact noAnchors_char []
  · exact noAnchors_char []
  · exact noAnchors_char []
  · rw [NoAnchors, o.filterMap_tagItems hhidden]
    exact List.forall_mem_singleton.mpr htag

end NoAnchors

section Tags

variable {o : RenderOptions} {anchors : Option Slugger} {t : Token} {before after : Option Token}

theorem itemsOfToken_eq (h : t.kind ≠ .headingOpen) :
    itemsOfToken o anchors before after t =
      o.items ⟨before, t, after⟩ (itemsOfText o anchors none t.children) := by
  cases t
  rw [itemsOfToken, Site.anchored_of_kind_ne h]

/-- A link is read as one tag. -/
theorem tags_itemsOfToken_link (h : t.IsAnchored)
    (hkind : t.kind = .linkOpen ∨ t.kind = .linkClose) :
    (itemsOfToken o anchors before after t).filterMap Item.tag? =
      [⟨t.nesting = -1, "a", t.attributes, t.nesting = 0 && o.xhtmlOut⟩] := by
  have hitems (inner : List Item) :
      o.items ⟨before, t, after⟩ inner = o.tagItems ⟨before, t, after⟩ := by
    rcases hkind with hkind | hkind <;> simp [RenderOptions.items, hkind]
  rw [itemsOfToken_eq h.kind_ne.2, hitems, o.filterMap_tagItems h.hidden,
    h.tag_eq_iff.mpr hkind]

theorem noAnchors_itemsOfToken (h : t.IsAnchored)
    (hkind : ¬(t.kind = .linkOpen ∨ t.kind = .linkClose)) :
    NoAnchors (itemsOfToken o anchors before after t) := by
  rw [itemsOfToken_eq h.kind_ne.2]
  exact noAnchors_items o h.hidden h.kind_ne.1 (mt h.tag_eq_iff.mp hkind) before after _

end Tags

/-! ### Links and anchors -/

/-- In a list that is read inside the open tokens `s`, a link opens while another one is open. -/
def OpensInside (s ts : List Token) : Prop :=
  ∃ us t vs opened, ts = us ++ t :: vs ∧ t.kind = .linkOpen ∧ openAfter? s us = some opened ∧
    ∃ o ∈ opened, o.kind = .linkOpen

section OpensInside

variable {s s' ts : List Token} {t : Token}

theorem not_opensInside_nil : ¬OpensInside s [] := by
  rintro ⟨us, t, vs, _, heq, _⟩
  simp at heq

theorem opensInside_cons (h : t.openAfter? s = some s') :
    OpensInside s (t :: ts) ↔
      (t.kind = .linkOpen ∧ ∃ o ∈ s, o.kind = .linkOpen) ∨ OpensInside s' ts := by
  constructor
  · rintro ⟨us, u, vs, opened, heq, hu, hopened, ho⟩
    cases us with
    | nil =>
      obtain ⟨rfl, -⟩ := List.cons.inj heq
      obtain rfl : s = opened := Option.some.inj hopened
      exact .inl ⟨hu, ho⟩
    | cons first us =>
      obtain ⟨rfl, hsplit⟩ := List.cons.inj heq
      rw [openAfter?_cons, h, Option.bind_some] at hopened
      exact .inr ⟨us, u, vs, opened, hsplit, hu, hopened, ho⟩
  · rintro (⟨ht, ho⟩ | ⟨us, u, vs, opened, rfl, hu, hopened, ho⟩)
    · exact ⟨[], t, ts, s, rfl, ht, rfl, ho⟩
    · refine ⟨t :: us, u, vs, opened, rfl, hu, ?_, ho⟩
      rw [openAfter?_cons, h, Option.bind_some, hopened]

theorem opensInside_iff : OpensInside [] ts ↔ ∃ o t, LinkInside ts o t := by
  constructor
  · rintro ⟨us, t, vs, opened, heq, ht, hopened, o, ho, hkind⟩
    exact ⟨o, t, hkind, ht, us, vs, opened, heq, hopened, ho⟩
  · rintro ⟨o, t, hkind, ht, us, vs, opened, heq, hopened, ho⟩
    exact ⟨us, t, vs, opened, heq, ht, hopened, o, ho, hkind⟩

theorem TokenKind.closing?_eq_linkClose_iff {kind : TokenKind} :
    kind.closing? = some .linkClose ↔ kind = .linkOpen := by
  cases kind <;> decide

/-- The number of links among the open tokens. -/
def openLinks (s : List Token) : Nat := s.countP (·.kind = .linkOpen)

theorem openLinks_cons :
    openLinks (t :: s) = openLinks s + if t.kind = .linkOpen then 1 else 0 := by
  simp [openLinks, List.countP_cons]

/-- A token opens or closes at most one link. -/
theorem openLinks_openAfter? (ht : t.IsAnchored) (h : t.openAfter? s = some s') :
    (openLinks s' + if t.kind = .linkClose then 1 else 0) =
      openLinks s + if t.kind = .linkOpen then 1 else 0 := by
  have hopen (hne : t.nesting ≠ 1) : t.kind ≠ .linkOpen := fun hkind => hne (ht.opens hkind)
  have hclose (hne : t.nesting ≠ -1) : t.kind ≠ .linkClose := fun hkind => hne (ht.closes hkind)
  obtain ⟨hone, rfl⟩ | ⟨hzero, rfl⟩ | ⟨hone, -, o, rfl, hcloses⟩ := Token.openAfter?_eq_some h
  · rw [openLinks_cons, if_neg (hclose (by rw [hone]; decide)), Nat.add_zero]
  · rw [if_neg (hclose (by rw [hzero]; decide)), if_neg (hopen (by rw [hzero]; decide))]
  · have hiff : t.kind = .linkClose ↔ o.kind = .linkOpen := by
      rw [← TokenKind.closing?_eq_linkClose_iff, hcloses.1, Option.some.injEq]
    simp only [openLinks_cons, hiff, if_neg (hopen hone), Nat.add_zero]

theorem openLinks_pos_iff : 0 < openLinks s ↔ ∃ o ∈ s, o.kind = .linkOpen := by
  simp [openLinks, List.countP_pos_iff]

end OpensInside

/-- Anchors inside anchors are links inside links: in front of each token, as many anchors are open
among the tags as links are among the tokens. -/
theorem anchorInside_itemsOfText (o : RenderOptions) (anchors : Option Slugger)
    {s s' ts : List Token} (hts : ∀ t ∈ ts, t.IsAnchored)
    (hread : openAfter? s ts = some s') (before : Option Token) :
    AnchorInside (openLinks s) ((itemsOfText o anchors before ts).filterMap Item.tag?) ↔
      OpensInside s ts := by
  induction ts generalizing s before with
  | nil =>
    rw [itemsOfText]
    exact iff_of_false id not_opensInside_nil
  | cons t ts ih =>
    rw [List.forall_mem_cons] at hts
    rw [openAfter?_cons, Option.bind_eq_some_iff] at hread
    obtain ⟨s₁, hs₁, hread⟩ := hread
    have hlinks := openLinks_openAfter? hts.1 hs₁
    rw [itemsOfText, List.filterMap_append, opensInside_cons hs₁, ← ih hts.2 hread (some t),
      ← openLinks_pos_iff]
    by_cases hopen : t.kind = .linkOpen
    · have hone : t.nesting = 1 := hts.1.opens hopen
      replace hlinks : openLinks s₁ = openLinks s + 1 := by simpa [hopen] using hlinks
      rw [tags_itemsOfToken_link hts.1 (.inl hopen), List.singleton_append, hlinks]
      simp [AnchorInside, hopen, hone]
    by_cases hclose : t.kind = .linkClose
    · have hone : t.nesting = -1 := hts.1.closes hclose
      replace hlinks : openLinks s₁ + 1 = openLinks s := by simpa [hclose] using hlinks
      rw [tags_itemsOfToken_link hts.1 (.inr hclose), List.singleton_append, ← hlinks]
      simp [AnchorInside, hclose, hone]
    · replace hlinks : openLinks s₁ = openLinks s := by simpa [hopen, hclose] using hlinks
      rw [anchorInside_append_of_forall_ne
        (noAnchors_itemsOfToken hts.1 (not_or.mpr ⟨hopen, hclose⟩)), hlinks]
      simp [hopen]

/-- In the HTML of a text without HTML of its own, an anchor stands inside another one exactly if a
link does so among the tokens. -/
theorem anchorInside_writeInline (names : Names) {o : RenderOptions} (anchors : Option Slugger)
    (headings : List Heading) {ts : List Token} (hhtml : o.html = false) (hnested : Nested ts)
    (hts : ∀ t ∈ ts, t.IsAnchored) (hraw : ∀ t ∈ ts, t.kind ≠ .raw) :
    AnchorInside 0 (tags names ((Renderer.anchoring o anchors headings).writeInline none ts)) ↔
      ∃ o t, LinkInside ts o t := by
  have hreads : Reads names ((Renderer.anchoring o anchors headings).writeInline none ts)
      (itemsOfText o anchors none ts) :=
    reads_writeInline hhtml none ts fun t ht => (hts t ht).writable (hraw t ht)
  rw [hreads.tags_eq, ← opensInside_iff]
  exact anchorInside_itemsOfText o anchors hts hnested none

/-- In the HTML of the tokens, if no HTML of their own is passed through, an anchor stands inside
another one if and only if `any` says so. -/
def NestsAnchors (ts : List Token) (any : Bool) : Prop :=
  ∀ (names : Names) (o : RenderOptions) (anchors : Option Slugger) (headings : List Heading),
    o.html = false → (∀ t ∈ ts, t.kind ≠ .raw) →
      (AnchorInside 0 (tags names ((Renderer.anchoring o anchors headings).writeInline none ts)) ↔
        any = true)

theorem NestsLinks.nestsAnchors {ts : List Token} {any : Bool} (h : NestsLinks ts any)
    (hts : ∀ t ∈ ts, t.IsAnchored) : NestsAnchors ts any := by
  intro names o anchors headings hhtml hraw
  rw [anchorInside_writeInline names anchors headings hhtml h.nested hts hraw, h.exists_iff]

/-! ### The tokens of texts -/

section

open Token

variable {ts : List Token}

theorem isAnchored_wrap {opening closing : Token} (hopening : opening.IsAnchored)
    (hclosing : closing.IsAnchored) (h : ∀ t ∈ ts, t.IsAnchored) :
    ∀ t ∈ opening :: (ts ++ [closing]), t.IsAnchored := by
  rw [List.forall_mem_cons, List.forall_mem_append, List.forall_mem_singleton]
  exact ⟨hopening, h, hclosing⟩

theorem isAnchored_ofText (label : String) : (Token.ofText label).IsAnchored :=
  isAnchored_of_bare rfl rfl rfl

theorem IsWikilink.isAnchored (h : IsWikilink ts) : ∀ t ∈ ts, t.IsAnchored := by
  obtain ⟨slugger, inner, rfl⟩ := h
  have htag : TokenKind.linkOpen.hasTag "a" 1 = true := by decide
  refine show ∀ t ∈ (_ :: ([_] ++ [_]) : List Token), t.IsAnchored from
    isAnchored_wrap (isAnchored_of_hasTag rfl ?_ htag) (isAnchored_of_bare rfl rfl rfl)
      (List.forall_mem_singleton.mpr (isAnchored_ofText _))
  exact List.forall_mem_singleton.mpr (show IsName "href" by decide)

end

namespace TokenStream.Origin

open Markdown Token

variable {o : Origin}

theorem isName_titleAttributes (title : String) :
    ∀ a ∈ o.titleAttributes title, IsName a.1 := by
  unfold titleAttributes
  split
  · simp
  · exact List.forall_mem_singleton.mpr (show IsName "title" by decide)

theorem isAnchored_expand (hspans : ∀ span ∈ o.mask.spans, IsWikilink span.tokens)
    (s : List Char) : ∀ t ∈ o.mask.expand s, t.IsAnchored := by
  unfold Mask.expand
  split
  · exact List.forall_mem_singleton.mpr (isAnchored_ofText _)
  · intro t ht
    obtain ⟨segment, hsegment, ht⟩ := List.mem_flatMap.mp ht
    cases segment with
    | plain u => exact List.mem_singleton.mp ht ▸ isAnchored_ofText _
    | span span =>
      exact (hspans span (Mask.mem_spans_of_mem_segments s hsegment)).isAnchored t ht

mutual

/-- Links are the only anchors among the tokens of a node in a text. -/
theorem isAnchored_inlineTokens (hspans : ∀ span ∈ o.mask.spans, IsWikilink span.tokens)
    (around : Surroundings) : ∀ n : Node, ∀ t ∈ o.inlineTokens around n, t.IsAnchored
  | ⟨kind, extent, children⟩ => by
    have hinner := isAnchored_inlineTokensAll hspans ⟨kind :: around.above, []⟩ children
    cases kind with
    | text literal => exact isAnchored_expand hspans _
    | emphasis =>
      exact isAnchored_wrap (isAnchored_of_bare rfl rfl rfl)
        (isAnchored_of_bare rfl rfl rfl) hinner
    | strong =>
      exact isAnchored_wrap (isAnchored_of_bare rfl rfl rfl)
        (isAnchored_of_bare rfl rfl rfl) hinner
    | strikethrough =>
      exact isAnchored_wrap (isAnchored_of_bare rfl rfl rfl)
        (isAnchored_of_bare rfl rfl rfl) hinner
    | link url title =>
      have htag : TokenKind.linkOpen.hasTag "a" 1 = true := by decide
      refine isAnchored_wrap (isAnchored_of_hasTag rfl ?_ htag)
        (isAnchored_of_bare rfl rfl rfl) hinner
      exact List.forall_mem_cons.mpr ⟨show IsName "href" by decide, isName_titleAttributes title⟩
    | image url title =>
      have htag : TokenKind.image.hasTag "img" 0 = true := by decide
      refine List.forall_mem_singleton.mpr (isAnchored_of_hasTag rfl ?_ htag)
      exact List.forall_mem_cons.mpr ⟨show IsName "src" by decide,
        List.forall_mem_cons.mpr ⟨show IsName "alt" by decide, isName_titleAttributes title⟩⟩
    | _ => exact List.forall_mem_singleton.mpr (isAnchored_of_bare rfl rfl rfl)

theorem isAnchored_inlineTokensAll (hspans : ∀ span ∈ o.mask.spans, IsWikilink span.tokens)
    (around : Surroundings) : ∀ ns : List Node, ∀ t ∈ o.inlineTokensAll around ns, t.IsAnchored
  | [] => by simp [inlineTokensAll]
  | n :: rest => by
    rw [inlineTokensAll, List.forall_mem_append]
    exact ⟨isAnchored_inlineTokens hspans around n, isAnchored_inlineTokensAll hspans _ rest⟩

end

/-- Links and anchors stand inside others where placeholders stand in the links of a text. -/
theorem forall₂_nestsLinks (hspans : ∀ span ∈ o.mask.spans, IsWikilink span.tokens)
    {ts : List Token} {texts : List (List Node)} (htexts : List.Forall₂ o.IsTextOf ts texts)
    (h : ∀ ns ∈ texts, Node.linksApartAll ns = true) :
    List.Forall₂ (fun t ns => NestsLinks t.children (Node.linksSpanAll o.mask ns) ∧
      NestsAnchors t.children (Node.linksSpanAll o.mask ns)) ts texts := by
  induction htexts with
  | nil => exact .nil
  | @cons t ns _ _ htext _ ih =>
    rw [List.forall_mem_cons] at h
    obtain ⟨around, hchildren⟩ := htext
    have hlinks : NestsLinks t.children (Node.linksSpanAll o.mask ns) :=
      hchildren ▸ nestsLinks_inlineTokensAll hspans around ns h.1
    have hanchored : ∀ u ∈ t.children, u.IsAnchored :=
      hchildren ▸ isAnchored_inlineTokensAll hspans around ns
    exact .cons ⟨hlinks, hlinks.nestsAnchors hanchored⟩ (ih h.2)

end TokenStream.Origin

/-! ### Documents -/

/-- In a document with wikilinks, links stand inside links, and anchors inside anchors, where a
placeholder stands in the text of a link, and nowhere else.  The inner link is a wikilink. -/
theorem TokenStream.nestsLinks_ofDocument (slugger : Slugger) (masked source : List Char)
    (html : Bool) {root : Markdown.Node} (h : root.linksApart = true) :
    List.Forall₂
      (fun t ns =>
        NestsLinks t.children
            (Markdown.Node.linksSpanAll (Mask.ofText [Wikilink.rule slugger] masked) ns) ∧
          NestsAnchors t.children
            (Markdown.Node.linksSpanAll (Mask.ofText [Wikilink.rule slugger] masked) ns))
      ((ofDocument (Mask.ofText [Wikilink.rule slugger] masked) source html root).filter
        (·.kind == .inline))
      (Markdown.Node.textsAll root.children) := by
  have hapart :=
    Markdown.Node.linksApartAll_of_mem_textsAll _ (Markdown.Node.linksApartAll_children h)
  exact Origin.forall₂_nestsLinks (o := ⟨_, sourceLines source, html⟩)
    Wikilink.isWikilink_of_mem_spans
    (Origin.forall₂_textsAll ⟨[root.kind], []⟩ false root.children) hapart

/-- A wikilink in the text of an emphasized link, and one that stands in front of a link. -/
theorem TokenStream.nestsLinks_twoTexts :
    let source := "*[see [[Page]]](/x)*\n\n[[Other]] [z](/y)".toList
    let mask := Mask.ofText [Wikilink.rule .lowercase] source
    let root : Markdown.Node := ⟨.document, {}, [
      ⟨.paragraph, {}, [⟨.emphasis, {}, [
        ⟨.link "/x" "", {}, [.text "see \uE0000\uE001".toList]⟩]⟩]⟩,
      ⟨.paragraph, {}, [.text "\uE0001\uE001 ".toList, ⟨.link "/y" "", {}, [.text ['z']]⟩]⟩]⟩
    mask.text = "*[see \uE0000\uE001](/x)*\n\n\uE0001\uE001 [z](/y)".toList ∧
      root.linksApart = true ∧
      ∃ first second : Token,
        (ofDocument mask source false root).filter (·.kind == .inline) = [first, second] ∧
        (NestsLinks first.children true ∧ NestsAnchors first.children true) ∧
        NestsLinks second.children false ∧ NestsAnchors second.children false := by
  intro source mask root
  have hroot : root.linksApart = true := by decide
  have hfirst : Markdown.Node.linksSpanAll mask [⟨.emphasis, {}, [
      ⟨.link "/x" "", {}, [.text "see \uE0000\uE001".toList]⟩]⟩] = true := by decide +kernel
  have hsecond : Markdown.Node.linksSpanAll mask [.text "\uE0001\uE001 ".toList,
      ⟨.link "/y" "", {}, [.text ['z']]⟩] = false := by decide +kernel
  obtain ⟨first, _, hnests, hrest, hfilter⟩ := List.forall₂_cons_right_iff.mp
    (nestsLinks_ofDocument .lowercase source source false hroot)
  obtain ⟨second, _, hnests', hnil, rfl⟩ := List.forall₂_cons_right_iff.mp hrest
  obtain rfl := List.forall₂_nil_right_iff.mp hnil
  exact ⟨by decide +kernel, hroot, first, second, hfilter, hfirst ▸ hnests, hsecond ▸ hnests'⟩

/-- A wikilink in the text of a link: a link inside a link, and an anchor inside an anchor. -/
theorem TokenStream.exists_linkInside :
    let source := "[see [[Page]]](/x)".toList
    let mask := Mask.ofText [Wikilink.rule .lowercase] source
    let root : Markdown.Node := ⟨.document, {}, [⟨.paragraph, {}, [
      ⟨.link "/x" "", {}, [.text "see \uE0000\uE001".toList]⟩]⟩]⟩
    mask.text = "[see \uE0000\uE001](/x)".toList ∧ root.linksApart = true ∧
      ∃ t ∈ ofDocument mask source false root, t.kind = .inline ∧
        t.children.map Token.kind =
          [.linkOpen, .text, .linkOpen, .text, .linkClose, .linkClose] ∧
        (∃ o u, LinkInside t.children o u) ∧
        AnchorInside 0
          (tags .predefined ((Renderer.anchoring {} none []).writeInline none t.children)) := by
  intro source mask root
  let o : Origin := ⟨mask, sourceLines source, false⟩
  have hspans : ∀ span ∈ o.mask.spans, IsWikilink span.tokens := Wikilink.isWikilink_of_mem_spans
  have hlinks := Origin.nestsLinks_inlineTokensAll hspans ⟨[.paragraph, .document], []⟩
    [⟨.link "/x" "", {}, [.text "see \uE0000\uE001".toList]⟩] (by decide)
  have hanchors := hlinks.nestsAnchors (Origin.isAnchored_inlineTokensAll hspans _ _)
  have hspan : Markdown.Node.linksSpanAll mask
      [⟨.link "/x" "", {}, [.text "see \uE0000\uE001".toList]⟩] = true := by decide +kernel
  refine ⟨by decide +kernel, by decide, _, .tail _ (.head _), rfl, by decide +kernel,
    hlinks.exists_iff.mpr hspan, (hanchors .predefined {} none [] rfl ?_).mpr hspan⟩
  decide +kernel

end WikiPress
