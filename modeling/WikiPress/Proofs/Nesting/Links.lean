import WikiPress.Proofs.Nesting.Document
import WikiPress.Proofs.TokenStream.Texts

/-!
# Links inside links

The markup has no links in the text of a link.  The placeholder of a wikilink is plain text for the
markup, so that it can stand there, and its tokens are put in between those of the link around it.
That is the only way in which a link can come to stand inside another one: around it is a link of
the tree, and the inner one is a wikilink.

## Main definitions

* `LinkInside` : the opening tag of a link stands inside another link.
* `OnlyWikilinks` : all links in a list of tokens are wikilinks.
* `NestsLinks` : links stand inside links only as wikilinks in links of the tree.
* `Node.hasLink`, `Node.linksApart` : whether there are links in a tree, and links in links.
* `Node.holdsSpan`, `Node.linksSpan` : whether there are placeholders in a text, and in its links.

## Main results

* `TokenStream.Origin.nestsLinks_inlineTokensAll` : links inside links in one text.
-/

namespace WikiPress

open Text Markdown

/-! ### Links in a list of tokens -/

/-- The opening tag `t` of a link stands between the opening tag `o` of another link and the tag
that closes the other link. -/
def LinkInside (ts : List Token) (o t : Token) : Prop :=
  o.kind = .linkOpen ∧ t.kind = .linkOpen ∧
    ∃ us vs opened, ts = us ++ t :: vs ∧ openAfter? [] us = some opened ∧ o ∈ opened

theorem TokenKind.closing?_ne_linkOpen (kind : TokenKind) : kind.closing? ≠ some .linkOpen := by
  cases kind <;> decide

section LinkInside

variable {ts us inner : List Token} {o t opening closing : Token}

/-- A beginning of a nested list can be read. -/
theorem Nested.exists_openAfter?_eq (h : Nested (ts ++ us)) :
    ∃ opened, ∀ s, openAfter? s ts = some (opened ++ s) := by
  rw [Nested, openAfter?_append, Option.bind_eq_some_iff] at h
  obtain ⟨opened, hopened, _⟩ := h
  exact ⟨opened, openAfter?_append_left hopened⟩

theorem not_linkInside_singleton (u : Token) : ¬LinkInside [u] o t := by
  rintro ⟨_, _, us, vs, opened, heq, hopened, hmem⟩
  cases us with
  | nil =>
    obtain rfl : [] = opened := Option.some.inj hopened
    exact List.not_mem_nil hmem
  | cons u us => simp at heq

theorem linkInside_append (h : Nested ts) :
    LinkInside (ts ++ us) o t ↔ LinkInside ts o t ∨ LinkInside us o t := by
  constructor
  · rintro ⟨ho, ht, before, after, opened, heq, hopened, hmem⟩
    rcases List.append_eq_append_iff.mp heq with ⟨rest, rfl, rfl⟩ | ⟨rest, rfl, hrest⟩
    · rw [openAfter?_append, h, Option.bind_some] at hopened
      exact .inr ⟨ho, ht, rest, after, opened, rfl, hopened, hmem⟩
    · rcases List.cons_eq_append_iff.mp hrest with ⟨rfl, rfl⟩ | ⟨rest, rfl, rfl⟩
      · rw [List.append_nil] at h
        obtain rfl : [] = opened := Option.some.inj (h.symm.trans hopened)
        exact absurd hmem List.not_mem_nil
      · exact .inl ⟨ho, ht, before, rest, opened, rfl, hopened, hmem⟩
  · rintro (⟨ho, ht, before, after, opened, rfl, hopened, hmem⟩ |
      ⟨ho, ht, before, after, opened, rfl, hopened, hmem⟩)
    · exact ⟨ho, ht, before, after ++ us, opened, by simp, hopened, hmem⟩
    · refine ⟨ho, ht, ts ++ before, after, opened, by simp, ?_, hmem⟩
      rw [openAfter?_append, h, Option.bind_some, hopened]

/-- Inside a link are the links in its text, and whatever is inside these. -/
theorem linkInside_wrap (hopening : opening.nesting = 1) (hcloses : closing.Closes opening)
    (h : Nested inner) :
    LinkInside (opening :: (inner ++ [closing])) o t ↔
      (opening.kind = .linkOpen ∧ o = opening ∧ t ∈ inner ∧ t.kind = .linkOpen) ∨
        LinkInside inner o t := by
  have hclosing : closing.kind ≠ .linkOpen := fun heq =>
    TokenKind.closing?_ne_linkOpen opening.kind (heq ▸ hcloses.1)
  have hopen (before : List Token) :
      openAfter? [] (opening :: before) = openAfter? [opening] before := by
    rw [openAfter?_cons, Token.openAfter?_of_opening hopening, Option.bind_some]
  constructor
  · rintro ⟨ho, ht, before, after, opened, heq, hopened, hmem⟩
    cases before with
    | nil =>
      obtain rfl : [] = opened := Option.some.inj hopened
      exact absurd hmem List.not_mem_nil
    | cons first before =>
      obtain ⟨rfl, hsplit⟩ := List.cons.inj heq
      obtain rfl | ⟨after, last, rfl⟩ := List.eq_nil_or_concat' after
      · obtain ⟨-, hlast⟩ := List.append_inj' hsplit rfl
        exact absurd ((List.cons.inj hlast).1 ▸ ht) hclosing
      · rw [List.append_eq, ← List.cons_append, ← List.append_assoc] at hsplit
        obtain ⟨rfl, -⟩ := List.append_inj' hsplit rfl
        obtain ⟨s, hs⟩ := h.exists_openAfter?_eq
        rw [hopen, hs, Option.some.injEq] at hopened
        subst hopened
        rcases List.mem_append.mp hmem with hmem | hmem
        · exact .inr ⟨ho, ht, before, after, s, rfl, by simpa using hs [], hmem⟩
        · obtain rfl := List.mem_singleton.mp hmem
          exact .inl ⟨ho, rfl, by simp, ht⟩
  · rintro (⟨ho, rfl, hmem, ht⟩ | ⟨ho, ht, before, after, opened, rfl, hopened, hmem⟩)
    · obtain ⟨before, after, rfl⟩ := List.append_of_mem hmem
      obtain ⟨s, hs⟩ := h.exists_openAfter?_eq
      exact ⟨ho, ht, o :: before, after ++ [closing], s ++ [o], by simp, by rw [hopen, hs],
        by simp⟩
    · refine ⟨ho, ht, opening :: before, after ++ [closing], opened ++ [opening], by simp, ?_,
        List.mem_append_left _ hmem⟩
      rw [hopen]
      exact openAfter?_append_left hopened [opening]

end LinkInside

/-! ### What is known of the links of a list -/

/-- The links in a list of tokens are wikilinks; `any` tells whether there are links. -/
structure OnlyWikilinks (ts : List Token) (any : Bool) : Prop where
  markup_eq : ∀ t ∈ ts, t.kind = .linkOpen → t.markup = "wikilink"
  exists_iff : (∃ t ∈ ts, t.kind = .linkOpen) ↔ any = true

/-- A link stands inside another one only as a wikilink in a link of a tree; `any` tells whether
there are links inside links. -/
structure NestsLinks (ts : List Token) (any : Bool) : Prop where
  nested : Nested ts
  markup_eq : ∀ o t, LinkInside ts o t → o.markup = "" ∧ t.markup = "wikilink"
  exists_iff : (∃ o t, LinkInside ts o t) ↔ any = true

section Links

variable {ts us inner : List Token} {t opening closing : Token} {any any' : Bool}

theorem onlyWikilinks_of_forall_ne (h : ∀ t ∈ ts, t.kind ≠ .linkOpen) : OnlyWikilinks ts false :=
  ⟨fun t ht hkind => absurd hkind (h t ht), by simpa using h⟩

theorem onlyWikilinks_singleton (h : (t.kind == .linkOpen) = false) : OnlyWikilinks [t] false :=
  onlyWikilinks_of_forall_ne (List.forall_mem_singleton.mpr (ne_of_beq_false h))

theorem OnlyWikilinks.append (h : OnlyWikilinks ts any) (h' : OnlyWikilinks us any') :
    OnlyWikilinks (ts ++ us) (any || any') := by
  refine ⟨List.forall_mem_append.mpr ⟨h.markup_eq, h'.markup_eq⟩, ?_⟩
  rw [Bool.or_eq_true, ← h.exists_iff, ← h'.exists_iff]
  simp only [List.mem_append, or_and_right, exists_or]

theorem onlyWikilinks_flatMap {α : Type*} {f : α → List Token} {p : α → Bool} {as : List α}
    (h : ∀ a ∈ as, OnlyWikilinks (f a) (p a)) : OnlyWikilinks (as.flatMap f) (as.any p) := by
  induction as with
  | nil => exact onlyWikilinks_of_forall_ne (by simp)
  | cons a as ih =>
    rw [List.forall_mem_cons] at h
    exact h.1.append (ih h.2)

theorem OnlyWikilinks.wrap (hopening : (opening.kind == .linkOpen) = false)
    (hclosing : (closing.kind == .linkOpen) = false) (h : OnlyWikilinks inner any) :
    OnlyWikilinks (opening :: (inner ++ [closing])) any := by
  have := (onlyWikilinks_singleton hopening).append (h.append (onlyWikilinks_singleton hclosing))
  rwa [Bool.false_or, Bool.or_false] at this

theorem nestsLinks_of_not (hnested : Nested ts) (h : ∀ o t, ¬LinkInside ts o t) :
    NestsLinks ts false :=
  ⟨hnested, fun o t hinside => absurd hinside (h o t), by simpa using h⟩

theorem nestsLinks_singleton (h : t.nesting = 0) : NestsLinks [t] false :=
  nestsLinks_of_not (nested_cons_of_single h nested_nil) fun _ _ => not_linkInside_singleton t

theorem nestsLinks_nil : NestsLinks [] false := by
  refine nestsLinks_of_not nested_nil ?_
  rintro o t ⟨_, _, before, after, _, heq, _⟩
  simp at heq

theorem NestsLinks.append (h : NestsLinks ts any) (h' : NestsLinks us any') :
    NestsLinks (ts ++ us) (any || any') := by
  refine ⟨h.nested.append h'.nested, fun o t hinside => ?_, ?_⟩
  · rcases (linkInside_append h.nested).mp hinside with hinside | hinside
    · exact h.markup_eq o t hinside
    · exact h'.markup_eq o t hinside
  · rw [Bool.or_eq_true, ← h.exists_iff, ← h'.exists_iff]
    simp only [linkInside_append h.nested, exists_or]

theorem nestsLinks_flatMap {α : Type*} {f : α → List Token} {as : List α}
    (h : ∀ a ∈ as, NestsLinks (f a) false) : NestsLinks (as.flatMap f) false := by
  induction as with
  | nil => exact nestsLinks_nil
  | cons a as ih =>
    rw [List.forall_mem_cons] at h
    exact h.1.append (ih h.2)

/-- Tags that are no link change nothing. -/
theorem NestsLinks.wrap (hopening : opening.nesting = 1) (hclosing : closing.nesting = -1)
    (hcloses : closing.Closes opening) (hkind : opening.kind ≠ .linkOpen)
    (h : NestsLinks inner any) : NestsLinks (opening :: (inner ++ [closing])) any := by
  have hinside (o t : Token) :
      LinkInside (opening :: (inner ++ [closing])) o t ↔ LinkInside inner o t := by
    rw [linkInside_wrap hopening hcloses h.nested]
    exact or_iff_right fun hlink => hkind hlink.1
  refine ⟨h.nested.wrap hopening hclosing hcloses, fun o t hlink => ?_, ?_⟩
  · exact h.markup_eq o t ((hinside o t).mp hlink)
  · simp only [hinside, h.exists_iff]

/-- Wikilinks in the text of a link stand inside it. -/
theorem NestsLinks.link (hopening : opening.nesting = 1) (hclosing : closing.nesting = -1)
    (hcloses : closing.Closes opening) (hkind : opening.kind = .linkOpen)
    (hmarkup : opening.markup = "") (hinner : OnlyWikilinks inner any')
    (h : NestsLinks inner any) : NestsLinks (opening :: (inner ++ [closing])) (any' || any) := by
  refine ⟨h.nested.wrap hopening hclosing hcloses, fun o t hlink => ?_, ?_⟩
  · rcases (linkInside_wrap hopening hcloses h.nested).mp hlink with ⟨_, rfl, ht, hlink⟩ | hlink
    · exact ⟨hmarkup, hinner.markup_eq t ht hlink⟩
    · exact h.markup_eq o t hlink
  · rw [Bool.or_eq_true, ← hinner.exists_iff, ← h.exists_iff]
    simp only [linkInside_wrap hopening hcloses h.nested, exists_or, hkind, true_and,
      exists_and_left, exists_eq_left]

end Links

/-! ### Links in a tree -/

/-- Whether a piece of a text is the placeholder of a span. -/
def Mask.Segment.isSpan : Segment → Bool
  | .plain _ => false
  | .span _ => true

namespace Markdown

/-- Whether the nodes of a kind are links. -/
def Kind.isLink : Kind → Bool
  | .link _ _ => true
  | _ => false

/-- Whether the nodes of a kind become an opening and a closing tag in a text, with the tokens of
their children in between. -/
def Kind.wraps : Kind → Bool
  | .emphasis => true
  | .strong => true
  | .strikethrough => true
  | .link _ _ => true
  | _ => false

namespace Node

mutual

/-- Whether there is a link in a tree. -/
def hasLink : Node → Bool
  | ⟨kind, _, children⟩ => kind.isLink || hasLinkAll children

/-- Whether there is a link in a list of trees. -/
def hasLinkAll : List Node → Bool
  | [] => false
  | n :: rest => hasLink n || hasLinkAll rest

end

mutual

/-- Whether no link of a tree stands below another link. -/
def linksApart : Node → Bool
  | ⟨kind, _, children⟩ => !(kind.isLink && hasLinkAll children) && linksApartAll children

/-- Whether no link of a list of trees stands below another link. -/
def linksApartAll : List Node → Bool
  | [] => true
  | n :: rest => linksApart n && linksApartAll rest

end

mutual

/-- Whether a placeholder stands in a text node, or below a node where the tokens of the span come
between the tags of the node.  The descriptions of images and finished HTML do not count. -/
def holdsSpan (m : Mask) : Node → Bool
  | ⟨kind, _, children⟩ =>
    match kind with
    | .text literal => (m.segments literal.toList).any Mask.Segment.isSpan
    | kind => kind.wraps && holdsSpanAll m children

/-- Whether a placeholder stands in a list of nodes where its tokens come between those of the
nodes. -/
def holdsSpanAll (m : Mask) : List Node → Bool
  | [] => false
  | n :: rest => holdsSpan m n || holdsSpanAll m rest

end

mutual

/-- Whether there is such a placeholder in a link of a text. -/
def linksSpan (m : Mask) : Node → Bool
  | ⟨kind, _, children⟩ =>
    kind.isLink && holdsSpanAll m children || kind.wraps && linksSpanAll m children

/-- Whether there is such a placeholder in a link of a list of nodes. -/
def linksSpanAll (m : Mask) : List Node → Bool
  | [] => false
  | n :: rest => linksSpan m n || linksSpanAll m rest

end

theorem linksApart_of_mem {n : Node} {ns : List Node} (h : linksApartAll ns = true)
    (hmem : n ∈ ns) : n.linksApart = true := by
  induction ns with
  | nil => exact absurd hmem List.not_mem_nil
  | cons m rest ih =>
    rw [linksApartAll, Bool.and_eq_true] at h
    rcases List.mem_cons.mp hmem with rfl | hmem
    · exact h.1
    · exact ih h.2 hmem

theorem linksApartAll_children {n : Node} (h : n.linksApart = true) :
    linksApartAll n.children = true := by
  cases n
  rw [linksApart, Bool.and_eq_true] at h
  exact h.2

mutual

theorem linksApartAll_of_mem_texts : ∀ n : Node, n.linksApart = true →
    ∀ ns ∈ n.texts, linksApartAll ns = true
  | ⟨kind, extent, children⟩, h => by
    have hchildren : linksApartAll children = true := linksApartAll_children h
    have hinner := linksApartAll_of_mem_textsAll children hchildren
    cases kind with
    | document => exact hinner
    | blockQuote => exact hinner
    | list => exact hinner
    | item => exact hinner
    | paragraph => exact List.forall_mem_singleton.mpr hchildren
    | heading => exact List.forall_mem_singleton.mpr hchildren
    | table alignments =>
      intro ns hns
      obtain ⟨row, hrow, hns⟩ := List.mem_flatMap.mp hns
      obtain ⟨cell, hcell, rfl⟩ := List.mem_map.mp hns
      have hrow := linksApartAll_children (linksApart_of_mem hchildren hrow)
      exact linksApartAll_children (linksApart_of_mem hrow hcell)
    | _ => exact fun _ hns => absurd hns List.not_mem_nil

theorem linksApartAll_of_mem_textsAll : ∀ ns : List Node, linksApartAll ns = true →
    ∀ ms ∈ textsAll ns, linksApartAll ms = true
  | [], _ => fun _ hms => absurd hms List.not_mem_nil
  | n :: rest, h => by
    rw [linksApartAll, Bool.and_eq_true] at h
    rw [textsAll, List.forall_mem_append]
    exact ⟨linksApartAll_of_mem_texts n h.1, linksApartAll_of_mem_textsAll rest h.2⟩

end

end Node

end Markdown

/-! ### Texts with wikilinks -/

/-- The tokens are those of a wikilink. -/
def IsWikilink (ts : List Token) : Prop := ∃ slugger inner, ts = Wikilink.tokens slugger inner

theorem Wikilink.emits_isWikilink_rule (slugger : Slugger) :
    (rule slugger).Emits fun _ ts => IsWikilink ts := by
  intro p a ha
  obtain ⟨inner, _, _, rfl⟩ := eq_of_claim?_rule ha
  exact ⟨slugger, inner, rfl⟩

theorem Wikilink.isWikilink_of_mem_spans {slugger : Slugger} {source : List Char} :
    ∀ span ∈ (Mask.ofText [rule slugger] source).spans, IsWikilink span.tokens := by
  intro span hspan
  obtain ⟨_, _, hwikilink, _⟩ := Mask.exists_line_of_mem_spans
    (List.forall_mem_singleton.mpr (emits_isWikilink_rule slugger)) hspan
  exact hwikilink

section IsWikilink

variable {ts : List Token}

theorem IsWikilink.onlyWikilinks (h : IsWikilink ts) : OnlyWikilinks ts true := by
  obtain ⟨slugger, inner, rfl⟩ := h
  simp only [Wikilink.tokens]
  constructor <;> simp [Token.ofText]

/-- There is only text inside a wikilink. -/
theorem IsWikilink.nestsLinks (h : IsWikilink ts) : NestsLinks ts false := by
  obtain ⟨slugger, inner, rfl⟩ := h
  refine nestsLinks_of_not (Wikilink.wellNested_tokens slugger inner).1 fun o t hinside => ?_
  have hinside : LinkInside (_ :: ([Token.ofText _] ++ [_])) o t := hinside
  rcases (linkInside_wrap (by rfl) (by exact ⟨rfl, rfl, rfl⟩) (wellNested_ofText _).1).mp hinside
    with ⟨_, _, hmem, hkind⟩ | hinside
  · rw [List.mem_singleton.mp hmem] at hkind
    exact absurd (show TokenKind.text = .linkOpen from hkind) (by decide)
  · exact not_linkInside_singleton _ hinside

end IsWikilink

namespace Mask

variable {m : Mask}

/-- A text is cut at no span if the mask has none or there is no mark of a placeholder. -/
theorem any_isSpan_eq_false {s : List Char} (h : (!m.holdsPlaceholder s) = true) :
    (m.segments s).any Segment.isSpan = false := by
  rw [List.any_eq_false]
  intro segment hsegment
  cases segment with
  | plain t => exact Bool.false_ne_true
  | span span =>
    rw [Bool.not_eq_true', holdsPlaceholder_eq_false_iff] at h
    rcases h with hnil | hmark
    · exact absurd (hnil ▸ mem_spans_of_mem_segments s hsegment) List.not_mem_nil
    · rw [segments_of_notMem hmark, plainSegment] at hsegment
      split at hsegment <;> simp at hsegment

/-- The links in a text with placeholders are those of the placeholders. -/
theorem onlyWikilinks_expand (hspans : ∀ span ∈ m.spans, IsWikilink span.tokens) (s : List Char) :
    OnlyWikilinks (m.expand s) ((m.segments s).any Segment.isSpan) := by
  unfold expand
  split
  · next h =>
    rw [any_isSpan_eq_false h]
    exact onlyWikilinks_singleton rfl
  · refine onlyWikilinks_flatMap fun segment hsegment => ?_
    cases segment with
    | plain t => exact onlyWikilinks_singleton rfl
    | span span => exact (hspans span (mem_spans_of_mem_segments s hsegment)).onlyWikilinks

theorem nestsLinks_expand (hspans : ∀ span ∈ m.spans, IsWikilink span.tokens) (s : List Char) :
    NestsLinks (m.expand s) false := by
  unfold expand
  split
  · exact nestsLinks_singleton rfl
  · refine nestsLinks_flatMap fun segment hsegment => ?_
    cases segment with
    | plain t => exact nestsLinks_singleton rfl
    | span span => exact (hspans span (mem_spans_of_mem_segments s hsegment)).nestsLinks

end Mask

namespace TokenStream.Origin

open Node

variable {o : Origin}

mutual

/-- Where a tree has no link, the links among its tokens are those of its placeholders. -/
theorem onlyWikilinks_inlineTokens (hspans : ∀ span ∈ o.mask.spans, IsWikilink span.tokens)
    (around : Surroundings) : ∀ n : Node, n.hasLink = false →
      OnlyWikilinks (o.inlineTokens around n) (n.holdsSpan o.mask)
  | ⟨kind, extent, children⟩, h => by
    rw [hasLink, Bool.or_eq_false_iff] at h
    have hinner := onlyWikilinks_inlineTokensAll hspans ⟨kind :: around.above, []⟩ children h.2
    cases kind with
    | text literal => exact Mask.onlyWikilinks_expand hspans _
    | emphasis => exact hinner.wrap rfl rfl
    | strong => exact hinner.wrap rfl rfl
    | strikethrough => exact hinner.wrap rfl rfl
    | link url title => exact Bool.noConfusion h.1
    | _ => exact onlyWikilinks_singleton rfl

theorem onlyWikilinks_inlineTokensAll (hspans : ∀ span ∈ o.mask.spans, IsWikilink span.tokens)
    (around : Surroundings) : ∀ ns : List Node, hasLinkAll ns = false →
      OnlyWikilinks (o.inlineTokensAll around ns) (holdsSpanAll o.mask ns)
  | [], _ => onlyWikilinks_of_forall_ne (by simp [inlineTokensAll])
  | n :: rest, h => by
    rw [hasLinkAll, Bool.or_eq_false_iff] at h
    rw [inlineTokensAll]
    exact (onlyWikilinks_inlineTokens hspans around n h.1).append
      (onlyWikilinks_inlineTokensAll hspans _ rest h.2)

end

mutual

/-- Links stand inside links where placeholders stand in the links of a tree. -/
theorem nestsLinks_inlineTokens (hspans : ∀ span ∈ o.mask.spans, IsWikilink span.tokens)
    (around : Surroundings) : ∀ n : Node, n.linksApart = true →
      NestsLinks (o.inlineTokens around n) (n.linksSpan o.mask)
  | ⟨kind, extent, children⟩, h => by
    rw [linksApart, Bool.and_eq_true] at h
    have hinner := nestsLinks_inlineTokensAll hspans ⟨kind :: around.above, []⟩ children h.2
    cases kind with
    | text literal => exact Mask.nestsLinks_expand hspans _
    | emphasis => exact hinner.wrap rfl rfl ⟨rfl, rfl, rfl⟩ (by decide)
    | strong => exact hinner.wrap rfl rfl ⟨rfl, rfl, rfl⟩ (by decide)
    | strikethrough => exact hinner.wrap rfl rfl ⟨rfl, rfl, rfl⟩ (by decide)
    | link url title =>
      have hlinks := onlyWikilinks_inlineTokensAll hspans ⟨.link url title :: around.above, []⟩
        children (by simpa [Kind.isLink] using h.1)
      exact hinner.link rfl rfl ⟨rfl, rfl, rfl⟩ rfl rfl hlinks
    | _ => exact nestsLinks_singleton rfl

theorem nestsLinks_inlineTokensAll (hspans : ∀ span ∈ o.mask.spans, IsWikilink span.tokens)
    (around : Surroundings) : ∀ ns : List Node, linksApartAll ns = true →
      NestsLinks (o.inlineTokensAll around ns) (linksSpanAll o.mask ns)
  | [], _ => nestsLinks_nil
  | n :: rest, h => by
    rw [linksApartAll, Bool.and_eq_true] at h
    rw [inlineTokensAll]
    exact (nestsLinks_inlineTokens hspans around n h.1).append
      (nestsLinks_inlineTokensAll hspans _ rest h.2)

end

end TokenStream.Origin

end WikiPress
