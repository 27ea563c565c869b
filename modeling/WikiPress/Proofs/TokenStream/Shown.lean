import WikiPress.Proofs.Markdown.Whole
import WikiPress.Proofs.Mask.Cut
import WikiPress.TokenStream.Basic

/-!
# The text that tokens show

The plain text below a node is read twice: from its tree, where placeholders are still to be
replaced, and from its tokens, where they have become those of their spans.  If each node below it
has a token of its own, both readings give the same text.  So the tokens keep the text of the tree in
its order, and the description of an image is the text that its content would show in its place.

## Main definitions

* `Token.shown`, `shownText` : the text that tokens show, read from left to right.
* `Token.Describes` : images that are described by the text of their content.
* `Node.Shows` : nodes that have tokens of their own and no placeholders in code.

## Main results

* `TokenStream.Origin.shownText_inlineTokens` : the tokens of a node show its text.
* `TokenStream.Origin.describes_inlineTokens` : the images among them are described by their text.
* `TokenStream.Origin.shownText_eq_restorePlain` : both of these for all that is below a node.
-/

namespace WikiPress

open Text Markdown Mask

/-! ### Reading tokens -/

/-- The text that a token shows: its content, the description of an image, or a space for a break
between lines. -/
def Token.shown (t : Token) : List Char :=
  match t.kind with
  | .text => t.content.toList
  | .textSpecial => t.content.toList
  | .codeInline => t.content.toList
  | .image => ((t.attribute? "alt").getD "").toList
  | .softBreak => [' ']
  | .hardBreak => [' ']
  | _ => []

/-- The text that tokens show, read from left to right. -/
def shownText (ts : List Token) : List Char := ts.flatMap Token.shown

/-- At every depth, the content and the description of an image are the text that the tokens below
it show. -/
inductive Token.Describes : Token → Prop
  | intro {t : Token} : (t.kind = .image → t.content = String.ofList (shownText t.children) ∧
      t.attribute? "alt" = some t.content) →
      (t.kind = .image → ∀ u ∈ t.children, Token.Describes u) → Token.Describes t

theorem Token.Describes.of_kind {t : Token} (kind : TokenKind) (hkind : t.kind = kind)
    (h : kind ≠ .image := by decide) : t.Describes :=
  .intro (fun heq => absurd (hkind.symm.trans heq) h) fun heq => absurd (hkind.symm.trans heq) h

theorem Token.describes_singleton {t : Token} (kind : TokenKind) (hkind : t.kind = kind)
    (h : kind ≠ .image := by decide) : ∀ u ∈ [t], u.Describes :=
  List.forall_mem_singleton.mpr (.of_kind kind hkind h)

theorem shownText_append (ts us : List Token) :
    shownText (ts ++ us) = shownText ts ++ shownText us := List.flatMap_append

theorem shownText_cons (t : Token) (ts : List Token) :
    shownText (t :: ts) = t.shown ++ shownText ts := rfl

theorem shownText_singleton (t : Token) : shownText [t] = t.shown := List.flatMap_singleton ..

/-- The kinds of the tokens of a link with a plain text. -/
def TokenKind.OfLinks (kind : TokenKind) : Prop :=
  kind = .linkOpen ∨ kind = .text ∨ kind = .linkClose

instance (kind : TokenKind) : Decidable kind.OfLinks := inferInstanceAs (Decidable (_ ∨ _ ∨ _))

theorem TokenKind.OfLinks.ne_image {kind : TokenKind} (h : kind.OfLinks) : kind ≠ .image := by
  rintro rfl
  exact absurd h (by decide)

/-! ### Trees -/

namespace Markdown

/-- The kinds of nodes in a text that have tokens of their own. -/
def Kind.HasTokens : Kind → Prop
  | .text _ | .escaped | .softBreak | .lineBreak | .code _ | .emphasis | .strong | .strikethrough
  | .link _ _ | .image _ _ | .htmlInline _ => True
  | _ => False

/-- A node and all nodes below it have tokens of their own, and no placeholders stand in code. -/
inductive Node.Shows : Node → Prop
  | intro {kind : Kind} {extent : Extent} {children : List Node} : kind.HasTokens →
      (∀ literal, kind = .code literal → Mask.Free literal.toList) → (∀ n ∈ children, Node.Shows n) →
      Node.Shows ⟨kind, extent, children⟩

theorem Node.shows_iff {kind : Kind} {extent : Extent} {children : List Node} :
    Node.Shows ⟨kind, extent, children⟩ ↔ kind.HasTokens ∧
      (∀ literal, kind = .code literal → Mask.Free literal.toList) ∧ ∀ n ∈ children, n.Shows :=
  ⟨fun | .intro hkind hcode hchildren => ⟨hkind, hcode, hchildren⟩,
    fun ⟨hkind, hcode, hchildren⟩ => .intro hkind hcode hchildren⟩

end Markdown

/-! ### Texts with placeholders -/

namespace Mask

variable {m : Mask} {s t : List Char} {f : Span → List Char}

theorem replace_append (hs : m.Whole s) (ht : m.Whole t) (f : Span → List Char) :
    m.replace f (s ++ t) = m.replace f s ++ m.replace f t :=
  ((hs.fills f).append (ht.fills f)).replace_eq

theorem replace_of_free (h : Mask.Free s) (f : Span → List Char) : m.replace f s = s :=
  (Fills.of_free h).replace_eq

/-- Links and their texts show what the text tokens among them have. -/
theorem shownText_eq_textOf {ts : List Token} (h : ∀ t ∈ ts, t.kind.OfLinks) :
    shownText ts = textOf ts := by
  induction ts with
  | nil => rfl
  | cons t ts ih =>
    rw [List.forall_mem_cons] at h
    rw [shownText_cons, ih h.2, textOf, textOf, List.filter_cons]
    rcases h.1 with hkind | hkind | hkind <;> simp [Token.shown, hkind]

theorem ofLinks_of_mem_expand (hm : ∀ span ∈ m.spans, ∀ t ∈ span.tokens, t.kind.OfLinks)
    {t : Token} (ht : t ∈ m.expand s) : t.kind.OfLinks := by
  unfold expand at ht
  split at ht
  · rw [List.mem_singleton.mp ht]
    exact .inr (.inl rfl)
  · obtain ⟨segment, hsegment, ht⟩ := List.mem_flatMap.mp ht
    cases segment with
    | plain u =>
      rw [List.mem_singleton.mp ht]
      exact .inr (.inl rfl)
    | span span => exact hm span (mem_spans_of_mem_segments s hsegment) t ht

/-- The tokens that a text stands for show its plain text. -/
theorem shownText_expand (hm : ∀ span ∈ m.spans, ∀ t ∈ span.tokens, t.kind.OfLinks)
    (s : List Char) : shownText (m.expand s) = m.restorePlain s := by
  rw [shownText_eq_textOf fun t ht => ofLinks_of_mem_expand hm ht, textOf_expand]

end Mask

/-! ### Nodes -/

namespace TokenStream.Origin

variable {o : Origin}

theorem shownText_wrap {kinds : TokenKind × TokenKind} {tag markup : String} (inner : List Token)
    (hopen : (openTag kinds.1 tag markup).shown = [])
    (hclose : (closeTag kinds.2 tag markup).shown = []) :
    shownText (wrap kinds tag markup inner) = shownText inner := by
  rw [wrap, shownText_cons, shownText_append, shownText_singleton, hopen, hclose, List.nil_append,
    List.append_nil]

theorem shownText_linkTokens (url title : String) (inner : List Token) :
    shownText (o.linkTokens url title inner) = shownText inner := by
  rw [linkTokens, shownText_cons, shownText_append, shownText_singleton]
  exact List.append_nil _

theorem shownText_codeToken {literal : String} (h : Mask.Free literal.toList) :
    shownText [o.codeToken literal] = literal.toList := by
  have hrestore : o.mask.restore literal.toList = literal.toList := replace_of_free h _
  rw [shownText_singleton, codeToken, restoreString, hrestore]
  exact String.toList_ofList

theorem attribute?_alt_imageToken (url title shown : String) (inner : List Token) :
    (o.imageToken url title shown inner).attribute? "alt" =
      some (String.ofList (o.mask.restorePlain shown.toList)) := rfl

theorem shownText_imageToken (url title shown : String) (inner : List Token) :
    shownText [o.imageToken url title shown inner] = o.mask.restorePlain shown.toList := by
  have hshown : (o.imageToken url title shown inner).shown =
      (((o.imageToken url title shown inner).attribute? "alt").getD "").toList := rfl
  rw [shownText_singleton, hshown, attribute?_alt_imageToken, Option.getD_some,
    String.toList_ofList]

theorem restorePlain_space (m : Mask) : m.restorePlain " ".toList = [' '] :=
  replace_of_free (by decide) _

mutual

/-- The tokens of a node show its text. -/
theorem shownText_inlineTokens (hm : ∀ span ∈ o.mask.spans, ∀ t ∈ span.tokens, t.kind.OfLinks)
    (around : Surroundings) : ∀ n : Node, n.Whole o.mask → n.Shows →
      shownText (o.inlineTokens around n) = o.mask.restorePlain (Node.childText n).toList
  | ⟨kind, extent, children⟩, .intro hstrings hescaped hchildren, .intro hkind hcode hshows => by
    have hinner := shownText_inlineTokensAll hm ⟨kind :: around.above, []⟩ children hchildren hshows
    cases kind with
    | text literal => exact shownText_expand hm literal.toList
    | escaped =>
      have hfree : Mask.Free (Node.plainTexts children).toList := hescaped rfl
      exact (List.append_nil _).trans (replace_of_free hfree _).symm
    | softBreak => exact (restorePlain_space o.mask).symm
    | lineBreak => exact (restorePlain_space o.mask).symm
    | code literal =>
      have hfree : Mask.Free literal.toList := hcode literal rfl
      exact (shownText_codeToken hfree).trans (replace_of_free hfree _).symm
    | emphasis => exact (shownText_wrap _ rfl rfl).trans hinner
    | strong => exact (shownText_wrap _ rfl rfl).trans hinner
    | strikethrough => exact (shownText_wrap _ rfl rfl).trans hinner
    | link url title => exact (shownText_linkTokens url title _).trans hinner
    | image url title => exact shownText_imageToken url title _ _
    | htmlInline literal => exact (replace_of_free free_nil _).symm
    | _ => exact hkind.elim

/-- The tokens of a list of nodes show the text of these nodes. -/
theorem shownText_inlineTokensAll (hm : ∀ span ∈ o.mask.spans, ∀ t ∈ span.tokens, t.kind.OfLinks)
    (around : Surroundings) : ∀ ns : List Node, (∀ n ∈ ns, n.Whole o.mask) → (∀ n ∈ ns, n.Shows) →
      shownText (o.inlineTokensAll around ns) = o.mask.restorePlain (Node.plainTexts ns).toList
  | [], _, _ => (replace_of_free free_nil _).symm
  | n :: rest, h, hshows => by
    rw [List.forall_mem_cons] at h hshows
    rw [inlineTokensAll, Node.plainTexts, shownText_append,
      shownText_inlineTokens hm around n h.1 hshows.1,
      shownText_inlineTokensAll hm _ rest h.2 hshows.2, String.toList_append, restorePlain,
      restorePlain, restorePlain,
      replace_append (Node.whole_childText n h.1) (Node.whole_plainTexts rest h.2)]

end

/-! ### Images -/

theorem describes_wrapped {t c : Token} {inner : List Token} (ht : t.Describes) (hc : c.Describes)
    (h : ∀ u ∈ inner, u.Describes) : ∀ u ∈ t :: (inner ++ [c]), u.Describes :=
  List.forall_mem_cons.mpr
    ⟨ht, List.forall_mem_append.mpr ⟨h, List.forall_mem_singleton.mpr hc⟩⟩

theorem describes_imageToken {url title shown : String} {inner : List Token}
    (hshown : shownText inner = o.mask.restorePlain shown.toList) (h : ∀ u ∈ inner, u.Describes) :
    (o.imageToken url title shown inner).Describes := by
  refine .intro (fun _ => ⟨?_, attribute?_alt_imageToken url title shown inner⟩) fun _ => h
  have hcontent : (o.imageToken url title shown inner).content =
      String.ofList (o.mask.restorePlain shown.toList) := rfl
  rw [hcontent, ← hshown]
  rfl

mutual

/-- The images among the tokens of a node are described by the text of their content. -/
theorem describes_inlineTokens (hm : ∀ span ∈ o.mask.spans, ∀ t ∈ span.tokens, t.kind.OfLinks)
    (around : Surroundings) : ∀ n : Node, n.Whole o.mask → n.Shows →
      ∀ t ∈ o.inlineTokens around n, t.Describes
  | ⟨kind, extent, children⟩, .intro _ _ hchildren, .intro hkind _ hshows => by
    have hinner := describes_inlineTokensAll hm ⟨kind :: around.above, []⟩ children hchildren hshows
    cases kind with
    | text literal =>
      intro t ht
      exact Token.Describes.of_kind _ rfl (ofLinks_of_mem_expand hm ht).ne_image
    | escaped => exact Token.describes_singleton .textSpecial rfl
    | softBreak => exact Token.describes_singleton .softBreak rfl
    | lineBreak => exact Token.describes_singleton .hardBreak rfl
    | code literal => exact Token.describes_singleton .codeInline rfl
    | emphasis =>
      exact describes_wrapped (.of_kind .emOpen rfl) (.of_kind .emClose rfl) hinner
    | strong =>
      exact describes_wrapped (.of_kind .strongOpen rfl) (.of_kind .strongClose rfl) hinner
    | strikethrough =>
      exact describes_wrapped (.of_kind .strikethroughOpen rfl) (.of_kind .strikethroughClose rfl) hinner
    | link url title =>
      exact describes_wrapped (.of_kind .linkOpen rfl) (.of_kind .linkClose rfl) hinner
    | image url title =>
      exact List.forall_mem_singleton.mpr (describes_imageToken
        (shownText_inlineTokensAll hm _ children hchildren hshows) hinner)
    | htmlInline literal => exact Token.describes_singleton .htmlInline rfl
    | _ => exact hkind.elim

/-- The images among the tokens of a list of nodes are described by the text of their content. -/
theorem describes_inlineTokensAll (hm : ∀ span ∈ o.mask.spans, ∀ t ∈ span.tokens, t.kind.OfLinks)
    (around : Surroundings) : ∀ ns : List Node, (∀ n ∈ ns, n.Whole o.mask) → (∀ n ∈ ns, n.Shows) →
      ∀ t ∈ o.inlineTokensAll around ns, t.Describes
  | [], _, _ => fun _ ht => absurd ht List.not_mem_nil
  | n :: rest, h, hshows => by
    rw [List.forall_mem_cons] at h hshows
    rw [inlineTokensAll]
    exact List.forall_mem_append.mpr
      ⟨describes_inlineTokens hm around n h.1 hshows.1,
        describes_inlineTokensAll hm _ rest h.2 hshows.2⟩

end

/-- **Tokens keep the text of a tree.**  Let all nodes below a node have tokens of their own, let the
two characters of placeholders stand in their strings only as placeholders of the mask, but neither
in code nor behind a backslash, and let the tokens of each span be links and their texts.  Read from
left to right, the tokens of what is below the node show exactly its plain text with the plain texts
of the spans put in.  At every depth, an image is described by the text that its content shows. -/
theorem shownText_eq_restorePlain (o : Origin) (around : Surroundings) (n : Node)
    (hm : ∀ span ∈ o.mask.spans, ∀ t ∈ span.tokens, t.kind.OfLinks)
    (hwhole : ∀ c ∈ n.children, c.Whole o.mask) (hshows : ∀ c ∈ n.children, c.Shows) :
    shownText (o.inlineTokensAll around n.children) = o.mask.restorePlain n.plainText.toList ∧
      ∀ t ∈ o.inlineTokensAll around n.children, t.Describes := by
  obtain ⟨kind, extent, children⟩ := n
  exact ⟨shownText_inlineTokensAll hm around children hwhole hshows,
    describes_inlineTokensAll hm around children hwhole hshows⟩

/-- An escaped character, a placeholder in front of a break, and an image whose content has
another one next to code. -/
theorem shownText_eq_restorePlain_image :
    let page : Span :=
      ⟨"[[Page]]".toList, [openTag .linkOpen "a" "wikilink", Token.ofText "Page",
        closeTag .linkClose "a" "wikilink"]⟩
    let o : Origin := { mask := ⟨[], [page]⟩ }
    let n : Node := ⟨.paragraph, {}, [⟨.escaped, {}, [⟨.text "*", {}, []⟩]⟩,
      ⟨.text "see \uE0000\uE001", {}, []⟩, ⟨.softBreak, {}, []⟩,
      ⟨.image "u" "", {}, [⟨.emphasis, {}, [⟨.text "\uE0000\uE001", {}, []⟩]⟩,
        ⟨.code "b", {}, []⟩]⟩]⟩
    (∀ span ∈ o.mask.spans, ∀ t ∈ span.tokens, t.kind.OfLinks) ∧
      (∀ c ∈ n.children, c.Whole o.mask) ∧ (∀ c ∈ n.children, c.Shows) ∧
      shownText (o.inlineTokensAll ⟨[n.kind], []⟩ n.children) = "*see Page Pageb".toList ∧
      ∀ t ∈ o.inlineTokensAll ⟨[n.kind], []⟩ n.children, t.Describes := by
  intro page o n
  have hm : ∀ span ∈ o.mask.spans, ∀ t ∈ span.tokens, t.kind.OfLinks := by decide
  have hescaped : Mask.Free (Node.plainTexts [⟨.text "*", {}, []⟩]).toList := by decide
  have hplaceholder : o.mask.Whole "\uE0000\uE001".toList := .of_placeholder 0 (by decide)
  have hstrings : o.mask.Whole "*".toList ∧ o.mask.Whole "see \uE0000\uE001".toList ∧
      (o.mask.Whole "u".toList ∧ o.mask.Whole "".toList) ∧
        o.mask.Whole "\uE0000\uE001".toList ∧ o.mask.Whole "b".toList :=
    ⟨.of_free (by decide), (Whole.of_free (s := "see ".toList) (by decide)).append hplaceholder,
      ⟨.of_free (by decide), .of_free (by decide)⟩, hplaceholder, .of_free (by decide)⟩
  have hwhole : ∀ c ∈ n.children, c.Whole o.mask := by
    simpa [n, Node.whole_iff, Kind.strings, hescaped] using hstrings
  have hcode : IsPlain 'b' := by decide
  have hshows : ∀ c ∈ n.children, c.Shows := by
    simpa [n, Node.shows_iff, Kind.HasTokens] using hcode
  obtain ⟨hshown, hdescribes⟩ := shownText_eq_restorePlain o ⟨[n.kind], []⟩ n hm hwhole hshows
  refine ⟨hm, hwhole, hshows, hshown.trans ?_, hdescribes⟩
  decide +kernel

end TokenStream.Origin

end WikiPress
