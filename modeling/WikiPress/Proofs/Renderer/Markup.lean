import WikiPress.Proofs.Html.Reader
import WikiPress.Renderer

/-!
# The markup of a list of tokens

When no HTML of the source is passed through, a reader of the output sees the tags of the tokens and
the characters of their contents, and nothing else.  What it sees is said here token by token, in
tags and characters and not in text, and the output is shown to be read as this.

Tokens that are written as tags of their own are not seen if they are hidden.  Code, HTML of the
source and breaks have tags that do not depend on the tokens, and are seen even if they are hidden;
the attributes of the token stand in the tags of code spans and code blocks, but not in those of
fenced blocks, HTML and breaks.

## Main definitions

* `Token.Writable` : tokens whose names of tags and attributes are plain, with no HTML of their own.
* `RenderOptions.items` : what a token is read as.
* `Renderer.anchoring` : the renderers that write headings with or without anchors, and everything
  else as usual.
* `itemsOfBlocks` : what a list of tokens is read as.

## Main results

* `reads_plain` : a token, written as usual, is read as its items.
* `reads_writeBlocks` : the same for a list of tokens.
* `read?_write` : the output for a list of tokens is read as its items.
-/

namespace WikiPress

open Text Html

/-! ### Tokens that can be read back -/

namespace TokenKind

/-- Whether tokens of a kind are written as tags of their own. -/
def isTag : TokenKind → Bool
  | text => false
  | textSpecial => false
  | softBreak => false
  | hardBreak => false
  | codeInline => false
  | codeBlock => false
  | fence => false
  | htmlBlock => false
  | htmlInline => false
  | raw => false
  | inline => false
  | tocOpen => false
  | tocBody => false
  | tocClose => false
  | _ => true

end TokenKind

namespace Token

/-- The names in a token are plain, and the token is no HTML of its own. -/
structure IsPlain (t : Token) : Prop where
  kind_ne : t.kind ≠ .raw
  tag : t.kind.isTag = true → t.hidden = false → IsTagName t.tag
  keys : ∀ a ∈ t.attributes, IsName a.1

instance (t : Token) : Decidable t.IsPlain :=
  decidable_of_iff (t.kind ≠ .raw ∧ (t.kind.isTag = true → t.hidden = false → IsTagName t.tag) ∧
      ∀ a ∈ t.attributes, IsName a.1)
    ⟨fun h => ⟨h.1, h.2.1, h.2.2⟩, fun h => ⟨h.1, h.2, h.3⟩⟩

/-- A token whose names are plain, and so for all tokens of its text. -/
inductive Writable : Token → Prop
  | intro {t : Token} : t.IsPlain → (t.kind = .inline → ∀ u ∈ t.children, Writable u) → Writable t

variable {t : Token}

theorem Writable.isPlain (h : t.Writable) : t.IsPlain := by
  cases h with
  | intro h _ => exact h

theorem Writable.children (h : t.Writable) (hkind : t.kind = .inline) :
    ∀ u ∈ t.children, u.Writable := by
  cases h with
  | intro _ h => exact h hkind

theorem IsPlain.writable (h : t.IsPlain) (hkind : t.kind ≠ .inline) : t.Writable :=
  .intro h fun hinline => absurd hinline hkind

/-- Texts mostly hold no texts themselves. -/
theorem writable_of_flat (h : t.IsPlain ∧ ∀ u ∈ t.children, u.IsPlain ∧ u.kind ≠ .inline) :
    t.Writable :=
  .intro h.1 fun _ u hu => (h.2 u hu).1.writable (h.2 u hu).2

theorem IsPlain.setAttribute (h : t.IsPlain) {key : String} (hkey : IsName key) (value : String) :
    (t.setAttribute key value).IsPlain where
  kind_ne := h.kind_ne
  tag := h.tag
  keys := by
    have hkeys : ∀ as : List (String × String), (∀ a ∈ as, IsName a.1) →
        ∀ a ∈ updateAttribute key value as, IsName a.1 := by
      intro as has
      induction as with
      | nil => simpa [updateAttribute] using hkey
      | cons a as ih =>
        rw [List.forall_mem_cons] at has
        rw [updateAttribute]
        split
        · next heq => exact List.forall_mem_cons.mpr ⟨has.1, has.2⟩
        · exact List.forall_mem_cons.mpr ⟨has.1, ih has.2⟩
    exact hkeys t.attributes h.keys

end Token

/-! ### What tokens are read as -/

/-- The tags of an element around items. -/
def elementItems (name : String) (attributes : List (String × String)) (inner : List Item) :
    List Item :=
  .tag { name, attributes } :: (inner ++ [.tag { closing := true, name }])

theorem filterMap_elementItems (name : String) (as : List (String × String)) (inner : List Item) :
    (elementItems name as inner).filterMap Item.tag? =
      { name, attributes := as } :: (inner.filterMap Item.tag? ++ [{ closing := true, name }]) := by
  rw [elementItems, List.filterMap_cons_some (show Item.tag? (.tag _) = some _ from rfl),
    List.filterMap_append]
  rfl

namespace RenderOptions

variable (o : RenderOptions)

/-- What a token that is written as a tag of its own is read as. -/
def tagItems (site : Site) : List Item :=
  let t := site.token
  if t.hidden then []
  else
    (if t.block && t.nesting ≠ -1 && site.before.any (·.hidden) then [.char '\n'] else []) ++
      .tag ⟨t.nesting = -1, t.tag, t.attributes, t.nesting = 0 && o.xhtmlOut⟩ ::
        (if t.block && !staysOnLine t site.after then [.char '\n'] else [])

/-- Line feeds around a tag are no tags. -/
theorem filterMap_tagItems {t : Token} (h : t.hidden = false) (before after : Option Token) :
    (o.tagItems ⟨before, t, after⟩).filterMap Item.tag? =
      [⟨t.nesting = -1, t.tag, t.attributes, t.nesting = 0 && o.xhtmlOut⟩] := by
  have hfeed (b : Bool) : (if b then [Item.char '\n'] else []).filterMap Item.tag? = [] := by
    cases b <;> rfl
  unfold tagItems
  dsimp only
  rw [if_neg (by simp [h]), List.filterMap_append, hfeed, List.nil_append,
    List.filterMap_cons_some (show Item.tag? (.tag _) = some _ from rfl), hfeed]

/-- What a break that is written as a tag is read as. -/
def breakItems : List Item := [.tag { name := "br", slash := o.xhtmlOut }, .char '\n']

/-- The attributes of the code in a fenced block: only the class of the language, if there is
one. -/
def languageAttributes (info : String) : List (String × String) :=
  let language := firstWord info.toList
  if language.isEmpty then [] else [("class", o.langPrefix ++ String.ofList language)]

/-- What a token is read as when no HTML of the source is passed through; `inner` is what the tokens
inside are read as. -/
def items (site : Site) (inner : List Item) : List Item :=
  let t := site.token
  let content := t.content.toList.map Item.char
  match t.kind with
  | .text => content
  | .textSpecial => content
  | .softBreak => if o.breaks then o.breakItems else [.char '\n']
  | .hardBreak => o.breakItems
  | .codeInline => elementItems "code" t.attributes content
  | .codeBlock => elementItems "pre" t.attributes (elementItems "code" [] content) ++ [.char '\n']
  | .fence =>
    elementItems "pre" [] (elementItems "code" (o.languageAttributes t.info) content) ++
      [.char '\n']
  | .htmlBlock => elementItems "p" [] ((trimEnd t.content.toList).map Item.char) ++ [.char '\n']
  | .htmlInline => content
  | .raw => []
  | .inline => inner
  | .tocOpen => []
  | .tocBody => []
  | .tocClose => []
  | _ => o.tagItems site

end RenderOptions

/-- The site of a heading whose token has the anchor of the heading, if there is text in the
heading; any other site as it is. -/
def Site.anchored (site : Site) (anchors : Option Slugger) : Site :=
  match anchors, site.after with
  | some slugger, some text =>
    if site.token.kind = .headingOpen ∧ text.kind = .inline ∧ !text.children.isEmpty then
      let line := Heading.firstLine (site.token.lines.or text.lines)
      let id := Heading.anchorOf (slugger.slugString text.content) line
      { site with token := site.token.setAttribute "id" id }
    else site
  | _, _ => site

section Items

variable (o : RenderOptions) (anchors : Option Slugger)

mutual

/-- What a token is read as. -/
def itemsOfToken (before after : Option Token) : Token → List Item
  | ⟨kind, tag, attributes, lines, nesting, content, markup, info, children, block, hidden⟩ =>
    o.items
      (Site.anchored
        ⟨before,
          ⟨kind, tag, attributes, lines, nesting, content, markup, info, children, block, hidden⟩,
          after⟩
        anchors)
      (itemsOfText none children)

/-- What the tokens of a text are read as; `before` is the token in front of them. -/
def itemsOfText (before : Option Token) : List Token → List Item
  | [] => []
  | t :: rest => itemsOfToken before rest.head? t ++ itemsOfText (some t) rest

end

/-- What block tokens are read as; `before` is the token in front of them. -/
def itemsOfBlocks (before : Option Token) : List Token → List Item
  | [] => []
  | t :: rest =>
    (if t.kind = .inline then itemsOfText o anchors none t.children
      else itemsOfToken o anchors before rest.head? t) ++ itemsOfBlocks (some t) rest

end Items

/-! ### Tokens written as usual -/

section Plain

variable {names : Names} {o : RenderOptions} {site : Site} {t : Token} {s inner : List Char}
  {is innerItems : List Item}

theorem reads_lineFeed (names : Names) : Reads names ['\n'] [.char '\n'] :=
  reads_char (by decide) (by decide)

theorem readsAttributes_attributes (names : Names) {as : List (String × String)}
    (h : ∀ a ∈ as, IsName a.1) :
    ReadsAttributes names (RenderOptions.attributes as) as := by
  induction as with
  | nil => exact readsAttributes_nil
  | cons a as ih =>
    obtain ⟨key, value⟩ := a
    rw [List.forall_mem_cons] at h
    have hone := readsAttributes_attribute h.1 (isValue_escape names value.toList)
    rw [String.ofList_toList] at hone
    have happ := hone.append (ih h.2)
    rwa [attributeText, ← escape_eq_self h.1.2] at happ

/-- An element around a text that is read. -/
theorem reads_element {name : String} {as : List (String × String)} {attributes : List Char}
    (hname : IsTagName name) (has : ReadsAttributes names attributes as)
    (h : Reads names s is) :
    Reads names
      (tagStart false ++ (name.toList ++ (attributes ++ tagEnd false)) ++
        (s ++ (tagStart true ++ (name.toList ++ ([] ++ tagEnd false)))))
      (elementItems name as is) :=
  (reads_tag false false hname has).append
    (h.append (reads_tag true false hname readsAttributes_nil))

/-- A line feed that may be missing. -/
theorem reads_lineFeed_if (names : Names) (b : Bool) :
    Reads names (if b then ['\n'] else []) (if b then [.char '\n'] else []) := by
  cases b with
  | false => exact reads_nil
  | true => exact reads_lineFeed names

theorem tagEnd_append (slash feed : Bool) :
    tagEnd slash ++ (if feed then ['\n'] else []) =
      (if slash then [' ', '/'] else []) ++ (if feed then ['>', '\n'] else ['>']) := by
  cases slash <;> cases feed <;> rfl

theorem reads_plainTag (hname : t.hidden = false → IsTagName t.tag)
    (hkeys : ∀ a ∈ t.attributes, IsName a.1) (before after : Option Token) :
    Reads names (o.tag ⟨before, t, after⟩) (o.tagItems ⟨before, t, after⟩) := by
  unfold RenderOptions.tag RenderOptions.tagItems
  dsimp only
  split
  · exact reads_nil
  · next hhidden =>
    have htag := reads_tag (t.nesting = -1) (t.nesting = 0 && o.xhtmlOut)
      (hname (Bool.eq_false_iff.mpr hhidden)) (readsAttributes_attributes names hkeys)
    have h := (reads_lineFeed_if names
      (t.block && t.nesting ≠ -1 && before.any (·.hidden))).append
        (htag.append (reads_lineFeed_if names (t.block && !RenderOptions.staysOnLine t after)))
    simpa only [List.append_assoc, tagEnd_append, tagStart, decide_eq_true_eq,
      List.singleton_append] using h

theorem reads_lineBreak (names : Names) (o : RenderOptions) :
    Reads names o.lineBreak o.breakItems := by
  have h := (reads_tag false o.xhtmlOut (show IsTagName "br" by decide)
    readsAttributes_nil).append (reads_lineFeed names)
  cases hslash : o.xhtmlOut <;>
    simpa [RenderOptions.lineBreak, RenderOptions.breakItems, tagStart, tagEnd, hslash] using h

/-- Code in an element of its own. -/
theorem reads_code {attributes : List Char} {as : List (String × String)}
    (has : ReadsAttributes names attributes as) (content : List Char) :
    Reads names
      ("<code".toList ++ attributes ++ '>' :: (escape content ++ "</code>".toList))
      (elementItems "code" as (content.map .char)) := by
  have h := reads_element (show IsTagName "code" by decide) has (reads_escape names content)
  convert h using 1
  simp only [tagStart, tagEnd, Bool.false_eq_true, if_true, if_false, String.reduceToList,
    List.append_assoc, List.cons_append, List.nil_append]

theorem reads_codeSpan (hkeys : ∀ a ∈ t.attributes, IsName a.1) :
    Reads names (RenderOptions.codeSpan t)
      (elementItems "code" t.attributes (t.content.toList.map .char)) :=
  reads_code (readsAttributes_attributes names hkeys) t.content.toList

/-- Code in a block of its own. -/
theorem reads_preformatted {outer inner : List Char} {as bs : List (String × String)}
    (houter : ReadsAttributes names outer as) (hinner : ReadsAttributes names inner bs)
    (content : List Char) :
    Reads names
      ("<pre".toList ++ outer ++ "><code".toList ++ inner ++
        '>' :: (escape content ++ "</code></pre>\n".toList))
      (elementItems "pre" as (elementItems "code" bs (content.map .char)) ++ [.char '\n']) := by
  have hcode := reads_element (show IsTagName "code" by decide) hinner (reads_escape names content)
  have h := (reads_element (show IsTagName "pre" by decide) houter hcode).append
    (reads_lineFeed names)
  convert h using 1
  simp only [tagStart, tagEnd, Bool.false_eq_true, if_true, if_false, String.reduceToList,
    List.append_assoc, List.cons_append, List.nil_append]

theorem reads_codeBlock (hkeys : ∀ a ∈ t.attributes, IsName a.1) :
    Reads names (RenderOptions.codeBlock t)
      (elementItems "pre" t.attributes (elementItems "code" [] (t.content.toList.map .char)) ++
        [.char '\n']) := by
  have h := reads_preformatted (readsAttributes_attributes names hkeys)
    readsAttributes_nil t.content.toList
  simp only [List.append_nil, String.reduceToList, List.append_assoc, List.cons_append,
    List.nil_append] at h
  unfold RenderOptions.codeBlock
  simp only [String.reduceToList, List.append_assoc, List.cons_append, List.nil_append]
  exact h

theorem readsAttributes_codeClass (names : Names) (o : RenderOptions) (info : String) :
    ReadsAttributes names (o.codeClass (firstWord info.toList)) (o.languageAttributes info) := by
  unfold RenderOptions.codeClass RenderOptions.languageAttributes
  dsimp only
  split
  · exact readsAttributes_nil
  · have hvalue := (isValue_escape names o.langPrefix.toList).append
      (isValue_escape names (firstWord info.toList))
    have h := readsAttributes_attribute (show IsName "class" by decide) hvalue
    rw [String.ofList_append, String.ofList_toList] at h
    simpa [attributeText] using h

theorem reads_fence (names : Names) (o : RenderOptions) (t : Token) :
    Reads names (o.fence t)
      (elementItems "pre" [] (elementItems "code" (o.languageAttributes t.info)
        (t.content.toList.map .char)) ++ [.char '\n']) :=
  reads_preformatted readsAttributes_nil (readsAttributes_codeClass names o t.info)
    t.content.toList

theorem reads_htmlBlock (names : Names) (hhtml : o.html = false) (t : Token) :
    Reads names (o.htmlBlock t)
      (elementItems "p" [] ((trimEnd t.content.toList).map .char) ++ [.char '\n']) := by
  have h := (reads_element (show IsTagName "p" by decide) readsAttributes_nil
    (reads_escape names (trimEnd t.content.toList))).append (reads_lineFeed names)
  simpa [RenderOptions.htmlBlock, hhtml, tagStart, tagEnd] using h

/-- A token is read as its items when it is written as usual and no HTML of the source is passed
through. -/
theorem reads_plain (hhtml : o.html = false) (hplain : site.token.IsPlain)
    (hinner : site.token.kind = .inline → Reads names inner innerItems) :
    Reads names (o.plain site inner) (o.items site innerItems) := by
  obtain ⟨before, ⟨kind, tag, attributes, lines, nesting, content, markup, info, children, block,
    hidden⟩, after⟩ := site
  have hescape := reads_escape names content.toList
  cases kind with
  | text => exact hescape
  | textSpecial => exact hescape
  | softBreak =>
    dsimp only [RenderOptions.plain, RenderOptions.items]
    split
    · exact reads_lineBreak names o
    · exact reads_lineFeed names
  | hardBreak => exact reads_lineBreak names o
  | codeInline => exact reads_codeSpan hplain.keys
  | codeBlock => exact reads_codeBlock hplain.keys
  | fence => exact reads_fence names o _
  | htmlBlock => exact reads_htmlBlock names hhtml _
  | htmlInline =>
    have hwrite : o.htmlInline = fun t => escape t.content.toList := by
      funext t
      simp [RenderOptions.htmlInline, hhtml]
    dsimp only [RenderOptions.plain]
    rw [hwrite]
    exact hescape
  | raw => exact absurd rfl hplain.kind_ne
  | inline => exact hinner rfl
  | tocOpen => exact reads_nil
  | tocBody => exact reads_nil
  | tocClose => exact reads_nil
  | _ => exact reads_plainTag (hplain.tag rfl) hplain.keys before after

end Plain

/-! ### Anchors -/

/-- The renderer that writes headings with anchors, if there is a slugger for them, and everything
else as usual. -/
def Renderer.anchoring (o : RenderOptions) (anchors : Option Slugger) (headings : List Heading) :
    Renderer :=
  ⟨o, anchors.toList.map headingAnchors, headings⟩

section Anchors

variable {names : Names} {o : RenderOptions} {anchors : Option Slugger} {headings : List Heading}
  {site : Site}

theorem Site.isPlain_anchored (h : site.token.IsPlain) (anchors : Option Slugger) :
    (site.anchored anchors).token.IsPlain := by
  unfold Site.anchored
  split
  · split
    · exact h.setAttribute (by decide) _
    · exact h
  · exact h

theorem Site.kind_anchored (site : Site) (anchors : Option Slugger) :
    (site.anchored anchors).token.kind = site.token.kind := by
  unfold Site.anchored
  split
  · split <;> rfl
  · rfl

theorem Site.anchored_of_kind_ne (h : site.token.kind ≠ .headingOpen) (anchors : Option Slugger) :
    site.anchored anchors = site := by
  unfold Site.anchored
  split
  · exact if_neg fun hheading => h hheading.1
  · rfl

theorem headingAnchors_write (slugger : Slugger) (o : RenderOptions) (headings : List Heading)
    (usual : List Char) (h : site.token.kind = .headingOpen) :
    (headingAnchors slugger).write o headings site usual =
      o.tag (site.anchored (some slugger)) := by
  obtain ⟨before, t, after⟩ := site
  cases after with
  | none => rfl
  | some text =>
    simp only [headingAnchors, Site.anchored, show t.kind = .headingOpen from h, true_and]
    split <;> rfl

theorem Renderer.override?_anchoring (o : RenderOptions) (anchors : Option Slugger)
    (headings : List Heading) (kind : TokenKind) :
    (anchoring o anchors headings).override? kind =
      if kind = .headingOpen then anchors.map headingAnchors else none := by
  cases anchors with
  | none => simp [override?, anchoring]
  | some slugger =>
    by_cases h : kind = .headingOpen <;> simp [override?, anchoring, headingAnchors, h, Ne.symm]

/-- The anchors are all that sets the renderer apart: a token is written as usual at its site with
the anchor. -/
theorem Renderer.writeAt_anchoring (o : RenderOptions) (anchors : Option Slugger)
    (headings : List Heading) (site : Site) (inner : List Char) :
    (anchoring o anchors headings).writeAt site inner = o.plain (site.anchored anchors) inner := by
  have htag (site' : Site) (h : site'.token.kind = .headingOpen) :
      o.plain site' inner = o.tag site' := by
    simp [RenderOptions.plain, h]
  rw [writeAt, override?_anchoring]
  by_cases hkind : site.token.kind = .headingOpen
  · rw [if_pos hkind, htag _ ((Site.kind_anchored site anchors).trans hkind)]
    cases anchors with
    | none => exact htag site hkind
    | some slugger => exact headingAnchors_write slugger o headings _ hkind
  · rw [if_neg hkind, Site.anchored_of_kind_ne hkind]
    rfl

/-- A token is read as its items, where headings have their anchors. -/
theorem reads_writeAt (hhtml : o.html = false) (hplain : site.token.IsPlain) {inner : List Char}
    {innerItems : List Item} (hinner : site.token.kind = .inline → Reads names inner innerItems) :
    Reads names ((Renderer.anchoring o anchors headings).writeAt site inner)
      (o.items (site.anchored anchors) innerItems) := by
  rw [Renderer.writeAt_anchoring]
  exact reads_plain hhtml (Site.isPlain_anchored hplain anchors)
    fun h => hinner (Site.kind_anchored site anchors ▸ h)

/-! ### Lists of tokens -/

mutual

/-- A token is read as its items. -/
theorem reads_writeToken (hhtml : o.html = false) (before after : Option Token) :
    ∀ t : Token, t.Writable →
      Reads names ((Renderer.anchoring o anchors headings).writeToken before after t)
        (itemsOfToken o anchors before after t)
  | ⟨kind, tag, attributes, lines, nesting, content, markup, info, children, block, hidden⟩, h => by
    rw [Renderer.writeToken, itemsOfToken]
    exact reads_writeAt hhtml h.isPlain fun hkind =>
      reads_writeInline hhtml none children (h.children hkind)

/-- The tokens of a text are read as their items. -/
theorem reads_writeInline (hhtml : o.html = false) (before : Option Token) :
    ∀ ts : List Token, (∀ t ∈ ts, t.Writable) →
      Reads names ((Renderer.anchoring o anchors headings).writeInline before ts)
        (itemsOfText o anchors before ts)
  | [], _ => by
    rw [Renderer.writeInline, itemsOfText]
    exact reads_nil
  | t :: rest, h => by
    rw [Renderer.writeInline, itemsOfText]
    exact (reads_writeToken hhtml before rest.head? t (h t (List.mem_cons_self ..))).append
      (reads_writeInline hhtml (some t) rest fun u hu => h u (List.mem_cons_of_mem t hu))

end

/-- Block tokens are read as their items. -/
theorem reads_writeBlocks (names : Names) (anchors : Option Slugger) (headings : List Heading)
    (hhtml : o.html = false) (before : Option Token) (ts : List Token)
    (h : ∀ t ∈ ts, t.Writable) :
    Reads names ((Renderer.anchoring o anchors headings).writeBlocks before ts)
      (itemsOfBlocks o anchors before ts) := by
  induction ts generalizing before with
  | nil => exact reads_nil
  | cons t rest ih =>
    rw [List.forall_mem_cons] at h
    refine Reads.append ?_ (ih (some t) h.2)
    split
    · next hkind => exact reads_writeInline hhtml none t.children (h.1.children hkind)
    · exact reads_writeToken hhtml before rest.head? t h.1

end Anchors

/-- The tags in the output are those among the items. -/
theorem tags_write (names : Names) {o : RenderOptions} (anchors : Option Slugger)
    (headings : List Heading) {ts : List Token} (hhtml : o.html = false)
    (hts : ∀ t ∈ ts, t.Writable) :
    tags names ((Renderer.anchoring o anchors headings).write ts) =
      (itemsOfBlocks o anchors none ts).filterMap Item.tag? :=
  (reads_writeBlocks names anchors headings hhtml none ts hts).tags_eq

/-- **Texts cannot create markup.**  When no HTML of the source is passed through and nothing but
the anchors of headings is overridden, the output for tokens with plain names is read as the tags of
the tokens, in order, with their attributes, and the characters of their contents between them, and
nothing else.  There is one bracket for every tag: no content, address, title or language of a token
opens, closes or changes a tag. -/
theorem read?_write (names : Names) (o : RenderOptions) (anchors : Option Slugger)
    (headings : List Heading) (ts : List Token) (hhtml : o.html = false)
    (hts : ∀ t ∈ ts, t.Writable) :
    read? names ((Renderer.anchoring o anchors headings).write ts) =
        some (itemsOfBlocks o anchors none ts) ∧
      ((Renderer.anchoring o anchors headings).write ts).count '<' =
        ((itemsOfBlocks o anchors none ts).filterMap Item.tag?).length :=
  have h := reads_writeBlocks names anchors headings hhtml none ts hts
  ⟨h.read?_eq, h.brackets⟩

/-- A heading, an item of a tight list and a fenced block, with quotes and brackets in a text, in an
address and in a language. -/
theorem read?_write_quotesAndBrackets :
    read? .predefined
      ((Renderer.anchoring {} (some .lowercase) []).write
        [{ kind := .headingOpen, tag := "h1", lines := some (4, 5), nesting := 1, block := true },
          { kind := .inline, content := "T", children := [.ofText "<b>&amp;"], block := true },
          { kind := .headingClose, tag := "h1", nesting := -1, block := true },
          { kind := .paragraphOpen, tag := "p", nesting := 1, block := true, hidden := true },
          { kind := .inline
            children :=
              [{ kind := .linkOpen, tag := "a", nesting := 1
                 attributes := [("href", "\x22><i>")] },
                { kind := .linkClose, tag := "a", nesting := -1 }] },
          { kind := .paragraphClose, tag := "p", nesting := -1, block := true, hidden := true },
          { kind := .fence, info := "\x22>", content := "</code>", block := true }]) =
      some
        ([.tag { name := "h1", attributes := [("id", "t-4")] }] ++ "<b>&amp;".toList.map .char ++
          [.tag { closing := true, name := "h1" }, .char '\n',
            .tag { name := "a", attributes := [("href", "\x22><i>")] },
            .tag { closing := true, name := "a" }, .tag { name := "pre" },
            .tag { name := "code", attributes := [("class", "language-\x22>")] }] ++
          "</code>".toList.map .char ++
          [.tag { closing := true, name := "code" }, .tag { closing := true, name := "pre" },
            .char '\n']) :=
  (read?_write .predefined {} (some .lowercase) [] _ rfl fun t ht =>
    Token.writable_of_flat (by revert t; decide)).1.trans (by decide +kernel)

/-- A code span is seen even if it is hidden, and the attributes of a fenced block are not seen. -/
theorem tags_write_hiddenCode :
    let r := Renderer.anchoring {} none []
    let code : Token := { kind := .codeInline, tag := "code", content := "x", hidden := true }
    let fence : Token :=
      { kind := .fence, tag := "code", attributes := [("title", "x")], content := "x"
        block := true }
    code.Writable ∧ fence.Writable ∧
      tags .predefined (r.write [code]) ≠ tags .predefined (r.write ([code].filter (!·.hidden))) ∧
      ∀ t ∈ tags .predefined (r.write [fence]), ∀ a ∈ fence.attributes, a ∉ t.attributes := by
  intro r code fence
  have hcode : code.Writable := Token.writable_of_flat (by decide)
  have hfence : fence.Writable := Token.writable_of_flat (by decide)
  refine ⟨hcode, hfence, ?_, ?_⟩
  · rw [tags_write .predefined none [] rfl (List.forall_mem_singleton.mpr hcode),
      tags_write .predefined none [] rfl (by simp [code])]
    decide
  · rw [tags_write .predefined none [] rfl (List.forall_mem_singleton.mpr hfence)]
    decide

end WikiPress
