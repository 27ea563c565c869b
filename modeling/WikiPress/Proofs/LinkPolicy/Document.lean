import Mathlib.Data.List.Forall2
import WikiPress.Proofs.TokenStream.Blocks
import WikiPress.Url.Web

/-!
# What the policy does to a document

The policy goes over the texts of blocks and no further.  That is enough: in the tokens of a
document no link stands at the level of blocks, and texts hold no texts of their own.  Every link
that is written is therefore reached.

Links to the web are marked.  An address under the base address is left unmarked, also if the base
address is on the web: it belongs to the wiki itself.

## Main definitions

* `Token.written` : the tokens that are written for a token.
* `LinkPolicy.Treated` : a token that is written, before and after the policy is applied.
* `Token.HasKeysOnce` : a token in which no attribute is given twice, at any depth.

## Main results

* `LinkPolicy.forall₂_treated` : what the policy does to the tokens that are written.
* `Heading.collect_applyAll` : the policy does not change what is recorded of headings.
* `Processor.links_blocksOfTree` : the policy on the tokens that a processor makes of a tree.
-/

namespace WikiPress

open Text TokenStream

/-! ### Tokens that are written -/

namespace Token

mutual

/-- The tokens that are written for a token: the token itself, and those of its text if it is the
text of a block. -/
def written : Token → List Token
  | ⟨kind, tag, attributes, lines, nesting, content, markup, info, children, block, hidden⟩ =>
    ⟨kind, tag, attributes, lines, nesting, content, markup, info, children, block, hidden⟩ ::
      if kind = .inline then writtenAll children else []

/-- The tokens that are written for a list of tokens. -/
def writtenAll : List Token → List Token
  | [] => []
  | t :: rest => written t ++ writtenAll rest

end

variable {t : Token} {ts : List Token}

theorem written_eq (t : Token) :
    t.written = t :: if t.kind = .inline then writtenAll t.children else [] := by
  cases t
  rw [written]

theorem written_of_kind_ne (h : t.kind ≠ .inline) : t.written = [t] := by
  rw [written_eq, if_neg h]

theorem writtenAll_of_isInner (h : ∀ t ∈ ts, IsInner t) : writtenAll ts = ts := by
  induction ts with
  | nil => rfl
  | cons t ts ih =>
    rw [List.forall_mem_cons] at h
    rw [writtenAll, written_of_kind_ne h.1.kind_ne, ih h.2, List.singleton_append]

/-- A token in which no attribute is given twice, and so for all tokens below it. -/
inductive HasKeysOnce : Token → Prop
  | intro {t : Token} : (t.attributes.map Prod.fst).Nodup → (∀ u ∈ t.children, HasKeysOnce u) →
      HasKeysOnce t

theorem hasKeysOnce_of_isInner (h : IsInner t) : t.HasKeysOnce := by
  induction h with
  | intro _ hnodup _ ih => exact .intro hnodup ih

end Token

/-! ### The blocks of a document -/

section Blocks

variable {o : Origin} {t : Token} {ts : List Token} {hs : List HeadingNode}

/-- No link stands at the level of blocks. -/
theorem TokenStream.Headed.isOuter (h : Headed o ts hs) :
    ∀ t ∈ ts, t.kind ≠ .linkOpen ∧ IsOuter t := by
  induction h with
  | nil => simp
  | @other t ts hs ht _ ih =>
    exact List.forall_mem_cons.mpr ⟨⟨ht.kind_ne rfl, ht.toIsOuter⟩, ih⟩
  | @heading h text ts hs htext _ ih =>
    have hopen : IsOuter h.openToken := ⟨List.nodup_nil, fun _ hu => absurd hu List.not_mem_nil⟩
    have hclose : IsOuter h.closeToken := ⟨List.nodup_nil, fun _ hu => absurd hu List.not_mem_nil⟩
    have htextKind : text.kind ≠ .linkOpen := by
      rw [htext.kind]
      decide
    refine List.forall_mem_cons.mpr ⟨⟨ne_of_beq_false rfl, hopen⟩, ?_⟩
    refine List.forall_mem_cons.mpr ⟨⟨htextKind, htext.toIsOuter⟩, ?_⟩
    exact List.forall_mem_cons.mpr ⟨⟨ne_of_beq_false rfl, hclose⟩, ih⟩

theorem TokenStream.IsOuter.hasKeysOnce (h : IsOuter t) : t.HasKeysOnce :=
  .intro h.nodup fun u hu => Token.hasKeysOnce_of_isInner (h.inner u hu)

theorem Token.written_of_isOuter (h : IsOuter t) :
    t.written = t :: if t.kind = .inline then t.children else [] := by
  rw [written_eq, writtenAll_of_isInner h.inner]

end Blocks

/-! ### Tokens before and after -/

namespace LinkPolicy

variable {o : WikiOptions} {t : Token} {ts : List Token}

/-- A token that is written, before and after the policy is applied.  Links get other attributes,
and those to the web keep their address and are marked.  Texts get other tokens, which are written
and treated by themselves.  All other tokens stay the same. -/
inductive Treated [UrlParser] (o : WikiOptions) : Token → Token → Prop
  | other {t : Token} : t.kind ≠ .linkOpen → t.kind ≠ .inline → Treated o t t
  | text {t : Token} {us : List Token} : t.kind = .inline → Treated o t { t with children := us }
  | link {t : Token} {as : List (String × String)} : t.kind = .linkOpen →
      Reworked t.attributes as →
      (∀ href, t.attribute? "href" = some href → isWeb href.toList = true →
        Token.findAttribute? "href" as = some href ∧ o.Marks { t with attributes := as } href) →
      Treated o t { t with attributes := as }

theorem treated_applyInline [UrlParser] (o : WikiOptions) (h : IsInner t) :
    Treated o t (o.linkPolicy.applyInline t) := by
  unfold applyInline
  split
  · next hkind =>
    obtain ⟨as, heq, hreworked, _⟩ := reworked_apply o.linkPolicy t
    have hmarks : ∀ href, t.attribute? "href" = some href → isWeb href.toList = true →
        (o.linkPolicy.apply t).attribute? "href" = some href ∧
          o.Marks (o.linkPolicy.apply t) href :=
      fun _ hhref hweb => WikiOptions.marks_apply_of_isWeb hhref hweb
    rw [heq] at hmarks ⊢
    exact .link hkind hreworked hmarks
  · next hkind => exact .other hkind h.kind_ne

theorem isOuter_applyBlock [UrlParser] (p : LinkPolicy) (h : IsOuter t) :
    IsOuter (p.applyBlock t) := by
  unfold applyBlock
  split
  · exact ⟨h.nodup, List.forall_mem_map.mpr fun u hu => isInner_applyInline p (h.inner u hu)⟩
  · exact h

theorem kind_applyBlock [UrlParser] (p : LinkPolicy) (t : Token) :
    (p.applyBlock t).kind = t.kind := by
  unfold applyBlock
  split <;> rfl

/-- What the policy does to the tokens that are written for a block. -/
theorem forall₂_treated_written [UrlParser] (o : WikiOptions) (hkind : t.kind ≠ .linkOpen)
    (h : IsOuter t) :
    List.Forall₂ (Treated o) t.written (o.linkPolicy.applyBlock t).written := by
  rw [Token.written_of_isOuter h, Token.written_of_isOuter (isOuter_applyBlock _ h),
    kind_applyBlock]
  unfold applyBlock
  split
  · next hinline =>
    refine .cons (.text hinline) ?_
    rw [List.forall₂_map_right_iff, List.forall₂_same]
    exact fun u hu => treated_applyInline o (h.inner u hu)
  · next hinline => exact .cons (.other hkind hinline) .nil

/-- What the policy does to the tokens that are written for the blocks of a document. -/
theorem forall₂_treated [UrlParser] (o : WikiOptions)
    (h : ∀ t ∈ ts, t.kind ≠ .linkOpen ∧ IsOuter t) :
    List.Forall₂ (Treated o) (Token.writtenAll ts)
      (Token.writtenAll (o.linkPolicy.applyAll ts)) := by
  induction ts with
  | nil => exact .nil
  | cons t ts ih =>
    rw [List.forall_mem_cons] at h
    exact List.rel_append (forall₂_treated_written o h.1.1 h.1.2) (ih h.2)

/-- If the base address is not on the web, all links to the web that are written are marked. -/
theorem marks_of_mem_writtenAll [UrlParser] (h : ∀ t ∈ ts, t.kind ≠ .linkOpen ∧ IsOuter t)
    (hbase : isWeb o.baseUrl.toList = false) {u : Token}
    (hu : u ∈ Token.writtenAll (o.linkPolicy.applyAll ts)) (hkind : u.kind = .linkOpen)
    {href : String} (hhref : u.attribute? "href" = some href) (hweb : isWeb href.toList = true) :
    o.Marks u href := by
  induction ts with
  | nil => exact absurd hu List.not_mem_nil
  | cons t ts ih =>
    rw [List.forall_mem_cons] at h
    rcases List.mem_append.mp hu with hu | hu
    · rw [Token.written_of_isOuter (isOuter_applyBlock _ h.1.2), kind_applyBlock] at hu
      rcases List.mem_cons.mp hu with rfl | hu
      · exact absurd ((kind_applyBlock _ t).symm.trans hkind) h.1.1
      · -- The link stands in the text of the block.
        unfold applyBlock at hu
        split at hu
        · obtain ⟨v, hv, rfl⟩ := List.mem_map.mp hu
          unfold applyInline at hkind hhref ⊢
          split at hkind
          · next hlink =>
            rw [if_pos hlink] at hhref ⊢
            exact WikiOptions.marks_apply hbase hhref hweb
          · next hlink => exact absurd hkind hlink
        · exact absurd hu List.not_mem_nil
    · exact ih h.2 hu

end LinkPolicy

/-! ### Headings -/

namespace Heading

variable {slugger : Slugger} {f : Token → Token}

/-- What is recorded of headings depends on the kinds, tags, contents and lines of the tokens. -/
theorem collectFrom_map (hf : ∀ t, (f t).kind = t.kind ∧ (f t).tag = t.tag ∧
      (f t).content = t.content ∧ (f t).lines = t.lines)
    (before : Option Token) (ts : List Token) :
    collectFrom slugger (before.map f) (ts.map f) = collectFrom slugger before ts := by
  have hend (before : Option Token) (t : Token) :
      ofEnd? slugger (before.map f) (f t) = ofEnd? slugger before t := by
    obtain ⟨hkind, htag, _, _⟩ := hf t
    have hlevel : (f t).headingLevel? = t.headingLevel? := by
      unfold Token.headingLevel?
      rw [htag]
    unfold ofEnd?
    rw [hkind, hlevel]
    cases before with
    | none => rfl
    | some text =>
      obtain ⟨hkind, _, hcontent, hlines⟩ := hf text
      cases t.headingLevel? with
      | none => rfl
      | some level => simp only [Option.map_some, hkind, hcontent, hlines]
  induction ts generalizing before with
  | nil => rfl
  | cons t ts ih => rw [List.map_cons, collectFrom, collectFrom, hend, ← Option.map_some, ih]

/-- The policy for links does not change what is recorded of headings. -/
theorem collect_applyAll [UrlParser] (slugger : Slugger) (p : LinkPolicy) (ts : List Token) :
    collect slugger (p.applyAll ts) = collect slugger ts := by
  refine collectFrom_map (fun t => ?_) none ts
  unfold LinkPolicy.applyBlock
  split <;> exact ⟨rfl, rfl, rfl, rfl⟩

end Heading

/-! ### Documents -/

/-- **The policy reaches every link that is written and changes nothing else.**  Let the tokens be
those that a processor makes of any tree.  After the policy is applied, every link that is written
and leads to the web says how it is to be followed, if the base address is not on the web itself; and
so does, with any base address, every link that led to the web before.  Nothing else changes but the
addresses of relative links.  No token has an attribute twice, and the policy can be applied before
or after the headings are collected. -/
theorem Processor.links_blocksOfTree [UrlParser] (o : MarkdownOptions) (anchors targets : Slugger)
    (source : List Char) (root : Markdown.Node) :
    let ts := (engineOf o anchors targets).blocksOfTree source root
    let treated := o.wiki.linkPolicy.applyAll ts
    (LinkPolicy.isWeb o.wiki.baseUrl.toList = false →
        ∀ u ∈ Token.writtenAll treated, u.kind = .linkOpen →
          ∀ href, u.attribute? "href" = some href → LinkPolicy.isWeb href.toList = true →
            o.wiki.Marks u href) ∧
      List.Forall₂ (LinkPolicy.Treated o.wiki) (Token.writtenAll ts) (Token.writtenAll treated) ∧
      (∀ t ∈ treated, t.HasKeysOnce) ∧
      ∀ hs, Pass.runAll [Pass.links o.wiki.linkPolicy, Pass.headings anchors] ts hs =
        Pass.runAll [Pass.headings anchors, Pass.links o.wiki.linkPolicy] ts hs := by
  intro ts treated
  have hheaded := headed_blocksOfTree o anchors targets source root
  refine ⟨fun hbase u hu hkind href hhref hweb => ?_, ?_, fun t ht => ?_, fun hs => ?_⟩
  · exact LinkPolicy.marks_of_mem_writtenAll hheaded.isOuter hbase hu hkind hhref hweb
  · exact LinkPolicy.forall₂_treated o.wiki hheaded.isOuter
  · exact ((hheaded.applyAll o.wiki.linkPolicy).isOuter t ht).2.hasKeysOnce
  · exact congrArg (Prod.mk _) (Heading.collect_applyAll anchors _ ts)

/-- Links in a heading, in a list and in a cell of a table. -/
def linksInBlocks : Markdown.Node :=
  ⟨.document, {},
    [⟨.heading 1 false, {}, [⟨.link "HTTP://ok.org/x" "", {}, []⟩]⟩,
      ⟨.list {}, {}, [⟨.item {}, {}, [⟨.paragraph, {},
        [⟨.emphasis, {}, [⟨.link "https://no.org" "t", {}, []⟩]⟩]⟩]⟩]⟩,
      ⟨.table [], {}, [⟨.tableRow true, {}, [⟨.tableCell, {}, [⟨.link "page" "", {}, []⟩]⟩]⟩]⟩]⟩

theorem Processor.links_linksInBlocks :
    let o : MarkdownOptions :=
      { wiki := { baseUrl := "/wiki", allowedExternalDomains := [" OK.org"] } }
    let treated := o.wiki.linkPolicy.applyAll
      ((engineOf o .lowercase .lowercase).blocksOfTree [] linksInBlocks)
    LinkPolicy.isWeb o.wiki.baseUrl.toList = false ∧
      ((Token.writtenAll treated).filter (·.kind = .linkOpen)).map Token.attributes =
        [[("href", "HTTP://ok.org/x"), ("rel", "external noopener noreferrer"),
            ("target", "_blank")],
          [("href", "https://no.org"), ("title", "t"),
            ("rel", "external nofollow noopener noreferrer"), ("target", "_blank")],
          [("href", "/wiki/page")]] ∧
      ∀ u ∈ Token.writtenAll treated, u.kind = .linkOpen →
        ∀ href, u.attribute? "href" = some href → LinkPolicy.isWeb href.toList = true →
          o.wiki.Marks u href := by
  intro o treated
  have hbase : LinkPolicy.isWeb o.wiki.baseUrl.toList = false := by decide
  exact ⟨hbase, by decide +kernel,
    (links_blocksOfTree o .lowercase .lowercase [] linksInBlocks).1 hbase⟩

/-- A link to a page of a wiki whose base address is on the web is not marked. -/
theorem Processor.exists_unmarked_link :
    let o : MarkdownOptions := { wiki := { baseUrl := "https://w.org" } }
    let treated := o.wiki.linkPolicy.applyAll ((engineOf o .lowercase .lowercase).blocksOfTree []
      ⟨.document, {}, [⟨.paragraph, {}, [⟨.link "page" "", {}, []⟩]⟩]⟩)
    ∃ u ∈ Token.writtenAll treated, u.kind = .linkOpen ∧
      u.attribute? "href" = some "https://w.org/page" ∧
      LinkPolicy.isWeb "https://w.org/page".toList = true ∧ u.attribute? "rel" = none := by
  intro o treated
  have h : (Token.writtenAll treated).any (fun u => decide (u.kind = .linkOpen ∧
      u.attribute? "href" = some "https://w.org/page" ∧
      LinkPolicy.isWeb "https://w.org/page".toList = true ∧ u.attribute? "rel" = none)) = true := by
    decide +kernel
  obtain ⟨u, hu, h⟩ := List.any_eq_true.mp h
  exact ⟨u, hu, of_decide_eq_true h⟩

end WikiPress
