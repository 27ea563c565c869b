import WikiPress.Proofs.Renderer.Markup
import WikiPress.Proofs.Text.Offset
import WikiPress.Proofs.TokenStream.Blocks

/-!
# Headings and their anchors

A heading is recorded when its closing tag is reached, from the text in front of it, and gets its
anchor when its opening tag is written, from the text behind it.  Both see the same text at the same
line, so the anchor that is written is the one that is recorded.

An anchor ends with the number of a line behind a hyphen.  No digit is a hyphen, so headings on
different lines have different anchors, whatever their slugs are.

## Main definitions

* `TokenStream.HeadingNode.record` : what is recorded for a heading of a tree.
* `Renderer.headingIds` : the identifiers that headings are written with.

## Main results

* `Heading.anchorOf_inj` : the line of an anchor can be read from the anchor.
* `Heading.collect_of_headed` : the headings of a tree are recorded, each of them once and in order.
* `Renderer.headingIds_of_headed` : headings are written with their anchors.
-/

namespace WikiPress

open Text TokenStream Html

/-! ### Anchors -/

namespace Heading

theorem hyphen_not_mem_toDigits (n : Nat) : '-' ∉ Nat.toDigits 10 n := fun h =>
  absurd (Nat.isDigit_of_mem_toDigits (by decide) (by decide) h) (by decide)

theorem toDigits_inj {m n : Nat} (h : Nat.toDigits 10 m = Nat.toDigits 10 n) : m = n := by
  rw [← Nat.ofDigitChars_ten_toDigits (n := m), h, Nat.ofDigitChars_ten_toDigits]

/-- What stands behind the last hyphen of a text. -/
theorem eq_of_append_hyphen {u u' v v' : List Char} (hv : '-' ∉ v) (hv' : '-' ∉ v')
    (h : u ++ '-' :: v = u' ++ '-' :: v') : v = v' := by
  have hlast : ∀ {u v : List Char}, '-' ∉ v →
      ((u ++ '-' :: v).reverse.takeWhile (· ≠ '-')).reverse = v := by
    intro u v hv
    have hall : ∀ c ∈ v.reverse, decide (c ≠ '-') = true := fun c hc =>
      decide_eq_true fun heq => hv (heq ▸ List.mem_reverse.mp hc)
    rw [List.reverse_append, List.reverse_cons, List.append_assoc,
      List.takeWhile_append_of_pos hall]
    simp
  rw [← hlast (u := u) hv, h, hlast hv']

/-- The line of an anchor can be read from the anchor, whatever the slug is. -/
theorem anchorOf_inj {slug slug' : String} {m n : Nat}
    (h : anchorOf slug m = anchorOf slug' n) : m = n := by
  have hchars := congrArg String.toList h
  simp only [anchorOf, String.toList_append, Nat.toString_eq_repr, Nat.toList_repr,
    String.reduceToList, List.append_assoc, List.cons_append, List.nil_append] at hchars
  exact toDigits_inj (eq_of_append_hyphen (hyphen_not_mem_toDigits m) (hyphen_not_mem_toDigits n)
    hchars)

end Heading

/-! ### What is recorded -/

/-- What is recorded for a heading of a tree. -/
def TokenStream.HeadingNode.record (o : Origin) (slugger : Slugger) (h : HeadingNode) :
    Heading where
  content := h.content o
  line := h.extent.start.line - 1
  level := h.level
  slug := slugger.slugString (h.content o)

section Record

variable {o : Origin} {ts : List Token} {hs : List HeadingNode}

theorem firstLine_blockLines (extent : Markdown.Extent) :
    Heading.firstLine (Origin.blockLines extent) = extent.start.line - 1 := by
  unfold Origin.blockLines
  split
  · next hzero => simp [hzero, Heading.firstLine]
  · rfl

theorem headingLevel?_closeToken {h : HeadingNode} (hlevel : 1 ≤ h.level ∧ h.level ≤ 6) :
    h.closeToken.headingLevel? = some h.level := by
  have htag : h.closeToken.tag.toList = 'h' :: Nat.toDigits 10 h.level := by
    simp [HeadingNode.closeToken, Origin.closeBlock]
  rw [Token.headingLevel?, htag]
  have hread : readNumber? 255 (Nat.toDigits 10 h.level) = some h.level :=
    readNumber?_toDigits (by omega)
  simp only [hread]
  simp [hlevel]

theorem Heading.ofEnd?_of_kind_ne {slugger : Slugger} {before : Option Token} {t : Token}
    (h : t.kind ≠ .headingClose) : ofEnd? slugger before t = none := if_neg h

theorem Heading.ofEnd?_closeToken (slugger : Slugger) {h : HeadingNode} {text : Token}
    (hlevel : 1 ≤ h.level ∧ h.level ≤ 6) (htext : h.IsText o text) :
    ofEnd? slugger (some text) h.closeToken = some (h.record o slugger) := by
  have hkind : h.closeToken.kind = .headingClose := rfl
  unfold ofEnd?
  rw [if_pos hkind, headingLevel?_closeToken hlevel]
  simp only [htext.kind, htext.content, htext.lines, firstLine_blockLines, if_true]
  rfl

theorem Heading.collectFrom_of_headed (slugger : Slugger) (h : Headed o ts hs)
    (hlevels : ∀ h ∈ hs, 1 ≤ h.level ∧ h.level ≤ 6) (before : Option Token) :
    collectFrom slugger before ts = hs.map (HeadingNode.record o slugger) := by
  induction h generalizing before with
  | nil => rfl
  | @other t ts hs ht _ ih =>
    rw [collectFrom, ofEnd?_of_kind_ne (ht.kind_ne rfl), ih hlevels]
    rfl
  | @heading h text ts hs htext _ ih =>
    rw [List.forall_mem_cons] at hlevels
    have hkind : text.kind ≠ .headingClose := by
      rw [htext.kind]
      decide
    rw [collectFrom, ofEnd?_of_kind_ne (ne_of_beq_false rfl), collectFrom, ofEnd?_of_kind_ne hkind,
      collectFrom, ofEnd?_closeToken slugger hlevels.1 htext, ih hlevels.2]
    rfl

/-- The headings of a tree are recorded, each of them once and in order. -/
theorem Heading.collect_of_headed (slugger : Slugger) (h : Headed o ts hs)
    (hlevels : ∀ h ∈ hs, 1 ≤ h.level ∧ h.level ≤ 6) :
    collect slugger ts = hs.map (HeadingNode.record o slugger) :=
  collectFrom_of_headed slugger h hlevels none

end Record

/-! ### What is written -/

namespace Renderer

/-- The identifier in the tags of a text, if there is one. -/
def idOf? (names : Names) (s : List Char) : Option String :=
  (tags names s).findSome? fun t => Token.findAttribute? "id" t.attributes

/-- The identifiers that the headings among block tokens are written with, as a reader of the HTML
sees them; `before` is the token in front of them. -/
def headingIds (names : Names) (r : Renderer) (before : Option Token) :
    List Token → List (Option String)
  | [] => []
  | t :: rest =>
    let after := headingIds names r (some t) rest
    if t.kind = .headingOpen then idOf? names (r.writeToken before rest.head? t) :: after
    else after

variable {names : Names} {r : Renderer} {o : Origin} {slugger : Slugger} {h : HeadingNode}
  {text : Token} {ts : List Token} {hs : List HeadingNode}

theorem writeToken_eq (r : Renderer) (before after : Option Token) (t : Token) :
    r.writeToken before after t = r.writeAt ⟨before, t, after⟩ (r.writeInline none t.children) := by
  cases t
  rw [writeToken]

theorem isTagName_heading (h : HeadingNode) : IsTagName h.openToken.tag := by
  have htag : h.openToken.tag.toList = 'h' :: Nat.toDigits 10 h.level := by
    simp [HeadingNode.openToken, Origin.openBlock]
  rw [IsTagName, htag]
  refine ⟨rfl, List.forall_mem_cons.mpr ⟨by decide, fun c hc => ?_⟩⟩
  have hdigit : c.isDigit = true := Nat.isDigit_of_mem_toDigits (by decide) (by decide) hc
  simp [isNameChar, Ascii.isAlphanumeric, Char.isAlphanum, hdigit]

/-- The identifier in a tag is that of the token. -/
theorem idOf?_tag (o : RenderOptions) {t : Token} (hname : IsTagName t.tag)
    (hkeys : ∀ a ∈ t.attributes, IsName a.1) (hhidden : t.hidden = false)
    (before after : Option Token) :
    idOf? names (o.tag ⟨before, t, after⟩) = Token.findAttribute? "id" t.attributes := by
  rw [idOf?, (reads_plainTag (fun _ => hname) hkeys before after).tags_eq,
    o.filterMap_tagItems hhidden]
  cases h : Token.findAttribute? "id" t.attributes <;> simp [h]

/-- A heading with tokens in it is written with its anchor, and any other one with none. -/
theorem idOf?_openToken (hoverride : r.override? .headingOpen = some (headingAnchors slugger))
    (htext : h.IsText o text) (before : Option Token) :
    idOf? names (r.writeToken before (some text) h.openToken) =
      if text.children = [] then none else some (h.record o slugger).anchor := by
  have hkind : h.openToken.kind = .headingOpen := rfl
  have hlines : h.openToken.lines = Origin.blockLines h.extent := rfl
  have hline : Heading.firstLine (h.openToken.lines.or text.lines) = h.extent.start.line - 1 := by
    rw [hlines, htext.lines, Option.or_self, firstLine_blockLines]
  rw [writeToken_eq, writeAt]
  simp only [hkind, hoverride]
  rw [headingAnchors_write _ _ _ _ hkind]
  simp only [Site.anchored, hkind, htext.kind, htext.content, hline, true_and]
  by_cases hempty : text.children = []
  · rw [if_neg (by simp [hempty]), if_pos hempty]
    exact idOf?_tag _ (isTagName_heading h) (by simp [HeadingNode.openToken, Origin.openBlock]) rfl
      before (some text)
  · rw [if_pos (by simp [hempty]), if_neg hempty]
    have hkeys : ∀ id, ∀ a ∈ (h.openToken.setAttribute "id" id).attributes, IsName a.1 :=
      fun _ => List.forall_mem_singleton.mpr (show IsName "id" by decide)
    exact (idOf?_tag (t := h.openToken.setAttribute "id" _) _ (isTagName_heading h) (hkeys _) rfl
      before (some text)).trans rfl

/-- Headings are written with their anchors, all those with nodes in them at least. -/
theorem headingIds_of_headed (names : Names)
    (hoverride : r.override? .headingOpen = some (headingAnchors slugger)) (h : Headed o ts hs)
    (before : Option Token) :
    List.Forall₂
      (fun h id => id = some (h.record o slugger).anchor ∨ h.children = [] ∧ id = none) hs
      (headingIds names r before ts) := by
  induction h generalizing before with
  | nil => exact .nil
  | @other t ts hs ht _ ih =>
    rw [headingIds, if_neg (ht.kind_ne rfl)]
    exact ih _
  | @heading h text ts hs htext _ ih =>
    have hkind : text.kind ≠ .headingOpen := by
      rw [htext.kind]
      decide
    have hopen : h.openToken.kind = .headingOpen := rfl
    have hclose : h.closeToken.kind ≠ .headingOpen := ne_of_beq_false rfl
    rw [headingIds, if_pos hopen, headingIds, if_neg hkind, headingIds, if_neg hclose]
    refine .cons ?_ (ih _)
    rw [List.head?_cons, idOf?_openToken hoverride htext]
    split
    · next hempty => exact .inr ⟨not_not.mp (mt htext.ne_nil (not_not.mpr hempty)), rfl⟩
    · exact .inl rfl

end Renderer

end WikiPress
