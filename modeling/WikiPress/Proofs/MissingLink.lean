import Mathlib.Logic.Relation
import WikiPress.MissingLink
import WikiPress.Proofs.Mask.Literal
import WikiPress.Proofs.Slug.Normal

/-!
# Filling in the targets of links

A link without a target has one opening bracket, at its start, and no line feed.  So two such links
never overlap, and none of them reaches over an opening bracket or a line feed behind its start.  A
text therefore is a list of such links with other text between them, and filling in their targets
changes each of the links by itself.  The slug of a title has no brackets and no line feeds, so no
new link arises, and the lines stay where they are.

## Main definitions

* `MissingLink.Link` : links without a target, as they are written and with their target.
* `MissingLink.Piece` : the pieces of a text.
* `MissingLink.Step` : one link filled in, wherever it stands.
* `Text.IsWithoutFirst` : a text without the first occurrence of a part.

## Main results

* `MissingLink.read?_eq_some_iff` : the links that are read are the links without a target.
* `MissingLink.fillTargets_append` : text in front of a bracket or a line feed is filled by itself.
* `MissingLink.exists_pieces` : the links in a text are pieces of it, and each of them is filled in.
* `MissingLink.fillTargets_ne_append` : no link without a target is left.
* `MissingLink.reflTransGen_fillTargets` : links can be filled in one by one.
* `MissingLink.exists_pieces_fill` : all of this for a whole document.
-/

namespace WikiPress

open Text

/-! ### The first occurrence of a part -/

namespace Text

/-- A text without the first occurrence of a part, or the text itself if the part does not occur. -/
def IsWithoutFirst (part s t : List Char) : Prop :=
  ¬part <:+: s ∧ t = s ∨
    ∃ before after, s = before ++ part ++ after ∧ t = before ++ after ∧
      ∀ before' after', s = before' ++ part ++ after' → before <+: before'

theorem dropText?_append (part s : List Char) : dropText? part (part ++ s) = some s :=
  dropText?_eq_some.mpr rfl

theorem isPrefix_of_splitAtFirst? {part s before after : List Char}
    (h : splitAtFirst? part s = some (before, after)) {before' after' : List Char}
    (hs : s = before' ++ part ++ after') : before <+: before' := by
  fun_induction splitAtFirst? part s generalizing before after before' with
  | case1 =>
    obtain ⟨_, _, heq⟩ := Option.map_eq_some_iff.mp h
    rw [← (Prod.mk.inj heq).1]
    exact List.nil_prefix
  | case2 c s rest hrest =>
    rw [← (Prod.mk.inj (Option.some.inj h)).1]
    exact List.nil_prefix
  | case3 c s hnone ih =>
    obtain ⟨⟨first, rest⟩, hrest, heq⟩ := Option.map_eq_some_iff.mp h
    rw [← (Prod.mk.inj heq).1]
    cases before' with
    | nil =>
      rw [List.nil_append] at hs
      rw [hs, dropText?_append] at hnone
      exact absurd hnone (Option.some_ne_none _)
    | cons d before' =>
      obtain ⟨hd, htail⟩ := List.cons.inj hs
      exact List.cons_prefix_cons.mpr ⟨hd, ih hrest htail⟩

theorem not_isInfix_of_splitAtFirst? {part s : List Char} (h : splitAtFirst? part s = none) :
    ¬part <:+: s := by
  fun_induction splitAtFirst? part s with
  | case1 =>
    rw [Option.map_eq_none_iff] at h
    intro hinfix
    rw [List.infix_nil.mp hinfix] at h
    exact absurd h (Option.some_ne_none _)
  | case2 => exact absurd h (Option.some_ne_none _)
  | case3 c s hnone ih =>
    rw [Option.map_eq_none_iff] at h
    intro hinfix
    rcases List.infix_cons_iff.mp hinfix with ⟨rest, hbegin⟩ | hinfix
    · rw [← hbegin, dropText?_append] at hnone
      exact absurd hnone (Option.some_ne_none _)
    · exact ih h hinfix

/-- What stands at the seam of two texts is one line. -/
theorem exists_splitAtEach_append (sep : Char) (u : List Char) :
    ∃ before last, splitAtEach sep u = before ++ [last] ∧
      ∀ v first after, splitAtEach sep v = first :: after →
        splitAtEach sep (u ++ v) = before ++ (last ++ first) :: after := by
  fun_induction splitAtEach sep u with
  | case1 => exact ⟨[], [], rfl, fun v first after h => h⟩
  | case2 u ih =>
    obtain ⟨before, last, hu, hv⟩ := ih
    refine ⟨[] :: before, last, by rw [hu]; rfl, fun v first after h => ?_⟩
    rw [List.cons_append, splitAtEach_cons_self, hv v first after h]
    rfl
  | case3 c u hc heq ih => exact absurd heq (splitAtEach_ne_nil sep u)
  | case4 c u hc piece pieces heq ih =>
    obtain ⟨before, last, hu, hv⟩ := ih
    rw [heq] at hu
    cases before with
    | nil =>
      obtain ⟨rfl, rfl⟩ := List.cons.inj hu
      refine ⟨[], c :: piece, rfl, fun v first after h => ?_⟩
      rw [List.cons_append, splitAtEach, if_neg hc, hv v first after h]
      rfl
    | cons line before =>
      obtain ⟨rfl, rfl⟩ := List.cons.inj hu
      refine ⟨(c :: piece) :: before, last, rfl, fun v first after h => ?_⟩
      rw [List.cons_append, splitAtEach, if_neg hc, hv v first after h]
      rfl

theorem splitAtEach_append_of_notMem {sep : Char} {part v first : List Char}
    {after : List (List Char)} (hpart : sep ∉ part) (hv : splitAtEach sep v = first :: after) :
    splitAtEach sep (part ++ v) = (part ++ first) :: after := by
  obtain ⟨before, last, heq, happend⟩ := exists_splitAtEach_append sep part
  rw [splitAtEach_of_notMem hpart, ← List.nil_append [part]] at heq
  obtain ⟨rfl, hlast⟩ := List.append_inj' heq rfl
  rw [happend v first after hv, ← (List.cons.inj hlast).1, List.nil_append]

/-- A part without a line feed is left out of one line. -/
theorem splitAtEach_of_isWithoutFirst {sep : Char} {part s t : List Char} (hpart : sep ∉ part)
    (h : IsWithoutFirst part s t) :
    splitAtEach sep t = splitAtEach sep s ∨ ∃ before a b after,
      splitAtEach sep s = before ++ (a ++ part ++ b) :: after ∧
        splitAtEach sep t = before ++ (a ++ b) :: after := by
  obtain ⟨-, rfl⟩ | ⟨u, v, rfl, rfl, -⟩ := h
  · exact .inl rfl
  · obtain ⟨before, a, -, happend⟩ := exists_splitAtEach_append sep u
    obtain ⟨b, after, hv⟩ := List.exists_cons_of_ne_nil (splitAtEach_ne_nil sep v)
    refine .inr ⟨before, a, b, after, ?_, happend v b after hv⟩
    rw [List.append_assoc, happend _ _ _ (splitAtEach_append_of_notMem hpart hv),
      List.append_assoc]

end Text

namespace MissingLink

/-! ### Links -/

/-- A link without a target: a title in brackets, and blanks between the parentheses behind it. -/
@[ext]
structure Link where
  title : List Char
  blanks : List Char
  title_ne_nil : title ≠ []
  title_chars : ∀ c ∈ title, c ≠ '[' ∧ c ≠ ']' ∧ c ≠ '\n'
  blanks_chars : ∀ c ∈ blanks, c = ' ' ∨ c = '\t'

namespace Link

variable {l l' : Link} {v v' w x y : List Char}

/-- What is written of a link behind its first bracket. -/
def body (l : Link) : List Char := l.title ++ ']' :: '(' :: (l.blanks ++ [')'])

/-- A link as it is written. -/
def text (l : Link) : List Char := '[' :: l.body

/-- A link that leads to the page that its title names. -/
def filled (l : Link) : List Char :=
  '[' :: (l.title ++ ']' :: '(' :: '/' :: (Slugger.lowercase.slug l.title ++ [')']))

theorem isTitleChar_of_mem {c : Char} (hc : c ∈ l.title) : isTitleChar c = true := by
  simp [isTitleChar, l.title_chars c hc]

theorem isSpaceOrTab_of_mem {c : Char} (hc : c ∈ l.blanks) : isSpaceOrTab c = true := by
  simpa [isSpaceOrTab] using l.blanks_chars c hc

theorem takeWhile_title (l : Link) (x : List Char) :
    (l.title ++ ']' :: x).takeWhile isTitleChar = l.title := by
  rw [List.takeWhile_append_of_pos fun _ => isTitleChar_of_mem,
    List.takeWhile_cons_of_neg (by decide), List.append_nil]

theorem dropWhile_title (l : Link) (x : List Char) :
    (l.title ++ ']' :: x).dropWhile isTitleChar = ']' :: x := by
  rw [List.dropWhile_append_of_pos fun _ => isTitleChar_of_mem,
    List.dropWhile_cons_of_neg (by decide)]

theorem dropWhile_blanks (l : Link) (x : List Char) :
    (l.blanks ++ ')' :: x).dropWhile isSpaceOrTab = ')' :: x := by
  rw [List.dropWhile_append_of_pos fun _ => isSpaceOrTab_of_mem,
    List.dropWhile_cons_of_neg (by decide)]

theorem body_append (l : Link) (v : List Char) :
    l.body ++ v = l.title ++ ']' :: '(' :: (l.blanks ++ ')' :: v) := by
  simp [body]

end Link

/-- The links that are read are the links without a target. -/
theorem read?_eq_some_iff {s title rest : List Char} :
    read? s = some (title, rest) ↔ ∃ l : Link, l.title = title ∧ s = l.body ++ rest := by
  constructor
  · intro h
    unfold read? at h
    dsimp only at h
    split at h
    · next c title' after htitle hafter =>
      split at h
      · next rest' hrest =>
        obtain ⟨rfl, rfl⟩ := Prod.mk.inj (Option.some.inj h)
        have hs : s = (c :: title') ++ ']' :: '(' :: after := by
          rw [← htitle, ← hafter, List.takeWhile_append_dropWhile]
        have hblanks : after = after.takeWhile isSpaceOrTab ++ ')' :: rest' := by
          rw [← hrest, List.takeWhile_append_dropWhile]
        refine ⟨⟨c :: title', after.takeWhile isSpaceOrTab, List.cons_ne_nil _ _,
          fun d hd => ?_, fun d hd => ?_⟩, rfl, ?_⟩
        · rw [← htitle] at hd
          simpa [isTitleChar, and_assoc] using List.mem_takeWhile_imp hd
        · simpa [isSpaceOrTab] using List.mem_takeWhile_imp hd
        · rw [Link.body_append, ← hblanks]
          exact hs
      · exact nomatch h
    · exact nomatch h
  · rintro ⟨l, rfl, rfl⟩
    obtain ⟨c, title, htitle⟩ := List.exists_cons_of_ne_nil l.title_ne_nil
    unfold read?
    rw [Link.body_append, l.takeWhile_title, l.dropWhile_title, htitle]
    simp only [l.dropWhile_blanks]

/-! ### Edges -/

/-- The characters that stand in no link behind its start. -/
def IsEdge (c : Char) : Prop := c = '[' ∨ c = '\n'

instance (c : Char) : Decidable (IsEdge c) := inferInstanceAs (Decidable (_ ∨ _))

/-- Slugs have no brackets and no line feeds. -/
theorem not_isEdge_of_mem_slug {title : List Char} {c : Char}
    (hc : c ∈ Slugger.lowercase.slug title) : ¬IsEdge c := by
  have hnormal := Slugger.isNormal_slug (s := .lowercase) (r := '-') ⟨rfl, rfl, by decide⟩ title
  rintro (rfl | rfl)
  · exact absurd (hnormal.isPart _ hc (by decide)) (by decide)
  · exact absurd (hnormal.isPart _ hc (by decide)) (by decide)

namespace Link

variable {l l' : Link} {v v' w x y : List Char}

theorem isEdge_head?_text (l : Link) (v : List Char) : ∀ c ∈ (l.text ++ v).head?, IsEdge c :=
  fun _ hc => .inl (Option.some.inj hc).symm

theorem isEdge_head?_filled (l : Link) (v : List Char) : ∀ c ∈ (l.filled ++ v).head?, IsEdge c :=
  fun _ hc => .inl (Option.some.inj hc).symm

theorem not_isEdge_of_mem_title {c : Char} (hc : c ∈ l.title) : ¬IsEdge c := fun h =>
  h.elim (l.title_chars c hc).1 (l.title_chars c hc).2.2

theorem not_isEdge_of_mem_body {c : Char} (hc : c ∈ l.body) : ¬IsEdge c := by
  simp only [body, List.mem_append, List.mem_cons, List.not_mem_nil, or_false] at hc
  rcases hc with hc | rfl | rfl | hc | rfl
  · exact not_isEdge_of_mem_title hc
  · decide
  · decide
  · rcases l.blanks_chars c hc with rfl | rfl <;> decide
  · decide

/-- A link ends in front of an edge behind its start. -/
theorem exists_of_body_append_eq (hx : ∀ c ∈ x.head?, IsEdge c) (h : l.body ++ v = w ++ x) :
    ∃ y, w = l.body ++ y ∧ v = y ++ x := by
  obtain ⟨y, hw, hv⟩ | ⟨y, hbody, hx'⟩ := List.append_eq_append_iff.mp h
  · exact ⟨y, hw, hv⟩
  · cases y with
    | nil => exact ⟨[], by simpa using hbody.symm, by simpa using hx'.symm⟩
    | cons c y =>
      have hedge : IsEdge c := hx c (by rw [hx']; rfl)
      exact absurd hedge (not_isEdge_of_mem_body (l := l) (by rw [hbody]; simp))

/-- What a link is and where it ends is seen from its start. -/
theorem eq_of_body_append_eq (h : l.body ++ v = l'.body ++ v') : l = l' ∧ v = v' := by
  have hread : read? (l.body ++ v) = some (l.title, v) := read?_eq_some_iff.mpr ⟨l, rfl, rfl⟩
  rw [h, read?_eq_some_iff.mpr ⟨l', rfl, rfl⟩] at hread
  obtain ⟨htitle, rfl⟩ := Prod.mk.inj (Option.some.inj hread)
  rw [List.append_cancel_right_eq, body, body, htitle] at h
  simp only [List.append_cancel_left_eq, List.cons.injEq, true_and,
    List.append_cancel_right_eq] at h
  exact ⟨Link.ext htitle.symm h, rfl⟩

/-- Of two links in a text one ends in front of the other, or they are the same. -/
theorem eq_or_exists_of_text_append_eq (h : l.text ++ v = w ++ (l'.text ++ v')) :
    w = [] ∧ l = l' ∧ v = v' ∨ ∃ y, w = l.text ++ y ∧ v = y ++ (l'.text ++ v') := by
  cases w with
  | nil =>
    obtain ⟨rfl, rfl⟩ := eq_of_body_append_eq (List.cons.inj h).2
    exact .inl ⟨rfl, rfl, rfl⟩
  | cons c w =>
    obtain ⟨hc, htail⟩ := List.cons.inj h
    obtain ⟨y, rfl, hv⟩ := exists_of_body_append_eq (isEdge_head?_text l' v') htail
    exact .inr ⟨y, by rw [← hc]; rfl, hv⟩

/-- Behind the start of a link with a target no link without one starts. -/
theorem filled_append_ne (l l' : Link) (v w : List Char) : l.filled ++ v ≠ l'.text ++ w := by
  intro h
  have hbody : l.title ++ ']' :: '(' :: '/' :: (Slugger.lowercase.slug l.title ++ ')' :: v) =
      l'.title ++ ']' :: '(' :: (l'.blanks ++ ')' :: w) := by
    rw [← body_append]
    simpa [filled, text] using h
  have htitle := congrArg (List.dropWhile isTitleChar) hbody
  rw [l.dropWhile_title, l'.dropWhile_title] at htitle
  -- The slash behind the parenthesis is no blank and does not close it.
  have hslash := congrArg (List.dropWhile isSpaceOrTab)
    (List.cons.inj (List.cons.inj htitle).2).2
  rw [l'.dropWhile_blanks] at hslash
  exact absurd (List.cons.inj hslash).1 (by decide)

end Link

/-! ### Texts, link by link -/

variable {l : Link} {s t u v : List Char}

theorem fillTargets_text_append (l : Link) (v : List Char) :
    fillTargets (l.text ++ v) = l.filled ++ fillTargets v := by
  have hread : read? (l.body ++ v) = some (l.title, v) := read?_eq_some_iff.mpr ⟨l, rfl, rfl⟩
  rw [Link.text, List.cons_append, fillTargets, if_pos rfl]
  split
  · next title after heq =>
    obtain ⟨rfl, rfl⟩ := Prod.mk.inj (Option.some.inj (heq.symm.trans hread))
    simp [Link.filled]
  · next heq => exact absurd (hread.symm.trans heq) (Option.some_ne_none _)

theorem fillTargets_cons {c : Char} (h : ∀ (l : Link) v, c :: s ≠ l.text ++ v) :
    fillTargets (c :: s) = c :: fillTargets s := by
  rw [fillTargets]
  split
  · next hc =>
    split
    · next title after heq =>
      obtain ⟨l, -, rfl⟩ := read?_eq_some_iff.mp heq
      exact absurd (by rw [hc]; rfl) (h l after)
    · rfl
  · rfl

/-- A text is nothing, or a character at which no link starts with a text behind it, or a link with
a text behind it. -/
@[elab_as_elim]
theorem links_induction {P : List Char → Prop} (nil : P [])
    (kept : ∀ c s, (∀ (l : Link) v, c :: s ≠ l.text ++ v) → P s → P (c :: s))
    (link : ∀ (l : Link) v, P v → P (l.text ++ v)) (s : List Char) : P s := by
  generalize hn : s.length = n
  induction n using Nat.strongRecOn generalizing s with
  | ind n ih =>
    cases s with
    | nil => exact nil
    | cons c s =>
      by_cases hlink : ∃ (l : Link) (v : List Char), c :: s = l.text ++ v
      · obtain ⟨l, v, heq⟩ := hlink
        rw [heq]
        refine link l v (ih v.length ?_ v rfl)
        rw [← hn, heq, Link.text, List.length_append, List.length_cons]
        omega
      · simp only [not_exists] at hlink
        refine kept c s hlink (ih s.length ?_ s rfl)
        rw [← hn, List.length_cons]
        omega

/-- Text in front of a bracket or a line feed is filled by itself. -/
theorem fillTargets_append (u : List Char) (hv : ∀ c ∈ v.head?, IsEdge c) :
    fillTargets (u ++ v) = fillTargets u ++ fillTargets v := by
  induction u using links_induction with
  | nil => rw [fillTargets, List.nil_append, List.nil_append]
  | kept c s h ih =>
    have happend : ∀ (l : Link) w, c :: (s ++ v) ≠ l.text ++ w := by
      intro l w heq
      obtain ⟨hc, htail⟩ := List.cons.inj heq
      obtain ⟨y, hs, -⟩ := Link.exists_of_body_append_eq hv htail.symm
      exact h l y (by rw [hc, hs]; rfl)
    rw [List.cons_append, fillTargets_cons happend, fillTargets_cons h, ih, List.cons_append]
  | link l w ih =>
    rw [List.append_assoc, fillTargets_text_append, fillTargets_text_append, ih,
      List.append_assoc]

theorem fillTargets_append_of_notMem (h : '[' ∉ s) (v : List Char) :
    fillTargets (s ++ v) = s ++ fillTargets v := by
  induction s with
  | nil => rfl
  | cons c s ih =>
    rw [List.mem_cons, not_or] at h
    have hstart : ∀ (l : Link) w, c :: (s ++ v) ≠ l.text ++ w := fun l w heq =>
      h.1 (List.cons.inj heq).1.symm
    rw [List.cons_append, fillTargets_cons hstart, ih h.2, List.cons_append]

/-- A link with a target stays as it is. -/
theorem fillTargets_filled_append (l : Link) (v : List Char) :
    fillTargets (l.filled ++ v) = l.filled ++ fillTargets v := by
  have hrest : '[' ∉ l.title ++ ']' :: '(' :: '/' :: (Slugger.lowercase.slug l.title ++ [')']) := by
    simp only [List.mem_append, List.mem_cons, List.not_mem_nil, or_false, not_or]
    exact ⟨fun hc => Link.not_isEdge_of_mem_title hc (.inl rfl), by decide, by decide, by decide,
      fun hc => not_isEdge_of_mem_slug hc (.inl rfl), by decide⟩
  have hstart := fun l' w => Link.filled_append_ne l l' v w
  rw [Link.filled, List.cons_append] at hstart ⊢
  rw [fillTargets_cons hstart, fillTargets_append_of_notMem hrest, List.cons_append]

/-! ### Pieces -/

/-- A piece of a text: text that is kept, or a link without a target. -/
inductive Piece where
  | kept (text : List Char)
  | link (l : Link)

/-- A piece as it is written. -/
def Piece.text : Piece → List Char
  | kept text => text
  | link l => l.text

/-- A piece with its target. -/
def Piece.filled : Piece → List Char
  | kept text => text
  | link l => l.filled

/-- The links in a text are pieces of it, and each of them is filled in. -/
theorem exists_pieces (s : List Char) :
    ∃ pieces : List Piece, pieces.flatMap Piece.text = s ∧
      pieces.flatMap Piece.filled = fillTargets s ∧
      ∀ u l v, s = u ++ (Link.text l ++ v) → ∃ before after,
        pieces = before ++ .link l :: after ∧ before.flatMap Piece.text = u ∧
          after.flatMap Piece.text = v := by
  induction s using links_induction with
  | nil =>
    refine ⟨[], rfl, by rw [fillTargets]; rfl, fun u l v h => ?_⟩
    simp [Link.text] at h
  | kept c s h ih =>
    obtain ⟨pieces, htext, hfilled, hlinks⟩ := ih
    refine ⟨.kept [c] :: pieces, ?_, ?_, fun u l v heq => ?_⟩
    · rw [List.flatMap_cons, htext]
      rfl
    · rw [List.flatMap_cons, hfilled, fillTargets_cons h]
      rfl
    · cases u with
      | nil => exact absurd heq (h l v)
      | cons d u =>
        obtain ⟨hd, htail⟩ := List.cons.inj heq
        obtain ⟨before, after, rfl, rfl, rfl⟩ := hlinks u l v htail
        exact ⟨.kept [c] :: before, after, rfl, by rw [List.flatMap_cons, hd]; rfl, rfl⟩
  | link l₀ w ih =>
    obtain ⟨pieces, htext, hfilled, hlinks⟩ := ih
    refine ⟨.link l₀ :: pieces, ?_, ?_, fun u l v heq => ?_⟩
    · rw [List.flatMap_cons, htext]
      rfl
    · rw [List.flatMap_cons, hfilled, fillTargets_text_append]
      rfl
    · obtain ⟨rfl, rfl, rfl⟩ | ⟨y, rfl, hw⟩ := Link.eq_or_exists_of_text_append_eq heq
      · exact ⟨[], pieces, rfl, rfl, htext⟩
      · obtain ⟨before, after, rfl, rfl, rfl⟩ := hlinks y l v hw
        exact ⟨.link l₀ :: before, after, rfl, by rw [List.flatMap_cons]; rfl, rfl⟩

/-- Two links in a text do not overlap. -/
theorem eq_or_isPrefix {l l' : Link} {u v u' v' : List Char}
    (h : u ++ (l.text ++ v) = u' ++ (l'.text ++ v')) :
    u = u' ∧ l = l' ∨ u ++ l.text <+: u' ∨ u' ++ l'.text <+: u := by
  obtain ⟨w, rfl, hw⟩ | ⟨w, rfl, hw⟩ := List.append_eq_append_iff.mp h
  · obtain ⟨rfl, rfl, -⟩ | ⟨y, rfl, -⟩ := Link.eq_or_exists_of_text_append_eq hw
    · exact .inl ⟨(List.append_nil u).symm, rfl⟩
    · exact .inr (.inl ⟨y, List.append_assoc ..⟩)
  · obtain ⟨rfl, rfl, -⟩ | ⟨y, rfl, -⟩ := Link.eq_or_exists_of_text_append_eq hw
    · exact .inl ⟨List.append_nil u', rfl⟩
    · exact .inr (.inr ⟨y, List.append_assoc ..⟩)

/-! ### One link after the other -/

/-- One link filled in, wherever it stands. -/
inductive Step : List Char → List Char → Prop
  | fill (u : List Char) (l : Link) (v : List Char) :
    Step (u ++ (l.text ++ v)) (u ++ (l.filled ++ v))

theorem Step.append_left (h : Step s t) (u : List Char) : Step (u ++ s) (u ++ t) := by
  obtain ⟨w, l, v⟩ := h
  rw [← List.append_assoc u, ← List.append_assoc u]
  exact .fill (u ++ w) l v

/-- Which link is filled in first does not matter. -/
theorem fillTargets_of_step (h : Step s t) : fillTargets t = fillTargets s := by
  obtain ⟨u, l, v⟩ := h
  rw [fillTargets_append u (l.isEdge_head?_filled v), fillTargets_append u (l.isEdge_head?_text v),
    fillTargets_filled_append, fillTargets_text_append]

/-- Links can be filled in one by one. -/
theorem reflTransGen_fillTargets (s : List Char) :
    Relation.ReflTransGen Step s (fillTargets s) := by
  induction s using links_induction with
  | nil =>
    rw [fillTargets]
  | kept c s h ih =>
    rw [fillTargets_cons h]
    exact ih.lift ([c] ++ ·) fun _ _ hstep => hstep.append_left [c]
  | link l v ih =>
    rw [fillTargets_text_append]
    refine .head (.fill [] l v) ?_
    exact ih.lift (l.filled ++ ·) fun _ _ hstep => hstep.append_left l.filled

/-- However links are filled in, the same text is reached. -/
theorem fillTargets_of_reflTransGen (h : Relation.ReflTransGen Step s t) :
    fillTargets t = fillTargets s := by
  induction h with
  | refl => rfl
  | tail _ hstep ih => exact (fillTargets_of_step hstep).trans ih

/-! ### Nothing is left to be filled in -/

theorem count_slash_text_lt (l : Link) : l.text.count '/' < l.filled.count '/' := by
  have hblanks : l.blanks.count '/' = 0 := by
    rw [List.count_eq_zero]
    intro hc
    exact absurd (l.blanks_chars _ hc) (by decide)
  simp [Link.text, Link.body, Link.filled, hblanks]

/-- Every link that is filled in brings a slash with it. -/
theorem count_slash_le (s : List Char) : s.count '/' ≤ (fillTargets s).count '/' := by
  induction s using links_induction with
  | nil => simp
  | kept c s h ih =>
    rw [fillTargets_cons h, List.count_cons, List.count_cons]
    omega
  | link l v ih =>
    have := count_slash_text_lt l
    rw [fillTargets_text_append, List.count_append, List.count_append]
    omega

/-- No link without a target is left. -/
theorem fillTargets_ne_append (s u : List Char) (l : Link) (v : List Char) :
    fillTargets s ≠ u ++ (l.text ++ v) := by
  intro h
  -- The text would stay the same when the link is filled in, but this adds a slash.
  have hself : fillTargets (fillTargets s) = fillTargets s :=
    fillTargets_of_reflTransGen (reflTransGen_fillTargets s)
  rw [h, fillTargets_append u (l.isEdge_head?_text v), fillTargets_text_append] at hself
  have hcount := congrArg (List.count '/') hself
  have hlink := count_slash_text_lt l
  have hu := count_slash_le u
  have hv := count_slash_le v
  simp only [List.count_append] at hcount
  omega

/-! ### Lines -/

theorem lineFeed_notMem_filled (l : Link) : '\n' ∉ l.filled := by
  simp only [Link.filled, List.mem_cons, List.mem_append, List.not_mem_nil, or_false, not_or]
  exact ⟨by decide, fun hc => Link.not_isEdge_of_mem_title hc (.inr rfl), by decide, by decide,
    by decide, fun hc => not_isEdge_of_mem_slug hc (.inr rfl), by decide⟩

theorem lineFeed_notMem_fillTargets (h : '\n' ∉ s) : '\n' ∉ fillTargets s := by
  induction s using links_induction with
  | nil =>
    rw [fillTargets]
    exact h
  | kept c s hstart ih =>
    rw [List.mem_cons, not_or] at h
    rw [fillTargets_cons hstart, List.mem_cons, not_or]
    exact ⟨h.1, ih h.2⟩
  | link l v ih =>
    rw [List.mem_append, not_or] at h
    rw [fillTargets_text_append, List.mem_append, not_or]
    exact ⟨lineFeed_notMem_filled l, ih h.2⟩

/-- Lines are filled by themselves. -/
theorem splitAtEach_fillTargets (s : List Char) :
    splitAtEach '\n' (fillTargets s) = (splitAtEach '\n' s).map fillTargets := by
  generalize hn : s.length = n
  induction n using Nat.strongRecOn generalizing s with
  | ind n ih =>
    by_cases hfeed : '\n' ∈ s
    · obtain ⟨line, rest, rfl, hline⟩ := List.eq_append_cons_of_mem hfeed
      have hstart : ∀ (l : Link) v, '\n' :: rest ≠ l.text ++ v := fun l v heq =>
        absurd (List.cons.inj heq).1 (by decide)
      rw [fillTargets_append line (by simp [IsEdge]), fillTargets_cons hstart,
        splitAtEach_append_cons _ (lineFeed_notMem_fillTargets hline),
        splitAtEach_append_cons _ hline, List.map_cons, ih rest.length ?_ rest rfl]
      rw [← hn, List.length_append, List.length_cons]
      omega
    · rw [splitAtEach_of_notMem hfeed, splitAtEach_of_notMem (lineFeed_notMem_fillTargets hfeed)]
      rfl

/-! ### Documents -/

theorem isWithoutFirst_dropFirstEmpty (s : List Char) :
    IsWithoutFirst "[]()".toList s (dropFirstEmpty s) := by
  unfold dropFirstEmpty
  split
  · next before after hsplit =>
    exact .inr ⟨before, after, splitAtFirst?_eq_some hsplit, rfl, fun _ _ hs =>
      isPrefix_of_splitAtFirst? hsplit hs⟩
  · next hsplit => exact .inl ⟨not_isInfix_of_splitAtFirst? hsplit, rfl⟩

/-- **The targets of links are filled in, and nothing else is changed.**  Let the first `[]()` of a
document be left out.  What is left is made of pieces, among them all its links without a target;
the result is made of the same pieces, each link now with the slug of its title as its target.  The
links do not overlap, so they can be filled in one by one, in any order.  No link without a target
is in the result.  The lines of the result are those of the document, each filled by itself, but for
the one that the first `[]()` is left out of. -/
theorem exists_pieces_fill (content : List Char) :
    ∃ c, IsWithoutFirst "[]()".toList content c ∧
      (∃ pieces : List Piece, pieces.flatMap Piece.text = c ∧
        pieces.flatMap Piece.filled = fill content ∧
        ∀ u (l : Link) v, c = u ++ (l.text ++ v) → ∃ before after,
          pieces = before ++ .link l :: after ∧ before.flatMap Piece.text = u ∧
            after.flatMap Piece.text = v) ∧
      (∀ u (l : Link) v u' (l' : Link) v', c = u ++ (l.text ++ v) → c = u' ++ (l'.text ++ v') →
        u = u' ∧ l = l' ∨ u ++ l.text <+: u' ∨ u' ++ l'.text <+: u) ∧
      (∀ s, Relation.ReflTransGen Step c s → Relation.ReflTransGen Step s (fill content)) ∧
      (∀ u (l : Link) v, fill content ≠ u ++ (l.text ++ v)) ∧
      (fill content).count '\n' = content.count '\n' ∧
      (splitAtEach '\n' (fill content) = (splitAtEach '\n' content).map fillTargets ∨
        ∃ before a b after,
          splitAtEach '\n' content = before ++ (a ++ "[]()".toList ++ b) :: after ∧
          splitAtEach '\n' (fill content) =
            before.map fillTargets ++ fillTargets (a ++ b) :: after.map fillTargets) := by
  have hfirst := isWithoutFirst_dropFirstEmpty content
  have hlines : splitAtEach '\n' (fill content) =
      (splitAtEach '\n' (dropFirstEmpty content)).map fillTargets := splitAtEach_fillTargets _
  have hpart : '\n' ∉ "[]()".toList := by decide
  have hdropped := splitAtEach_of_isWithoutFirst hpart hfirst
  refine ⟨dropFirstEmpty content, hfirst, exists_pieces _, ?_, ?_, ?_, ?_, ?_⟩
  · intro u l v u' l' v' h h'
    exact eq_or_isPrefix (h.symm.trans h')
  · intro s hs
    rw [fill, ← fillTargets_of_reflTransGen hs]
    exact reflTransGen_fillTargets s
  · exact fillTargets_ne_append _
  · have hlength :
        (splitAtEach '\n' (fill content)).length = (splitAtEach '\n' content).length := by
      rw [hlines, List.length_map]
      obtain heq | ⟨before, a, b, after, heq, hdrop⟩ := hdropped
      · rw [heq]
      · rw [heq, hdrop, List.length_append, List.length_append]
        rfl
    rw [length_splitAtEach, length_splitAtEach] at hlength
    exact Nat.succ.inj hlength
  · obtain heq | ⟨before, a, b, after, heq, hdrop⟩ := hdropped
    · exact .inl (by rw [hlines, heq])
    · exact .inr ⟨before, a, b, after, heq, by rw [hlines, hdrop, List.map_append, List.map_cons]⟩

/-- What is left without the first `[]()` may be a link, and an open bracket is no part of one. -/
example : fill "[x][]()() [y [z]( \t)".toList = "[x](/x) [y [z](/z)".toList := by
  decide +kernel

end MissingLink

end WikiPress
