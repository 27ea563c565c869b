import WikiPress.Markdown.Inline
import WikiPress.Proofs.Markdown.Destination
import WikiPress.Proofs.MissingLink
import WikiPress.Proofs.Slug.Parentheses

/-!
# The targets of links, read again

The target that a link gets is read again when the document is parsed: in the parentheses behind the
title it ends at a blank, a control character or a closing parenthesis that it did not open.  A slug
has no blanks and no control characters, but it keeps the parentheses of the title.  So the whole
slug is the destination exactly if the parentheses of the title come in pairs.  If they do not, the
link leads to another page, or is none at all.

## Main definitions

* `MissingLink.Link.target` : the target that a link gets.

## Main results

* `MissingLink.Link.isInner_of_mem_target` : the characters of targets.
* `MissingLink.Link.closes_target_iff` : when the parentheses of a target come in pairs.
* `InlineState.exists_read?_of_readTarget?` : what the parser reads between the parentheses.
* `MissingLink.readTarget?_target_iff` : when a link is read back with its target.
-/

namespace WikiPress

open Text Markdown

namespace MissingLink

/-! ### Targets -/

namespace Link

variable {l : Link} {c : Char}

/-- The target that a link gets. -/
def target (l : Link) : List Char := '/' :: Slugger.lowercase.slug l.title

theorem filled_append (l : Link) (v : List Char) :
    l.filled ++ v = '[' :: (l.title ++ ']' :: '(' :: (l.target ++ ')' :: v)) := by
  simp [filled, target]

theorem isInner_of_mem_slug (hc : c ∈ Slugger.lowercase.slug l.title) :
    Destination.IsInner c ∧ c ≠ '&' := by
  have hnormal := Slugger.isNormal_slug (s := .lowercase) (r := '-') ⟨rfl, rfl, by decide⟩ l.title
  by_cases hyphen : c = '-'
  · rw [hyphen]
    decide
  · have hpart := hnormal.isPart c hc hyphen
    exact Ascii.forall_of_forall_lt
      (P := fun c => Slug.IsPart false c → Destination.IsInner c ∧ c ≠ '&')
      (by decide +kernel) hpart.toNat_lt hpart

/-- A target has no blanks, no control characters and no backslashes, and no references begin in
it. -/
theorem isInner_of_mem_target (hc : c ∈ l.target) : Destination.IsInner c ∧ c ≠ '&' := by
  rcases List.mem_cons.mp hc with rfl | hc
  · decide
  · exact isInner_of_mem_slug hc

theorem clean_of_subset_target {s : List Char} (h : s ⊆ l.target) : Destination.clean s = s :=
  Destination.clean_eq_self (fun _ hc => (isInner_of_mem_target (h hc)).1)
    fun hc => (isInner_of_mem_target (h hc)).2 rfl

/-- The parentheses of a target come in pairs exactly if those of the title do. -/
theorem closes_target_iff : Closes 0 l.target ↔ Closes 0 l.title := by
  rw [target, closes_cons_iff (by decide), Slugger.closes_slug_iff]

end Link

/-! ### Targets that are read -/

end MissingLink

namespace Markdown.InlineState

variable {s d rest url title w : List Char}

/-- A destination that goes as far as the closing parenthesis. -/
theorem readTarget?_of_read? (h : Destination.read? (s.dropWhile isAsciiBlank) = some (d, ')' :: w)) :
    readTarget? ('(' :: s) = some (Destination.clean d, [], w) := by
  have hclose : (')' :: w).dropWhile isAsciiBlank = ')' :: w :=
    List.dropWhile_cons_of_neg (by decide)
  simp only [readTarget?, h, hclose, Option.bind_eq_bind, Option.bind_some, if_true]
  rfl

/-- In front of what follows a link stands its closing parenthesis, behind the destination. -/
theorem exists_read?_of_readTarget? (h : readTarget? ('(' :: s) = some (url, title, w)) :
    ∃ d rest, Destination.read? (s.dropWhile isAsciiBlank) = some (d, rest) ∧
      url = Destination.clean d ∧ w.length < rest.length := by
  simp only [readTarget?, Option.bind_eq_bind, Option.bind_eq_some_iff, Prod.exists] at h
  obtain ⟨d, rest, hd, h⟩ := h
  refine ⟨d, rest, hd, ?_⟩
  -- What follows the title, if there is one, is an end of what follows the destination.
  have hafter : (if (rest.dropWhile isAsciiBlank).length = rest.length then ([], rest)
      else (Title.read? (rest.dropWhile isAsciiBlank)).getD ([], rest.dropWhile isAsciiBlank)).2 <:+
        rest := by
    split
    · exact List.suffix_rfl
    · cases htitle : Title.read? (rest.dropWhile isAsciiBlank) with
      | none => exact List.dropWhile_suffix _
      | some part => exact (Title.isSuffix_of_read? htitle).trans (List.dropWhile_suffix _)
  split at h
  · next after hclose =>
    simp only [Option.some.injEq, Prod.mk.injEq] at h
    obtain ⟨rfl, -, rfl⟩ := h
    have hrest := (List.dropWhile_suffix isAsciiBlank).trans hafter
    rw [hclose] at hrest
    exact ⟨rfl, hrest.length_le⟩
  · exact nomatch h

end Markdown.InlineState

namespace MissingLink

variable {l : Link}

/-- The parser reads a target exactly if it reads the destination as far as the closing parenthesis
of the link. -/
theorem Link.readTarget?_eq_some_iff (l : Link) (w : List Char) :
    InlineState.readTarget? ('(' :: (l.target ++ ')' :: w)) = some (l.target, [], w) ↔
      Destination.readBare? 0 [] (l.target ++ ')' :: w) = some (l.target, ')' :: w) := by
  have hstart : (l.target ++ ')' :: w).dropWhile isAsciiBlank = l.target ++ ')' :: w :=
    List.dropWhile_cons_of_neg (by decide)
  have hread : Destination.read? ((l.target ++ ')' :: w).dropWhile isAsciiBlank) =
      Destination.readBare? 0 [] (l.target ++ ')' :: w) := by
    rw [hstart]
    rfl
  constructor
  · intro h
    obtain ⟨d, rest, hd, hclean, hlength⟩ := InlineState.exists_read?_of_readTarget? h
    rw [hread] at hd
    obtain ⟨u, hu, happend⟩ := Destination.exists_eq_append_of_readBare? hd
    obtain rfl : d = u := hu
    -- The destination does not go on behind the target, so the address is the destination.
    have hprefix : d <+: l.target := by
      refine List.prefix_of_prefix_length_le ⟨rest, happend.symm⟩ ⟨')' :: w, rfl⟩ ?_
      have hlengths := congrArg List.length happend
      rw [List.length_append, List.length_append, List.length_cons] at hlengths
      omega
    rw [clean_of_subset_target hprefix.subset] at hclean
    rw [hclean, List.append_cancel_left_eq] at happend
    rw [hd, ← hclean, happend]
  · intro h
    rw [← hread] at h
    rw [InlineState.readTarget?_of_read? h, clean_of_subset_target (List.Subset.refl _)]

theorem dropFirstEmpty_text (l : Link) : dropFirstEmpty l.text = l.text := by
  obtain ⟨-, heq⟩ | ⟨before, after, htext, -, -⟩ := isWithoutFirst_dropFirstEmpty l.text
  · exact heq
  · cases before with
    | nil =>
      -- The title is not empty, and it does not begin with a bracket.
      obtain ⟨c, title, htitle⟩ := List.exists_cons_of_ne_nil l.title_ne_nil
      have hc := l.title_chars c (by rw [htitle]; exact List.mem_cons_self ..)
      rw [Link.text, Link.body, htitle] at htext
      exact absurd (List.cons.inj (List.cons.inj htext).2).1 hc.2.1
    | cons c before =>
      have hbracket : '[' ∈ l.body := by
        rw [(List.cons.inj htext).2]
        simp
      exact absurd (.inl rfl) (Link.not_isEdge_of_mem_body hbracket)

/-- **A link leads to its slug exactly if the parentheses of its title come in pairs.**  A link that
is filled in has the slug of its title, behind a slash, between its parentheses, whatever stands
around it.  By the grammar of the markup, the destination that is read there is the whole target
exactly if the parentheses of the title come in pairs: no beginning of the title closes more of them
than it opens, and the whole title closes as many as it opens.  The parser reads a link to the
target, with no title and with nothing left of it, exactly if moreover the target has never more
parentheses open than the parser counts. -/
theorem readTarget?_target_iff (l : Link) :
    fill l.text = '[' :: (l.title ++ ']' :: '(' :: (l.target ++ [')'])) ∧
    (∀ content u v, dropFirstEmpty content = u ++ (l.text ++ v) → fill content =
      fillTargets u ++ '[' :: (l.title ++ ']' :: '(' :: (l.target ++ ')' :: fillTargets v))) ∧
    ∀ w, (Destination.bare 0 (l.target ++ ')' :: w) = l.target ↔ Closes 0 l.title) ∧
      (InlineState.readTarget? ('(' :: (l.target ++ ')' :: w)) = some (l.target, [], w) ↔
        Closes 0 l.title ∧ OpensAtMost Destination.mostOpen 0 l.target) := by
  have hdocument (content u v : List Char) (h : dropFirstEmpty content = u ++ (l.text ++ v)) :
      fill content =
        fillTargets u ++ '[' :: (l.title ++ ']' :: '(' :: (l.target ++ ')' :: fillTargets v)) := by
    rw [fill, h, fillTargets_append u (l.isEdge_head?_text v), fillTargets_text_append,
      Link.filled_append]
  have hinner : ∀ c ∈ l.target, Destination.IsInner c := fun c hc =>
    (Link.isInner_of_mem_target hc).1
  refine ⟨?_, hdocument, fun w => ⟨?_, ?_⟩⟩
  · have hself : dropFirstEmpty l.text = [] ++ (l.text ++ []) := by
      rw [dropFirstEmpty_text, List.append_nil, List.nil_append]
    simpa [fillTargets] using hdocument l.text [] [] hself
  · rw [Destination.bare_append_eq_iff hinner, Link.closes_target_iff]
  · rw [Link.readTarget?_eq_some_iff, ← Link.closes_target_iff]
    exact Destination.readBare?_append_eq_iff hinner (Nat.zero_le _) [] w

/-- A closing parenthesis in a title ends the destination, and the rest of the target is shown
behind the link.  With an opening parenthesis in its title, a link is none. -/
theorem exists_link_not_read :
    (∃ l : Link, l.text = "[a)]()".toList ∧ l.target = "/a)".toList ∧
      fill l.text = "[a)](/a))".toList ∧ Destination.bare 0 "/a))".toList = "/a".toList ∧
      InlineState.readTarget? "(/a))".toList = some ("/a".toList, [], ")".toList)) ∧
    ∃ l : Link, l.text = "[(b]()".toList ∧ l.target = "/(b".toList ∧
      fill l.text = "[(b](/(b)".toList ∧ Destination.bare 0 "/(b)".toList = "/(b)".toList ∧
      InlineState.readTarget? "(/(b)".toList = none := by
  constructor
  · refine ⟨⟨['a', ')'], [], by simp, by simp, by simp⟩, rfl, ?_, ?_, by decide, ?_⟩ <;>
      decide +kernel
  · refine ⟨⟨['(', 'b'], [], by simp, by simp, by simp⟩, rfl, ?_, ?_, by decide, ?_⟩ <;>
      decide +kernel

end MissingLink

end WikiPress
