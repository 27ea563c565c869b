import Mathlib.Data.List.Basic
import WikiPress.Proofs.Text.Blank
import WikiPress.TokenStream.Heading

/-!
# Headings written with number signs

The line of a heading is written with spaces and number signs in front, a gap, the content, and
perhaps a closing sequence.  Reading the line gives the content back, whatever number signs are in
it, if there is a closing sequence.  Without one, the content must not look as if it had one itself.

## Main definitions

* `atxOpening`, `IsGap`, `IsClosing` : what stands around the content on the line of a heading.
* `dropClosing` : a trimmed text without a closing sequence.
* `HasClosing` : a text that ends like a closing sequence.

## Main results

* `dropClosing_append` : a closing sequence is dropped.
* `dropClosing_eq_self_iff` : when a text without a closing sequence stays as it is.
* `atxContent_line` : the line of a heading gives its content back.
-/

namespace WikiPress.TokenStream

open Text

/-- What stands in front of the gap on the line of a heading. -/
def atxOpening (indent level : Nat) : List Char :=
  List.replicate indent ' ' ++ List.replicate level '#'

/-- Spaces and tabs, at least one of them. -/
structure IsGap (s : List Char) : Prop where
  ne_nil : s ≠ []
  blank : ∀ c ∈ s, isSpaceOrTab c = true

/-- A closing sequence: a gap and number signs, and perhaps spaces behind them. -/
inductive IsClosing : List Char → Prop where
  | intro {gap : List Char} (signs spaces : Nat) (h : IsGap gap) :
    IsClosing (gap ++ List.replicate (signs + 1) '#' ++ List.replicate spaces ' ')

/-- A text ends with number signs behind a space or a tab. -/
def HasClosing (s : List Char) : Prop :=
  ∃ before c signs, isSpaceOrTab c = true ∧ s = before ++ c :: List.replicate (signs + 1) '#'

/-- A trimmed text without the closing sequence at its end. -/
def dropClosing (s : List Char) : List Char :=
  let opened := dropEndWhile (· = '#') s
  if opened.isEmpty then []
  else if opened.length < s.length ∧ opened.getLast?.any isSpaceOrTab then trimEnd opened
  else s

theorem atxContent_eq_dropClosing (line : List Char) :
    atxContent line = dropClosing (trim ((trimStart line).dropWhile (· = '#'))) := rfl

variable {gap content s : List Char} {level : Nat} {c : Char}

/-! ### Gaps -/

theorem isBlank_of_isSpaceOrTab (h : isSpaceOrTab c = true) : isBlank c = true := by
  simp only [isSpaceOrTab, Bool.or_eq_true, decide_eq_true_eq] at h
  rcases h with rfl | rfl <;> decide

theorem ne_sign_of_isSpaceOrTab (h : isSpaceOrTab c = true) : c ≠ '#' := by
  rintro rfl
  exact absurd h (by decide)

theorem IsGap.isBlank (h : IsGap gap) : ∀ c ∈ gap, isBlank c = true := fun c hc =>
  isBlank_of_isSpaceOrTab (h.blank c hc)

/-- A gap ends with a space or a tab, whatever is in front of it. -/
theorem IsGap.exists_getLast? (h : IsGap gap) (s : List Char) :
    ∃ c, (s ++ gap).getLast? = some c ∧ isSpaceOrTab c = true := by
  obtain ⟨start, c, rfl⟩ := (List.eq_nil_or_concat' gap).resolve_left h.ne_nil
  exact ⟨c, by rw [← List.append_assoc, List.getLast?_concat], h.blank c (by simp)⟩

/-! ### Closing sequences -/

/-- The number signs at the end of a text end where another character is. -/
theorem dropEndWhile_append_signs (n : Nat) (hlast : ∀ c ∈ s.getLast?, c ≠ '#') :
    dropEndWhile (· = '#') (s ++ List.replicate n '#') = s := by
  rw [dropEndWhile_append_of_pos s fun c hc => by simpa using List.eq_of_mem_replicate hc]
  exact dropEndWhile_eq_self_of_getLast? fun c hc => by simpa using hlast c hc

/-- A text ends like a closing sequence if there are number signs at its end, and what is in front
of them ends with a space or a tab. -/
theorem hasClosing_iff : HasClosing s ↔
    (dropEndWhile (· = '#') s).length < s.length ∧
      (dropEndWhile (· = '#') s).getLast?.any isSpaceOrTab = true := by
  constructor
  · rintro ⟨before, c, signs, hc, rfl⟩
    have hopened : dropEndWhile (· = '#') (before ++ c :: List.replicate (signs + 1) '#') =
        before ++ [c] := by
      rw [List.append_cons]
      refine dropEndWhile_append_signs _ fun d hd => ?_
      rw [List.getLast?_concat, Option.mem_some] at hd
      exact hd ▸ ne_sign_of_isSpaceOrTab hc
    rw [hopened, List.getLast?_concat]
    exact ⟨by simp, hc⟩
  · rintro ⟨hlt, hlast⟩
    obtain ⟨signs, heq, hsigns⟩ := exists_eq_dropEndWhile_append (· = '#') s
    obtain ⟨c, hc, hblank⟩ := (Option.any_eq_true _ _).mp hlast
    obtain ⟨before, hbefore⟩ := List.getLast?_eq_some_iff.mp hc
    have hreplicate : signs = List.replicate signs.length '#' :=
      List.eq_replicate_of_mem fun c hc => by simpa using hsigns c hc
    have hne : signs.length ≠ 0 := fun hzero => by
      rw [List.eq_nil_of_length_eq_zero hzero, List.append_nil] at heq
      exact absurd (congrArg List.length heq) (by omega)
    obtain ⟨n, hn⟩ := Nat.exists_eq_succ_of_ne_zero hne
    refine ⟨before, c, n, hblank, ?_⟩
    rw [← Nat.succ_eq_add_one, ← hn, ← hreplicate, List.append_cons, ← hbefore, ← heq]

/-- A text of number signs alone is nothing but a closing sequence. -/
theorem dropClosing_of_signs (h : ∀ c ∈ s, c = '#') : dropClosing s = [] := by
  have hempty := dropEndWhile_append_of_pos (p := (· = '#')) (t := s) [] fun c hc => by
    simpa using h c hc
  rw [List.nil_append] at hempty
  rw [dropClosing, hempty]
  rfl

/-- A closing sequence is dropped. -/
theorem dropClosing_append (signs : Nat) (hgap : IsGap gap) (hne : content ≠ [])
    (hlast : ∀ c ∈ content.getLast?, isBlank c = false) :
    dropClosing (content ++ gap ++ List.replicate (signs + 1) '#') = content := by
  obtain ⟨c, hc, hblank⟩ := hgap.exists_getLast? content
  have hopened : dropEndWhile (· = '#') (content ++ gap ++ List.replicate (signs + 1) '#') =
      content ++ gap := dropEndWhile_append_signs _ fun d hd => by
    rw [hc, Option.mem_some] at hd
    exact hd ▸ ne_sign_of_isSpaceOrTab hblank
  have hclosed : (content ++ gap).length <
      (content ++ gap ++ List.replicate (signs + 1) '#').length := by simp
  have htrim : trimEnd (content ++ gap) = content := by
    rw [trimEnd, dropEndWhile_append_of_pos _ hgap.isBlank,
      dropEndWhile_eq_self_of_getLast? hlast]
  simp only [dropClosing, hopened, List.isEmpty_iff, List.append_eq_nil_iff, hne, false_and,
    if_false, hclosed, hc, Option.any_some, hblank, and_self, if_true, htrim]

/-- A text stays as it is if it is not made of number signs alone and does not end like a closing
sequence. -/
theorem dropClosing_eq_self_iff (hne : s ≠ []) :
    dropClosing s = s ↔ (∃ c ∈ s, c ≠ '#') ∧ ¬HasClosing s := by
  by_cases hsome : ∃ c ∈ s, c ≠ '#'
  · obtain ⟨c, hc, hsign⟩ := id hsome
    have hopened : dropEndWhile (· = '#') s ≠ [] := fun hempty => by
      obtain ⟨t, heq, ht⟩ := exists_eq_dropEndWhile_append (· = '#') s
      rw [hempty, List.nil_append] at heq
      exact hsign (by simpa using ht c (heq ▸ hc))
    rw [hasClosing_iff]
    simp only [dropClosing, List.isEmpty_iff, hopened, if_false]
    split
    · next hclosing =>
      refine iff_of_false (fun heq => ?_) fun h => h.2 hclosing
      -- What is trimmed here is shorter than the text already.
      have hlt := hclosing.1
      obtain ⟨t, ht⟩ := prefix_dropEndWhile isBlank (dropEndWhile (· = '#') s)
      rw [ht, ← trimEnd, heq, List.length_append] at hlt
      omega
    · next hclosing => exact iff_of_true rfl ⟨hsome, hclosing⟩
  · have hsigns : ∀ c ∈ s, c = '#' := fun c hc => by_contra fun h => hsome ⟨c, hc, h⟩
    rw [dropClosing_of_signs hsigns]
    exact iff_of_false hne.symm fun h => hsome h.1

/-! ### Lines -/

/-- Reading the line of a heading begins behind its number signs. -/
theorem atxContent_opening (indent : Nat) (hlevel : 0 < level) (s : List Char) :
    atxContent (atxOpening indent level ++ s) = dropClosing (trim (s.dropWhile (· = '#'))) := by
  have hindent : ∀ c ∈ List.replicate indent ' ', isBlank c = true := fun c hc => by
    rw [List.eq_of_mem_replicate hc]
    decide
  have hsigns : ∀ c ∈ List.replicate level '#', decide (c = '#') = true := fun c hc => by
    simpa using List.eq_of_mem_replicate hc
  have hstart : trimStart (List.replicate level '#' ++ s) = List.replicate level '#' ++ s := by
    obtain ⟨n, rfl⟩ := Nat.exists_eq_succ_of_ne_zero (Nat.ne_of_gt hlevel)
    rfl
  rw [atxContent_eq_dropClosing, atxOpening, List.append_assoc, trimStart,
    List.dropWhile_append_of_pos hindent, ← trimStart, hstart,
    List.dropWhile_append_of_pos hsigns]

/-- A gap ends the number signs, and what is behind it is trimmed. -/
theorem atxContent_gap (indent : Nat) (hlevel : 0 < level) (hgap : IsGap gap)
    (hhead : ∀ c ∈ s.head?, isBlank c = false) (hlast : ∀ c ∈ s.getLast?, isBlank c = false)
    (spaces : Nat) :
    atxContent (atxOpening indent level ++ (gap ++ (s ++ List.replicate spaces ' '))) =
      dropClosing s := by
  have hspaces : ∀ c ∈ List.replicate spaces ' ', isBlank c = true := fun c hc => by
    rw [List.eq_of_mem_replicate hc]
    decide
  rw [atxContent_opening indent hlevel, dropWhile_eq_self_of_head?,
    trim_append_append hgap.isBlank hspaces hhead hlast]
  obtain ⟨c, rest, rfl⟩ := List.exists_cons_of_ne_nil hgap.ne_nil
  intro d hd
  obtain rfl : c = d := by simpa using hd
  simpa using ne_sign_of_isSpaceOrTab (hgap.blank c (List.mem_cons_self ..))

/-- **The line of a heading gives its content back.**  Behind spaces, number signs and a gap, a
trimmed content that is not empty is read as it is, whatever number signs are in it, if there is a
closing sequence behind it.  Without one it is read as it is exactly if it is not made of number
signs alone and does not end like a closing sequence itself.  Where there is no content and no gap
in front of it, none is read, with a closing sequence or without. -/
theorem atxContent_line (indent : Nat) (hlevel : 0 < level) :
    (∀ gap content, IsGap gap → content ≠ [] → trim content = content →
      (∀ closing, IsClosing closing →
        atxContent (atxOpening indent level ++ (gap ++ (content ++ closing))) = content) ∧
      (atxContent (atxOpening indent level ++ (gap ++ content)) = content ↔
        (∃ c ∈ content, c ≠ '#') ∧ ¬HasClosing content)) ∧
    atxContent (atxOpening indent level) = [] ∧
    ∀ closing, IsClosing closing → atxContent (atxOpening indent level ++ closing) = [] := by
  have hsign : isBlank '#' = false := by decide
  refine ⟨fun gap content hgap hne htrim => ?_, ?_, ?_⟩
  · obtain ⟨hhead, hlast⟩ := ends_trim content
    rw [htrim] at hhead hlast
    constructor
    · rintro _ @⟨gap', signs, spaces, hgap'⟩
      have hclosed : ∀ c ∈ (content ++ gap' ++ List.replicate (signs + 1) '#').head?,
          isBlank c = false := by
        obtain ⟨c, rest, rfl⟩ := List.exists_cons_of_ne_nil hne
        simpa using hhead
      rw [← List.append_assoc content, ← List.append_assoc content,
        atxContent_gap indent hlevel hgap hclosed (by simp [List.replicate_succ', hsign]),
        dropClosing_append signs hgap' hne hlast]
    · have hread := atxContent_gap indent hlevel hgap hhead hlast 0
      rw [List.replicate_zero, List.append_nil] at hread
      rw [hread, dropClosing_eq_self_iff hne]
  · have hread := atxContent_opening indent hlevel []
    rwa [List.append_nil] at hread
  · rintro _ ⟨signs, spaces, hgap⟩
    rw [List.append_assoc, atxContent_gap indent hlevel hgap (by simp [List.replicate_succ, hsign])
      (by simp [List.replicate_succ', hsign])]
    exact dropClosing_of_signs fun c hc => List.eq_of_mem_replicate hc

/-- Three spaces, two number signs, and contents that have number signs at their ends; the last of
them ends like a closing sequence. -/
theorem atxContent_line_signs :
    IsGap "\t ".toList ∧ trim "# x ##".toList = "# x ##".toList ∧ IsClosing " \t##  ".toList ∧
    atxContent "   ##\t # x ## \t##  ".toList = "# x ##".toList ∧
    atxContent "   ##\t #x#".toList = "#x#".toList ∧
    atxContent "   ##\t # x ##".toList ≠ "# x ##".toList ∧
    atxContent "   ##".toList = [] ∧ atxContent "   ## \t##  ".toList = [] := by
  have hgap : IsGap "\t ".toList := ⟨by decide, List.all_eq_true.mp (by decide)⟩
  have hblanks : IsGap " \t".toList := ⟨by decide, List.all_eq_true.mp (by decide)⟩
  have hclosing : IsClosing " \t##  ".toList := .intro 1 2 hblanks
  obtain ⟨hcontent, hempty, hclosed⟩ := atxContent_line 3 (show 0 < 2 by decide)
  have hsigns := hcontent _ "# x ##".toList hgap (by decide) (by decide)
  refine ⟨hgap, by decide, hclosing, hsigns.1 _ hclosing, ?_, fun h => ?_, hempty,
    hclosed _ hclosing⟩
  · refine (hcontent _ "#x#".toList hgap (by decide) (by decide)).2.mpr ⟨by simp, fun h => ?_⟩
    exact absurd (hasClosing_iff.mp h) (by decide)
  · exact (hsigns.2.mp h).2 (hasClosing_iff.mpr (by decide))

end WikiPress.TokenStream
