import WikiPress.Markdown.Destination
import WikiPress.Proofs.Text.Blank
import WikiPress.Proofs.Text.Parentheses

/-!
# The destinations of links

By the grammar of the markup, a destination without brackets ends in front of a blank, a control
character or a closing parenthesis that it did not open.  The parser reads it so, but with a bound
on the parentheses that are open at once.  Backslashes and character references aside, the address
of a link is its destination as it is written.

## Main definitions

* `Destination.bare` : a destination by the grammar of the markup, which has no such bound.
* `Destination.IsInner` : the characters that a destination goes on with.

## Main results

* `Destination.bare_append_eq_iff`, `Destination.readBare?_append_eq_iff` : the grammar and the
  parser read a whole text as a destination exactly if its parentheses come in pairs, the parser only
  if not too many of them are open at once.
* `Destination.exists_eq_append_of_readBare?` : what is read is a beginning of the text.
* `Destination.clean_eq_self` : an address that is its destination.
-/

namespace WikiPress

open Text

/-! ### Character references -/

theorem Html.Reference.decodeWithin_eq_self {s : List Char} (h : '&' ∉ s) (fuel : Nat) :
    decodeWithin fuel s = s := by
  induction fuel generalizing s with
  | zero => rfl
  | succ fuel ih =>
    cases s with
    | nil => rfl
    | cons c s =>
      rw [List.mem_cons, not_or] at h
      rw [decodeWithin, if_neg (Ne.symm h.1), ih h.2]

namespace Markdown

theorem dropEscapes_eq_self {s : List Char} (h : '\\' ∉ s) : dropEscapes s = s := by
  fun_induction dropEscapes s with
  | case1 c s hc ih => exact absurd (List.mem_cons_self ..) h
  | case2 c s hc ih => exact absurd (List.mem_cons_self ..) h
  | case3 c s hne ih =>
    rw [List.mem_cons, not_or] at h
    rw [ih h.2]
  | case4 => rfl

/-! ### Titles -/

/-- What follows a title is an end of the text. -/
theorem Title.isSuffix_of_readUpTo {opening closing : Char} {escaped : Bool}
    {found : Option (List Char × List Char)} {read s whole title rest : List Char}
    (hfound : ∀ x ∈ found, x.2 <:+ whole) (hs : s <:+ whole)
    (h : readUpTo opening closing escaped found read s = some (title, rest)) : rest <:+ whole := by
  induction s generalizing escaped found read with
  | nil => exact hfound _ h
  | cons c s ih =>
    have hrest : s <:+ whole := (List.suffix_cons c s).trans hs
    have hclosed : ∀ x ∈ some (read.reverse, s), x.2 <:+ whole := by
      intro x hx
      rwa [← Option.some.inj hx]
    rw [readUpTo] at h
    split at h
    · dsimp only at h
      split at h
      · exact ih hclosed hrest h
      · exact hclosed _ h
    split at h
    · split at h
      · exact ih hfound hrest h
      · exact hfound _ h
    · exact ih hfound hrest h

theorem Title.isSuffix_of_read? {s title rest : List Char} (h : read? s = some (title, rest)) :
    rest <:+ s := by
  unfold read? at h
  split at h
  · exact isSuffix_of_readUpTo (by simp) (List.suffix_cons _ _) h
  · exact isSuffix_of_readUpTo (by simp) (List.suffix_cons _ _) h
  · exact isSuffix_of_readUpTo (by simp) (List.suffix_cons _ _) h
  · exact nomatch h

/-! ### Destinations -/

namespace Destination

/-- The beginning of a text that is read as a destination by the grammar of the markup: it ends in
front of a blank, a control character or a closing parenthesis that is not open, where `opened`
parentheses are open in front of the text. -/
def bare (opened : Nat) : List Char → List Char
  | [] => []
  | c :: rest =>
    if c = '(' then c :: bare (opened + 1) rest
    else if c = ')' then if opened = 0 then [] else c :: bare (opened - 1) rest
    else if isAsciiBlank c || Ascii.isControl c then []
    else c :: bare opened rest

/-- A character that a destination goes on with, and that is no parenthesis and no backslash. -/
def IsInner (c : Char) : Prop :=
  isAsciiBlank c = false ∧ Ascii.isControl c = false ∧ c ≠ '\\'

instance (c : Char) : Decidable (IsInner c) := inferInstanceAs (Decidable (_ ∧ _))

variable {opened : Nat} {c : Char} {read s d rest : List Char}

/-- By the grammar, a whole text in front of a closing parenthesis is read as a destination exactly
if its parentheses come in pairs. -/
theorem bare_append_eq_iff (hs : ∀ c ∈ s, IsInner c) (v : List Char) :
    bare opened (s ++ ')' :: v) = s ↔ Closes opened s := by
  induction s generalizing opened with
  | nil =>
    rw [closes_nil_iff, List.nil_append, bare, if_neg (by decide), if_pos rfl]
    split <;> simp_all
  | cons c s ih =>
    rw [List.forall_mem_cons] at hs
    have ih := fun opened => @ih opened hs.2
    rw [List.cons_append, bare]
    by_cases hopen : c = '('
    · rw [if_pos hopen, List.cons_inj_right, ih, hopen, closes_opening_iff]
    rw [if_neg hopen]
    by_cases hclose : c = ')'
    · subst hclose
      rw [if_pos rfl, closes_closing_iff]
      split
      · next hzero => simp [hzero]
      · next hpos => simp [ih, Nat.pos_of_ne_zero hpos]
    · have hparenthesis : isParenthesis c = false := by simp [isParenthesis, hopen, hclose]
      rw [if_neg hclose, if_neg (by simp [hs.1.1, hs.1.2.1]), List.cons_inj_right, ih,
        closes_cons_iff hparenthesis]

theorem readBare?_opening (opened : Nat) (read s : List Char) :
    readBare? opened read ('(' :: s) =
      if opened < mostOpen then readBare? (opened + 1) ('(' :: read) s else none := by
  cases opened <;> rw [readBare?, if_pos rfl] <;> exact fun _ _ heq => absurd heq (by decide)

theorem readBare?_closing (opened : Nat) (read s : List Char) :
    readBare? (opened + 1) read (')' :: s) = readBare? opened (')' :: read) s := by
  rw [readBare?, if_neg (by decide), if_pos rfl]
  exact fun _ _ heq => absurd heq (by decide)

theorem readBare?_closing_zero (read s : List Char) :
    readBare? 0 read (')' :: s) = some (read.reverse, ')' :: s) := by
  rw [readBare?, if_neg (by decide), if_pos rfl]
  exact fun _ _ heq => absurd heq (by decide)

theorem readBare?_cons (hc : IsInner c) (hparenthesis : isParenthesis c = false)
    (opened : Nat) (read s : List Char) :
    readBare? opened read (c :: s) = readBare? opened (c :: read) s := by
  obtain ⟨hopen, hclose⟩ : c ≠ '(' ∧ c ≠ ')' := by simpa [isParenthesis] using hparenthesis
  cases opened <;>
    rw [readBare?, if_neg hopen, if_neg hclose, if_neg (by simp [hc.1, hc.2.1])] <;>
    exact fun _ _ heq => absurd heq hc.2.2

/-- What the parser reads as a destination is a beginning of the text. -/
theorem exists_eq_append_of_readBare? (h : readBare? opened read s = some (d, rest)) :
    ∃ w, d = read.reverse ++ w ∧ s = w ++ rest := by
  fun_induction readBare? opened read s with
  | case1 => exact nomatch h
  | case2 opened read c s hc ih =>
    obtain ⟨w, rfl, rfl⟩ := ih h
    exact ⟨'\\' :: c :: w, by simp, rfl⟩
  | case3 opened read c s hc ih =>
    obtain ⟨w, rfl, hw⟩ := ih h
    exact ⟨'\\' :: w, by simp, by rw [hw]; rfl⟩
  | case4 opened read s hlt hne ih =>
    obtain ⟨w, rfl, rfl⟩ := ih h
    exact ⟨'(' :: w, by simp, rfl⟩
  | case5 => exact nomatch h
  | case6 read s =>
    obtain ⟨rfl, rfl⟩ := Prod.mk.inj (Option.some.inj h)
    exact ⟨[], by simp, rfl⟩
  | case7 read s n hne hopen ih =>
    obtain ⟨w, rfl, rfl⟩ := ih h
    exact ⟨')' :: w, by simp, rfl⟩
  | case8 => exact nomatch h
  | case9 opened read c s =>
    obtain ⟨rfl, rfl⟩ := Prod.mk.inj (Option.some.inj h)
    exact ⟨[], by simp, rfl⟩
  | case10 opened read c s hne hopen hclose hstop ih =>
    obtain ⟨w, rfl, rfl⟩ := ih h
    exact ⟨c :: w, by simp, rfl⟩

/-- The parser reads a whole text in front of a closing parenthesis as a destination exactly if its
parentheses come in pairs and not too many of them are open at once. -/
theorem readBare?_append_eq_iff (hs : ∀ c ∈ s, IsInner c) (hle : opened ≤ mostOpen)
    (read v : List Char) :
    readBare? opened read (s ++ ')' :: v) = some (read.reverse ++ s, ')' :: v) ↔
      Closes opened s ∧ OpensAtMost mostOpen opened s := by
  induction s generalizing opened read with
  | nil =>
    rw [closes_nil_iff, opensAtMost_nil_iff, List.nil_append, List.append_nil]
    cases opened with
    | zero => simp [readBare?_closing_zero]
    | succ n =>
      simp only [Nat.succ_ne_zero, false_and, iff_false]
      intro h
      rw [readBare?_closing] at h
      obtain ⟨w, hw, -⟩ := exists_eq_append_of_readBare? h
      simp at hw
  | cons c s ih =>
    rw [List.forall_mem_cons] at hs
    have hread : read.reverse ++ c :: s = (c :: read).reverse ++ s := by simp
    rw [List.cons_append, hread]
    by_cases hopen : c = '('
    · subst hopen
      rw [readBare?_opening, closes_opening_iff, opensAtMost_opening_iff]
      split
      · next hlt =>
        rw [ih hs.2 hlt]
        exact and_congr_right fun _ => (and_iff_right hle).symm
      · next hnot =>
        have hmost : ¬OpensAtMost mostOpen (opened + 1) s := fun h => by
          have := h [] List.nil_prefix
          rw [List.count_nil, List.count_nil] at this
          omega
        simp [hmost]
    by_cases hclose : c = ')'
    · subst hclose
      rw [closes_closing_iff]
      cases opened with
      | zero => simp [readBare?_closing_zero]
      | succ n =>
        rw [readBare?_closing, opensAtMost_closing_iff (Nat.succ_pos n) hle, Nat.add_sub_cancel,
          ih hs.2 (by omega), and_iff_right (Nat.succ_pos n)]
    · have hparenthesis : isParenthesis c = false := by simp [isParenthesis, hopen, hclose]
      rw [readBare?_cons hs.1 hparenthesis, ih hs.2 hle, closes_cons_iff hparenthesis,
        opensAtMost_cons_iff hparenthesis]

/-! ### Addresses -/

/-- An address that is its destination. -/
theorem clean_eq_self (hs : ∀ c ∈ s, IsInner c) (hreference : '&' ∉ s) : clean s = s := by
  have hbackslash : '\\' ∉ s := fun hc => (hs _ hc).2.2 rfl
  have htrim : trimWith isAsciiBlank s = s :=
    trimWith_eq_self (fun c hc => (hs c (List.mem_of_mem_head? hc)).1)
      fun c hc => (hs c (List.mem_of_mem_getLast? hc)).1
  rw [clean, htrim, Html.Reference.decode,
    Html.Reference.decodeWithin_eq_self hreference, dropEscapes_eq_self hbackslash]

end Destination

end Markdown

end WikiPress
