import Mathlib.Data.List.TakeWhile
import WikiPress.Proofs.Slug.Normal
import WikiPress.Proofs.Text.Parentheses

/-!
# The parentheses of slugs

A slug keeps the parentheses of its text, and what is spelled with parentheses brings a pair of
them.  So the parentheses of a slug come in pairs exactly if those of the text do.

## Main results

* `Slugger.filter_reduce` : the parentheses that one character leaves in a slug.
* `Slugger.closes_slug_iff` : when the parentheses of a slug come in pairs.
-/

namespace WikiPress

open Text

namespace Text

variable {s : List Char}

theorem filter_dropWhile {p q : Char → Bool} (h : ∀ c, q c = true → p c = false) :
    (s.dropWhile q).filter p = s.filter p := by
  conv_rhs => rw [← List.takeWhile_append_dropWhile (p := q) (l := s), List.filter_append]
  have hnone : (s.takeWhile q).filter p = [] := List.filter_eq_nil_iff.mpr fun c hc => by
    simp [h c (List.mem_takeWhile_imp hc)]
  rw [hnone, List.nil_append]

theorem not_isParenthesis_of_isBlank (c : Char) (h : isBlank c = true) :
    isParenthesis c = false := by
  by_contra hc
  rw [Bool.not_eq_false, isParenthesis, Bool.or_eq_true, decide_eq_true_eq,
    decide_eq_true_eq] at hc
  rcases hc with rfl | rfl <;> exact absurd h (by decide)

theorem filter_isParenthesis_trim (s : List Char) :
    (trim s).filter isParenthesis = s.filter isParenthesis := by
  rw [trim_eq, trimEnd, dropEndWhile, List.filter_reverse,
    filter_dropWhile not_isParenthesis_of_isBlank, List.filter_reverse, List.reverse_reverse,
    trimStart, filter_dropWhile not_isParenthesis_of_isBlank]

theorem isParenthesis_toLower {c : Char} (h : c.toNat < 128) :
    isParenthesis c.toLower = isParenthesis c ∧ (isParenthesis c = true → c.toLower = c) :=
  Ascii.forall_of_forall_lt
    (P := fun c => isParenthesis c.toLower = isParenthesis c ∧
      (isParenthesis c = true → c.toLower = c)) (by decide +kernel) h

theorem filter_isParenthesis_lowercase (h : ∀ c ∈ s, c.toNat < 128) :
    (lowercase s).filter isParenthesis = s.filter isParenthesis := by
  rw [lowercase_eq_map h]
  induction s with
  | nil => rfl
  | cons c s ih =>
    rw [List.forall_mem_cons] at h
    obtain ⟨hsame, hlower⟩ := isParenthesis_toLower h.1
    rw [List.map_cons, List.filter_cons, List.filter_cons, hsame, ih h.2]
    split
    · next hc => rw [hlower hc]
    · rfl

end Text

namespace Slug

theorem filter_isParenthesis_joinBlanks (s : List Char) (inBlanks : Bool) :
    (joinBlanks ['-'] inBlanks s).filter isParenthesis = s.filter isParenthesis := by
  induction s generalizing inBlanks with
  | nil => rfl
  | cons c s ih =>
    rw [joinBlanks]
    split
    · next hblank =>
      have hc : ¬isParenthesis c = true := by simp [not_isParenthesis_of_isBlank c hblank]
      rw [List.filter_append, ih, List.filter_cons_of_neg hc]
      cases inBlanks <;> rfl
    · rw [List.filter_cons, List.filter_cons, ih]

/-- What is spelled in another way is spelled with no parentheses or with a pair of them. -/
theorem filter_isParenthesis_of_mem_spellings :
    ∀ entry ∈ spellings, entry.2.toList.filter isParenthesis = [] ∨
      entry.2.toList.filter isParenthesis = ['(', ')'] := by
  have hall : spellings.all (fun entry =>
      decide (entry.2.toList.filter isParenthesis = [] ∨
        entry.2.toList.filter isParenthesis = ['(', ')'])) = true := by decide +kernel
  simpa only [List.all_eq_true, decide_eq_true_eq] using hall

/-- A parenthesis is spelled as it is; no other character is spelled with parentheses but for a pair
of them. -/
theorem filter_isParenthesis_spell (c : Char) :
    (spell c).filter isParenthesis = [c].filter isParenthesis ∨
      isParenthesis c = false ∧ (spell c).filter isParenthesis = ['(', ')'] := by
  by_cases hc : isParenthesis c = true
  · have hpart : IsPart false c := by
      rw [isParenthesis, Bool.or_eq_true, decide_eq_true_eq, decide_eq_true_eq] at hc
      rcases hc with rfl | rfl <;> decide
    exact .inl (by rw [spell_eq_self (.inl hpart)])
  · rw [List.filter_cons_of_neg hc, List.filter_nil, spell]
    split
    · next entry spelled hfound =>
      exact (filter_isParenthesis_of_mem_spellings _ (List.mem_of_find?_eq_some hfound)).imp_right
        fun h => ⟨Bool.eq_false_iff.mpr hc, h⟩
    · exact .inl (List.filter_cons_of_neg hc)

theorem isKept_of_isParenthesis {c : Char} (h : isParenthesis c = true) : isKept c = true := by
  rw [isParenthesis, Bool.or_eq_true, decide_eq_true_eq, decide_eq_true_eq] at h
  rcases h with rfl | rfl <;> decide

end Slug

namespace Slugger

open Slug

variable {opened : Nat} {text : List Char}

/-- The parentheses that one character leaves in a slug. -/
theorem filter_reduce (c : Char) :
    (lowercase.reduce c).filter isParenthesis = [c].filter isParenthesis ∨
      isParenthesis c = false ∧ (lowercase.reduce c).filter isParenthesis = ['(', ')'] := by
  have hkept (s : List Char) : (s.filter isKept).filter isParenthesis = s.filter isParenthesis := by
    rw [List.filter_filter]
    refine List.filter_congr fun d _ => ?_
    cases hd : isParenthesis d with
    | false => rfl
    | true => rw [isKept_of_isParenthesis hd, Bool.and_self]
  -- A character that is spelled as the replacement becomes a blank, which is no parenthesis either.
  have hblank (s : List Char) :
      (if s = lowercase.options.replacement.toList then [' '] else s).filter isParenthesis =
        s.filter isParenthesis := by
    split
    · next heq =>
      rw [heq]
      rfl
    · rfl
  have hreduce : (lowercase.reduce c).filter isParenthesis = (spell c).filter isParenthesis :=
    (hkept _).trans (hblank _)
  rw [hreduce]
  exact filter_isParenthesis_spell c

theorem closes_flatMap_reduce_iff (text : List Char) :
    Closes opened (text.flatMap lowercase.reduce) ↔ Closes opened text := by
  induction text generalizing opened with
  | nil => rfl
  | cons c text ih =>
    rw [List.flatMap_cons, ← closes_filter_iff, List.filter_append]
    rcases filter_reduce c with hsame | ⟨hc, hpair⟩
    · by_cases hopen : c = '('
      · rw [hsame, hopen, List.filter_cons_of_pos (by decide), List.filter_nil,
          List.singleton_append, closes_opening_iff, closes_opening_iff, closes_filter_iff, ih]
      by_cases hclose : c = ')'
      · rw [hsame, hclose, List.filter_cons_of_pos (by decide), List.filter_nil,
          List.singleton_append, closes_closing_iff, closes_closing_iff, closes_filter_iff, ih]
      · have hc : isParenthesis c = false := by simp [isParenthesis, hopen, hclose]
        rw [hsame, List.filter_cons_of_neg (by simp [hc]), List.filter_nil, List.nil_append,
          closes_filter_iff, ih, closes_cons_iff hc]
    · rw [hpair, closes_cons_iff hc, List.cons_append, List.singleton_append, closes_opening_iff,
        closes_closing_iff, Nat.add_sub_cancel, closes_filter_iff, ih]
      exact and_iff_right (Nat.succ_pos opened)

/-- The parentheses of a slug come in pairs exactly if those of the text do. -/
theorem closes_slug_iff : Closes opened (lowercase.slug text) ↔ Closes opened text := by
  have hkept : ∀ c ∈ text.flatMap lowercase.reduce, isKept c = true := by
    intro c hc
    obtain ⟨d, -, hd⟩ := List.mem_flatMap.mp hc
    exact isKept_of_mem_reduce rfl hd
  have hascii : ∀ c ∈ joinBlanks ['-'] false (trim (text.flatMap lowercase.reduce)),
      c.toNat < 128 := by
    intro c hc
    rcases mem_joinBlanks hc with hc | ⟨hc, hblank⟩
    · rw [List.mem_singleton.mp hc]
      decide
    · exact toNat_lt_of_isKept (hkept c (trim_subset _ hc)) hblank
  have hslug : lowercase.slug text =
      Text.lowercase (joinBlanks ['-'] false (trim (text.flatMap lowercase.reduce))) := rfl
  rw [← closes_flatMap_reduce_iff text]
  apply closes_congr
  rw [hslug, filter_isParenthesis_lowercase hascii, filter_isParenthesis_joinBlanks,
    filter_isParenthesis_trim]

end Slugger

end WikiPress
