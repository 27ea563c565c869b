import Mathlib.Data.List.Infix

/-!
# Parentheses in texts

The parentheses of a text come in pairs if no beginning of it closes more of them than it opens, and
the whole text closes as many as it opens.  Only the parentheses count, whatever stands between
them.

## Main definitions

* `Text.Closes` : the parentheses of a text come in pairs.
* `Text.OpensAtMost` : a bound on the parentheses that are open at once.

## Main results

* `Text.closes_cons_iff` and its sisters : both of these, one character after the other.
* `Text.closes_filter_iff` : what is no parenthesis does not count.
-/

namespace WikiPress.Text

/-- The parentheses of a text come in pairs if `opened` of them are open in front of it: no
beginning of the text closes more than are open, and none is open at its end. -/
structure Closes (opened : Nat) (s : List Char) : Prop where
  closed_le : ∀ u, u <+: s → u.count ')' ≤ opened + u.count '('
  count_eq : s.count ')' = opened + s.count '('

/-- Nowhere in a text more than `most` parentheses are open if `opened` of them are open in front of
it. -/
def OpensAtMost (most opened : Nat) (s : List Char) : Prop :=
  ∀ u, u <+: s → opened + u.count '(' ≤ most + u.count ')'

/-- Whether a character is a parenthesis. -/
def isParenthesis (c : Char) : Bool := c = '(' || c = ')'

variable {most opened : Nat} {c : Char} {s t : List Char}

theorem forall_isPrefix_cons {P : List Char → Prop} :
    (∀ u, u <+: c :: s → P u) ↔ P [] ∧ ∀ u, u <+: s → P (c :: u) := by
  constructor
  · exact fun h => ⟨h [] List.nil_prefix, fun u hu => h _ (List.cons_prefix_cons.mpr ⟨rfl, hu⟩)⟩
  · rintro ⟨hnil, hcons⟩ u hu
    obtain rfl | ⟨v, rfl, hv⟩ := List.prefix_cons_iff.mp hu
    · exact hnil
    · exact hcons v hv

theorem closes_iff : Closes opened s ↔
    (∀ u, u <+: s → u.count ')' ≤ opened + u.count '(') ∧ s.count ')' = opened + s.count '(' :=
  ⟨fun h => ⟨h.closed_le, h.count_eq⟩, fun h => ⟨h.1, h.2⟩⟩

theorem closes_nil_iff : Closes opened [] ↔ opened = 0 := by
  simp [closes_iff, eq_comm]

theorem closes_opening_iff : Closes opened ('(' :: s) ↔ Closes (opened + 1) s := by
  have hcount (u : List Char) : opened + (u.count '(' + 1) = opened + 1 + u.count '(' := by omega
  simp [closes_iff, forall_isPrefix_cons, hcount]

theorem closes_closing_iff : Closes opened (')' :: s) ↔ 0 < opened ∧ Closes (opened - 1) s := by
  rw [closes_iff, closes_iff, forall_isPrefix_cons]
  simp only [List.count_nil, List.count_cons_self, List.count_cons_of_ne (by decide : ')' ≠ '(')]
  constructor
  · rintro ⟨⟨-, hclosed⟩, hcount⟩
    have hpos := hclosed [] List.nil_prefix
    rw [List.count_nil, List.count_nil] at hpos
    exact ⟨by omega, fun u hu => by have := hclosed u hu; omega, by omega⟩
  · rintro ⟨hpos, hclosed, hcount⟩
    exact ⟨⟨by omega, fun u hu => by have := hclosed u hu; omega⟩, by omega⟩

theorem closes_cons_iff (hc : isParenthesis c = false) :
    Closes opened (c :: s) ↔ Closes opened s := by
  obtain ⟨hopen, hclose⟩ : c ≠ '(' ∧ c ≠ ')' := by simpa [isParenthesis] using hc
  simp [closes_iff, forall_isPrefix_cons, List.count_cons_of_ne hopen, List.count_cons_of_ne hclose]

theorem opensAtMost_nil_iff : OpensAtMost most opened [] ↔ opened ≤ most := by
  simp [OpensAtMost]

theorem opensAtMost_opening_iff :
    OpensAtMost most opened ('(' :: s) ↔ opened ≤ most ∧ OpensAtMost most (opened + 1) s := by
  have hcount (u : List Char) : opened + (u.count '(' + 1) = opened + 1 + u.count '(' := by omega
  simp [OpensAtMost, forall_isPrefix_cons, hcount]

theorem opensAtMost_closing_iff (hpos : 0 < opened) (hle : opened ≤ most) :
    OpensAtMost most opened (')' :: s) ↔ OpensAtMost most (opened - 1) s := by
  unfold OpensAtMost
  rw [forall_isPrefix_cons]
  simp only [List.count_nil, List.count_cons_self, List.count_cons_of_ne (by decide : ')' ≠ '(')]
  constructor
  · exact fun ⟨_, h⟩ u hu => by have := h u hu; omega
  · exact fun h => ⟨by omega, fun u hu => by have := h u hu; omega⟩

theorem opensAtMost_cons_iff (hc : isParenthesis c = false) :
    OpensAtMost most opened (c :: s) ↔ OpensAtMost most opened s := by
  obtain ⟨hopen, hclose⟩ : c ≠ '(' ∧ c ≠ ')' := by simpa [isParenthesis] using hc
  unfold OpensAtMost
  rw [forall_isPrefix_cons]
  simp only [List.count_cons_of_ne hopen, List.count_cons_of_ne hclose]
  exact ⟨And.right, fun h => ⟨h [] List.nil_prefix, h⟩⟩

/-- What is no parenthesis does not count. -/
theorem closes_filter_iff : Closes opened (s.filter isParenthesis) ↔ Closes opened s := by
  induction s generalizing opened with
  | nil => rfl
  | cons c s ih =>
    by_cases hopen : c = '('
    · rw [hopen, List.filter_cons_of_pos (by decide), closes_opening_iff, closes_opening_iff, ih]
    by_cases hclose : c = ')'
    · rw [hclose, List.filter_cons_of_pos (by decide), closes_closing_iff, closes_closing_iff, ih]
    · have hc : isParenthesis c = false := by simp [isParenthesis, hopen, hclose]
      rw [List.filter_cons_of_neg (by simp [hc]), ih, closes_cons_iff hc]

theorem closes_congr (h : s.filter isParenthesis = t.filter isParenthesis) :
    Closes opened s ↔ Closes opened t := by
  rw [← closes_filter_iff, h, closes_filter_iff]

end WikiPress.Text
