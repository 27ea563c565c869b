import WikiPress.Proofs.Text.Blank
import WikiPress.Slug

/-!
# The characters of slugs

By the usual set of characters only ASCII is left of a text, but for blanks, and these are replaced.
So a slug is ASCII if the replacement is.

## Main definitions

* `Slugger.IsMadeOf` : what a slug is made of, before it is put in lower case.

## Main results

* `Slug.toNat_lt_of_isKept` : a kept character that is no blank is ASCII.
* `Slug.mem_joinBlanks` : with its blanks replaced, a text has no blanks of its own.
* `Slugger.exists_isMadeOf_of_mem_slug` : the characters of a slug.
* `Slugger.toNat_lt_of_mem_slug` : a slug is ASCII if its replacement is.
-/

namespace WikiPress

open Text

/-! ### Lower case -/

namespace Text

theorem toNat_toLower_lt {c : Char} (h : c.toNat < 128) : c.toLower.toNat < 128 := by
  unfold Char.toLower
  split
  · next hupper =>
    have hle : c.toNat ≤ 90 := hupper.2
    show (c.val + 32).toNat < 128
    rw [UInt32.toNat_add]
    have hval : c.val.toNat = c.toNat := rfl
    have h32 : (32 : UInt32).toNat = 32 := rfl
    omega
  · exact h

/-- In lower case, a text that is ASCII has only the characters of the text in lower case. -/
theorem exists_of_mem_lowercaseAfter {before s : List Char} (h : ∀ c ∈ s, c.toNat < 128) {c : Char}
    (hc : c ∈ lowercaseAfter before s) : ∃ d ∈ s, c = d.toLower := by
  induction s generalizing before with
  | nil => exact absurd hc List.not_mem_nil
  | cons d s ih =>
    rw [List.forall_mem_cons] at h
    have hsigma : ¬ d.toNat = 0x3A3 := by omega
    have hdotted : ¬ d.toNat = 0x130 := by omega
    rw [lowercaseAfter, if_neg hsigma, if_neg hdotted, if_pos h.1] at hc
    rcases List.mem_cons.mp hc with rfl | hc
    · exact ⟨d, List.mem_cons_self .., rfl⟩
    · obtain ⟨e, he, rfl⟩ := ih h.2 hc
      exact ⟨e, List.mem_cons_of_mem _ he, rfl⟩

end Text

theorem Ascii.toNat_lt_of_isAlphanumeric {c : Char} (h : isAlphanumeric c = true) :
    c.toNat < 128 := by
  change (c.isUpper || c.isLower || c.isDigit) = true at h
  rw [Bool.or_eq_true, Bool.or_eq_true] at h
  rcases h with (h | h) | h
  · have hle : c.toNat ≤ 90 := (of_decide_eq_true h).2
    omega
  · have hle : c.toNat ≤ 122 := of_decide_eq_true (Bool.and_eq_true_iff.mp h).2
    omega
  · have hle : c.toNat ≤ 57 := of_decide_eq_true (Bool.and_eq_true_iff.mp h).2
    omega

/-! ### Slugs -/

namespace Slug

/-- A kept character that is no blank is ASCII. -/
theorem toNat_lt_of_isKept {c : Char} (h : isKept c = true) (hblank : isBlank c = false) :
    c.toNat < 128 := by
  simp only [isKept, hblank, Bool.or_false, Bool.or_eq_true, List.contains_eq_mem,
    decide_eq_true_eq] at h
  rcases h with h | h
  · exact Ascii.toNat_lt_of_isAlphanumeric h
  · have hall : ("_$*+~.()'\x22!-:@".toList.all fun d => d.toNat < 128) = true := by decide
    exact of_decide_eq_true (List.all_eq_true.mp hall c h)

/-- With its blanks replaced, a text has no blanks of its own. -/
theorem mem_joinBlanks {replacement s : List Char} {inBlanks : Bool} {c : Char}
    (h : c ∈ joinBlanks replacement inBlanks s) :
    c ∈ replacement ∨ c ∈ s ∧ isBlank c = false := by
  induction s generalizing inBlanks with
  | nil => exact absurd h List.not_mem_nil
  | cons d s ih =>
    rw [joinBlanks] at h
    split at h
    · rcases List.mem_append.mp h with h | h
      · split at h
        · exact absurd h List.not_mem_nil
        · exact Or.inl h
      · exact (ih h).imp_right fun h => ⟨List.mem_cons_of_mem _ h.1, h.2⟩
    · next hblank =>
      rcases List.mem_cons.mp h with rfl | h
      · exact Or.inr ⟨List.mem_cons_self .., Bool.eq_false_iff.mpr hblank⟩
      · exact (ih h).imp_right fun h => ⟨List.mem_cons_of_mem _ h.1, h.2⟩

end Slug

namespace Slugger

theorem isKept_of_mem_reduce {s : Slugger} (hremove : s.remove = none) {c d : Char}
    (h : d ∈ s.reduce c) : Slug.isKept d = true := by
  simp only [reduce, hremove] at h
  exact (List.mem_filter.mp h).2

variable {s : Slugger} {text : List Char} {c : Char}

/-- What a slug by the usual set of characters is made of: the characters of its replacement, and
kept characters that are no blanks. -/
def IsMadeOf (s : Slugger) (c : Char) : Prop :=
  c ∈ s.options.replacement.toList ∨ Slug.isKept c = true ∧ isBlank c = false

theorem toNat_lt_of_isMadeOf (hreplacement : ∀ c ∈ s.options.replacement.toList, c.toNat < 128)
    (h : s.IsMadeOf c) : c.toNat < 128 :=
  h.elim (hreplacement c) fun h => Slug.toNat_lt_of_isKept h.1 h.2

/-- The characters of a slug, perhaps in lower case. -/
theorem exists_isMadeOf_of_mem_slug (hremove : s.remove = none)
    (hreplacement : ∀ c ∈ s.options.replacement.toList, c.toNat < 128) (hc : c ∈ s.slug text) :
    ∃ d, s.IsMadeOf d ∧ (c = d ∨ c = d.toLower) := by
  have hkept : ∀ c ∈ text.flatMap s.reduce, Slug.isKept c = true := by
    intro c hc
    obtain ⟨d, _, hd⟩ := List.mem_flatMap.mp hc
    exact isKept_of_mem_reduce hremove hd
  have hstrict : ∀ c ∈ (if s.options.strict then
      (text.flatMap s.reduce).filter fun c => Ascii.isAlphanumeric c || isBlank c
      else text.flatMap s.reduce), Slug.isKept c = true := by
    split
    · exact fun c hc => hkept c (List.mem_filter.mp hc).1
    · exact hkept
  have htrimmed : ∀ kept, (∀ c ∈ kept, Slug.isKept c = true) →
      ∀ c ∈ (if s.options.trim then trim kept else kept), Slug.isKept c = true := by
    intro kept hkept
    split
    · exact fun c hc => hkept c (trim_subset kept hc)
    · exact hkept
  have hjoined : ∀ kept, (∀ c ∈ kept, Slug.isKept c = true) →
      ∀ c ∈ Slug.joinBlanks s.options.replacement.toList false kept, s.IsMadeOf c :=
    fun kept hkept c hc => (Slug.mem_joinBlanks hc).imp_right fun h => ⟨hkept c h.1, h.2⟩
  have hmade := hjoined _ (htrimmed _ hstrict)
  simp only [slug] at hc
  split at hc
  · obtain ⟨d, hd, rfl⟩ := exists_of_mem_lowercaseAfter
      (fun c hc => toNat_lt_of_isMadeOf hreplacement (hmade c hc)) hc
    exact ⟨d, hmade d hd, Or.inr rfl⟩
  · exact ⟨c, hmade c hc, Or.inl rfl⟩

/-- A slug by the usual set of characters is ASCII if its replacement is. -/
theorem toNat_lt_of_mem_slug (hremove : s.remove = none)
    (hreplacement : ∀ c ∈ s.options.replacement.toList, c.toNat < 128) (text : List Char) :
    ∀ c ∈ s.slug text, c.toNat < 128 := by
  intro c hc
  obtain ⟨d, hd, rfl | rfl⟩ := exists_isMadeOf_of_mem_slug hremove hreplacement hc
  · exact toNat_lt_of_isMadeOf hreplacement hd
  · exact toNat_toLower_lt (toNat_lt_of_isMadeOf hreplacement hd)

end Slugger

end WikiPress
