import Mathlib.Data.Bool.AllAny
import Mathlib.Data.List.Chain
import WikiPress.Pattern.Reader
import WikiPress.Proofs.Slug

/-!
# The normal form of slugs

Let blanks be replaced by one punctuation character that no other character is spelled with.  Then
slugs have a normal form: they are made of letters, digits, some marks and the replacement, which
stands neither beside itself nor, if texts are trimmed, at an end.  The texts in this form are
exactly those that are their own slugs.

A slug is taken apart at its replacements: when it is read again, each of them becomes a blank, and
all other characters stay as they are.

## Main definitions

* `Slugger.JoinsBy` : blanks are replaced by one character of their own.
* `SlugOptions.IsNormal` : the normal form of slugs.

## Main results

* `Slugger.isNormal_slug` : slugs have the normal form.
* `Slugger.slug_eq_self` : a text in the normal form is its own slug.
* `Slugger.slug_normalForm` : both of these for all options with such a replacement.
-/

namespace WikiPress

open Text

/-! ### Lower case -/

namespace Text

/-- In lower case, a text that is ASCII has each of its letters in lower case. -/
theorem lowercaseAfter_eq_map {s : List Char} (h : ∀ c ∈ s, c.toNat < 128) (before : List Char) :
    lowercaseAfter before s = s.map Char.toLower := by
  induction s generalizing before with
  | nil => rfl
  | cons c s ih =>
    rw [List.forall_mem_cons] at h
    have hsigma : ¬ c.toNat = 0x3A3 := by omega
    have hdotted : ¬ c.toNat = 0x130 := by omega
    rw [lowercaseAfter, if_neg hsigma, if_neg hdotted, if_pos h.1, ih h.2]
    rfl

theorem lowercase_eq_map {s : List Char} (h : ∀ c ∈ s, c.toNat < 128) :
    lowercase s = s.map Char.toLower := lowercaseAfter_eq_map h []

end Text

namespace Ascii

/-- A property of ASCII characters is settled by the numbers below 128. -/
theorem forall_of_forall_lt {P : Char → Prop} (h : ∀ n < 128, P (Char.ofNat n)) {c : Char}
    (hc : c.toNat < 128) : P c := by
  have := h c.toNat hc
  rwa [Char.ofNat_toNat] at this

theorem toNat_lt_of_isPunctuation {c : Char} (h : isPunctuation c = true) : c.toNat < 128 := by
  simp only [isPunctuation, Bool.or_eq_true, Bool.and_eq_true, decide_eq_true_eq] at h
  omega

end Ascii

/-! ### The characters of slugs -/

namespace Slug

/-- The marks that slugs may have. -/
def marks : List Char := "_*+~.()'\x22!-:@".toList

/-- The characters that stay in a slug as they are. -/
def IsPart (strict : Bool) (c : Char) : Prop :=
  Ascii.isAlphanumeric c = true ∨ strict = false ∧ c ∈ marks

instance (strict : Bool) (c : Char) : Decidable (IsPart strict c) :=
  inferInstanceAs (Decidable (_ ∨ _ ∧ _))

/-- The characters that may stand for blanks: nothing else is spelled with them, and they are not
spelled with others. -/
def IsJoint (c : Char) : Prop :=
  Ascii.isPunctuation c = true ∧ c ∉ ['$', '%', '&', '<', '>', '|', '(', ')']

instance (c : Char) : Decidable (IsJoint c) := inferInstanceAs (Decidable (_ ∧ _))

variable {strict : Bool} {c d r : Char}

theorem IsPart.weaken (h : IsPart strict c) : IsPart false c := h.imp_right fun h => ⟨rfl, h.2⟩

theorem IsPart.toNat_lt (h : IsPart strict c) : c.toNat < 128 := by
  rcases h with h | ⟨-, h⟩
  · exact Ascii.toNat_lt_of_isAlphanumeric h
  · have hall : ∀ d ∈ marks, d.toNat < 128 := List.all_iff_forall_prop.mp (by decide)
    exact hall c h

theorem IsPart.isKept (h : IsPart strict c) : isKept c = true ∧ isBlank c = false :=
  Ascii.forall_of_forall_lt
    (P := fun c => IsPart false c → Slug.isKept c = true ∧ isBlank c = false)
    (by decide +kernel) h.toNat_lt h.weaken

theorem IsPart.toLower (h : IsPart strict c) : IsPart strict c.toLower := by
  rcases h with h | ⟨hstrict, h⟩
  · exact .inl (Ascii.forall_of_forall_lt
      (P := fun c => Ascii.isAlphanumeric c = true → Ascii.isAlphanumeric c.toLower = true)
      (by decide +kernel) (Ascii.toNat_lt_of_isAlphanumeric h) h)
  · have hsame : ∀ d ∈ marks, d.toLower = d := List.all_iff_forall_prop.mp (by decide)
    exact .inr ⟨hstrict, (hsame c h).symm ▸ h⟩

theorem isUpper_toLower (h : c.toNat < 128) : c.toLower.isUpper = false :=
  Ascii.forall_of_forall_lt (P := fun c => c.toLower.isUpper = false) (by decide +kernel) h

theorem toLower_of_isUpper_eq_false (h : c.isUpper = false) : c.toLower = c := by
  unfold Char.toLower
  split
  · next hupper =>
    have : c.isUpper = true := by
      unfold Char.isUpper
      simpa using hupper
    exact absurd this (by simp [h])
  · rfl

theorem IsJoint.toNat_lt (h : IsJoint r) : r.toNat < 128 := Ascii.toNat_lt_of_isPunctuation h.1

theorem IsJoint.isUpper (h : IsJoint r) : r.isUpper = false :=
  Ascii.forall_of_forall_lt (P := fun r => IsJoint r → r.isUpper = false)
    (by decide +kernel) h.toNat_lt h

/-- The characters that are spelled in another way do not stay in slugs. -/
theorem not_isPart_of_mem_spellings :
    ∀ entry ∈ spellings, ∀ d ∈ entry.1, ¬IsPart false d ∧ ¬IsJoint d := by
  have hall : spellings.all (fun entry => entry.1.all fun d =>
      decide (¬IsPart false d ∧ ¬IsJoint d)) = true := by decide +kernel
  simpa only [List.all_eq_true, decide_eq_true_eq] using hall

/-- The characters that stay in slugs are spelled as they are. -/
theorem spell_eq_self (h : IsPart false c ∨ IsJoint c) : spell c = [c] := by
  have hnone : spellings.find? (fun entry => entry.1.contains c) = none := by
    rw [List.find?_eq_none]
    intro entry hentry hmem
    have hc := not_isPart_of_mem_spellings entry hentry c (List.contains_iff_mem.mp hmem)
    exact h.elim hc.1 hc.2
  rw [spell, hnone]

/-- Only a replacement becomes one in lower case. -/
theorem IsJoint.eq_of_toLower_eq (h : IsJoint r) (hc : c.toNat < 128) (heq : c.toLower = r) :
    c = r := by
  subst heq
  exact Ascii.forall_of_forall_lt (P := fun c => IsJoint c.toLower → c = c.toLower)
    (by decide +kernel) hc h

/-- Nothing is spelled with other marks than parentheses. -/
theorem isAlphanumeric_of_mem_spellings :
    ∀ entry ∈ spellings, ∀ d ∈ entry.2.toList,
      Ascii.isAlphanumeric d = true ∨ d = '(' ∨ d = ')' := by
  have hall : spellings.all (fun entry => entry.2.toList.all fun d =>
      decide (Ascii.isAlphanumeric d = true ∨ d = '(' ∨ d = ')')) = true := by decide +kernel
  simpa only [List.all_eq_true, decide_eq_true_eq] using hall

/-- A character is spelled as it is, or with letters, digits and parentheses. -/
theorem spell_cases (c : Char) :
    spell c = [c] ∧ c ≠ '$' ∨
      ∀ d ∈ spell c, Ascii.isAlphanumeric d = true ∨ d = '(' ∨ d = ')' := by
  unfold spell
  split
  · next entry spelled hfound =>
    exact .inr (isAlphanumeric_of_mem_spellings _ (List.mem_of_find?_eq_some hfound))
  · next hnone =>
    refine .inl ⟨rfl, ?_⟩
    rintro rfl
    exact absurd hnone (by decide +kernel)

/-- A character that is kept and no blank is a part of slugs, but for one. -/
theorem isPart_of_isKept (h : isKept c = true) (hblank : isBlank c = false) (hc : c ≠ '$') :
    IsPart false c :=
  Ascii.forall_of_forall_lt
    (P := fun c => isKept c = true → isBlank c = false → c ≠ '$' → IsPart false c)
    (by decide +kernel) (toNat_lt_of_isKept h hblank) h hblank hc

end Slug

/-! ### What is left of a text -/

/-- Blanks are replaced by one character of their own, and the usual characters are kept. -/
structure Slugger.JoinsBy (s : Slugger) (r : Char) : Prop where
  remove : s.remove = none
  replacement : s.options.replacement.toList = [r]
  isJoint : Slug.IsJoint r

/-- Texts joined by a replacement: between parts of slugs it stands alone and, if texts are trimmed,
not at an end. -/
structure SlugOptions.IsJoined (o : SlugOptions) (r : Char) (slug : List Char) : Prop where
  isPart : ∀ c ∈ slug, c ≠ r → Slug.IsPart o.strict c
  apart : slug.IsChain fun c d => c = r → d ≠ r
  ends : o.trim = true → slug.head? ≠ some r ∧ slug.getLast? ≠ some r

/-- The normal form of slugs. -/
structure SlugOptions.IsNormal (o : SlugOptions) (r : Char) (slug : List Char) : Prop
    extends o.IsJoined r slug where
  lower : o.lower = true → ∀ c ∈ slug, c.isUpper = false

namespace Slugger

open Slug

variable {s : Slugger} {r : Char} {c d : Char} {text : List Char}

/-- What is left of a character are blanks and parts of slugs other than the replacement. -/
theorem isPart_of_mem_reduce (h : s.JoinsBy r) (hd : d ∈ s.reduce c) (hblank : isBlank d = false) :
    IsPart false d ∧ d ≠ r := by
  have hkept := isKept_of_mem_reduce h.remove hd
  simp only [reduce, h.remove, h.replacement, List.mem_filter] at hd
  split at hd
  · obtain rfl := List.mem_singleton.mp hd.1
    exact absurd hblank (by decide)
  · next hne =>
    rcases spell_cases c with ⟨hself, hdollar⟩ | hspelled
    · rw [hself] at hd hne
      obtain rfl := List.mem_singleton.mp hd.1
      exact ⟨isPart_of_isKept hkept hblank hdollar, fun heq => hne (heq ▸ rfl)⟩
    · refine ⟨isPart_of_isKept hkept hblank ?_, ?_⟩
      · rintro rfl
        exact absurd (hspelled _ hd.1) (by decide)
      · rintro rfl
        exact Ascii.forall_of_forall_lt
          (P := fun d => IsJoint d → ¬(Ascii.isAlphanumeric d = true ∨ d = '(' ∨ d = ')'))
          (by decide +kernel) h.isJoint.toNat_lt h.isJoint (hspelled _ hd.1)

end Slugger

/-! ### Joined blanks -/

namespace Slug

variable {r : Char} {s : List Char} {inBlanks : Bool}

/-- Joined, blanks leave one replacement each time, which nothing else is. -/
theorem isChain_joinBlanks (h : ∀ c ∈ s, isBlank c = false → c ≠ r) (inBlanks : Bool) :
    (joinBlanks [r] inBlanks s).IsChain (fun c d => c = r → d ≠ r) ∧
      (inBlanks = true → (joinBlanks [r] inBlanks s).head? ≠ some r) := by
  induction s generalizing inBlanks with
  | nil => simp [joinBlanks]
  | cons c s ih =>
    rw [List.forall_mem_cons] at h
    have ih := ih h.2
    rw [joinBlanks]
    split
    · cases inBlanks with
      | true => simpa using ih true
      | false =>
        refine ⟨List.isChain_cons.mpr ⟨?_, (ih true).1⟩, by simp⟩
        rintro d hd - rfl
        exact (ih true).2 rfl hd
    · next hblank =>
      have hc := h.1 (Bool.eq_false_iff.mpr hblank)
      exact ⟨List.isChain_cons.mpr ⟨fun _ _ heq => absurd heq hc, (ih false).1⟩, by simp [hc]⟩

theorem joinBlanks_concat {replacement : List Char} {c : Char} (hc : isBlank c = false) :
    joinBlanks replacement inBlanks (s ++ [c]) = joinBlanks replacement inBlanks s ++ [c] := by
  induction s generalizing inBlanks with
  | nil => simp [joinBlanks, hc]
  | cons d s ih =>
    rw [List.cons_append, joinBlanks, joinBlanks]
    split
    · rw [ih, List.append_assoc]
    · rw [ih, List.cons_append]

/-- A text that begins and ends with no blank is joined into one that begins and ends with no
replacement. -/
theorem ends_joinBlanks (h : ∀ c ∈ s, isBlank c = false → c ≠ r)
    (hhead : ∀ c ∈ s.head?, isBlank c = false) (hlast : ∀ c ∈ s.getLast?, isBlank c = false) :
    (joinBlanks [r] false s).head? ≠ some r ∧ (joinBlanks [r] false s).getLast? ≠ some r := by
  constructor
  · cases s with
    | nil => simp [joinBlanks]
    | cons c s =>
      have hc := hhead c rfl
      simpa [joinBlanks, hc] using h c (List.mem_cons_self ..) hc
  · rcases List.eq_nil_or_concat' s with rfl | ⟨s, c, rfl⟩
    · simp [joinBlanks]
    · have hc := hlast c (by simp)
      rw [joinBlanks_concat hc, List.getLast?_concat]
      simpa using h c (by simp) hc

/-- A character of a slug as it is read again. -/
def reopen (r c : Char) : Char := if c = r then ' ' else c

/-- Joined again, a text whose replacements stand apart is the same. -/
theorem joinBlanks_map_reopen (hpart : ∀ c ∈ s, c ≠ r → isBlank c = false)
    (hapart : s.IsChain fun c d => c = r → d ≠ r) (hhead : inBlanks = true → s.head? ≠ some r) :
    joinBlanks [r] inBlanks (s.map (reopen r)) = s := by
  induction s generalizing inBlanks with
  | nil => rfl
  | cons c s ih =>
    rw [List.forall_mem_cons] at hpart
    obtain ⟨hnext, hapart⟩ := List.isChain_cons.mp hapart
    rw [List.map_cons, joinBlanks]
    by_cases hc : c = r
    · subst hc
      have hblanks : inBlanks = false := by
        cases inBlanks with
        | true => exact absurd rfl (hhead rfl)
        | false => rfl
      rw [reopen, if_pos rfl, if_pos (by decide), hblanks,
        ih hpart.2 hapart fun _ heq => hnext c heq rfl rfl]
      rfl
    · have hblank := hpart.1 hc
      rw [reopen, if_neg hc, if_neg (by simp [hblank]), ih hpart.2 hapart (by simp)]

end Slug

/-! ### Slugs are normal -/

namespace Slugger

open Slug

variable {s : Slugger} {r : Char} {text kept : List Char}

/-- What is joined into a slug. -/
structure IsReduced (s : Slugger) (r : Char) (kept : List Char) : Prop where
  isPart : ∀ c ∈ kept, isBlank c = false → IsPart s.options.strict c ∧ c ≠ r
  trimmed : s.options.trim = true →
    (∀ c ∈ kept.head?, isBlank c = false) ∧ ∀ c ∈ kept.getLast?, isBlank c = false

theorem isPart_of_mem_flatMap_reduce (h : s.JoinsBy r) {c : Char}
    (hc : c ∈ text.flatMap s.reduce) (hblank : isBlank c = false) : IsPart false c ∧ c ≠ r := by
  obtain ⟨d, -, hd⟩ := List.mem_flatMap.mp hc
  exact isPart_of_mem_reduce h hd hblank

/-- A slug is joined from parts of slugs and blanks, and put in lower case if this is asked for. -/
theorem exists_slug_eq (h : s.JoinsBy r) (text : List Char) :
    ∃ kept, s.IsReduced r kept ∧
      s.slug text =
        if s.options.lower then Text.lowercase (joinBlanks [r] false kept)
        else joinBlanks [r] false kept := by
  obtain ⟨kept, hkept, hpart⟩ : ∃ kept,
      (if s.options.strict then
        (text.flatMap s.reduce).filter fun c => Ascii.isAlphanumeric c || isBlank c
        else text.flatMap s.reduce) = kept ∧
      ∀ c ∈ kept, isBlank c = false → IsPart s.options.strict c ∧ c ≠ r := by
    refine ⟨_, rfl, fun c hc hblank => ?_⟩
    split at hc
    · obtain ⟨hmem, hclass⟩ := List.mem_filter.mp hc
      rw [hblank, Bool.or_false] at hclass
      exact ⟨.inl hclass, (isPart_of_mem_flatMap_reduce h hmem hblank).2⟩
    · next hstrict =>
      rw [Bool.not_eq_true] at hstrict
      rw [hstrict]
      exact isPart_of_mem_flatMap_reduce h hc hblank
  refine ⟨if s.options.trim then trim kept else kept, ⟨fun c hc => hpart c ?_, fun htrim => ?_⟩, ?_⟩
  · split at hc
    · exact trim_subset kept hc
    · exact hc
  · rw [if_pos htrim]
    exact ends_trim kept
  · rw [slug, hkept, h.replacement]

theorem IsReduced.isJoined (h : s.IsReduced r kept) :
    s.options.IsJoined r (joinBlanks [r] false kept) where
  isPart c hc hne := by
    rcases mem_joinBlanks hc with hr | ⟨hmem, hblank⟩
    · exact absurd (List.mem_singleton.mp hr) hne
    · exact (h.isPart c hmem hblank).1
  apart := (isChain_joinBlanks (fun c hc hblank => (h.isPart c hc hblank).2) false).1
  ends htrim :=
    ends_joinBlanks (fun c hc hblank => (h.isPart c hc hblank).2) (h.trimmed htrim).1
      (h.trimmed htrim).2

end Slugger

namespace SlugOptions.IsJoined

open Slug

variable {o : SlugOptions} {r : Char} {slug : List Char}

theorem toNat_lt (h : o.IsJoined r slug) (hr : IsJoint r) : ∀ c ∈ slug, c.toNat < 128 := by
  intro c hc
  by_cases heq : c = r
  · exact heq ▸ hr.toNat_lt
  · exact (h.isPart c hc heq).toNat_lt

/-- In lower case, joined texts stay joined: only a replacement becomes one. -/
theorem map_toLower (h : o.IsJoined r slug) (hr : IsJoint r) :
    o.IsJoined r (slug.map Char.toLower) where
  isPart := by
    rw [List.forall_mem_map]
    intro c hc hne
    refine (h.isPart c hc ?_).toLower
    rintro rfl
    exact hne (toLower_of_isUpper_eq_false hr.isUpper)
  apart := by
    rw [List.isChain_map]
    refine h.apart.imp_of_mem_imp fun c d hc hd hcd heq hdr => ?_
    exact hcd (hr.eq_of_toLower_eq (h.toNat_lt hr c hc) heq)
      (hr.eq_of_toLower_eq (h.toNat_lt hr d hd) hdr)
  ends htrim := by
    rw [List.head?_map, List.getLast?_map]
    refine ⟨fun heq => ?_, fun heq => ?_⟩
    · obtain ⟨c, hc, hlower⟩ := Option.map_eq_some_iff.mp heq
      have hmem := List.mem_of_mem_head? hc
      exact (h.ends htrim).1 (hr.eq_of_toLower_eq (h.toNat_lt hr c hmem) hlower ▸ hc)
    · obtain ⟨c, hc, hlower⟩ := Option.map_eq_some_iff.mp heq
      have hmem := List.mem_of_mem_getLast? hc
      exact (h.ends htrim).2 (hr.eq_of_toLower_eq (h.toNat_lt hr c hmem) hlower ▸ hc)

end SlugOptions.IsJoined

namespace Slugger

open Slug

variable {s : Slugger} {r : Char} {text : List Char}

/-- Slugs have the normal form. -/
theorem isNormal_slug (h : s.JoinsBy r) (text : List Char) :
    s.options.IsNormal r (s.slug text) := by
  obtain ⟨kept, hkept, heq⟩ := exists_slug_eq h text
  have hjoined := hkept.isJoined
  rw [heq]
  split
  · have hascii := hjoined.toNat_lt h.isJoint
    rw [lowercase_eq_map hascii]
    refine ⟨hjoined.map_toLower h.isJoint, fun _ => List.forall_mem_map.mpr fun c hc => ?_⟩
    exact isUpper_toLower (hascii c hc)
  · next hlower => exact ⟨hjoined, fun hset => absurd hset hlower⟩

/-! ### Normal texts are slugs -/

theorem reduce_of_isPart (h : s.JoinsBy r) {c : Char}
    (hc : c ≠ r → IsPart s.options.strict c) : s.reduce c = [reopen r c] := by
  by_cases heq : c = r
  · subst heq
    simp only [reduce, h.remove, h.replacement, spell_eq_self (.inr h.isJoint), if_true, reopen]
    decide
  · have hpart := hc heq
    simp [reduce, h.remove, h.replacement, spell_eq_self (.inl hpart.weaken), heq, reopen,
      hpart.isKept.1]

/-- A text that begins and ends with no replacement begins and ends with no blank when it is read
again. -/
theorem trim_map_reopen (hpart : ∀ c ∈ text, c ≠ r → isBlank c = false)
    (hhead : text.head? ≠ some r) (hlast : text.getLast? ≠ some r) :
    trim (text.map (reopen r)) = text.map (reopen r) := by
  refine trim_eq_self ?_ ?_
  · rw [List.head?_map]
    intro d hd
    obtain ⟨c, hc, rfl⟩ := Option.map_eq_some_iff.mp hd
    have hne : c ≠ r := fun heq => hhead (heq ▸ hc)
    rw [reopen, if_neg hne]
    exact hpart c (List.mem_of_mem_head? hc) hne
  · rw [List.getLast?_map]
    intro d hd
    obtain ⟨c, hc, rfl⟩ := Option.map_eq_some_iff.mp hd
    have hne : c ≠ r := fun heq => hlast (heq ▸ hc)
    rw [reopen, if_neg hne]
    exact hpart c (List.mem_of_mem_getLast? hc) hne

/-- A text in the normal form is its own slug. -/
theorem slug_eq_self (h : s.JoinsBy r) (hnormal : s.options.IsNormal r text) :
    s.slug text = text := by
  have hpart : ∀ c ∈ text, c ≠ r → isBlank c = false := fun c hc hne =>
    (hnormal.isPart c hc hne).isKept.2
  have hreduce : text.flatMap s.reduce = text.map (reopen r) := by
    rw [List.map_eq_flatMap]
    exact List.flatMap_congr fun c hc => reduce_of_isPart h (hnormal.isPart c hc)
  have hstrict : (if s.options.strict then
      (text.map (reopen r)).filter fun c => Ascii.isAlphanumeric c || isBlank c
      else text.map (reopen r)) = text.map (reopen r) := by
    split
    · next hset =>
      rw [List.filter_eq_self, List.forall_mem_map]
      intro c hc
      by_cases heq : c = r
      · rw [reopen, if_pos heq]
        decide
      · have hclass := (hnormal.isPart c hc heq).resolve_right (by simp [hset])
        rw [reopen, if_neg heq, hclass, Bool.true_or]
    · rfl
  have htrim : (if s.options.trim then trim (text.map (reopen r)) else text.map (reopen r)) =
      text.map (reopen r) := by
    split
    · next hset => exact trim_map_reopen hpart (hnormal.ends hset).1 (hnormal.ends hset).2
    · rfl
  have hjoin : joinBlanks [r] false (text.map (reopen r)) = text :=
    joinBlanks_map_reopen hpart hnormal.apart (by simp)
  simp only [slug, hreduce, hstrict, htrim, h.replacement, hjoin]
  split
  · next hset =>
    rw [lowercase_eq_map (hnormal.toIsJoined.toNat_lt h.isJoint)]
    conv_rhs => rw [← List.map_id text]
    exact List.map_congr_left fun c hc => toLower_of_isUpper_eq_false (hnormal.lower hset c hc)
  · rfl

theorem isPart_of_isLower {c : Char} (h : c.isLower = true ∨ c.isDigit = true ∨ c ∈ marks) :
    IsPart false c ∧ c.isUpper = false := by
  have hpart : IsPart false c := by
    rcases h with h | h | h
    · left
      unfold Ascii.isAlphanumeric Char.isAlphanum Char.isAlpha
      simp [h]
    · left
      unfold Ascii.isAlphanumeric Char.isAlphanum
      simp [h]
    · exact .inr ⟨rfl, h⟩
  exact ⟨hpart, Ascii.forall_of_forall_lt
    (P := fun c => (c.isLower = true ∨ c.isDigit = true ∨ c ∈ marks) → c.isUpper = false)
    (by decide +kernel) hpart.toNat_lt h⟩

/-- By the usual options, a text of digits, lower-case letters, hyphens and marks is normal if no
hyphen stands beside another one or at an end. -/
theorem isNormal_lowercase (hpart : ∀ c ∈ text, c.isLower = true ∨ c.isDigit = true ∨ c ∈ marks)
    (hapart : ¬['-', '-'] <:+: text) (hhead : text.head? ≠ some '-')
    (hlast : text.getLast? ≠ some '-') : SlugOptions.lowercase.IsNormal '-' text where
  isPart c hc _ := (isPart_of_isLower (hpart c hc)).1
  apart := by
    refine (List.isChain_isInfix text).imp fun c d h hc hd => ?_
    subst hc hd
    exact hapart h
  ends _ := ⟨hhead, hlast⟩
  lower _ c hc := (isPart_of_isLower (hpart c hc)).2

/-- **Slugs have a normal form.**  Let blanks be replaced by one punctuation character, but not by
one that other characters are spelled with or that is itself spelled in another way.  Whatever the
other options are, slugs are made of letters, digits, the replacement and, unless the options are
strict, a few marks; none of their letters is in upper case if lower case is asked for; the
replacement never stands beside itself and, if texts are trimmed, at no end.  The texts of this form
are those that are their own slugs, so a slug is its own slug.  By the usual options these are the
texts of digits, lower-case letters, hyphens and marks in which no hyphen stands beside another one
or at an end. -/
theorem slug_normalForm [PatternLibrary] :
    (∀ (o : SlugOptions) (r : Char), o.remove = none → o.replacement = String.singleton r →
      IsJoint r → ∃ s, ofOptions? o = some s ∧ ∀ text,
        o.IsNormal r (s.slug text) ∧ s.slug (s.slug text) = s.slug text ∧
          (s.slug text = text ↔ o.IsNormal r text)) ∧
    ∀ text : List Char, (∀ c ∈ text, c.isLower = true ∨ c.isDigit = true ∨ c ∈ marks) →
      ¬['-', '-'] <:+: text → text.head? ≠ some '-' → text.getLast? ≠ some '-' →
      lowercase.slug text = text := by
  constructor
  · intro o r hremove hreplacement hr
    have h : JoinsBy ⟨o, none⟩ r := ⟨rfl, by rw [hreplacement]; exact String.toList_singleton r, hr⟩
    refine ⟨⟨o, none⟩, by simp [ofOptions?, hremove], fun text => ?_⟩
    have hnormal := isNormal_slug h text
    exact ⟨hnormal, slug_eq_self h hnormal, fun heq => heq ▸ hnormal, slug_eq_self h⟩
  · intro text hpart hapart hhead hlast
    exact slug_eq_self ⟨rfl, rfl, by decide⟩ (isNormal_lowercase hpart hapart hhead hlast)

/-- The blanks at both ends stay and are replaced, and what is no letter or digit is dropped. -/
theorem slug_normalForm_underscores :
    let o : SlugOptions :=
      { replacement := "_", lower := true, strict := true, trim := false }
    o.remove = none ∧ o.replacement = String.singleton '_' ∧ IsJoint '_' ∧
      ∃ s, ofOptions? o = some s ∧
        s.slug " Déjà  (vu)_50% ".toList = "_deja_vu_50percent_".toList ∧
        o.IsNormal '_' "_deja_vu_50percent_".toList ∧
        s.slug "_deja_vu_50percent_".toList = "_deja_vu_50percent_".toList := by
  intro o
  have hr : IsJoint '_' := by decide
  obtain ⟨s, hs, h⟩ := slug_normalForm.1 o '_' rfl rfl hr
  obtain rfl : s = ⟨o, none⟩ := (Option.some.inj hs).symm
  have hslug : slug ⟨o, none⟩ " Déjà  (vu)_50% ".toList = "_deja_vu_50percent_".toList := by
    decide +kernel
  obtain ⟨hnormal, hself, -⟩ := h " Déjà  (vu)_50% ".toList
  rw [hslug] at hnormal hself
  exact ⟨rfl, rfl, hr, _, hs, hslug, hnormal, hself⟩

end Slugger

end WikiPress
