import Mathlib.Data.List.Basic
import WikiPress.Proofs.Mask.Placeholder
import WikiPress.Proofs.Text.Blank

/-!
# Texts cut at their placeholders

Any text can be cut at the placeholders in it, however the two characters of placeholders stand in
it: lone, nested, without a number between them or with one that no span has.  A placeholder has its
two characters only at its ends, so two placeholders never overlap, and it does not matter in which
order they are looked for.  All ways to replace the placeholders of a text cut it at the same
places.

## Main definitions

* `Text.Writes` : a text writes a number.
* `Mask.IsPlaceholder` : a text stands for a span of the mask.
* `Mask.Part`, `Mask.IsCut` : a text in parts, cut at all its placeholders.
* `Mask.Segment.fill` : what is put in the place of a segment.

## Main results

* `Mask.readSpan?_eq_some_iff` : the reader finds a placeholder exactly if one begins there.
* `Mask.IsPlaceholder.eq_or_exists_of_append_eq` : placeholders do not overlap.
* `Mask.exists_isCut_segments` : the segments of a text are a cut.
* `Mask.IsCut.replace_eq` : every cut tells what a text becomes.
* `Mask.textOf_expand` : the plain text of a text is that of the tokens it stands for.
* `Mask.exists_isCut` : all of this, for each way to replace placeholders.
-/

namespace WikiPress

open Text

/-! ### Numbers -/

namespace Text

/-- A text is made of decimal digits, perhaps with zeros in front, that have a value. -/
structure HasDigits (s : List Char) (number : Nat) : Prop where
  ne_nil : s ≠ []
  isDigit : ∀ c ∈ s, c.isDigit = true
  value : Nat.ofDigitChars 10 s 0 = number

/-- A text writes a number in decimal digits, perhaps after a plus sign. -/
def Writes (s : List Char) (number : Nat) : Prop :=
  HasDigits s number ∨ ∃ digits, s = '+' :: digits ∧ HasDigits digits number

variable {most number : Nat} {s digits : List Char}

theorem hasDigits_iff : (if digits.isEmpty || !digits.all Char.isDigit then none
    else if digitsValue digits ≤ most then some (digitsValue digits) else none) = some number ↔
      HasDigits digits number ∧ number ≤ most := by
  have hvalue : digitsValue digits = Nat.ofDigitChars 10 digits 0 := rfl
  split
  · next hnot =>
    simp only [reduceCtorEq, false_iff, not_and]
    intro h
    simp [h.ne_nil, List.all_eq_true.mpr h.isDigit] at hnot
  · next hdigits =>
    simp only [Bool.or_eq_true, List.isEmpty_iff, Bool.not_eq_true', not_or, Bool.not_eq_false,
      List.all_eq_true] at hdigits
    rw [Option.ite_none_right_eq_some, Option.some.injEq]
    constructor
    · rintro ⟨hle, rfl⟩
      exact ⟨⟨hdigits.1, hdigits.2, rfl⟩, hle⟩
    · rintro ⟨h, hle⟩
      rw [hvalue, h.value]
      exact ⟨hle, rfl⟩

theorem HasDigits.head_ne (h : HasDigits s number) (digits : List Char) : s ≠ '+' :: digits := by
  rintro rfl
  exact absurd (h.isDigit '+' (List.mem_cons_self ..)) (by decide)

theorem readNumber?_eq_some_iff :
    readNumber? most s = some number ↔ Writes s number ∧ number ≤ most := by
  unfold readNumber?
  split
  · next digits =>
    rw [hasDigits_iff]
    refine and_congr_left fun _ => ⟨fun h => .inr ⟨digits, rfl, h⟩, ?_⟩
    rintro (h | ⟨_, heq, h⟩)
    · exact absurd rfl (h.head_ne digits)
    · rwa [(List.cons.inj heq).2]
  · next hplus =>
    rw [hasDigits_iff]
    refine and_congr_left fun _ => ⟨.inl, ?_⟩
    rintro (h | ⟨digits, rfl, -⟩)
    · exact h
    · exact absurd rfl (hplus digits)

end Text

namespace Mask

/-! ### Placeholders -/

/-- A text stands for a span of the mask: between the two characters of placeholders, it writes the
number of the span.  A number is written without these characters, so the second of them is the
first one of its kind that follows. -/
def IsPlaceholder (m : Mask) (p : List Char) (span : Span) : Prop :=
  ∃ numeral number, p = opening :: (numeral ++ [closing]) ∧ Writes numeral number ∧
    m.spans[number]? = some span

variable {m : Mask} {p q s t u v before after rest : List Char} {span span' : Span}

/-- A number is written without the characters of placeholders. -/
theorem free_of_writes {number : Nat} (h : Writes s number) : Free s := by
  rcases h with h | ⟨digits, rfl, h⟩
  · exact fun c hc => isPlain_of_isDigit (h.isDigit c hc)
  · exact free_cons_iff.mpr ⟨by decide, fun c hc => isPlain_of_isDigit (h.isDigit c hc)⟩

/-- The reader finds a placeholder exactly if one begins there. -/
theorem readSpan?_eq_some_iff :
    m.readSpan? s = some (span, rest) ↔ ∃ p, m.IsPlaceholder p span ∧ opening :: s = p ++ rest := by
  constructor
  · intro h
    unfold readSpan? at h
    dsimp only at h
    split at h
    · next c after hdrop =>
      simp only [Option.bind_eq_some_iff, Option.map_eq_some_iff, Prod.mk.injEq] at h
      obtain ⟨number, hnumber, _, hspan, rfl, rfl⟩ := h
      rw [drop_length_takeWhile] at hdrop
      have hclosing : c = closing := by
        have hhead : c ∈ (s.dropWhile (· ≠ closing)).head? := by rw [hdrop]; rfl
        simpa using eq_false_of_mem_head?_dropWhile hhead
      have hs : s.takeWhile (· ≠ closing) ++ closing :: after = s := by
        rw [hclosing] at hdrop
        rw [← hdrop, List.takeWhile_append_dropWhile]
      refine ⟨_, ⟨_, number, rfl, (readNumber?_eq_some_iff.mp hnumber).1, hspan⟩, ?_⟩
      rw [List.cons_append, List.append_assoc, List.singleton_append, hs]
    · exact nomatch h
  · rintro ⟨_, ⟨numeral, number, rfl, hnumber, hspan⟩, hs⟩
    obtain rfl : s = numeral ++ closing :: rest := by simpa using hs
    have hread : readNumber? m.spans.length numeral = some number :=
      readNumber?_eq_some_iff.mpr ⟨hnumber, (List.getElem?_eq_some_iff.mp hspan).1.le⟩
    rw [readSpan?_append (free_of_writes hnumber).closing_notMem, hread, Option.bind_some, hspan,
      Option.map_some]

namespace IsPlaceholder

theorem exists_eq_cons (h : m.IsPlaceholder p span) :
    ∃ tail, p = opening :: tail ∧ opening ∉ tail := by
  obtain ⟨numeral, number, rfl, hnumber, -⟩ := h
  refine ⟨_, rfl, fun hmem => ?_⟩
  rcases List.mem_append.mp hmem with hmem | hmem
  · exact (free_of_writes hnumber).opening_notMem hmem
  · exact absurd (List.mem_singleton.mp hmem) (by decide)

theorem ne_nil (h : m.IsPlaceholder p span) : p ≠ [] := by
  obtain ⟨tail, rfl, -⟩ := h.exists_eq_cons
  exact List.cons_ne_nil _ _

/-- What a placeholder stands for and where it ends is seen from its start. -/
theorem eq_of_append_eq (h : m.IsPlaceholder p span) (h' : m.IsPlaceholder q span')
    (heq : p ++ s = q ++ v) : p = q ∧ span = span' ∧ s = v := by
  obtain ⟨tail, rfl, -⟩ := h.exists_eq_cons
  have hread : m.readSpan? (tail ++ s) = some (span, s) := readSpan?_eq_some_iff.mpr ⟨_, h, rfl⟩
  have hread' : m.readSpan? (tail ++ s) = some (span', v) :=
    readSpan?_eq_some_iff.mpr ⟨q, h', heq⟩
  obtain ⟨rfl, rfl⟩ := Prod.mk.inj (Option.some.inj (hread.symm.trans hread'))
  exact ⟨List.append_cancel_right heq, rfl, rfl⟩

/-- Placeholders do not overlap. -/
theorem eq_or_exists_of_append_eq (h : m.IsPlaceholder p span) (h' : m.IsPlaceholder q span')
    (heq : p ++ s = u ++ (q ++ v)) :
    u = [] ∧ p = q ∧ span = span' ∧ s = v ∨ ∃ y, u = p ++ y ∧ s = y ++ (q ++ v) := by
  cases u with
  | nil => exact .inl ⟨rfl, h.eq_of_append_eq h' heq⟩
  | cons c u =>
    obtain ⟨y, hu, hs⟩ | ⟨y, hp, hs⟩ := List.append_eq_append_iff.mp heq
    · exact .inr ⟨y, hu, hs⟩
    · cases y with
      | nil => exact .inr ⟨[], by simpa using hp.symm, by simpa using hs.symm⟩
      | cons d y =>
        -- The second placeholder begins behind the start of the first one.
        obtain ⟨tail, rfl, htail⟩ := h.exists_eq_cons
        obtain ⟨tail', rfl, -⟩ := h'.exists_eq_cons
        obtain rfl : opening = d := (List.cons.inj hs).1
        rw [(List.cons.inj hp).2] at htail
        exact absurd (List.mem_append_right u (List.mem_cons_self ..)) htail

end IsPlaceholder

/-- Where the character that begins placeholders does not stand, no placeholder begins. -/
theorem exists_of_append_eq (h : m.IsPlaceholder p span) (ht : opening ∉ t)
    (heq : t ++ s = u ++ (p ++ v)) : ∃ y, u = t ++ y ∧ s = y ++ (p ++ v) := by
  obtain ⟨tail, rfl, -⟩ := h.exists_eq_cons
  obtain ⟨y, hu, hs⟩ | ⟨y, rfl, hs⟩ := List.append_eq_append_iff.mp heq
  · exact ⟨y, hu, hs⟩
  · cases y with
    | nil => exact ⟨[], by simp, by simpa using hs.symm⟩
    | cons d y =>
      obtain rfl : opening = d := (List.cons.inj hs).1
      exact absurd (List.mem_append_right u (List.mem_cons_self ..)) ht

/-! ### Cuts -/

/-- A part of a text with the segment that it is read as. -/
structure Part where
  text : List Char
  segment : Segment

/-- A part is plain text, as it is, or the placeholder of a span, and the latter exactly if its text
is one. -/
structure Part.IsRead (m : Mask) (part : Part) : Prop where
  plain : ∀ t, part.segment = .plain t → t = part.text
  span_iff : ∀ span, part.segment = .span span ↔ m.IsPlaceholder part.text span

/-- A text in parts, cut at all its placeholders: each placeholder that stands anywhere in the text
is a part of its own. -/
structure IsCut (m : Mask) (s : List Char) (parts : List Part) : Prop where
  flatMap_text : parts.flatMap Part.text = s
  isRead : ∀ part ∈ parts, part.IsRead m
  exists_part : ∀ u p span v, m.IsPlaceholder p span → s = u ++ (p ++ v) → ∃ before after,
    parts = before ++ ⟨p, .span span⟩ :: after ∧ before.flatMap Part.text = u ∧
      after.flatMap Part.text = v

/-- What is put in the place of a segment. -/
def Segment.fill (f : Span → List Char) : Segment → List Char
  | .plain t => t
  | .span span => f span

/-- What is put in the place of a part. -/
def Part.fill (f : Span → List Char) (part : Part) : List Char := part.segment.fill f

variable {part : Part} {parts : List Part} {f : Span → List Char}

theorem IsPlaceholder.isRead (h : m.IsPlaceholder p span) : Part.IsRead m ⟨p, .span span⟩ where
  plain _ heq := nomatch heq
  span_iff span' := by
    rw [Segment.span.injEq]
    refine ⟨fun heq => heq ▸ h, fun h' => ?_⟩
    exact (h.eq_of_append_eq h' (s := []) (v := []) rfl).2.1

namespace IsCut

theorem nil : m.IsCut [] [] where
  flatMap_text := rfl
  isRead _ h := absurd h List.not_mem_nil
  exists_part u p span v hp heq := by
    simp [hp.ne_nil] at heq

/-- A cut goes on in front with a placeholder. -/
theorem span_append (hp : m.IsPlaceholder p span) (h : m.IsCut s parts) :
    m.IsCut (p ++ s) (⟨p, .span span⟩ :: parts) where
  flatMap_text := by rw [List.flatMap_cons, h.flatMap_text]
  isRead := List.forall_mem_cons.mpr ⟨hp.isRead, h.isRead⟩
  exists_part u q span' v hq heq := by
    obtain ⟨rfl, rfl, rfl, rfl⟩ | ⟨y, rfl, hs⟩ := hp.eq_or_exists_of_append_eq hq heq
    · exact ⟨[], parts, rfl, rfl, h.flatMap_text⟩
    · obtain ⟨before, after, rfl, rfl, rfl⟩ := h.exists_part y q span' v hq hs
      exact ⟨⟨p, .span span⟩ :: before, after, rfl, by rw [List.flatMap_cons], rfl⟩

/-- A cut goes on in front with plain text in which no placeholder begins. -/
theorem plain_append
    (hnone : ∀ u p span v, m.IsPlaceholder p span → t ++ s = u ++ (p ++ v) → ∃ y, u = t ++ y)
    (h : m.IsCut s parts) : m.IsCut (t ++ s) (⟨t, .plain t⟩ :: parts) where
  flatMap_text := by rw [List.flatMap_cons, h.flatMap_text]
  isRead := by
    have hplain : ∀ span, ¬m.IsPlaceholder t span := by
      intro span hp
      obtain ⟨y, hy⟩ := hnone [] t span s hp rfl
      exact hp.ne_nil (List.append_eq_nil_iff.mp hy.symm).1
    exact List.forall_mem_cons.mpr
      ⟨⟨fun u heq => (Segment.plain.inj heq).symm, fun span => by simp [hplain]⟩, h.isRead⟩
  exists_part u p span v hp heq := by
    obtain ⟨y, rfl⟩ := hnone u p span v hp heq
    rw [List.append_assoc, List.append_cancel_left_eq] at heq
    obtain ⟨before, after, rfl, rfl, rfl⟩ := h.exists_part y p span v hp heq
    exact ⟨⟨t, .plain t⟩ :: before, after, rfl, by rw [List.flatMap_cons], rfl⟩

/-- Behind its first part, a cut goes on with a cut of the rest. -/
theorem exists_of_cons (h : m.IsCut s (part :: parts)) :
    ∃ rest, s = part.text ++ rest ∧ m.IsCut rest parts := by
  refine ⟨parts.flatMap Part.text, ?_, rfl, fun q hq => h.isRead q (List.mem_cons_of_mem _ hq), ?_⟩
  · rw [← h.flatMap_text, List.flatMap_cons]
  · intro u p span v hp heq
    obtain ⟨before, after, hparts, hu, hv⟩ := h.exists_part (part.text ++ u) p span v hp (by
      rw [← h.flatMap_text, List.flatMap_cons, heq, List.append_assoc])
    cases before with
    | nil =>
      -- The first part would be this placeholder, and then it would be empty.
      obtain ⟨rfl, -⟩ := List.cons.inj hparts
      exact absurd (List.append_eq_nil_iff.mp hu.symm).1 hp.ne_nil
    | cons first before =>
      obtain ⟨rfl, rfl⟩ := List.cons.inj hparts
      rw [List.flatMap_cons, List.append_cancel_left_eq] at hu
      exact ⟨before, after, rfl, hu, hv⟩

end IsCut

/-- A cut goes on in front with the segment of a text that has no placeholders, if it is not
empty. -/
theorem IsCut.exists_plainSegment_append (hnot : opening ∉ t) (h : m.IsCut s parts)
    (hne : ∀ part ∈ parts, part.text ≠ []) :
    ∃ parts', m.IsCut (t ++ s) parts' ∧
      parts'.map Part.segment = plainSegment t ++ parts.map Part.segment ∧
      ∀ part ∈ parts', part.text ≠ [] := by
  cases t with
  | nil => exact ⟨parts, h, rfl, hne⟩
  | cons c t =>
    refine ⟨⟨c :: t, .plain (c :: t)⟩ :: parts, .plain_append ?_ h, rfl,
      List.forall_mem_cons.mpr ⟨List.cons_ne_nil _ _, hne⟩⟩
    intro u p span v hp heq
    obtain ⟨y, hy, -⟩ := exists_of_append_eq hp hnot heq
    exact ⟨y, hy⟩

/-- The segments of a text are a cut, and none of its parts is empty. -/
theorem exists_isCut_segments (m : Mask) (s : List Char) :
    ∃ parts, m.IsCut s parts ∧ parts.map Part.segment = m.segments s ∧
      ∀ part ∈ parts, part.text ≠ [] := by
  induction s using segments_induction (m := m) with
  | plain s hs =>
    obtain ⟨parts, hcut, hsegments, hne⟩ := IsCut.nil.exists_plainSegment_append hs (by simp)
    rw [List.append_nil] at hcut
    rw [List.map_nil, List.append_nil, ← segments_of_notMem hs] at hsegments
    exact ⟨parts, hcut, hsegments, hne⟩
  | span before after span rest hnot hr ih =>
    obtain ⟨parts, hcut, hsegments, hne⟩ := ih
    obtain ⟨p, hp, heq⟩ := readSpan?_eq_some_iff.mp hr
    obtain ⟨parts', hcut', hsegments', hne'⟩ :=
      (hcut.span_append hp).exists_plainSegment_append hnot
        (List.forall_mem_cons.mpr ⟨hp.ne_nil, hne⟩)
    rw [← heq] at hcut'
    rw [List.map_cons, hsegments] at hsegments'
    exact ⟨parts', hcut', hsegments'.trans (segments_append_of_readSpan? hnot hr).symm, hne'⟩
  | stray before after hnot hr ih =>
    obtain ⟨parts, hcut, hsegments, hne⟩ := ih
    refine ⟨⟨before ++ [opening], .plain (before ++ [opening])⟩ :: parts, ?_, ?_, ?_⟩
    · have happend := hcut.plain_append (t := before ++ [opening]) ?_
      · rwa [List.append_assoc] at happend
      · intro u p span v hp heq
        rw [List.append_assoc] at heq
        obtain ⟨y, rfl, hy⟩ := exists_of_append_eq hp hnot heq
        cases y with
        | nil =>
          have hread : m.readSpan? after = some (span, v) :=
            readSpan?_eq_some_iff.mpr ⟨p, hp, hy⟩
          rw [hr] at hread
          exact nomatch hread
        | cons c y =>
          obtain rfl : opening = c := (List.cons.inj hy).1
          exact ⟨y, by simp⟩
    · rw [segments_append_of_none hnot hr, List.map_cons, hsegments]
    · exact List.forall_mem_cons.mpr ⟨by simp, hne⟩

/-! ### Replacing -/

theorem replace_append_of_isPlaceholder (f : Span → List Char) (h : m.IsPlaceholder p span) :
    m.replace f (p ++ s) = f span ++ m.replace f s := by
  obtain ⟨tail, rfl, -⟩ := h.exists_eq_cons
  have hread : m.readSpan? (tail ++ s) = some (span, s) := readSpan?_eq_some_iff.mpr ⟨_, h, rfl⟩
  exact replace_append_of_readSpan? f List.not_mem_nil hread

/-- Text in which no placeholder begins stays as it is. -/
theorem replace_append_of_plain (f : Span → List Char)
    (hnone : ∀ u p span v, m.IsPlaceholder p span → t ++ s = u ++ (p ++ v) → ∃ y, u = t ++ y) :
    m.replace f (t ++ s) = t ++ m.replace f s := by
  induction t with
  | nil => rfl
  | cons c t ih =>
    have htail : m.replace f (t ++ s) = t ++ m.replace f s := by
      refine ih fun u p span v hp heq => ?_
      obtain ⟨y, hy⟩ := hnone (c :: u) p span v hp (by rw [List.cons_append, heq]; rfl)
      exact ⟨y, (List.cons.inj hy).2⟩
    by_cases hc : c = opening
    · subst hc
      cases hr : m.readSpan? (t ++ s) with
      | some found =>
        obtain ⟨span, rest⟩ := found
        obtain ⟨p, hp, heq⟩ := readSpan?_eq_some_iff.mp hr
        obtain ⟨y, hy⟩ := hnone [] p span rest hp heq
        exact absurd hy (by simp)
      | none =>
        have hnone : opening ∉ [] := List.not_mem_nil
        have hstray := replace_append_of_none f hnone hr
        rw [List.nil_append, List.nil_append, htail] at hstray
        exact hstray
    · rw [List.cons_append, replace_cons_of_ne f hc, htail, List.cons_append]

/-- Every cut tells what a text becomes when its placeholders are replaced. -/
theorem IsCut.replace_eq (h : m.IsCut s parts) (f : Span → List Char) :
    m.replace f s = parts.flatMap (Part.fill f) := by
  induction parts generalizing s with
  | nil =>
    obtain rfl : [] = s := h.flatMap_text
    exact replace_of_notMem f List.not_mem_nil
  | cons part parts ih =>
    obtain ⟨rest, rfl, hrest⟩ := h.exists_of_cons
    have hread := h.isRead part (List.mem_cons_self ..)
    rw [List.flatMap_cons, ← ih hrest, Part.fill]
    cases hsegment : part.segment with
    | span span => exact replace_append_of_isPlaceholder f ((hread.span_iff span).mp hsegment)
    | plain t =>
      rw [Segment.fill, hread.plain t hsegment]
      refine replace_append_of_plain f fun u p span v hp heq => ?_
      obtain ⟨before, after, hparts, rfl, -⟩ := h.exists_part u p span v hp heq
      cases before with
      | nil =>
        obtain ⟨rfl, -⟩ := List.cons.inj hparts
        exact nomatch hsegment
      | cons first before =>
        obtain ⟨rfl, -⟩ := List.cons.inj hparts
        exact ⟨_, List.flatMap_cons⟩

/-! ### Tokens -/

theorem textOf_flatMap {α : Type*} (g : α → List Token) (as : List α) :
    textOf (as.flatMap g) = as.flatMap fun a => textOf (g a) := by
  rw [textOf, List.filter_flatMap, List.flatMap_assoc]
  rfl

theorem textOf_segmentTokens (segment : Segment) :
    textOf (segmentTokens segment) = segment.fill fun span => textOf span.tokens := by
  cases segment with
  | plain t => simp [segmentTokens, textOf, Token.ofText, Segment.fill]
  | span span => rfl

/-- A text has a placeholder only if it may have one. -/
theorem IsPlaceholder.holdsPlaceholder (h : m.IsPlaceholder p span) (u v : List Char) :
    m.holdsPlaceholder (u ++ (p ++ v)) = true := by
  obtain ⟨tail, rfl, -⟩ := h.exists_eq_cons
  obtain ⟨numeral, number, -, -, hspan⟩ := h
  rw [← Bool.not_eq_false, holdsPlaceholder_eq_false_iff, not_or]
  refine ⟨fun hspans => ?_, fun hmark => hmark (by simp)⟩
  rw [hspans] at hspan
  simp at hspan

/-- A text without placeholders is a part of its own. -/
theorem isCut_singleton (h : m.holdsPlaceholder s = false) : m.IsCut s [⟨s, .plain s⟩] := by
  have happend := IsCut.nil.plain_append (m := m) (t := s) fun u p span v hp heq => by
    rw [List.append_nil] at heq
    rw [heq, hp.holdsPlaceholder u v] at h
    exact nomatch h
  rwa [List.append_nil] at happend

/-- The tokens that a text stands for are those of the parts of a cut. -/
theorem exists_isCut_expand (m : Mask) (s : List Char) :
    ∃ parts, m.IsCut s parts ∧ m.expand s = parts.flatMap fun part => segmentTokens part.segment := by
  unfold expand
  split
  · next h =>
    rw [Bool.not_eq_true'] at h
    exact ⟨_, isCut_singleton h, by simp [segmentTokens]⟩
  · obtain ⟨parts, hcut, hsegments, -⟩ := exists_isCut_segments m s
    exact ⟨parts, hcut, by rw [← hsegments, List.flatMap_map]⟩

/-- The plain text of a text is made of the contents of the text tokens that it stands for. -/
theorem textOf_expand (m : Mask) (s : List Char) : textOf (m.expand s) = m.restorePlain s := by
  obtain ⟨parts, hcut, hexpand⟩ := exists_isCut_expand m s
  rw [hexpand, textOf_flatMap, restorePlain, hcut.replace_eq]
  exact List.flatMap_congr fun part _ => textOf_segmentTokens part.segment

/-- **The four ways to replace the placeholders of a text agree on what they are.**  The segments
of any text are a cut of it: its parts, none of them empty, make up the text, a part is read as a
span exactly if its text is a placeholder of that span, and each placeholder in the text is such a
part.  Whichever cut of the text is looked at, putting the claimed text back, the plain text of the
spans in, or the claimed text back into HTML replaces its placeholders and keeps its other parts as
they are.  The plain text is made of the contents of the text tokens that the text stands for.
These tokens are those of the parts of a cut, so that the text with the claimed text put back is
what the same parts give with the claimed text in the place of the tokens of each span. -/
theorem exists_isCut (m : Mask) (s : List Char) :
    (∃ parts, m.IsCut s parts ∧ parts.map Part.segment = m.segments s ∧
      ∀ part ∈ parts, part.text ≠ []) ∧
    (∀ parts, m.IsCut s parts →
      m.restore s = parts.flatMap (Part.fill Span.raw) ∧
      m.restorePlain s = parts.flatMap (Part.fill fun span => textOf span.tokens) ∧
      m.restoreHtml s = parts.flatMap (Part.fill fun span => Html.escapeText span.raw)) ∧
    m.restorePlain s = textOf (m.expand s) ∧
    ∃ parts, m.IsCut s parts ∧
      m.expand s = (parts.flatMap fun part => segmentTokens part.segment) ∧
      m.restore s = parts.flatMap (Part.fill Span.raw) := by
  obtain ⟨parts, hcut, hexpand⟩ := exists_isCut_expand m s
  refine ⟨exists_isCut_segments m s, fun parts hcut => ⟨?_, ?_, ?_⟩, ?_, parts, hcut, hexpand, ?_⟩
  · exact hcut.replace_eq _
  · exact hcut.replace_eq _
  · exact hcut.replace_eq _
  · exact (textOf_expand m s).symm
  · exact hcut.replace_eq _

/-- A lone opening character, zeros behind a plus sign, and a number that no span has. -/
example : (⟨[], [⟨"[[a]]".toList, []⟩]⟩ : Mask).restore
    "\uE000\uE000+00\uE001\uE0001\uE001".toList = "\uE000[[a]]\uE0001\uE001".toList := by
  decide +kernel

end Mask

end WikiPress
