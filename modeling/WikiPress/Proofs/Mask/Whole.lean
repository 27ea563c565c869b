import Mathlib.Data.List.Basic
import WikiPress.Proofs.Mask.Placeholder

/-!
# Texts with whole placeholders

A text has whole placeholders if the two characters of placeholders come in it only as placeholders
of spans of the mask.  This is what is known of the strings of a document that was read from a
masked source.  Each way to replace the placeholders of such a text leaves nothing of them.

## Main definitions

* `Mask.Whole` : a text with whole placeholders.
* `Mask.claimedIn` : the spans whose placeholders stand in a text.

## Main results

* `Mask.Whole.fills` : what a text becomes when its placeholders are replaced.
* `Mask.Whole.free_replace` : nothing of the placeholders is left.
* `Mask.Whole.free_of_mem_segments` : the same for the tokens that a text stands for.
* `Mask.Whole.takeWhile`, `Mask.Whole.flatMap` : changes of a text that keep its placeholders whole.
-/

namespace WikiPress.Mask

open Text

variable {m : Mask} {s t : List Char} {span : Span} {f : Span → List Char}

/-- The characters of placeholders come in the text only as placeholders of spans. -/
def Whole (m : Mask) (s : List Char) : Prop := ∃ t, Fills m Span.raw s t

/-- The spans whose placeholders stand in a text, from its start on. -/
def claimedIn (m : Mask) (s : List Char) : List Span :=
  (m.segments s).filterMap fun
    | .plain _ => none
    | .span span => some span

/-! ### Plain characters -/

/-- A class without the two characters of placeholders has plain characters only. -/
theorem isPlain_of_class {p : Char → Bool} (hopening : p opening = false)
    (hclosing : p closing = false) {c : Char} (hc : p c = true) : IsPlain c := by
  constructor
  · rintro rfl
    exact absurd hc (by simp [hopening])
  · rintro rfl
    exact absurd hc (by simp [hclosing])

theorem free_ofList_toDigits (n : Nat) : Free (toString n).toList := by
  show Free (String.ofList (Nat.toDigits 10 n)).toList
  rw [String.toList_ofList]
  exact free_toDigits n

theorem free_string_append {a b : String} (ha : Free a.toList) (hb : Free b.toList) :
    Free (a ++ b).toList := by
  rw [String.toList_append, free_append_iff]
  exact ⟨ha, hb⟩

/-- The characters of a placeholder are the two that mark it and digits. -/
theorem mem_placeholder {number : Nat} {c : Char} (hc : c ∈ placeholder number) :
    c = opening ∨ c.isDigit = true ∨ c = closing := by
  simp only [placeholder, List.mem_cons, List.mem_append, List.not_mem_nil, or_false] at hc
  rcases hc with rfl | hc | rfl
  · exact Or.inl rfl
  · exact Or.inr (Or.inl (Nat.isDigit_of_mem_toDigits (by decide) (by decide) hc))
  · exact Or.inr (Or.inr rfl)

theorem opening_mem_placeholder (number : Nat) : opening ∈ placeholder number :=
  List.mem_cons_self ..

/-! ### Whole placeholders -/

namespace Whole

theorem of_free (h : Free s) : m.Whole s := ⟨s, .of_free h⟩

theorem append (hs : m.Whole s) (ht : m.Whole t) : m.Whole (s ++ t) := by
  obtain ⟨s', hs'⟩ := hs
  obtain ⟨t', ht'⟩ := ht
  exact ⟨s' ++ t', hs'.append ht'⟩

theorem of_placeholder (number : Nat) (h : number < m.spans.length) :
    m.Whole (placeholder number) := by
  have hspan : m.spans[number]? = some m.spans[number] := List.getElem?_eq_getElem h
  exact ⟨_, by simpa using Fills.span (f := Span.raw) hspan .nil⟩

/-- What a text becomes when its placeholders are replaced. -/
theorem fills (h : m.Whole s) (f : Span → List Char) : Fills m f s (m.replace f s) := by
  obtain ⟨t, ht⟩ := h
  obtain ⟨t', ht'⟩ := ht.exists_other f
  rwa [ht'.replace_eq]

/-- Nothing is left of the placeholders that are replaced. -/
theorem free_replace (h : m.Whole s) (hf : ∀ span ∈ m.spans, Free (f span)) :
    Free (m.replace f s) :=
  (h.fills f).free hf

/-- A text without the opening character has no placeholders. -/
theorem free_of_opening_notMem (h : m.Whole s) (hs : opening ∉ s) : Free s := by
  obtain ⟨t, ht⟩ := h
  induction ht with
  | nil => exact free_nil
  | plain hc _ ih =>
    rw [List.mem_cons, not_or] at hs
    exact free_cons_iff.mpr ⟨hc, ih hs.2⟩
  | span => exact absurd (List.mem_append_left _ (opening_mem_placeholder _)) hs

theorem free_of_spans_eq_nil (h : m.Whole s) (hm : m.spans = []) : Free s := by
  obtain ⟨t, ht⟩ := h
  induction ht with
  | nil => exact free_nil
  | plain hc _ ih => exact free_cons_iff.mpr ⟨hc, ih⟩
  | span hspan =>
    rw [hm] at hspan
    simp at hspan

/-- The segments between the placeholders have no characters of placeholders. -/
theorem free_of_mem_segments (h : m.Whole s) (ht : .plain t ∈ m.segments s) : Free t := by
  have hplain : ∀ {u}, Free u → ∀ t, .plain t ∈ plainSegment u → Free t := by
    intro u hu t ht
    unfold plainSegment at ht
    split at ht
    · exact absurd ht List.not_mem_nil
    · rw [Segment.plain.inj (List.mem_singleton.mp ht)]
      exact hu
  obtain ⟨s', hs'⟩ := h
  -- A segment may have begun before; what of it has been read is free.
  suffices hread : ∀ u, Free u → .plain t ∈ m.segments (u ++ s) → Free t from
    hread [] free_nil ht
  clear ht
  induction hs' with
  | nil =>
    intro u hu ht
    rw [List.append_nil, segments_of_notMem hu.opening_notMem] at ht
    exact hplain hu t ht
  | @plain c s s' hc _ ih =>
    intro u hu ht
    refine ih (u ++ [c]) ?_ ?_
    · exact free_append_iff.mpr ⟨hu, free_cons_iff.mpr ⟨hc, free_nil⟩⟩
    · rwa [List.append_assoc, List.singleton_append]
  | @span number span s s' hspan _ ih =>
    intro u hu ht
    have hread := readSpan?_placeholder hspan s
    rw [placeholder, List.cons_append, List.append_assoc, List.singleton_append,
      segments_append_of_readSpan? hu.opening_notMem hread, List.mem_append, List.mem_cons] at ht
    rcases ht with ht | ht | ht
    · exact hplain hu t ht
    · cases ht
    · exact ih [] free_nil ht

/-- A start of a text that ends at the first character outside a class keeps whole placeholders if
all characters of placeholders are in the class. -/
theorem takeWhile {p : Char → Bool} (hopening : p opening = true) (hclosing : p closing = true)
    (hdigit : ∀ c, c.isDigit = true → p c = true) (h : m.Whole s) : m.Whole (s.takeWhile p) := by
  have hplaceholder : ∀ number, ∀ c ∈ placeholder number, p c = true := by
    intro number c hc
    rcases mem_placeholder hc with rfl | hc | rfl
    · exact hopening
    · exact hdigit c hc
    · exact hclosing
  obtain ⟨t, ht⟩ := h
  induction ht with
  | nil => exact ⟨[], .nil⟩
  | @plain c s t hc _ ih =>
    obtain ⟨t', ht'⟩ := ih
    rw [List.takeWhile_cons]
    split
    · exact ⟨_, .plain hc ht'⟩
    · exact ⟨[], .nil⟩
  | @span number span s t hspan _ ih =>
    obtain ⟨t', ht'⟩ := ih
    rw [List.takeWhile_append_of_pos (hplaceholder number)]
    exact ⟨_, .span hspan ht'⟩

/-- A change of single characters that leaves those of placeholders as they are. -/
theorem flatMap {g : Char → List Char} (hplain : ∀ c, IsPlain c → Free (g c))
    (hopening : g opening = [opening]) (hclosing : g closing = [closing])
    (hdigit : ∀ c, c.isDigit = true → g c = [c]) (h : m.Whole s) : m.Whole (s.flatMap g) := by
  have hplaceholder : ∀ number, (placeholder number).flatMap g = placeholder number := by
    intro number
    have hsame : ∀ c ∈ placeholder number, g c = [c] := by
      intro c hc
      rcases mem_placeholder hc with rfl | hc | rfl
      · exact hopening
      · exact hdigit c hc
      · exact hclosing
    rw [List.flatMap_congr hsame, List.flatMap_singleton']
  obtain ⟨t, ht⟩ := h
  induction ht with
  | nil => exact ⟨[], .nil⟩
  | @plain c s t hc _ ih =>
    rw [List.flatMap_cons]
    exact (of_free (hplain c hc)).append ih
  | @span number span s t hspan _ ih =>
    obtain ⟨t', ht'⟩ := ih
    rw [List.flatMap_append, hplaceholder]
    exact ⟨_, .span hspan ht'⟩

end Whole

/-! ### Claimed spans -/

theorem mem_spans_of_mem_claimedIn (h : span ∈ m.claimedIn s) : span ∈ m.spans := by
  obtain ⟨segment, hsegment, heq⟩ := List.mem_filterMap.mp h
  cases segment with
  | plain t => simp at heq
  | span span' =>
    obtain rfl : span' = span := Option.some.inj heq
    exact mem_spans_of_mem_segments s hsegment

theorem claimedIn_of_notMem (h : opening ∉ s) : m.claimedIn s = [] := by
  rw [claimedIn, segments_of_notMem h, plainSegment]
  split <;> rfl

theorem claimedIn_of_spans_eq_nil (h : m.spans = []) (s : List Char) : m.claimedIn s = [] := by
  refine List.eq_nil_iff_forall_not_mem.mpr fun span hspan => ?_
  have := mem_spans_of_mem_claimedIn hspan
  rw [h] at this
  exact absurd this List.not_mem_nil

end WikiPress.Mask
