import WikiPress.Mask.Basic
import WikiPress.Proofs.Text.Offset

/-!
# Whole placeholders

A text whose placeholders are whole is a row of characters that are not of placeholders and of
placeholders that spans of the mask have.  Reading such a text back finds exactly these
placeholders, so that what is put in their place is known without the reader: the relation `Fills`
says what it is.  A cut of the text that does not fall inside a placeholder leaves whole
placeholders on both sides.

## Main definitions

* `Mask.IsPlain`, `Mask.Free` : characters and texts that are not of placeholders.
* `Mask.Fills` : a text and what it becomes when its placeholders are replaced.
* `Mask.Parts`, `Mask.PartsAll` : a text in parts, with no placeholder cut apart.

## Main results

* `Mask.segments_append_of_readSpan?`, `Mask.segments_append_of_none` : one step of the reader.
* `Mask.Fills.replace_eq` : the reader replaces what `Fills` says.
* `Mask.Fills.exists_append` : a text with whole placeholders is cut together with its filling.
* `Mask.mem_spans_of_mem_segments` : the reader finds only spans of the mask.
-/

namespace WikiPress.Mask

open Text

/-- A character that is neither of the two of placeholders. -/
def IsPlain (c : Char) : Prop := c ≠ opening ∧ c ≠ closing

instance (c : Char) : Decidable (IsPlain c) := inferInstanceAs (Decidable (_ ∧ _))

/-- A text without the two characters of placeholders. -/
def Free (s : List Char) : Prop := ∀ c ∈ s, IsPlain c

instance (s : List Char) : Decidable (Free s) := List.decidableBAll IsPlain s

/-- The second text is the first one with the placeholders of spans replaced; but for these the
first one has no character of placeholders. -/
inductive Fills (m : Mask) (f : Span → List Char) : List Char → List Char → Prop
  | nil : Fills m f [] []
  | plain {c : Char} {s t : List Char} : IsPlain c → Fills m f s t → Fills m f (c :: s) (c :: t)
  | span {number : Nat} {span : Span} {s t : List Char} : m.spans[number]? = some span →
      Fills m f s t → Fills m f (placeholder number ++ s) (f span ++ t)

/-- A text in two parts, with the placeholder of no span cut apart. -/
def Parts (m : Mask) (s t : List Char) : Prop :=
  ∀ number < m.spans.length, ∀ u w, s ++ t = u ++ placeholder number ++ w →
    s.length ≤ u.length ∨ (u ++ placeholder number).length ≤ s.length

/-- A text in parts, with the placeholder of no span cut apart. -/
def PartsAll (m : Mask) (parts : List (List Char)) : Prop :=
  ∀ before after, parts = before ++ after → m.Parts before.flatten after.flatten

/-! ### Free texts -/

section Free

variable {s t : List Char}

@[simp] theorem free_nil : Free [] := fun _ h => absurd h List.not_mem_nil

@[simp] theorem free_cons_iff {c : Char} : Free (c :: s) ↔ IsPlain c ∧ Free s :=
  List.forall_mem_cons

@[simp] theorem free_append_iff : Free (s ++ t) ↔ Free s ∧ Free t := List.forall_mem_append

theorem Free.of_subset (h : Free t) (hst : s ⊆ t) : Free s := fun c hc => h c (hst hc)

theorem Free.flatMap {α : Type*} {f : α → List Char} {as : List α} (hf : ∀ a ∈ as, Free (f a)) :
    Free (as.flatMap f) := by
  intro c hc
  obtain ⟨a, ha, hca⟩ := List.mem_flatMap.mp hc
  exact hf a ha c hca

theorem Free.opening_notMem (h : Free s) : opening ∉ s := fun hmem => (h _ hmem).1 rfl

theorem Free.closing_notMem (h : Free s) : closing ∉ s := fun hmem => (h _ hmem).2 rfl

theorem isPlain_of_isDigit {c : Char} (h : c.isDigit = true) : IsPlain c := by
  constructor <;>
  · rintro rfl
    exact absurd h (by decide)

theorem free_toDigits (n : Nat) : Free (Nat.toDigits 10 n) := fun _ hc =>
  isPlain_of_isDigit (Nat.isDigit_of_mem_toDigits (by decide) (by decide) hc)

end Free

/-! ### The reader -/

variable {m : Mask} {s t before after rest : List Char} {span : Span} {f g : Span → List Char}

/-- What is read in front of the first closing character is a number, or there is no span. -/
theorem readSpan?_append {digits : List Char} (h : closing ∉ digits) (rest : List Char) :
    m.readSpan? (digits ++ closing :: rest) =
      (readNumber? m.spans.length digits).bind fun number =>
        m.spans[number]?.map fun span => (span, rest) := by
  simp only [readSpan?, takeWhile_ne_append_cons h, List.drop_left]

theorem readSpan?_of_notMem (h : closing ∉ s) : m.readSpan? s = none := by
  simp only [readSpan?, takeWhile_ne_eq_self h, List.drop_length]

/-- The number of a span of the mask is read from its placeholder. -/
theorem readSpan?_placeholder {number : Nat} (h : m.spans[number]? = some span)
    (s : List Char) : m.readSpan? (Nat.toDigits 10 number ++ closing :: s) = some (span, s) := by
  have hlt : number < m.spans.length := (List.getElem?_eq_some_iff.mp h).1
  rw [readSpan?_append (free_toDigits number).closing_notMem, readNumber?_toDigits hlt.le,
    Option.bind_some, h, Option.map_some]

theorem mem_spans_of_readSpan? (h : m.readSpan? s = some (span, rest)) : span ∈ m.spans := by
  simp only [readSpan?] at h
  split at h
  · obtain ⟨number, -, hspan⟩ := Option.bind_eq_some_iff.mp h
    obtain ⟨span', hget, heq⟩ := Option.map_eq_some_iff.mp hspan
    obtain ⟨rfl, -⟩ := Prod.mk.inj heq
    exact List.mem_of_getElem? hget
  · simp at h

theorem readSpan?_of_spans_eq_nil (h : m.spans = []) (s : List Char) : m.readSpan? s = none := by
  cases hr : m.readSpan? s with
  | none => rfl
  | some r =>
    obtain ⟨span, rest⟩ := r
    have := mem_spans_of_readSpan? hr
    rw [h] at this
    exact absurd this List.not_mem_nil

theorem takeWhile_opening (h : opening ∉ before) (after : List Char) :
    (before ++ opening :: after).takeWhile (· ≠ opening) = before ∧
      (before ++ opening :: after).dropWhile (· ≠ opening) = opening :: after := by
  refine ⟨takeWhile_ne_append_cons h after, ?_⟩
  rw [← drop_length_takeWhile, takeWhile_ne_append_cons h, List.drop_left]

/-- A text without the opening character is one segment. -/
theorem segments_of_notMem (h : opening ∉ s) : m.segments s = plainSegment s := by
  have hall : ∀ c ∈ s, (decide (c ≠ opening)) = true := fun c hc => by
    rw [decide_eq_true_eq]
    rintro rfl
    exact h hc
  rw [segments]
  split
  · rw [List.takeWhile_eq_self_iff.mpr hall]
  · next heq =>
    rw [List.dropWhile_eq_nil_iff.mpr hall] at heq
    exact absurd heq (List.cons_ne_nil _ _).symm

/-- A placeholder is a segment of its own. -/
theorem segments_append_of_readSpan? (hbefore : opening ∉ before)
    (h : m.readSpan? after = some (span, rest)) :
    m.segments (before ++ opening :: after) =
      plainSegment before ++ .span span :: m.segments rest := by
  obtain ⟨htake, hdrop⟩ := takeWhile_opening hbefore after
  rw [segments]
  split
  · next heq =>
    rw [hdrop] at heq
    exact absurd heq (List.cons_ne_nil _ _)
  · next heq =>
    rw [hdrop] at heq
    obtain ⟨rfl, rfl⟩ := List.cons.inj heq
    split
    · next hr =>
      rw [h] at hr
      obtain ⟨rfl, rfl⟩ := Prod.mk.inj (Option.some.inj hr)
      rw [htake]
    · next hr => simp [h] at hr

/-- An opening character that begins no placeholder ends a segment. -/
theorem segments_append_of_none (hbefore : opening ∉ before) (h : m.readSpan? after = none) :
    m.segments (before ++ opening :: after) =
      .plain (before ++ [opening]) :: m.segments after := by
  obtain ⟨htake, hdrop⟩ := takeWhile_opening hbefore after
  rw [segments]
  split
  · next heq =>
    rw [hdrop] at heq
    exact absurd heq (List.cons_ne_nil _ _)
  · next heq =>
    rw [hdrop] at heq
    obtain ⟨rfl, rfl⟩ := List.cons.inj heq
    split
    · next hr => simp [h] at hr
    · rw [htake]

/-- The segments of a text are met from its start on: a text without the opening character, one
that goes on with a placeholder, and one that goes on with a lone opening character. -/
theorem segments_induction {P : List Char → Prop} (plain : ∀ s, opening ∉ s → P s)
    (span : ∀ before after span rest, opening ∉ before → m.readSpan? after = some (span, rest) →
      P rest → P (before ++ opening :: after))
    (stray : ∀ before after, opening ∉ before → m.readSpan? after = none →
      P after → P (before ++ opening :: after)) (s : List Char) : P s := by
  induction hk : s.length using Nat.strongRecOn generalizing s with
  | ind k ih =>
    by_cases hs : opening ∈ s
    · obtain ⟨before, after, rfl, hbefore⟩ := List.eq_append_cons_of_mem hs
      rw [List.length_append, List.length_cons] at hk
      cases hr : m.readSpan? after with
      | some r =>
        obtain ⟨span', rest⟩ := r
        have := length_lt_of_readSpan? hr
        exact span _ _ _ _ hbefore hr (ih _ (by omega) _ rfl)
      | none => exact stray _ _ hbefore hr (ih _ (by omega) _ rfl)
    · exact plain s hs

theorem mem_spans_of_mem_segments (s : List Char) (h : .span span ∈ m.segments s) :
    span ∈ m.spans := by
  have hplain : ∀ t, .span span ∉ plainSegment t := by
    intro t ht
    unfold plainSegment at ht
    split at ht <;> simp at ht
  induction s using segments_induction (m := m) with
  | plain s hs =>
    rw [segments_of_notMem hs] at h
    exact absurd h (hplain s)
  | span before after span' rest hbefore hr ih =>
    rw [segments_append_of_readSpan? hbefore hr, List.mem_append, List.mem_cons] at h
    rcases h with h | h | h
    · exact absurd h (hplain before)
    · obtain rfl := Segment.span.inj h
      exact mem_spans_of_readSpan? hr
    · exact ih h
  | stray before after hbefore hr ih =>
    rw [segments_append_of_none hbefore hr, List.mem_cons] at h
    exact ih (h.resolve_left (by simp))

/-! ### Replacing -/

theorem flatMap_plainSegment {f : Segment → List Char} (hf : ∀ t, f (.plain t) = t)
    (s : List Char) : (plainSegment s).flatMap f = s := by
  unfold plainSegment
  split
  · next h => rw [List.isEmpty_iff.mp h, List.flatMap_nil]
  · rw [List.flatMap_singleton, hf]

theorem holdsPlaceholder_eq_false_iff :
    m.holdsPlaceholder s = false ↔ m.spans = [] ∨ opening ∉ s := by
  simp only [holdsPlaceholder, Bool.and_eq_false_iff, Bool.not_eq_false', List.isEmpty_iff,
    List.contains_eq_mem, decide_eq_false_iff_not]

/-- A text that has no placeholders for sure has none when it is read, and stays as it is. -/
theorem flatMap_segments_of_holdsPlaceholder {g : Segment → List Char}
    (hg : ∀ t, g (.plain t) = t) (h : m.holdsPlaceholder s = false) :
    (m.segments s).flatMap g = s := by
  induction s using segments_induction (m := m) with
  | plain s hs => rw [segments_of_notMem hs, flatMap_plainSegment hg]
  | span before after span rest hbefore hr ih =>
    rcases holdsPlaceholder_eq_false_iff.mp h with hspans | hmark
    · rw [readSpan?_of_spans_eq_nil hspans] at hr
      exact nomatch hr
    · exact absurd (by simp) hmark
  | stray before after hbefore hr ih =>
    rcases holdsPlaceholder_eq_false_iff.mp h with hspans | hmark
    · rw [segments_append_of_none hbefore hr, List.flatMap_cons, hg,
        ih (holdsPlaceholder_eq_false_iff.mpr (.inl hspans)), List.append_assoc]
      rfl
    · exact absurd (by simp) hmark

/-- Whether a text may have placeholders is asked only to save the work. -/
theorem replace_eq_flatMap (m : Mask) (f : Span → List Char) (s : List Char) :
    m.replace f s = (m.segments s).flatMap fun
      | .plain t => t
      | .span span => f span := by
  unfold replace
  split
  · next h =>
    rw [Bool.not_eq_true'] at h
    exact (flatMap_segments_of_holdsPlaceholder (fun _ => rfl) h).symm
  · rfl

theorem replace_of_notMem (f : Span → List Char) (h : opening ∉ s) : m.replace f s = s := by
  rw [replace_eq_flatMap, segments_of_notMem h, flatMap_plainSegment fun _ => rfl]

theorem replace_append_of_readSpan? (f : Span → List Char) (hbefore : opening ∉ before)
    (h : m.readSpan? after = some (span, rest)) :
    m.replace f (before ++ opening :: after) = before ++ (f span ++ m.replace f rest) := by
  rw [replace_eq_flatMap, segments_append_of_readSpan? hbefore h, List.flatMap_append, List.flatMap_cons,
    flatMap_plainSegment fun _ => rfl, replace_eq_flatMap]

theorem replace_append_of_none (f : Span → List Char) (hbefore : opening ∉ before)
    (h : m.readSpan? after = none) :
    m.replace f (before ++ opening :: after) = before ++ opening :: m.replace f after := by
  rw [replace_eq_flatMap, segments_append_of_none hbefore h, List.flatMap_cons,
    List.append_assoc, replace_eq_flatMap]
  rfl

theorem replace_cons_of_ne (f : Span → List Char) {c : Char} (hc : c ≠ opening) (s : List Char) :
    m.replace f (c :: s) = c :: m.replace f s := by
  have hcons : ∀ {t}, opening ∉ t → opening ∉ c :: t := fun ht =>
    List.not_mem_cons_of_ne_of_not_mem hc.symm ht
  by_cases hs : opening ∈ s
  · obtain ⟨before, after, rfl, hbefore⟩ := List.eq_append_cons_of_mem hs
    rw [← List.cons_append]
    cases hr : m.readSpan? after with
    | some r =>
      obtain ⟨span, rest⟩ := r
      rw [replace_append_of_readSpan? f (hcons hbefore) hr,
        replace_append_of_readSpan? f hbefore hr]
      rfl
    | none =>
      rw [replace_append_of_none f (hcons hbefore) hr, replace_append_of_none f hbefore hr]
      rfl
  · rw [replace_of_notMem f (hcons hs), replace_of_notMem f hs]

/-- Without spans there are no placeholders, and a text stays as it is. -/
theorem replace_of_spans_eq_nil (f : Span → List Char) (h : m.spans = []) (s : List Char) :
    m.replace f s = s := by
  rw [replace_eq_flatMap, flatMap_segments_of_holdsPlaceholder (fun _ => rfl)
    (holdsPlaceholder_eq_false_iff.mpr (.inl h))]

/-! ### Filling -/

/-- What is cut between placeholders is also cut between them without its first part. -/
theorem Parts.of_append {u : List Char} (h : m.Parts (u ++ s) t) : m.Parts s t := by
  intro number hnumber v w heq
  have := h number hnumber (u ++ v) w (by rw [List.append_assoc, heq]; simp only [List.append_assoc])
  simp only [List.length_append] at this ⊢
  omega

theorem PartsAll.tail {part : List Char} {parts : List (List Char)}
    (h : m.PartsAll (part :: parts)) : m.PartsAll parts := by
  intro before after heq
  have := h (part :: before) after (by rw [heq]; rfl)
  rw [List.flatten_cons] at this
  exact this.of_append

namespace Fills

theorem append {s' t' : List Char} (h : Fills m f s t) (h' : Fills m f s' t') :
    Fills m f (s ++ s') (t ++ t') := by
  induction h with
  | nil => exact h'
  | plain hc _ ih => exact .plain hc ih
  | span hspan _ ih =>
    rw [List.append_assoc, List.append_assoc]
    exact .span hspan ih

theorem of_free (h : Free s) : Fills m f s s := by
  induction s with
  | nil => exact .nil
  | cons c s ih => exact .plain (free_cons_iff.mp h).1 (ih (free_cons_iff.mp h).2)

/-- A text that can be filled in one way can be filled in any other. -/
theorem exists_other (h : Fills m f s t) (g : Span → List Char) : ∃ t', Fills m g s t' := by
  induction h with
  | nil => exact ⟨[], .nil⟩
  | plain hc _ ih =>
    obtain ⟨t', ht⟩ := ih
    exact ⟨_, .plain hc ht⟩
  | span hspan _ ih =>
    obtain ⟨t', ht⟩ := ih
    exact ⟨_, .span hspan ht⟩

/-- The reader replaces the placeholders that were written, and nothing else. -/
theorem replace_eq (h : Fills m f s t) : m.replace f s = t := by
  induction h with
  | nil => exact replace_of_notMem f List.not_mem_nil
  | plain hc _ ih => rw [replace_cons_of_ne f hc.1, ih]
  | @span number span s t hspan _ ih =>
    have hread := readSpan?_placeholder hspan s
    have hreplace : m.replace f ([] ++ opening :: _) = _ :=
      replace_append_of_readSpan? f List.not_mem_nil hread
    rw [List.nil_append, List.nil_append, ih] at hreplace
    rw [placeholder, List.cons_append, List.append_assoc]
    exact hreplace

/-- What is filled in is free of the characters of placeholders if the spans are. -/
theorem free (h : Fills m f s t) (hf : ∀ span ∈ m.spans, Free (f span)) : Free t := by
  induction h with
  | nil => exact free_nil
  | plain hc _ ih => exact free_cons_iff.mpr ⟨hc, ih⟩
  | span hspan _ ih => exact free_append_iff.mpr ⟨hf _ (List.mem_of_getElem? hspan), ih⟩

/-- A cut that parts no placeholder cuts the filling as well. -/
theorem exists_append {s' : List Char} (h : Fills m f (s ++ s') t) (hparts : m.Parts s s') :
    ∃ u u', t = u ++ u' ∧ Fills m f s u ∧ Fills m f s' u' := by
  generalize hr : s ++ s' = r at h
  induction h generalizing s with
  | nil =>
    obtain ⟨rfl, rfl⟩ := List.append_eq_nil_iff.mp hr
    exact ⟨[], [], rfl, .nil, .nil⟩
  | @plain c r t hc hfill ih =>
    rcases List.append_eq_cons_iff.mp hr with ⟨rfl, rfl⟩ | ⟨s, rfl, rfl⟩
    · exact ⟨[], c :: t, rfl, .nil, .plain hc hfill⟩
    · have hparts' : m.Parts s s' := Parts.of_append (u := [c]) hparts
      obtain ⟨u, u', rfl, hs, hs'⟩ := ih hparts' rfl
      exact ⟨c :: u, u', rfl, .plain hc hs, hs'⟩
  | @span number span r t hspan hfill ih =>
    have hlt : number < m.spans.length := (List.getElem?_eq_some_iff.mp hspan).1
    rcases hparts number hlt [] r (by simpa using hr) with hle | hle
    · obtain rfl := List.eq_nil_of_length_eq_zero (Nat.le_zero.mp hle)
      rw [List.nil_append] at hr
      exact ⟨[], _, rfl, .nil, hr ▸ .span hspan hfill⟩
    · rw [List.nil_append] at hle
      have hpre : placeholder number <+: s :=
        List.prefix_of_prefix_length_le ⟨r, hr.symm⟩ (List.prefix_append s s') hle
      obtain ⟨s, rfl⟩ := hpre
      rw [List.append_assoc, List.append_cancel_left_eq] at hr
      obtain ⟨u, u', rfl, hs, hs'⟩ := ih hparts.of_append hr
      exact ⟨f span ++ u, u', (List.append_assoc ..).symm, .span hspan hs, hs'⟩

/-- The parts of a text with whole placeholders are filled one by one. -/
theorem flatMap_replace {parts : List (List Char)} (h : Fills m f parts.flatten t)
    (hparts : m.PartsAll parts) : parts.flatMap (m.replace f) = t := by
  induction parts generalizing t with
  | nil => exact (replace_eq h).symm.trans (replace_of_notMem f List.not_mem_nil) |>.symm
  | cons part parts ih =>
    have hpart : m.Parts part parts.flatten := by
      simpa using hparts [part] parts rfl
    obtain ⟨u, u', rfl, hu, hu'⟩ := exists_append h hpart
    rw [List.flatMap_cons, hu.replace_eq, ih hu' hparts.tail]

/-- But for placeholders and their digits, a character comes from the filling. -/
theorem mem_of_mem {c : Char} (h : Fills m f s t) (hc : c ∈ s) (hplain : IsPlain c)
    (hdigit : c.isDigit = false) : c ∈ t := by
  induction h with
  | nil => exact hc
  | plain _ _ ih =>
    rcases List.mem_cons.mp hc with rfl | hc
    · exact List.mem_cons_self ..
    · exact List.mem_cons_of_mem _ (ih hc)
  | @span number span s t hspan _ ih =>
    rcases List.mem_append.mp hc with hc | hc
    · simp only [placeholder, List.mem_cons, List.mem_append, List.not_mem_nil, or_false] at hc
      rcases hc with rfl | hc | rfl
      · exact absurd rfl hplain.1
      · have := Nat.isDigit_of_mem_toDigits (b := 10) (by decide) (by decide) hc
        rw [this] at hdigit
        exact absurd hdigit (by decide)
      · exact absurd rfl hplain.2
    · exact List.mem_append_right _ (ih hc)

end Fills

end WikiPress.Mask
