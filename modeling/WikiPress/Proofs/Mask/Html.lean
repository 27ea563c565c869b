import WikiPress.Proofs.Html.Scanner
import WikiPress.Proofs.Mask.Cut
import WikiPress.Wikilink

/-!
# Claimed text in HTML

Claimed text is put back into HTML with references for the characters that are special between tags.
In a value between double quotes these are not all: the quote itself would end the value.  So the
tags of the HTML and the keys of their attributes stay as they are if no claimed text with a double
quote stands in such a value, and any claimed text with a double quote changes them in some HTML.

## Main definitions

* `Mask.StandsInTexts` : placeholders stand only between tags and in values between double quotes.
* `Mask.InValue` : a span has a placeholder in a value between double quotes.

## Main results

* `Mask.tagHeads_restoreHtml` : when claimed text that is put back leaves the tags as they are.
* `Mask.exists_tagHeads_restoreHtml_ne` : claimed text that adds an attribute to a tag.
-/

namespace WikiPress.Mask

open Text Html

/-- Placeholders stand only between tags and in values between double quotes. -/
def StandsInTexts (m : Mask) (html : List Char) : Prop :=
  ∀ before p span after, m.IsPlaceholder p span → html = before ++ (p ++ after) →
    modeBehind before = .text ∨ (modeBehind before).isDoubleQuoted = true

/-- A placeholder of a span stands in a value between double quotes. -/
def InValue (m : Mask) (html : List Char) (span : Span) : Prop :=
  ∃ before p after, m.IsPlaceholder p span ∧ html = before ++ (p ++ after) ∧
    (modeBehind before).isDoubleQuoted = true

/-- The span whose placeholder begins at a place in a text. -/
def spanAt? (m : Mask) (s : List Char) (i : Nat) : Option Span :=
  match s.drop i with
  | c :: rest => if c = opening then (m.readSpan? rest).map Prod.fst else none
  | [] => none

variable {m : Mask} {p html s : List Char} {span : Span} {number : Nat} {z : TagScanner}
  {c d : Char}

/-! ### What is put into a text -/

theorem of_mem_escapeTextChar (h : c ∈ escapeTextChar d) :
    c ≠ '<' ∧ c ≠ '>' ∧ (c = '\x22' → d = '\x22') := by
  have hreference : ∀ s : List Char, s.all (fun c => c ≠ '<' ∧ c ≠ '>' ∧ c ≠ '\x22') = true →
      c ∈ s → c ≠ '<' ∧ c ≠ '>' ∧ (c = '\x22' → d = '\x22') := fun s hs hc => by
    obtain ⟨hlt, hgt, hquote⟩ := of_decide_eq_true (List.all_eq_true.mp hs c hc)
    exact ⟨hlt, hgt, fun heq => absurd heq hquote⟩
  unfold escapeTextChar escapeChar at h
  split_ifs at h with hquote hamp hlt hgt
  · obtain rfl := List.mem_singleton.mp h
    exact ⟨hquote ▸ by decide, hquote ▸ by decide, id⟩
  · exact hreference _ (by decide) h
  · exact hreference _ (by decide) h
  · exact hreference _ (by decide) h
  · obtain rfl := List.mem_singleton.mp h
    exact ⟨hlt, hgt, id⟩

theorem bracket_notMem_escapeText (s : List Char) : '<' ∉ escapeText s ∧ '>' ∉ escapeText s := by
  constructor <;>
  · intro h
    obtain ⟨d, -, hd⟩ := List.mem_flatMap.mp h
    simpa using of_mem_escapeTextChar hd

theorem quote_notMem_escapeText (hs : '\x22' ∉ s) : '\x22' ∉ escapeText s := fun h => by
  obtain ⟨d, hmem, hd⟩ := List.mem_flatMap.mp h
  exact hs ((of_mem_escapeTextChar hd).2.2 rfl ▸ hmem)

/-- A placeholder has no brackets and no quotes. -/
theorem IsPlaceholder.notMem (h : m.IsPlaceholder p span) : '<' ∉ p ∧ '\x22' ∉ p := by
  obtain ⟨numeral, number, rfl, hnumber, -⟩ := h
  have hnumeral : ∀ c ∈ numeral, c.isDigit = true ∨ c = '+' := by
    rcases hnumber with h | ⟨digits, rfl, h⟩
    · exact fun c hc => .inl (h.isDigit c hc)
    · exact fun c hc => (List.mem_cons.mp hc).symm.imp_left (h.isDigit c)
  constructor <;>
  · intro hmem
    simp only [List.mem_cons, List.mem_append, List.not_mem_nil, or_false] at hmem
    rcases hmem with heq | hmem | heq
    · exact absurd heq (by decide)
    · exact absurd (hnumeral _ hmem) (by decide)
    · exact absurd heq (by decide)

theorem isPlaceholder_placeholder (h : m.spans[number]? = some span) :
    m.IsPlaceholder (placeholder number) span :=
  ⟨_, number, rfl, (readNumber?_eq_some_iff.mp (readNumber?_toDigits (Nat.le_refl number))).1, h⟩

/-! ### What the scanner passes over -/

/-- A placeholder that stands in a text, and what is put in its place, leave the scanner where it
is. -/
theorem run_fill_eq (hp : m.IsPlaceholder p span)
    (hmode : z.mode = .text ∨ z.mode.isDoubleQuoted = true)
    (hraw : z.mode.isDoubleQuoted = true → '\x22' ∉ span.raw) :
    z.run p = z ∧ z.run (escapeText span.raw) = z := by
  obtain ⟨hbracket, hquote⟩ := hp.notMem
  rcases hmode with hmode | hmode
  · exact ⟨TagScanner.run_of_text hmode hbracket,
      TagScanner.run_of_text hmode (bracket_notMem_escapeText _).1⟩
  · exact ⟨TagScanner.run_of_isDoubleQuoted hmode hquote,
      TagScanner.run_of_isDoubleQuoted hmode (quote_notMem_escapeText (hraw hmode))⟩

/-- The scanner passes over the parts of a text as it does over what is put in their places.  The
induction keeps what is behind the scanner. -/
theorem run_flatMap_fill {parts : List Part} (behind : List Char)
    (hread : ∀ part ∈ parts, part.IsRead m)
    (hstands : m.StandsInTexts (behind ++ parts.flatMap Part.text))
    (hraw : ∀ span, m.InValue (behind ++ parts.flatMap Part.text) span → '\x22' ∉ span.raw) :
    (TagScanner.run {} behind).run (parts.flatMap (Part.fill fun span => escapeText span.raw)) =
      (TagScanner.run {} behind).run (parts.flatMap Part.text) := by
  induction parts generalizing behind with
  | nil => rfl
  | cons part parts ih =>
    rw [List.forall_mem_cons] at hread
    rw [List.flatMap_cons, ← List.append_assoc] at hstands hraw
    have hrest := ih (behind ++ part.text) hread.2 hstands hraw
    rw [TagScanner.run_append] at hrest
    rw [List.flatMap_cons, List.flatMap_cons, TagScanner.run_append, TagScanner.run_append, ← hrest]
    refine congrArg (TagScanner.run · _) ?_
    rw [Part.fill]
    cases hsegment : part.segment with
    | plain t => rw [Segment.fill, hread.1.plain t hsegment]
    | span span =>
      have hp := (hread.1.span_iff span).mp hsegment
      rw [List.append_assoc] at hstands hraw
      obtain ⟨htext, hfill⟩ := run_fill_eq hp (hstands _ _ _ _ hp rfl) fun hmode =>
        hraw span ⟨_, _, _, hp, rfl, hmode⟩
      rw [Segment.fill, htext, hfill]

/-- Claimed text without double quotes in values leaves the tags as they are. -/
theorem tagHeads_restoreHtml_eq (hstands : m.StandsInTexts html)
    (hraw : ∀ span, m.InValue html span → '\x22' ∉ span.raw) :
    tagHeads (m.restoreHtml html) = tagHeads html := by
  obtain ⟨parts, hcut, -⟩ := exists_isCut_segments m html
  have htext := hcut.flatMap_text
  have hrun := run_flatMap_fill [] hcut.isRead (by rwa [List.nil_append, htext])
    (by rwa [List.nil_append, htext])
  rw [← hcut.replace_eq, htext] at hrun
  exact congrArg TagScanner.heads hrun

/-- Every placeholder in a text begins at one of its places. -/
theorem exists_spanAt? {before after : List Char} (hp : m.IsPlaceholder p span)
    (heq : html = before ++ (p ++ after)) :
    before.length < html.length ∧ html.take before.length = before ∧
      span ∈ m.spanAt? html before.length := by
  subst heq
  have hread : ∃ tail, p ++ after = opening :: tail ∧ m.readSpan? tail = some (span, after) := by
    obtain ⟨tail, rfl, -⟩ := hp.exists_eq_cons
    exact ⟨tail ++ after, rfl, readSpan?_eq_some_iff.mpr ⟨_, hp, rfl⟩⟩
  obtain ⟨tail, htail, hspan⟩ := hread
  rw [htail]
  refine ⟨by simp, List.take_left, ?_⟩
  rw [spanAt?, List.drop_left]
  simp [hspan]

/-- Where placeholders stand is seen at the places of a text. -/
theorem standsInTexts_of_forall_lt (h : ∀ i < html.length, ∀ _ ∈ m.spanAt? html i,
    modeBehind (html.take i) = .text ∨ (modeBehind (html.take i)).isDoubleQuoted = true) :
    m.StandsInTexts html := by
  intro before p span after hp heq
  obtain ⟨hlt, htake, hspan⟩ := exists_spanAt? hp heq
  have := h _ hlt span hspan
  rwa [htake] at this

/-! ### A double quote in a value -/

/-- The start of a tag up to the value of its only attribute. -/
def linkStart : List Char := "<a href=\x22".toList

/-- A tag with a placeholder as the value of its only attribute. -/
def linkTo (number : Nat) : List Char := linkStart ++ (placeholder number ++ ['\x22', '>'])

/-- The head of this tag. -/
def linkHead : TagHead := { name := ['a'], keys := ["href".toList] }

theorem run_linkStart :
    TagScanner.run {} linkStart = ⟨.quoted '\x22' linkHead, []⟩ := by decide

theorem standsInTexts_linkTo (hspan : m.spans[number]? = some span) :
    m.StandsInTexts (linkTo number) := by
  intro before p span' after hp heq
  obtain ⟨y, rfl, hy⟩ := exists_of_append_eq hp (by decide) heq
  obtain ⟨rfl, -⟩ | ⟨x, -, hx⟩ := (isPlaceholder_placeholder hspan).eq_or_exists_of_append_eq hp hy
  · rw [List.append_nil, modeBehind, run_linkStart]
    exact .inr rfl
  · obtain ⟨tail, rfl, -⟩ := hp.exists_eq_cons
    exact absurd (hx ▸ List.mem_append_right x (List.mem_cons_self ..) : opening ∈ ['\x22', '>'])
      (by decide)

theorem tagHeads_linkTo (hspan : m.spans[number]? = some span) :
    tagHeads (linkTo number) = [linkHead] := by
  let inValue : TagScanner := ⟨.quoted '\x22' linkHead, []⟩
  have hrun : inValue.run (placeholder number) = inValue :=
    TagScanner.run_of_isDoubleQuoted rfl (isPlaceholder_placeholder hspan).notMem.2
  have hlink : TagScanner.run {} (linkTo number) = inValue.run ['\x22', '>'] := by
    rw [linkTo, TagScanner.run_append, run_linkStart, TagScanner.run_append, hrun]
  exact congrArg TagScanner.heads hlink

theorem restoreHtml_linkTo (hspan : m.spans[number]? = some span) :
    m.restoreHtml (linkTo number) =
      linkStart ++ (escapeText span.raw ++ ['\x22', '>']) :=
  Fills.replace_eq (.append (.of_free (by decide)) (.span hspan (.of_free (by decide))))

/-- Claimed text with a double quote ends the value that it is put into, and what follows is read as
another attribute. -/
theorem tagHeads_restoreHtml_linkTo_ne (hspan : m.spans[number]? = some span)
    (hquote : '\x22' ∈ span.raw) : tagHeads (m.restoreHtml (linkTo number)) ≠ [linkHead] := by
  obtain ⟨value, rest, hraw, hvalue⟩ := List.eq_append_cons_of_mem hquote
  have hescape : escapeText span.raw = escapeText value ++ '\x22' :: escapeText rest := by
    rw [hraw, escapeText, List.flatMap_append, List.flatMap_cons]
    rfl
  -- Behind the quote in the claimed text the tag has one key.
  let behind : TagScanner := ⟨.gap linkHead, []⟩
  have hbehind : behind.mode.IsBehindValue 1 := .gap (Nat.le_refl _)
  obtain ⟨ended, hheads, hkeys⟩ := TagScanner.heads_run_of_isBehindValue hbehind
    (bracket_notMem_escapeText rest).2
  have htags : tagHeads (m.restoreHtml (linkTo number)) = ended.toList := by
    rw [tagHeads, restoreHtml_linkTo hspan, hescape, TagScanner.run_append, run_linkStart,
      List.append_assoc, TagScanner.run_append,
      TagScanner.run_of_isDoubleQuoted rfl (quote_notMem_escapeText hvalue), List.cons_append,
      TagScanner.run_cons]
    exact hheads
  rw [htags]
  intro heq
  obtain rfl : ended = some linkHead := by
    cases ended with
    | none => exact nomatch heq
    | some head => exact congrArg some (List.cons.inj heq).1
  exact absurd (hkeys linkHead rfl) (by decide)

/-- **Claimed text in HTML leaves the tags as they are, as long as it ends no value.**  Whatever the
text between tags and in values is, and wherever in it placeholders stand, putting the claimed text
back keeps the tags and the keys of their attributes in order if no claimed text with a double quote
is put into a value between double quotes.  This must be asked of every claimed text: one with a
double quote changes the keys of a tag whose only value is its placeholder. -/
theorem tagHeads_restoreHtml (m : Mask) :
    (∀ html, m.StandsInTexts html → (∀ span, m.InValue html span → '\x22' ∉ span.raw) →
      tagHeads (m.restoreHtml html) = tagHeads html) ∧
    ∀ number span, m.spans[number]? = some span → '\x22' ∈ span.raw →
      m.StandsInTexts (linkTo number) ∧ tagHeads (linkTo number) = [linkHead] ∧
        tagHeads (m.restoreHtml (linkTo number)) ≠ [linkHead] :=
  ⟨fun _ hstands hraw => tagHeads_restoreHtml_eq hstands hraw, fun _ _ hspan hquote =>
    ⟨standsInTexts_linkTo hspan, tagHeads_linkTo hspan,
      tagHeads_restoreHtml_linkTo_ne hspan hquote⟩⟩

/-- Claimed text with brackets and double quotes between tags, and with brackets in a value. -/
theorem tagHeads_restoreHtml_brackets :
    let m : Mask := ⟨[], [⟨"[[\x22<b>\x22]]".toList, []⟩, ⟨"[[<i>'&]]".toList, []⟩]⟩
    let html := "<!-- \x22 --><p hidden>\uE0000\uE001<img alt=\x22\uE0001\uE001\x22 /></p>".toList
    m.StandsInTexts html ∧ (∀ span, m.InValue html span → '\x22' ∉ span.raw) ∧
    tagHeads (m.restoreHtml html) =
      [⟨false, ['p'], ["hidden".toList], false⟩, ⟨false, "img".toList, ["alt".toList], true⟩,
        ⟨true, ['p'], [], false⟩] := by
  intro m html
  have hstands : m.StandsInTexts html := standsInTexts_of_forall_lt (by decide +kernel)
  have hraw : ∀ span, m.InValue html span → '\x22' ∉ span.raw := by
    rintro span ⟨before, p, after, hp, heq, hvalue⟩
    obtain ⟨hlt, htake, hspan⟩ := exists_spanAt? hp heq
    rw [← htake] at hvalue
    have hall : ∀ i < html.length, ∀ span ∈ m.spanAt? html i,
        (modeBehind (html.take i)).isDoubleQuoted = true → '\x22' ∉ span.raw := by decide +kernel
    exact hall _ hlt span hspan hvalue
  refine ⟨hstands, hraw, ?_⟩
  rw [(tagHeads_restoreHtml m).1 html hstands hraw]
  decide +kernel

/-- A wikilink with double quotes adds an attribute to the image whose text it is in. -/
theorem exists_tagHeads_restoreHtml_ne :
    let m := ofText [Wikilink.rule Slugger.lowercase] "[[a\x22 onclick=\x22b]]".toList
    let html := "<img alt=\x22\uE0000\uE001\x22 />".toList
    m.text = "\uE0000\uE001".toList ∧ m.StandsInTexts html ∧
    tagHeads html = [⟨false, "img".toList, ["alt".toList], true⟩] ∧
    tagHeads (m.restoreHtml html) =
      [⟨false, "img".toList, ["alt".toList, "onclick".toList], true⟩] := by
  intro m html
  refine ⟨by decide +kernel, standsInTexts_of_forall_lt ?_, by decide +kernel, by decide +kernel⟩
  decide +kernel

end WikiPress.Mask
