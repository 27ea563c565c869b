import Mathlib.Data.List.Forall2
import WikiPress.Proofs.Mask.Literal
import WikiPress.Proofs.Mask.Placeholder
import WikiPress.Proofs.Mask.Span
import WikiPress.Proofs.Wikilink

/-!
# Masking loses nothing

A masked source can be cut anywhere but inside a placeholder, and its parts with the claimed text
put back are the parts of the source.  The lines of the masked source are the lines of the source,
each with its own claims replaced, so a line number means the same in both.

The proof follows the steps of the scan of a line.  Up to the start of a step the line is copied
from the end of the last claim on; a claim writes the placeholder with the number that its span has
in the whole mask.

## Main results

* `Mask.fills_replaceFrom` : the steps of a scan over a line write what fills up to the line.
* `Mask.forall₂_fills_lines` : the lines of a masked source fill up to the lines of the source.
* `Mask.restore_ofText` : masking is lossless and keeps the lines.
-/

namespace WikiPress.Mask

open Text

variable {m : Mask} {rules : List Rule} {line source : List Char}

/-! ### One line -/

/-- Literal text ends behind a whole character. -/
theorem endsWhole_add_of_skip? {p : Place} {n k : Nat} (hn : IsOffset p.text n)
    (h : skip? (p.goTo n) = some k) : EndsWhole p.text (n + max 1 k) := by
  obtain ⟨u, v, htext, rfl⟩ := hn
  rw [skip?, Place.rest_goTo htext] at h
  rw [Nat.max_eq_right (Literal.size?_pos h), htext]
  exact Or.inr (Literal.isOffset_of_size? h).append

/-- From a step on, what is written for a line fills up to the line from the end of the last claim
on.  The spans of the line stand in the mask from `number` on. -/
theorem fills_replaceFrom {p : Place} {n number : Nat} {steps : List Step}
    (hrules : ∀ r ∈ rules, r.ClaimsWhole p.text) (hfree : Free p.text)
    (hsteps : Scanned skip? rules p n steps) (hn : EndsWhole p.text n) {u v : List Char}
    (htext : p.text = u ++ v) (hu : size u ≤ n)
    (hspans : (replaceFrom p.text number (size u) steps).spans <+: m.spans.drop number) :
    Fills m Span.raw (replaceFrom p.text number (size u) steps).text v := by
  induction hsteps generalizing number u v with
  | done hle =>
    simp only [replaceFrom]
    rw [htext, dropBytes?_size_append, Option.getD_some]
    rw [htext, free_append_iff] at hfree
    exact .of_free hfree.2
  | @skipped n k rest hlt hskip _ ih =>
    simp only [replaceFrom] at hspans ⊢
    exact ih (endsWhole_add_of_skip? (hn.isOffset hlt) hskip) htext (by omega) hspans
  | @declined n rest hlt hskip hclaim _ ih =>
    simp only [replaceFrom] at hspans ⊢
    exact ih (Place.endsWhole_add_characterSize (hn.isOffset hlt) hlt) htext (by omega) hspans
  | @claimed n a rest hlt hskip hclaim _ ih =>
    have hn' : IsOffset p.text n := hn.isOffset hlt
    have hstop := Rule.endsWhole_add_of_firstClaim? hrules hn' hclaim
    have hle : n ≤ min (n + a.advance) (size p.text) := by omega
    -- The line is what lies before the last claim, what is copied, what is claimed, and the rest.
    obtain ⟨x, w, y, hxwy, hx, hw⟩ := IsOffset.exists_between ⟨u, v, htext, rfl⟩ hn' hu
    obtain ⟨z, raw, after, hzra, hz, hraw⟩ := hn'.exists_between hstop.isOffset_min hle
    obtain ⟨rfl, hv⟩ : u = x ∧ v = w ++ y :=
      eq_of_append_eq_append_of_size_eq (by rw [← htext, hxwy, List.append_assoc]) hx.symm
    obtain ⟨hzw, hy⟩ : u ++ w = z ∧ y = raw ++ after :=
      eq_of_append_eq_append_of_size_eq (by rw [← hxwy, hzra, List.append_assoc])
        (by rw [size_append, hz, hw])
    have hcopied : sliceBytes? p.text (size u) n = some w :=
      sliceBytes?_eq_some_iff.mpr ⟨u, y, hxwy, rfl, hw⟩
    have hclaimed : sliceBytes? p.text n (min (n + a.advance) (size p.text)) = some raw :=
      sliceBytes?_eq_some_iff.mpr ⟨z, after, hzra, hz, hraw⟩
    have hsize : min (n + a.advance) (size p.text) = size (u ++ w ++ raw) := by
      rw [← hraw, ← hz, ← hzw, size_append (u ++ w)]
    simp only [replaceFrom, hcopied, hclaimed, Option.getD_some] at hspans ⊢
    rw [List.cons_prefix_iff] at hspans
    obtain ⟨later, hdrop, hlater⟩ := hspans
    have hget : m.spans[number]? = some ⟨raw, a.tokens⟩ := by
      rw [← List.head?_drop, hdrop, List.head?_cons]
    have hfree' : Free w := by
      rw [hxwy, free_append_iff, free_append_iff] at hfree
      exact hfree.1.2
    have hspans' : later = m.spans.drop (number + 1) := by
      rw [← List.tail_drop, hdrop, List.tail_cons]
    rw [hspans', hsize] at hlater
    rw [hv, hy, hsize, List.append_assoc]
    refine .append (.of_free hfree') (.span hget (ih hstop ?_ ?_ hlater))
    · rw [hzra, ← hzw]
    · rw [← hsize]
      exact Nat.min_le_left _ _

theorem fills_ofLine {number : Nat} (hrules : ∀ r ∈ rules, r.ClaimsWhole line)
    (hfree : Free line) (hspans : (ofLine rules number line).spans <+: m.spans.drop number) :
    Fills m Span.raw (ofLine rules number line).text line := by
  obtain ⟨p, rfl, hsteps⟩ := scanned_steps rules line
  exact fills_replaceFrom (u := []) hrules hfree hsteps (Or.inr (isOffset_zero p.text)) rfl
    (Nat.le_refl 0) hspans

/-! ### All lines -/

theorem isPlain_lineFeed : IsPlain '\n' := by decide

/-- The lines of a masked source fill up to the lines of the source. -/
theorem forall₂_fills_lines {number : Nat} {lines : List (List Char)} (hlines : lines ≠ [])
    (hrules : ∀ line ∈ lines, ∀ r ∈ rules, r.ClaimsWhole line)
    (hfree : ∀ line ∈ lines, Free line) (hfeed : ∀ line ∈ lines, '\n' ∉ line)
    (hspans : (ofLines rules number lines).spans <+: m.spans.drop number) :
    List.Forall₂ (Fills m Span.raw) (splitAtEach '\n' (ofLines rules number lines).text)
      lines := by
  -- No line of the masked source has a line feed, as its line in the source has none.
  have hmasked : ∀ {n line}, line ∈ lines →
      (ofLine rules n line).spans <+: m.spans.drop n → '\n' ∉ (ofLine rules n line).text :=
    fun hline hs hmem => hfeed _ hline
      ((fills_ofLine (hrules _ hline) (hfree _ hline) hs).mem_of_mem hmem isPlain_lineFeed rfl)
  fun_induction ofLines rules number lines with
  | case1 => exact absurd rfl hlines
  | case2 number line =>
    have hline : line ∈ [line] := List.mem_singleton_self line
    rw [splitAtEach_of_notMem (hmasked hline hspans)]
    exact .cons (fills_ofLine (hrules _ hline) (hfree _ hline) hspans) .nil
  | case3 number line rest hrest first after ih =>
    have hline : line ∈ line :: rest := List.mem_cons_self ..
    have hfirst : first.spans <+: m.spans.drop number := (List.prefix_append _ _).trans hspans
    have hafter : after.spans <+: m.spans.drop (number + first.spans.length) := by
      obtain ⟨later, hlater⟩ := hspans
      exact ⟨later, by rw [← List.drop_drop, ← hlater, List.append_assoc, List.drop_left]⟩
    rw [splitAtEach_append_cons _ (hmasked hline hfirst)]
    refine .cons (fills_ofLine (hrules _ hline) (hfree _ hline) hfirst) (ih hrest ?_ ?_ ?_ hafter ?_)
    · exact fun l hl => hrules l (List.mem_cons_of_mem _ hl)
    · exact fun l hl => hfree l (List.mem_cons_of_mem _ hl)
    · exact fun l hl => hfeed l (List.mem_cons_of_mem _ hl)
    · exact fun hl hs => hmasked (List.mem_cons_of_mem _ hl) hs

theorem fills_intercalate {f : Span → List Char} {lines lines' : List (List Char)}
    (h : List.Forall₂ (Fills m f) lines lines') :
    Fills m f (['\n'].intercalate lines) (['\n'].intercalate lines') := by
  induction h with
  | nil => exact .nil
  | @cons line line' rest rest' hline hrest ih =>
    cases hrest with
    | nil => simpa only [List.intercalate_singleton] using hline
    | cons =>
      rw [List.intercalate_cons_cons, List.intercalate_cons_cons, List.append_assoc,
        List.append_assoc]
      exact hline.append (.plain isPlain_lineFeed ih)

theorem map_replace_eq {f : Span → List Char} {lines lines' : List (List Char)}
    (h : List.Forall₂ (Fills m f) lines lines') : lines.map (m.replace f) = lines' := by
  induction h with
  | nil => rfl
  | cons hline _ ih => rw [List.map_cons, ih, hline.replace_eq]

theorem applies_iff : applies rules source = true ↔ rules ≠ [] ∧ Free source := by
  simp [applies, Free, IsPlain, not_or]

theorem forall₂_fills_ofText (hrules : ∀ r ∈ rules, ∀ line ∈ splitAtEach '\n' source,
    r.ClaimsWhole line) (happlies : applies rules source = true) :
    List.Forall₂ (Fills (ofText rules source) Span.raw)
      (splitAtEach '\n' (ofText rules source).text) (splitAtEach '\n' source) := by
  have hfree : Free source := (applies_iff.mp happlies).2
  rw [ofText, if_pos happlies]
  exact forall₂_fills_lines (splitAtEach_ne_nil _ _) (fun line hline r hr => hrules r hr line hline)
    (fun line hline => hfree.of_subset fun _ hc => mem_of_mem_splitAtEach hline hc)
    (fun line hline => notMem_of_mem_splitAtEach hline) (List.prefix_refl _)

/-- The masked form of a source without characters of placeholders fills up to the source. -/
theorem fills_ofText (hrules : ∀ r ∈ rules, ∀ line ∈ splitAtEach '\n' source,
    r.ClaimsWhole line) (hfree : Free source) :
    Fills (ofText rules source) Span.raw (ofText rules source).text source := by
  by_cases happlies : applies rules source = true
  · have := fills_intercalate (forall₂_fills_ofText hrules happlies)
    rwa [intercalate_splitAtEach, intercalate_splitAtEach] at this
  · rw [ofText, if_neg happlies]
    exact .of_free hfree

/-- Masking is lossless and keeps the lines: wherever the masked source is cut outside its
placeholders, its parts with the claimed text put back make up the source, and so do its lines, one
by one. -/
theorem restore_ofText (hrules : ∀ r ∈ rules, ∀ line ∈ splitAtEach '\n' source,
    r.ClaimsWhole line) :
    (∀ parts : List (List Char), parts.flatten = (ofText rules source).text →
      (ofText rules source).PartsAll parts →
      parts.flatMap (ofText rules source).restore = source) ∧
    (ofText rules source).text.count '\n' = source.count '\n' ∧
    (splitAtEach '\n' (ofText rules source).text).map (ofText rules source).restore =
      splitAtEach '\n' source := by
  by_cases happlies : applies rules source = true
  · have hfree : Free source := (applies_iff.mp happlies).2
    have hlines := forall₂_fills_ofText hrules happlies
    refine ⟨?_, ?_, ?_⟩
    · intro parts hparts hcut
      have hfills := fills_ofText hrules hfree
      rw [← hparts] at hfills
      exact hfills.flatMap_replace hcut
    · have hlength := hlines.length_eq
      rw [length_splitAtEach, length_splitAtEach] at hlength
      exact Nat.succ.inj hlength
    · exact map_replace_eq hlines
  · -- Where the rules are not tried nothing is claimed, and every text stays as it is.
    have hid : (ofText rules source).restore = id := by
      funext s
      rw [ofText, if_neg happlies]
      exact replace_of_spans_eq_nil Span.raw rfl s
    have htext : (ofText rules source).text = source := by rw [ofText, if_neg happlies]
    rw [hid, htext]
    exact ⟨fun parts hparts _ => by simpa using hparts, rfl, List.map_id _⟩

/-- Two wikilinks on the second line, the first of them between literal text. -/
theorem restore_ofText_wikilinks :
    (∀ r ∈ [Wikilink.rule Slugger.lowercase],
      ∀ line ∈ splitAtEach '\n' "a\n`[[x]]`[[b|é]]c[[d]]\n".toList, r.ClaimsWhole line) ∧
    (ofText [Wikilink.rule Slugger.lowercase] "a\n`[[x]]`[[b|é]]c[[d]]\n".toList).text =
      "a\n`[[x]]`\uE0000\uE001c\uE0001\uE001\n".toList ∧
    (splitAtEach '\n' "a\n`[[x]]`\uE0000\uE001c\uE0001\uE001\n".toList).map
      (ofText [Wikilink.rule Slugger.lowercase] "a\n`[[x]]`[[b|é]]c[[d]]\n".toList).restore =
      ["a".toList, "`[[x]]`[[b|é]]c[[d]]".toList, []] := by
  have hrules : ∀ r ∈ [Wikilink.rule Slugger.lowercase],
      ∀ line ∈ splitAtEach '\n' "a\n`[[x]]`[[b|é]]c[[d]]\n".toList, r.ClaimsWhole line := by
    intro r hr line _
    rw [List.mem_singleton.mp hr]
    exact Wikilink.claimsWhole_rule _ line
  have htext : (ofText [Wikilink.rule Slugger.lowercase]
      "a\n`[[x]]`[[b|é]]c[[d]]\n".toList).text =
      "a\n`[[x]]`\uE0000\uE001c\uE0001\uE001\n".toList := by decide +kernel
  refine ⟨hrules, htext, ?_⟩
  rw [← htext, (restore_ofText hrules).2.2]
  decide +kernel

end WikiPress.Mask
