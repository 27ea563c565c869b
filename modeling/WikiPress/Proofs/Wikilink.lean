import WikiPress.Proofs.Nesting.Basic
import WikiPress.Proofs.Scan
import WikiPress.Proofs.Slug
import WikiPress.Proofs.TokenStream.Free
import WikiPress.Proofs.Wikilink.Grammar

/-!
# What wikilinks claim

A wikilink begins with two opening brackets and ends with two closing ones, and all of the text
between them is its inner text.

## Main results

* `Wikilink.eq_append_of_split?` : a text that begins with a wikilink is written out again from it.
* `Wikilink.claimsWhole_rule` : the rule for wikilinks claims whole characters.
* `Wikilink.emits_wellNested_rule` : the tokens of a wikilink are nested.
* `Wikilink.emits_free_rule` : the tokens of a wikilink have no placeholders if its text has none.
-/

namespace WikiPress.Wikilink

open Text

/-- A text that begins with a wikilink is written out again from it. -/
theorem eq_append_of_split? {s inner rest : List Char} (h : split? s = some (inner, rest)) :
    s = '[' :: '[' :: (inner ++ ']' :: ']' :: rest) :=
  (split?_eq_some_iff.mp h).2

theorem eq_of_claim?_rule {slugger : Slugger} {p : Place} {a : Attempt}
    (h : (rule slugger).claim? p = some a) :
    ∃ inner rest, p.rest = '[' :: '[' :: (inner ++ ']' :: ']' :: rest) ∧
      a = ⟨true, tokens slugger inner, size inner + 4⟩ := by
  obtain ⟨rfl, hmatched, -⟩ := Rule.claim?_eq_some_iff.mp h
  simp only [rule] at hmatched ⊢
  cases hsplit : split? p.rest with
  | some link => exact ⟨link.1, link.2, eq_append_of_split? hsplit, rfl⟩
  | none => simp [hsplit, Attempt.declined] at hmatched

/-- The two pairs of brackets are four bytes. -/
theorem size_brackets (inner : List Char) :
    size ('[' :: '[' :: (inner ++ [']', ']'])) = size inner + 4 := by
  have hopen : ('[' : Char).utf8Size = 1 := rfl
  have hclose : (']' : Char).utf8Size = 1 := rfl
  simp only [size_append, size_cons, size_nil, hopen, hclose]
  omega

/-- The rule for wikilinks claims whole characters. -/
theorem claimsWhole_rule (slugger : Slugger) (s : List Char) :
    (rule slugger).ClaimsWhole s := by
  refine Rule.claimsWhole_of_isPrefix (fun p a ha => ?_) s
  obtain ⟨inner, rest, hrest, rfl⟩ := eq_of_claim?_rule ha
  exact ⟨_, ⟨rest, by rw [hrest]; simp⟩, size_brackets inner⟩

theorem wellNested_tokens (slugger : Slugger) (inner : List Char) :
    WellNested (tokens slugger inner) := by
  have htext : WellNested [Token.ofText (String.ofList (parts inner).2)] :=
    wellNested_singleton rfl (Token.nestedBelow_of_children_eq_nil rfl)
  refine htext.wrap ?_ ?_ ?_
  · exact ⟨rfl, rfl⟩
  · exact ⟨rfl, rfl⟩
  · exact ⟨rfl, rfl, rfl⟩

/-- The tokens of a wikilink are nested. -/
theorem emits_wellNested_rule (slugger : Slugger) :
    (rule slugger).Emits fun _ ts => WellNested ts := by
  intro p a ha
  obtain ⟨inner, rest, _, rfl⟩ := eq_of_claim?_rule ha
  exact wellNested_tokens slugger inner

theorem label_subset (inner : List Char) : (parts inner).2 ⊆ inner := by
  simp only [parts]
  split
  · next heq =>
    intro c hc
    have hmem : c ∈ inner.drop (inner.takeWhile (· ≠ '|')).length := by
      rw [heq]
      exact List.mem_cons_of_mem _ hc
    exact List.mem_of_mem_drop hmem
  · exact (List.takeWhile_sublist _).subset

/-- The tokens of a wikilink have no placeholders if its text has none and its address is ASCII. -/
theorem emits_free_rule {slugger : Slugger} (hremove : slugger.remove = none)
    (hreplacement : ∀ c ∈ slugger.options.replacement.toList, c.toNat < 128) :
    (rule slugger).Emits fun s ts => Mask.Free s → ∀ t ∈ ts, t.Free := by
  intro p a ha hfree
  obtain ⟨inner, rest, hrest, rfl⟩ := eq_of_claim?_rule ha
  have hinner : Mask.Free inner := by
    refine hfree.of_subset fun c hc => p.rest_subset_text ?_
    rw [hrest]
    simp [hc]
  have hslug : Mask.Free (String.ofList (slugger.slug (parts inner).1)).toList := by
    rw [String.toList_ofList]
    intro c hc
    have hascii := Slugger.toNat_lt_of_mem_slug hremove hreplacement _ c hc
    constructor
    · rintro rfl
      exact absurd hascii (by decide)
    · rintro rfl
      exact absurd hascii (by decide)
  refine List.forall_mem_cons.mpr ⟨?_, List.forall_mem_cons.mpr ⟨?_, List.forall_mem_singleton.mpr ?_⟩⟩
  · exact Token.free_mk (by decide) (by decide) (by decide) (by decide)
      (.cons (by decide) hslug freeAttributes_nil) Token.forall_mem_nil_free
  · exact Token.free_ofText (hinner.of_subset (label_subset inner))
  · exact Token.free_mk (by decide) (by decide) (by decide) (by decide) freeAttributes_nil
      Token.forall_mem_nil_free

end WikiPress.Wikilink
