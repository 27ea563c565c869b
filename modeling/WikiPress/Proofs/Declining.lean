import WikiPress.Proofs.Mask.Span
import WikiPress.Splice
import WikiPress.Toc
import WikiPress.Wikilink

/-!
# Rules that claim nothing

A rule may move the cursor and give tokens and decline all the same, or match without moving
forward.  In both cases it claims nothing, and the cursor is put back before the next rule is tried.
Such a rule may be added to any list of rules, at any place in it: no other rule, no later position
and no claim is affected.  This holds of the two places in which rules are tried, the tokens of a
paragraph and the lines of a source.

## Main definitions

* `Rule.Declines` : a rule that claims nothing.

## Main results

* `Rule.Declines.firstClaim?_append_cons` : at one place the rule changes nothing.
* `scan_congr` : a scan depends on the first claims only.
* `Mask.ofText_congr` : so does a masked source.
* `Rule.Declines.spliceRules_eq_and_ofText_eq` : the rule changes neither tokens nor masks.
-/

namespace WikiPress

open Text

/-- The rule claims nothing: wherever it is tried, it declines or does not move forward. -/
def Rule.Declines (r : Rule) : Prop :=
  ∀ p : Place, (r.attempt p).matched = false ∨ (r.attempt p).advance = 0

variable {r : Rule} {rules rules' : List Rule} {p : Place}

/-! ### One place -/

namespace Rule.Declines

theorem claim?_eq_none (h : r.Declines) (p : Place) : r.claim? p = none := by
  rw [claim?]
  rcases h p with h | h
  · simp [h]
  · simp [h]

theorem firstClaim?_append_cons (h : r.Declines) (before after : List Rule) (p : Place) :
    firstClaim? (before ++ r :: after) p = firstClaim? (before ++ after) p := by
  rw [firstClaim?, firstClaim?, List.findSome?_append, List.findSome?_append, List.findSome?_cons,
    h.claim?_eq_none]

end Rule.Declines

/-! ### A whole scan -/

/-- The steps of a scan are determined by the first claims. -/
theorem Scanned.eq_of_firstClaim? {skip? : Place → Option Nat} {n : Nat} {steps steps' : List Step}
    (hclaims : ∀ q, Rule.firstClaim? rules q = Rule.firstClaim? rules' q)
    (h : Scanned skip? rules p n steps) (h' : Scanned skip? rules' p n steps') :
    steps = steps' := by
  induction h generalizing steps' with
  | done hle =>
    cases h' with
    | done => rfl
    | skipped hlt => exact absurd hlt (Nat.not_lt.mpr hle)
    | declined hlt => exact absurd hlt (Nat.not_lt.mpr hle)
    | claimed hlt => exact absurd hlt (Nat.not_lt.mpr hle)
  | skipped hlt hskip _ ih =>
    cases h' with
    | done hle => exact absurd hlt (Nat.not_lt.mpr hle)
    | skipped _ hskip' hrest =>
      obtain rfl := Option.some.inj (hskip.symm.trans hskip')
      rw [ih hrest]
    | declined _ hskip' => exact absurd (hskip.symm.trans hskip') (Option.some_ne_none _)
    | claimed _ hskip' => exact absurd (hskip.symm.trans hskip') (Option.some_ne_none _)
  | declined hlt hskip hclaim _ ih =>
    rw [hclaims] at hclaim
    cases h' with
    | done hle => exact absurd hlt (Nat.not_lt.mpr hle)
    | skipped _ hskip' => exact absurd (hskip'.symm.trans hskip) (Option.some_ne_none _)
    | declined _ _ _ hrest => rw [ih hrest]
    | claimed _ _ hclaim' => exact absurd (hclaim'.symm.trans hclaim) (Option.some_ne_none _)
  | claimed hlt hskip hclaim _ ih =>
    rw [hclaims] at hclaim
    cases h' with
    | done hle => exact absurd hlt (Nat.not_lt.mpr hle)
    | skipped _ hskip' => exact absurd (hskip'.symm.trans hskip) (Option.some_ne_none _)
    | declined _ _ hclaim' => exact absurd (hclaim.symm.trans hclaim') (Option.some_ne_none _)
    | claimed _ _ hclaim' hrest =>
      obtain rfl := Option.some.inj (hclaim.symm.trans hclaim')
      rw [ih hrest]

theorem scan_congr (hclaims : ∀ q, Rule.firstClaim? rules q = Rule.firstClaim? rules' q)
    (skip? : Place → Option Nat) (p : Place) : scan skip? rules p = scan skip? rules' p :=
  (scanned_scan skip? rules p).eq_of_firstClaim? hclaims (scanned_scan skip? rules' p)

/-! ### Tokens -/

theorem spliceRules_congr (hclaims : ∀ q, Rule.firstClaim? rules q = Rule.firstClaim? rules' q)
    (ts : List Token) : spliceRules rules ts = spliceRules rules' ts := by
  have hsplice : ∀ run : Run, run.splice rules = run.splice rules' := by
    intro run
    rw [Run.splice, Run.splice, Run.steps, Run.steps, scan_congr hclaims]
  simp only [spliceRules, hsplice]

/-! ### Masks -/

namespace Mask

variable {line source : List Char}

theorem ofLines_congr (hclaims : ∀ q, Rule.firstClaim? rules q = Rule.firstClaim? rules' q)
    (number : Nat) (lines : List (List Char)) :
    ofLines rules number lines = ofLines rules' number lines := by
  have hline : ∀ number line, ofLine rules number line = ofLine rules' number line := by
    intro number line
    rw [ofLine, ofLine, steps, steps, scan_congr hclaims]
  induction lines generalizing number with
  | nil => rfl
  | cons line rest ih =>
    cases rest with
    | nil => exact hline number line
    | cons line' rest => simp only [ofLines_cons_cons, hline, ih]

/-- A line in which nothing is claimed stays as it is. -/
theorem ofLine_of_firstClaim? (hnone : ∀ q, Rule.firstClaim? rules q = none) (number : Nat)
    (line : List Char) : ofLine rules number line = ⟨line, []⟩ := by
  have hsteps : ∀ {p : Place} {n : Nat} {steps : List Step}, Scanned skip? rules p n steps →
      replaceFrom p.text number 0 steps = ⟨p.text, []⟩ := by
    intro p n steps h
    induction h with
    | done => rw [replaceFrom, dropBytes?_zero, Option.getD_some]
    | skipped _ _ _ ih => exact ih
    | declined _ _ _ _ ih => exact ih
    | claimed _ _ hclaim => exact absurd (hclaim.symm.trans (hnone _)) (Option.some_ne_none _)
  exact hsteps (scanned_scan skip? rules { text := line, startsLine := true, endsLine := true })

theorem ofLines_of_firstClaim? (hnone : ∀ q, Rule.firstClaim? rules q = none) (number : Nat)
    (lines : List (List Char)) : ofLines rules number lines = ⟨['\n'].intercalate lines, []⟩ := by
  induction lines generalizing number with
  | nil => rfl
  | cons line rest ih =>
    cases rest with
    | nil => exact (ofLine_of_firstClaim? hnone number line).trans (by simp)
    | cons line' rest =>
      simp only [ofLines_cons_cons, ofLine_of_firstClaim? hnone, ih, List.intercalate_cons_cons,
        List.append_assoc]
      rfl

/-- Whether there are rules at all does not matter to a source in which nothing is claimed. -/
theorem ofText_eq (rules : List Rule) (source : List Char) :
    ofText rules source =
      if source.any (fun c => c = opening || c = closing) then ⟨source, []⟩
      else ofLines rules 0 (splitAtEach '\n' source) := by
  cases rules with
  | nil =>
    rw [ofLines_of_firstClaim? fun _ => rfl, intercalate_splitAtEach, ite_self]
    rfl
  | cons r rules =>
    rw [ofText, applies]
    cases source.any (fun c => c = opening || c = closing) <;> rfl

theorem ofText_congr (hclaims : ∀ q, Rule.firstClaim? rules q = Rule.firstClaim? rules' q)
    (source : List Char) : ofText rules source = ofText rules' source := by
  rw [ofText_eq, ofText_eq, ofLines_congr hclaims]

end Mask

/-! ### The rule among others -/

/-- **A rule that claims nothing leaves no trace.**  Added to any list of rules at any place in it,
it changes neither what becomes of any tokens nor the masked form of any source with its spans. -/
theorem Rule.Declines.spliceRules_eq_and_ofText_eq (h : r.Declines) (before after : List Rule) :
    (∀ ts, spliceRules (before ++ [r] ++ after) ts = spliceRules (before ++ after) ts) ∧
      ∀ source, Mask.ofText (before ++ [r] ++ after) source =
        Mask.ofText (before ++ after) source := by
  rw [List.append_assoc, List.singleton_append]
  exact ⟨spliceRules_congr (h.firstClaim?_append_cons before after),
    Mask.ofText_congr (h.firstClaim?_append_cons before after)⟩

/-- A rule that gives a token everywhere.  At the start of a line it matches, but does not move; at
other places it moves over three bytes and declines. -/
def stray : Rule where
  name := "stray"
  attempt p :=
    if p.atLineStart then ⟨true, [Token.ofText "stray"], 0⟩ else ⟨false, [Token.ofText "stray"], 3⟩

theorem spliceRules_eq_and_ofText_eq_stray :
    stray.Declines ∧
      (spliceRules [Toc.rule, stray, Wikilink.rule .lowercase]
        [Token.ofText "a[[é]]", { kind := .softBreak }, Token.ofText "[toc]"]).map Token.kind =
          [.text, .linkOpen, .text, .linkClose, .softBreak, .tocOpen, .tocBody, .tocClose] ∧
      spliceRules [Toc.rule, stray, Wikilink.rule .lowercase]
          [Token.ofText "a[[é]]", { kind := .softBreak }, Token.ofText "[toc]"] =
        spliceRules [Toc.rule, Wikilink.rule .lowercase]
          [Token.ofText "a[[é]]", { kind := .softBreak }, Token.ofText "[toc]"] ∧
      Mask.ofText [stray, Wikilink.rule .lowercase] "a[[é]]\n[[b]]".toList =
        Mask.ofText [Wikilink.rule .lowercase] "a[[é]]\n[[b]]".toList := by
  have hstray : stray.Declines := by
    intro p
    simp only [stray]
    split
    · exact .inr rfl
    · exact .inl rfl
  refine ⟨hstray, by decide +kernel, ?_, ?_⟩
  · exact (hstray.spliceRules_eq_and_ofText_eq [Toc.rule] [Wikilink.rule .lowercase]).1 _
  · exact (hstray.spliceRules_eq_and_ofText_eq [] [Wikilink.rule .lowercase]).2 _

end WikiPress
