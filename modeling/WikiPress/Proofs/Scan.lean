import WikiPress.Proofs.Text.Offset
import WikiPress.Rule

/-!
# Runs of a scan

The steps of a scan form a path through the text: each of them begins where the one before ended,
and the last one ends at the end of the text or past it.  What one step can be is said once, as a
constructor of `Scanned`, so that later proofs are inductions over it and do not open the scan.

## Main definitions

* `Scanned` : the steps of a scan from a byte position on.
* `Rule.ClaimsWhole` : what a rule claims in a text ends between two characters, or past the end.
* `Rule.Emits` : what is known of the tokens of a rule.

## Main results

* `Rule.claimsWhole_of_isPrefix` : a rule claims whole characters if it claims a start of the rest.
* `Cursor.tryRules_eq` : what the rules do to a cursor is what the first one with a claim says.
* `scanned_scan` : a scan takes the steps that `Scanned` describes.
* `Scanned.of_append_cons` : a scan goes on from each of its steps.
* `Scanned.emits` : the tokens of the claims in a scan are those of the rules.
* `Place.endsWhole_add_characterSize` : a step over one character ends behind it.
-/

namespace WikiPress

open Text

/-! ### Places -/

namespace Place

@[ext]
theorem ext {p q : Place} (htext : p.text = q.text) (hposition : p.position = q.position)
    (hstarts : p.startsLine = q.startsLine) (hends : p.endsLine = q.endsLine) : p = q := by
  have hrest : p.rest = q.rest := by rw [p.rest_eq, q.rest_eq, htext, hposition]
  cases p
  cases q
  simp_all

@[simp] theorem goTo_goTo (p : Place) (m n : Nat) : (p.goTo m).goTo n = p.goTo n := rfl

@[simp] theorem position_goTo (p : Place) (n : Nat) : (p.goTo n).position = n := rfl

theorem goTo_position (p : Place) : p.goTo p.position = p := by
  ext1 <;> rfl

theorem moveBy_eq_goTo (p : Place) (n : Nat) : p.moveBy n = p.goTo (p.position + n) := by
  unfold moveBy
  split
  · ext1 <;> rfl
  · rfl

/-- The rest of a text at an offset is what follows the offset. -/
theorem rest_goTo {p : Place} {u v : List Char} (h : p.text = u ++ v) :
    (p.goTo (size u)).rest = v := by
  show (dropBytes? p.text (size u)).getD [] = v
  rw [h, dropBytes?_size_append, Option.getD_some]

theorem rest_subset_text (p : Place) : p.rest ⊆ p.text := by
  rw [p.rest_eq]
  cases h : dropBytes? p.text p.position with
  | none => exact List.nil_subset _
  | some rest =>
    obtain ⟨u, htext, _⟩ := dropBytes?_eq_some_iff.mp h
    rw [htext]
    exact List.subset_append_right u rest

/-- Behind an offset before the end of the text stands one whole character. -/
theorem exists_cons_of_isOffset {p : Place} {n : Nat} (h : IsOffset p.text n)
    (hn : n < size p.text) :
    ∃ u c v, p.text = u ++ c :: v ∧ size u = n ∧ (p.goTo n).characterSize = c.utf8Size := by
  obtain ⟨u, v, htext, rfl⟩ := h
  cases v with
  | nil =>
    rw [htext, List.append_nil] at hn
    exact absurd hn (Nat.lt_irrefl _)
  | cons c v => exact ⟨u, c, v, htext, rfl, by rw [characterSize, rest_goTo htext]⟩

theorem endsWhole_add_characterSize {p : Place} {n : Nat} (h : IsOffset p.text n)
    (hn : n < size p.text) : EndsWhole p.text (n + (p.goTo n).characterSize) := by
  obtain ⟨u, c, v, htext, rfl, hc⟩ := exists_cons_of_isOffset h hn
  exact Or.inr ⟨u ++ [c], v, by simp [htext], by simp [hc]⟩

end Place

/-! ### Claims -/

namespace Rule

/-- Within a text, what the rule claims from between two characters on ends between two characters,
or past the end of the text. -/
def ClaimsWhole (r : Rule) (s : List Char) : Prop :=
  ∀ p : Place, p.text = s → IsOffset s p.position →
    ∀ a, r.claim? p = some a → EndsWhole s (p.position + a.advance)

/-- Whatever the rule claims in a text, the text and the tokens of the claim stand in a relation. -/
def Emits (r : Rule) (P : List Char → List Token → Prop) : Prop :=
  ∀ (p : Place) (a : Attempt), r.claim? p = some a → P p.text a.tokens

theorem claim?_eq_some_iff {r : Rule} {p : Place} {a : Attempt} :
    r.claim? p = some a ↔ r.attempt p = a ∧ a.matched = true ∧ 0 < a.advance := by
  simp only [claim?, Bool.and_eq_true, decide_eq_true_eq]
  constructor
  · intro h
    split at h
    · next hclaim => exact Option.some.inj h ▸ ⟨rfl, hclaim⟩
    · simp at h
  · rintro ⟨rfl, hclaim⟩
    exact if_pos hclaim

@[simp] theorem firstClaim?_singleton (r : Rule) (p : Place) : firstClaim? [r] p = r.claim? p :=
  List.findSome?_singleton

/-- A rule claims whole characters if it claims what the rest of the text begins with. -/
theorem claimsWhole_of_isPrefix {r : Rule}
    (h : ∀ p a, r.claim? p = some a → ∃ w, w <+: p.rest ∧ size w = a.advance) (s : List Char) :
    r.ClaimsWhole s := by
  rintro p rfl ⟨u, v, htext, hsize⟩ a ha
  obtain ⟨w, ⟨rest, hrest⟩, hw⟩ := h p a ha
  have hv : p.rest = v := by
    rw [← p.goTo_position, ← hsize]
    exact Place.rest_goTo htext
  exact .inr ⟨u ++ w, rest, by rw [htext, ← hv, ← hrest, List.append_assoc],
    by rw [size_append, hsize, hw]⟩

theorem exists_claim?_of_firstClaim? {rules : List Rule} {p : Place} {a : Attempt}
    (h : firstClaim? rules p = some a) : ∃ r ∈ rules, r.claim? p = some a :=
  List.exists_of_findSome?_eq_some h

/-- What the first rule with a claim claims ends behind a whole character. -/
theorem endsWhole_add_of_firstClaim? {rules : List Rule} {p : Place} {n : Nat} {a : Attempt}
    (hrules : ∀ r ∈ rules, r.ClaimsWhole p.text) (hn : IsOffset p.text n)
    (h : firstClaim? rules (p.goTo n) = some a) : EndsWhole p.text (n + a.advance) := by
  obtain ⟨r, hr, hclaim⟩ := exists_claim?_of_firstClaim? h
  exact hrules r hr (p.goTo n) rfl hn a hclaim

end Rule

/-! ### Trying rules -/

/-- At a cursor without tokens, the rules do what the first one with a claim says.  Whatever the
rules in front of it did to the cursor is gone. -/
theorem Cursor.tryRules_eq (rules : List Rule) (p : Place) :
    tryRules rules { place := p } =
      match Rule.firstClaim? rules p with
      | some a => (some a.tokens, { place := p.moveBy a.advance })
      | none => (none, { place := p }) := by
  induction rules with
  | nil => rfl
  | cons r rest ih =>
    have hmoved : p.position < (p.moveBy (r.attempt p).advance).position ↔
        0 < (r.attempt p).advance := by
      rw [Place.position_moveBy]
      omega
    rw [tryRules, Rule.firstClaim?, List.findSome?_cons, Rule.claim?]
    simp only [follow, List.nil_append, hmoved, Bool.and_eq_true, decide_eq_true_eq]
    by_cases hclaim : (r.attempt p).matched = true ∧ 0 < (r.attempt p).advance
    · rw [if_pos hclaim, if_pos hclaim]
    · rw [if_neg hclaim, if_neg hclaim]
      exact ih

/-! ### Steps -/

/-- The steps that a scan of the text of a place takes from a byte position on. -/
inductive Scanned (skip? : Place → Option Nat) (rules : List Rule) (p : Place) :
    Nat → List Step → Prop
  | done {n : Nat} : size p.text ≤ n → Scanned skip? rules p n []
  | skipped {n k : Nat} {rest : List Step} : n < size p.text → skip? (p.goTo n) = some k →
      Scanned skip? rules p (n + max 1 k) rest →
      Scanned skip? rules p n (⟨n, n + max 1 k, .skipped⟩ :: rest)
  | declined {n : Nat} {rest : List Step} : n < size p.text → skip? (p.goTo n) = none →
      Rule.firstClaim? rules (p.goTo n) = none →
      Scanned skip? rules p (n + (p.goTo n).characterSize) rest →
      Scanned skip? rules p n (⟨n, n + (p.goTo n).characterSize, .declined⟩ :: rest)
  | claimed {n : Nat} {a : Attempt} {rest : List Step} : n < size p.text →
      skip? (p.goTo n) = none → Rule.firstClaim? rules (p.goTo n) = some a →
      Scanned skip? rules p (n + a.advance) rest →
      Scanned skip? rules p n (⟨n, n + a.advance, .claimed a.tokens⟩ :: rest)

/-- The scan leaves no tokens at the cursor, so each step begins with a clear one. -/
theorem scanned_scanTo (skip? : Place → Option Nat) (rules : List Rule) (p : Place) :
    Scanned skip? rules p p.position (scanTo skip? rules (size p.text) { place := p }) := by
  -- The cursor moves along while its text stays, so the claim is about a place further on.
  suffices h : ∀ (k : Nat) (q : Place), q = p.goTo q.position → size p.text - q.position = k →
      Scanned skip? rules p q.position (scanTo skip? rules (size p.text) { place := q }) from
    h _ p (p.goTo_position).symm rfl
  intro k
  induction k using Nat.strongRecOn with
  | ind k ih =>
    intro q hq hk
    rw [scanTo]
    split
    · next hlt =>
      have hlt : q.position < size p.text := hlt
      have next : ∀ n, 0 < n → Scanned skip? rules p (q.position + n)
          (scanTo skip? rules (size p.text) { place := q.moveBy n }) := by
        intro n hn
        have hmove : q.moveBy n = p.goTo (q.position + n) := by
          rw [Place.moveBy_eq_goTo, hq, Place.goTo_goTo, Place.position_goTo]
        rw [hmove]
        exact ih (size p.text - (q.position + n)) (by omega) (p.goTo _) rfl rfl
      simp only [outcomeAt]
      cases hskip : skip? q with
      | some n =>
        have hrest := next (max 1 n) (by omega)
        simp only [Cursor.skip, Place.position_moveBy]
        exact .skipped hlt (hq ▸ hskip) hrest
      | none =>
        rw [Cursor.tryRules_eq]
        cases hclaim : Rule.firstClaim? rules q with
        | some a =>
          have hrest := next a.advance (Rule.advance_pos_of_firstClaim? hclaim)
          simp only [Place.position_moveBy]
          exact .claimed hlt (hq ▸ hskip) (hq ▸ hclaim) hrest
        | none =>
          have hrest := next q.characterSize q.characterSize_pos
          simp only [Cursor.skip, Place.position_moveBy]
          rw [hq] at hrest ⊢
          exact .declined hlt (hq ▸ hskip) (hq ▸ hclaim) hrest
    · next hlt => exact .done (Nat.not_lt.mp hlt)

section Path

variable {skip? : Place → Option Nat} {rules : List Rule} {p : Place} {n : Nat} {step : Step}
  {steps before after : List Step}

/-- The first step begins where the scan begins, and the scan goes on where the step stops. -/
theorem Scanned.of_cons (h : Scanned skip? rules p n (step :: after)) :
    step.start = n ∧ n < size p.text ∧ n < step.stop ∧ Scanned skip? rules p step.stop after := by
  cases h with
  | skipped hlt _ hafter => exact ⟨rfl, hlt, Nat.lt_add_of_pos_right (by omega), hafter⟩
  | declined hlt _ _ hafter =>
    exact ⟨rfl, hlt, Nat.lt_add_of_pos_right (Place.characterSize_pos _), hafter⟩
  | claimed hlt _ hclaim hafter =>
    exact ⟨rfl, hlt, Nat.lt_add_of_pos_right (Rule.advance_pos_of_firstClaim? hclaim), hafter⟩

/-- Before the end of the text a scan has a step. -/
theorem Scanned.map_start_head? (h : Scanned skip? rules p n steps) :
    steps.head?.map Step.start = if n < size p.text then some n else none := by
  cases steps with
  | nil =>
    cases h with
    | done hle => rw [if_neg (Nat.not_lt.mpr hle), List.head?_nil, Option.map_none]
  | cons step after =>
    obtain ⟨rfl, hlt, -⟩ := h.of_cons
    rw [if_pos hlt, List.head?_cons, Option.map_some]

theorem Scanned.le_start (h : Scanned skip? rules p n steps) : ∀ step ∈ steps, n ≤ step.start := by
  induction steps generalizing n with
  | nil => exact fun _ hstep => absurd hstep List.not_mem_nil
  | cons first steps ih =>
    obtain ⟨hstart, -, hlt, hsteps⟩ := h.of_cons
    exact List.forall_mem_cons.mpr
      ⟨hstart.ge, fun step hstep => hlt.le.trans (ih hsteps step hstep)⟩

/-- A scan goes on from each of its steps, and the steps in front begin before it. -/
theorem Scanned.of_append_cons (h : Scanned skip? rules p n (before ++ step :: after)) :
    Scanned skip? rules p step.start (step :: after) ∧ ∀ s ∈ before, s.start < step.start := by
  induction before generalizing n with
  | nil => exact ⟨h.of_cons.1 ▸ h, fun _ hs => absurd hs List.not_mem_nil⟩
  | cons first before ih =>
    obtain ⟨hstart, -, hlt, hsteps⟩ := h.of_cons
    obtain ⟨hscan, hbefore⟩ := ih hsteps
    have hle : first.stop ≤ step.start := hsteps.le_start step (by simp)
    exact ⟨hscan, List.forall_mem_cons.mpr ⟨by omega, hbefore⟩⟩

/-- Rules are tried at the starts of the steps that are not skipped. -/
theorem exists_of_mem_triedPlaces {q : Place} (h : q ∈ triedPlaces p steps) :
    ∃ step ∈ steps, step.outcome ≠ .skipped ∧ q = p.goTo step.start := by
  obtain ⟨step, hstep, heq⟩ := List.mem_filterMap.mp h
  refine ⟨step, hstep, ?_⟩
  split at heq
  · exact absurd heq (by simp)
  · next hne => exact ⟨hne, (Option.some.inj heq).symm⟩

end Path

/-- The tokens of the claims in a scan are those that the rules emit. -/
theorem Scanned.emits {skip? : Place → Option Nat} {rules : List Rule} {p : Place} {n : Nat}
    {steps : List Step} {P : List Char → List Token → Prop} (hrules : ∀ r ∈ rules, r.Emits P)
    (h : Scanned skip? rules p n steps) :
    ∀ step ∈ steps, ∀ ts, step.outcome = .claimed ts → P p.text ts := by
  induction h with
  | done => exact fun _ hstep => absurd hstep List.not_mem_nil
  | skipped _ _ _ ih => exact List.forall_mem_cons.mpr ⟨by simp, ih⟩
  | declined _ _ _ _ ih => exact List.forall_mem_cons.mpr ⟨by simp, ih⟩
  | @claimed n a _ _ _ hclaim _ ih =>
    obtain ⟨r, hr, ha⟩ := Rule.exists_claim?_of_firstClaim? hclaim
    refine List.forall_mem_cons.mpr ⟨?_, ih⟩
    rintro ts hts
    obtain rfl : a.tokens = ts := Outcome.claimed.inj hts
    exact hrules r hr (p.goTo n) a ha

theorem scanned_scan (skip? : Place → Option Nat) (rules : List Rule) (p : Place) :
    Scanned skip? rules p p.position (scan skip? rules p) := scanned_scanTo skip? rules p

end WikiPress
