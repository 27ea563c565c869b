import WikiPress.Proofs.Splice.Piece
import WikiPress.Wikilink

/-!
# Rules among inline tokens lose nothing

Where rules are applied to a list of inline tokens, every maximal run of plain tokens is rewritten by
itself, and the other tokens stay where they are.  In a run the rules are tried from left to right
outside the escapes.  What the first rule with a claim claims is replaced by the tokens of the rule,
and what lies between two claims is kept.  A run in which no rule claims anything stays as it is.

The relations of this file say so without the steps of the scan.  They determine the claims: each of
them is the first one behind the claim before.

## Main definitions

* `Run.Quiet` : a stretch of a run in which no rule claims anything.
* `Run.Claims` : the claims in a run, one behind the other.
* `Run.Spliced`, `Run.IsSplice` : a run with its claims replaced.
* `Spliced` : a list of tokens with the claims in its runs replaced.
* `Run.ClaimsApart` : the claims in a run end neither in a character nor in an escape.

## Main results

* `Run.claims_filter_steps` : the claims of a scan are those of the run.
* `Run.spliced_spliceFrom` : the claims in a run are replaced.
* `spliced_spliceRules` : rules replace the claims in every run of a list of tokens.
-/

namespace WikiPress

open Text

namespace Run

/-- Between the two positions no rule claims anything outside the escapes. -/
def Quiet (rules : List Rule) (r : Run) (start stop : Nat) : Prop :=
  ∀ n, start ≤ n → n < stop → IsOffset r.text n → r.insideEscape n = false →
    Rule.firstClaim? rules (r.place.goTo n) = none

/-- The claims in a run from a position on: each of them is the first one behind the position. -/
inductive Claims (rules : List Rule) (r : Run) : Nat → List Step → Prop
  | none {start : Nat} : r.Quiet rules start (size r.text) → Claims rules r start []
  | claim {start n : Nat} {a : Attempt} {rest : List Step} : start ≤ n → n < size r.text →
      IsOffset r.text n → r.insideEscape n = false →
      Rule.firstClaim? rules (r.place.goTo n) = some a → r.Quiet rules start n →
      Claims rules r (min (n + a.advance) (size r.text)) rest →
      Claims rules r start (⟨n, n + a.advance, .claimed a.tokens⟩ :: rest)

/-- The tokens of a run from a position on, with the claims replaced: each claim is the first one
behind the position, it is not empty, and the tokens in front of it are kept. -/
inductive Spliced (rules : List Rule) (r : Run) : Nat → List Token → Prop
  | kept {start : Nat} {ts : List Token} : r.Quiet rules start (size r.text) →
      r.Keeps start (size r.text) ts → Spliced rules r start ts
  | claimed {start n stop : Nat} {a : Attempt} {before after : List Token} :
      start ≤ n → n < stop → stop = min (n + a.advance) (size r.text) →
      IsOffset r.text n → r.insideEscape n = false →
      Rule.firstClaim? rules (r.place.goTo n) = some a →
      r.Quiet rules start n → r.Keeps start n before → Spliced rules r stop after →
      Spliced rules r start (before ++ a.tokens ++ after)

/-- The tokens of a run after the rules are applied: the same ones if nothing is claimed, and
otherwise the tokens with the claims replaced. -/
def IsSplice (rules : List Rule) (r : Run) (ts : List Token) : Prop :=
  (r.Quiet rules 0 (size r.text) ∧ ts = r.pieces.map Piece.token) ∨
    (¬ r.Quiet rules 0 (size r.text) ∧ Spliced rules r 0 ts)

/-- Whatever the rules claim in a run ends behind a whole character and not inside an escape. -/
def ClaimsApart (rules : List Rule) (r : Run) : Prop :=
  ∀ step ∈ r.steps rules, isClaim step = true →
    EndsWhole r.text step.stop ∧ r.insideEscape step.stop = false

instance (rules : List Rule) (r : Run) : Decidable (r.ClaimsApart rules) :=
  inferInstanceAs (Decidable (∀ step ∈ _, _))

/-! ### Quiet stretches -/

section Quiet

variable {rules : List Rule} {r : Run} {start n stop : Nat}

theorem endsWhole_add_characterSize (hn : IsOffset r.text n) (hlt : n < size r.text) :
    EndsWhole r.text (n + (r.place.goTo n).characterSize) :=
  Place.endsWhole_add_characterSize (p := r.place) hn hlt

/-- From an offset on, the next offset is behind the character there. -/
theorem eq_of_lt_add_characterSize {k : Nat} (hn : IsOffset r.text n) (hlt : n < size r.text)
    (hk : IsOffset r.text k) (hle : n ≤ k)
    (hk' : k < n + (r.place.goTo n).characterSize) : k = n := by
  obtain ⟨u, c, v, htext, rfl, hc⟩ := Place.exists_cons_of_isOffset (p := r.place) hn hlt
  rw [hc] at hk'
  exact hk.eq_of_lt_add htext hle hk'

theorem Quiet.add_characterSize (h : r.Quiet rules start n) (hn : IsOffset r.text n)
    (hlt : n < size r.text)
    (hclaim : r.insideEscape n = false → Rule.firstClaim? rules (r.place.goTo n) = none) :
    r.Quiet rules start (n + (r.place.goTo n).characterSize) := by
  intro k hstart hk hoffset hescape
  rcases Nat.lt_or_ge k n with hkn | hkn
  · exact h k hstart hkn hoffset hescape
  · obtain rfl := eq_of_lt_add_characterSize hn hlt hoffset hkn hk
    exact hclaim hescape

theorem Quiet.mono {start' stop' : Nat} (h : r.Quiet rules start stop) (hstart : start ≤ start')
    (hstop : stop' ≤ stop) : r.Quiet rules start' stop' := fun k hk hk' =>
  h k (Nat.le_trans hstart hk) (Nat.lt_of_lt_of_le hk' hstop)

/-- Up to the end of the run, a step that is no claim goes on in quiet. -/
theorem Quiet.min_add_characterSize (h : r.Quiet rules start (min n (size r.text)))
    (hn : EndsWhole r.text n) (hlt : n < size r.text)
    (hclaim : r.insideEscape n = false → Rule.firstClaim? rules (r.place.goTo n) = none) :
    r.Quiet rules start (min (n + (r.place.goTo n).characterSize) (size r.text)) := by
  rw [Nat.min_eq_left hlt.le] at h
  exact (h.add_characterSize (hn.isOffset hlt) hlt hclaim).mono (Nat.le_refl _)
    (Nat.min_le_left _ _)

end Quiet

/-! ### Claims -/

section Claims

variable {rules : List Rule} {r : Run} {start stop : Nat} {a : Attempt} {claims : List Step}

/-- There are no claims exactly if there is none to make. -/
theorem Claims.eq_nil_iff (h : r.Claims rules start claims) :
    claims = [] ↔ r.Quiet rules start (size r.text) := by
  cases h with
  | none hquiet => simp [hquiet]
  | claim hle hlt hoffset hescape hclaim =>
    refine iff_of_false (List.cons_ne_nil _ _) fun hquiet => ?_
    rw [hquiet _ hle hlt hoffset hescape] at hclaim
    exact nomatch hclaim

/-- A quiet stretch may be left out. -/
theorem Claims.skip (h : r.Claims rules start claims) (hle : start ≤ stop)
    (hquiet : r.Quiet rules start stop) : r.Claims rules stop claims := by
  cases h with
  | none hnone => exact .none (hnone.mono hle (Nat.le_refl _))
  | @claim _ n _ _ hn hlt hoffset hescape hclaim hbefore hrest =>
    have hstop : stop ≤ n := by
      by_contra hout
      rw [hquiet n hn (Nat.lt_of_not_le hout) hoffset hescape] at hclaim
      exact nomatch hclaim
    exact .claim hstop hlt hoffset hescape hclaim (hbefore.mono hle (Nat.le_refl _)) hrest

/-- What the rules claim at the position is the first of the claims. -/
theorem Claims.exists_cons (h : r.Claims rules start claims) (hlt : start < size r.text)
    (hoffset : IsOffset r.text start) (hescape : r.insideEscape start = false)
    (hclaim : Rule.firstClaim? rules (r.place.goTo start) = some a) :
    ∃ rest, claims = ⟨start, start + a.advance, .claimed a.tokens⟩ :: rest ∧
      r.Claims rules (min (start + a.advance) (size r.text)) rest := by
  have hloud : ∀ {stop}, start < stop → ¬ r.Quiet rules start stop := fun hstop hquiet => by
    rw [hquiet start (Nat.le_refl _) hstop hoffset hescape] at hclaim
    exact nomatch hclaim
  cases h with
  | none hquiet => exact absurd hquiet (hloud hlt)
  | @claim _ n a' rest hle _ _ _ hclaim' hquiet hrest =>
    obtain rfl : start = n := Nat.le_antisymm hle (Nat.not_lt.mp fun h => hloud h hquiet)
    obtain rfl : a' = a := Option.some.inj (hclaim'.symm.trans hclaim)
    exact ⟨rest, rfl, hrest⟩

end Claims

/-! ### The steps of a scan -/

section Steps

variable {rules : List Rule} {r : Run} {startsLine endsLine : Bool} {ts : List Token}
  {start n : Nat} {steps : List Step}

theorem scanned_steps (rules : List Rule) (r : Run) :
    Scanned r.skip? rules r.place 0 (r.steps rules) := scanned_scan r.skip? rules r.place

theorem skip?_eq_some_iff {k : Nat} : r.skip? (r.place.goTo n) = some k ↔
    r.insideEscape n = true ∧ (r.place.goTo n).characterSize = k := by
  show (if r.insideEscape n = true then some (r.place.goTo n).characterSize else none) = some k ↔ _
  split <;> simp_all

theorem skip?_eq_none_iff : r.skip? (r.place.goTo n) = none ↔ r.insideEscape n = false := by
  show (if r.insideEscape n = true then some (r.place.goTo n).characterSize else none) = none ↔ _
  split <;> simp_all

/-- The claims of a scan are the first ones, one behind the other.  From `start` up to the next
step nothing is claimed. -/
theorem claims_filter_of_scanned (hsteps : Scanned r.skip? rules r.place n steps)
    (hwhole : ∀ step ∈ steps, isClaim step = true → EndsWhole r.text step.stop)
    (hn : EndsWhole r.text n) (hle : start ≤ n)
    (hquiet : r.Quiet rules start (min n (size r.text))) :
    r.Claims rules start (steps.filter isClaim) := by
  induction hsteps generalizing start with
  | @done n hsize =>
    have hsize : size r.text ≤ n := hsize
    rw [Nat.min_eq_right hsize] at hquiet
    exact .none hquiet
  | @skipped n k rest hlt hskip _ ih =>
    obtain ⟨hescape, rfl⟩ := skip?_eq_some_iff.mp hskip
    have hpos := (r.place.goTo n).characterSize_pos
    rw [Nat.max_eq_right hpos] at ih
    exact ih (fun step hstep => hwhole step (List.mem_cons_of_mem _ hstep))
      (endsWhole_add_characterSize (hn.isOffset hlt) hlt) (by omega)
      (hquiet.min_add_characterSize hn hlt (by simp [hescape]))
  | @declined n rest hlt hskip hclaim _ ih =>
    exact ih (fun step hstep => hwhole step (List.mem_cons_of_mem _ hstep))
      (endsWhole_add_characterSize (hn.isOffset hlt) hlt) (by omega)
      (hquiet.min_add_characterSize hn hlt fun _ => hclaim)
  | @claimed n a rest hlt hskip hclaim _ ih =>
    have hlt : n < size r.text := hlt
    rw [Nat.min_eq_left hlt.le] at hquiet
    refine .claim hle hlt (hn.isOffset hlt) (skip?_eq_none_iff.mp hskip) hclaim hquiet ?_
    exact ih (fun step hstep => hwhole step (List.mem_cons_of_mem _ hstep))
      (hwhole _ (List.mem_cons_self ..) rfl) (Nat.min_le_left _ _)
      fun k hk hk' => absurd hk' (Nat.not_lt.mpr hk)

/-- Rules that claim whole characters end every claim of a scan behind a whole character. -/
theorem endsWhole_of_scanned (hrules : ∀ rule ∈ rules, rule.ClaimsWhole r.text)
    (hsteps : Scanned r.skip? rules r.place n steps) (hn : EndsWhole r.text n) :
    ∀ step ∈ steps, isClaim step = true → EndsWhole r.text step.stop := by
  induction hsteps with
  | done => exact fun _ hstep => absurd hstep List.not_mem_nil
  | @skipped n k rest hlt hskip _ ih =>
    obtain ⟨-, rfl⟩ := skip?_eq_some_iff.mp hskip
    have hpos := (r.place.goTo n).characterSize_pos
    rw [Nat.max_eq_right hpos] at ih ⊢
    have hnext := endsWhole_add_characterSize (hn.isOffset hlt) hlt
    exact List.forall_mem_cons.mpr ⟨fun _ => hnext, ih hnext⟩
  | @declined n rest hlt _ _ _ ih =>
    have hnext := endsWhole_add_characterSize (hn.isOffset hlt) hlt
    exact List.forall_mem_cons.mpr ⟨fun _ => hnext, ih hnext⟩
  | @claimed n a rest hlt _ hclaim _ ih =>
    have hnext := Rule.endsWhole_add_of_firstClaim? hrules (hn.isOffset hlt) hclaim
    exact List.forall_mem_cons.mpr ⟨fun _ => hnext, ih hnext⟩

/-- The claims of the rules in a run. -/
theorem claims_filter_steps
    (hwhole : ∀ step ∈ r.steps rules, isClaim step = true → EndsWhole r.text step.stop) :
    r.Claims rules 0 ((r.steps rules).filter isClaim) :=
  claims_filter_of_scanned (scanned_steps rules r) hwhole (Or.inr (isOffset_zero _)) (Nat.le_refl 0)
    fun k _ hk => absurd hk (by omega)

/-- Only the claims among the steps change the tokens. -/
theorem spliceFrom_filter (r : Run) (start : Nat) (steps : List Step) :
    r.spliceFrom start (steps.filter isClaim) = r.spliceFrom start steps := by
  induction steps generalizing start with
  | nil => rfl
  | cons step rest ih =>
    rw [List.filter_cons]
    cases houtcome : step.outcome with
    | claimed tokens => simp [isClaim, spliceFrom, houtcome, ih]
    | skipped => simp [isClaim, spliceFrom, houtcome, ih]
    | declined => simp [isClaim, spliceFrom, houtcome, ih]

/-- The tokens of a run after the rules are applied depend on the claims only. -/
theorem splice_eq (rules : List Rule) (r : Run) :
    r.splice rules =
      if (r.steps rules).filter isClaim = [] then r.pieces.map Piece.token
      else r.spliceFrom 0 ((r.steps rules).filter isClaim) := by
  simp only [splice, spliceFrom_filter, List.filter_eq_nil_iff, List.any_eq_true]
  split
  · next hany => rw [if_neg (by simpa using hany)]
  · next hany => rw [if_pos (by simpa using hany)]

/-- Where the claims of a run are replaced, what is between them is kept. -/
theorem spliced_spliceFrom (hplain : ∀ t ∈ ts, t.kind.isPlain = true) (hmarkup : HasMarkup ts)
    (hr : r = ofTokens startsLine endsLine ts) (hclaims : r.Claims rules start steps)
    (hapart : ∀ step ∈ steps, EndsWhole r.text step.stop ∧ r.insideEscape step.stop = false)
    (hstart : IsOffset r.text start) (hstart' : r.insideEscape start = false) :
    Spliced rules r start (spliceFrom r start steps) := by
  induction hclaims with
  | none hquiet =>
    exact .kept hquiet (keeps_between hplain hmarkup hr hstart (isOffset_size _) hstart.le_size
      hstart' (insideEscape_size r hr))
  | @claim start n a rest hle hlt hoffset hescape hclaim hquiet _ ih =>
    obtain ⟨⟨hstop, hstop'⟩, hrest⟩ := List.forall_mem_cons.mp hapart
    have hpos := Rule.advance_pos_of_firstClaim? hclaim
    have hmin : r.insideEscape (min (n + a.advance) (size r.text)) = false := by
      rcases Nat.le_total (n + a.advance) (size r.text) with h | h
      · rwa [Nat.min_eq_left h]
      · rw [Nat.min_eq_right h]
        exact insideEscape_size r hr
    exact .claimed hle (Nat.lt_min.mpr ⟨by omega, hlt⟩) rfl hoffset hescape hclaim hquiet
      (keeps_between hplain hmarkup hr hstart hoffset hle hstart' hescape)
      (ih hrest hstop.isOffset_min hmin)

theorem insideEscape_zero (r : Run) : r.insideEscape 0 = false := by
  simp [insideEscape]

/-- Where rules are applied to a run, its claims are replaced. -/
theorem isSplice_splice (hplain : ∀ t ∈ ts, t.kind.isPlain = true) (hmarkup : HasMarkup ts)
    (hr : r = ofTokens startsLine endsLine ts) (hapart : r.ClaimsApart rules) :
    r.IsSplice rules (r.splice rules) := by
  have hclaims := claims_filter_steps fun step hstep hclaim => (hapart step hstep hclaim).1
  rw [splice_eq]
  split
  · next hnone => exact Or.inl ⟨hclaims.eq_nil_iff.mp hnone, rfl⟩
  · next hsome =>
    refine Or.inr ⟨fun hquiet => hsome (hclaims.eq_nil_iff.mpr hquiet), ?_⟩
    refine spliced_spliceFrom hplain hmarkup hr hclaims (fun step hstep => ?_) (isOffset_zero _)
      (insideEscape_zero r)
    exact hapart step (List.mem_filter.mp hstep).1 (List.mem_filter.mp hstep).2

end Steps

end Run

/-! ### Lists of tokens -/

/-- A list of tokens with the claims in its runs replaced.  The runs are as long as possible, and
the tokens between them stay as they are.  `atStart` tells whether the list is at the start of the
tokens. -/
inductive Spliced (rules : List Rule) : Bool → List Token → List Token → Prop
  | nil {atStart : Bool} : Spliced rules atStart [] []
  | other {atStart : Bool} {t : Token} {rest out : List Token} : t.kind.isPlain = false →
      Spliced rules false rest out → Spliced rules atStart (t :: rest) (t :: out)
  | run {atStart : Bool} {run rest out out' : List Token} : run ≠ [] →
      (∀ t ∈ run, t.kind.isPlain = true) → (∀ t ∈ rest.head?, t.kind.isPlain = false) →
      (Run.ofTokens atStart rest.isEmpty run).IsSplice rules out →
      Spliced rules false rest out' → Spliced rules atStart (run ++ rest) (out ++ out')

/-- The runs of a list of tokens. -/
def runs (atStart : Bool) (ts : List Token) : List Run :=
  (splitRuns atStart ts).filterMap Sum.getRight?

theorem mem_runs_iff {atStart : Bool} {ts : List Token} {r : Run} :
    r ∈ runs atStart ts ↔ .inr r ∈ splitRuns atStart ts := by
  simp [runs]

/-- Rules replace the claims in every run of a list of tokens and keep everything else, if the
claims end neither in a character nor in an escape. -/
theorem spliced_spliceRules {rules : List Rule} {ts : List Token}
    (hmarkup : ∀ t ∈ ts, t.kind = .textSpecial → t.markup ≠ "")
    (hclaims : ∀ r ∈ runs true ts, r.ClaimsApart rules) :
    Spliced rules true ts (spliceRules rules ts) := by
  simp only [mem_runs_iff] at hclaims
  rw [spliceRules]
  have hparted := parted_splitRuns true ts
  revert hparted hclaims
  generalize splitRuns true ts = parts
  generalize true = atStart
  intro hclaims hparted
  induction hparted with
  | nil => exact .nil
  | other ht _ ih =>
    rw [List.flatMap_cons]
    refine .other ht (ih ?_ ?_)
    · exact fun u hu => hmarkup u (List.mem_cons_of_mem _ hu)
    · exact fun r hr => hclaims r (List.mem_cons_of_mem _ hr)
  | run hne hplain hafter _ ih =>
    rw [List.flatMap_cons]
    refine .run hne hplain hafter ?_ (ih ?_ ?_)
    · exact Run.isSplice_splice hplain (fun u hu => hmarkup u (List.mem_append_left _ hu)) rfl
        (hclaims _ (List.mem_cons_self ..))
    · exact fun u hu => hmarkup u (List.mem_append_right _ hu)
    · exact fun r hr => hclaims r (List.mem_cons_of_mem _ hr)

/-- A wikilink that reaches over an escape, with text in front of it and behind it and another run
behind a code span. -/
def linkOverEscape : List Token :=
  [Token.ofText "x[[a", { kind := .textSpecial, content := "]", markup := "\\]" },
    Token.ofText "]]é", { kind := .softBreak }, { kind := .codeInline }, Token.ofText "y"]

theorem spliced_linkOverEscape :
    (∀ t ∈ linkOverEscape, t.kind = .textSpecial → t.markup ≠ "") ∧
    (∀ r ∈ runs true linkOverEscape, r.ClaimsApart [Wikilink.rule Slugger.lowercase]) ∧
    (spliceRules [Wikilink.rule Slugger.lowercase] linkOverEscape).map Token.kind =
      [.text, .linkOpen, .text, .linkClose, .text, .softBreak, .codeInline, .text] ∧
    Spliced [Wikilink.rule Slugger.lowercase] true linkOverEscape
      (spliceRules [Wikilink.rule Slugger.lowercase] linkOverEscape) := by
  have hmarkup : ∀ t ∈ linkOverEscape, t.kind = .textSpecial → t.markup ≠ "" := by decide
  have hclaims : ∀ r ∈ runs true linkOverEscape,
      r.ClaimsApart [Wikilink.rule Slugger.lowercase] := by decide +kernel
  exact ⟨hmarkup, hclaims, by decide +kernel, spliced_spliceRules hmarkup hclaims⟩

end WikiPress
