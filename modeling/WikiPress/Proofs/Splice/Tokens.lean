import WikiPress.Proofs.Splice.Piece

/-!
# The tokens that rules leave in a text

A token of a text in which rules were applied was there before, is a part of a text token, or was
emitted by a rule.  A run does not vanish: it stays as it is, or at least the tokens of one claim
stand in its place.

## Main results

* `forall_mem_spliceRules` : what holds of the tokens before and of those that rules emit holds of
  the tokens afterwards.
* `spliceRules_ne_nil` : rules that give tokens for all that they claim leave some tokens.
-/

namespace WikiPress

variable {rules : List Rule} {P : Token → Prop} {t : Token} {ts : List Token}

namespace Run

variable {r : Run}

/-- What is left of a piece is its token or a text. -/
theorem eq_or_eq_ofText_of_mem_cut {text : List Char} {start stop : Nat} {piece : Piece}
    (h : t ∈ cut text start stop piece) : t = piece.token ∨ ∃ s, t = Token.ofText s := by
  unfold cut at h
  split at h
  · exact absurd h List.not_mem_nil
  split at h
  · exact absurd h List.not_mem_nil
  split at h
  · split at h
    · exact .inr ⟨_, List.mem_singleton.mp h⟩
    · exact absurd h List.not_mem_nil
  · split at h
    · exact .inl (List.mem_singleton.mp h)
    · exact absurd h List.not_mem_nil

theorem forall_mem_between (htext : ∀ s, P (Token.ofText s)) (h : ∀ piece ∈ r.pieces, P piece.token)
    (start stop : Nat) : ∀ t ∈ r.between start stop, P t := by
  intro t ht
  obtain ⟨piece, hpiece, hcut⟩ := List.mem_flatMap.mp ht
  obtain rfl | ⟨s, rfl⟩ := eq_or_eq_ofText_of_mem_cut hcut
  · exact h piece hpiece
  · exact htext s

theorem forall_mem_spliceFrom (htext : ∀ s, P (Token.ofText s))
    (h : ∀ piece ∈ r.pieces, P piece.token) {start : Nat} {steps : List Step}
    (hsteps : ∀ step ∈ steps, ∀ ts, step.outcome = .claimed ts → ∀ t ∈ ts, P t) :
    ∀ t ∈ r.spliceFrom start steps, P t := by
  induction steps generalizing start with
  | nil => exact forall_mem_between htext h _ _
  | cons step rest ih =>
    rw [List.forall_mem_cons] at hsteps
    unfold spliceFrom
    split
    · next tokens houtcome =>
      rw [List.forall_mem_append, List.forall_mem_append]
      exact ⟨⟨forall_mem_between htext h _ _, hsteps.1 tokens houtcome⟩, ih hsteps.2⟩
    · exact ih hsteps.2

theorem forall_mem_splice (htext : ∀ s, P (Token.ofText s))
    (hrules : ∀ r ∈ rules, r.Emits fun _ ts => ∀ t ∈ ts, P t)
    (h : ∀ piece ∈ r.pieces, P piece.token) : ∀ t ∈ r.splice rules, P t := by
  rw [splice]
  split
  · exact forall_mem_spliceFrom htext h ((scanned_scan r.skip? rules r.place).emits hrules)
  · exact List.forall_mem_map.mpr h

/-- The tokens of a claim stand in the place of the run. -/
theorem spliceFrom_ne_nil {start : Nat} {steps : List Step} (hclaim : steps.any isClaim = true)
    (hsteps : ∀ step ∈ steps, ∀ ts, step.outcome = .claimed ts → ts ≠ []) :
    r.spliceFrom start steps ≠ [] := by
  induction steps generalizing start with
  | nil => simp at hclaim
  | cons step rest ih =>
    rw [List.forall_mem_cons] at hsteps
    unfold spliceFrom
    split
    · next tokens houtcome => simp [hsteps.1 tokens houtcome]
    · next hnone =>
      rw [List.any_cons, Bool.or_eq_true] at hclaim
      refine ih (hclaim.resolve_left fun hstep => ?_) hsteps.2
      unfold isClaim at hstep
      split at hstep
      · next tokens houtcome => exact hnone tokens houtcome
      · exact nomatch hstep

theorem splice_ne_nil (hrules : ∀ r ∈ rules, r.Emits fun _ ts => ts ≠ []) (h : r.pieces ≠ []) :
    r.splice rules ≠ [] := by
  rw [splice]
  split
  · next hclaim =>
    exact spliceFrom_ne_nil hclaim ((scanned_scan r.skip? rules r.place).emits hrules)
  · simpa using h

end Run

/-! ### Lists of tokens -/

/-- What holds of the tokens of a list, of texts, and of the tokens that rules emit holds of the
tokens after the rules are applied. -/
theorem forall_mem_spliceRules (htext : ∀ s, P (Token.ofText s))
    (hrules : ∀ r ∈ rules, r.Emits fun _ ts => ∀ t ∈ ts, P t) (h : ∀ t ∈ ts, P t) :
    ∀ t ∈ spliceRules rules ts, P t := by
  refine spliceRules_induction (motive := fun _ ts out => (∀ t ∈ ts, P t) → ∀ t ∈ out, P t)
    ?nil ?other ?run ts h
  case nil => simp
  case other =>
    intro _ t rest out _ ih h
    rw [List.forall_mem_cons] at h ⊢
    exact ⟨h.1, ih h.2⟩
  case run =>
    intro _ run rest out _ _ _ ih h
    rw [List.forall_mem_append] at h ⊢
    refine ⟨Run.forall_mem_splice htext hrules fun piece hpiece => ?_, ih h.2⟩
    exact h.1 _ (Run.token_mem_of_mem_placeFrom hpiece)

/-- Rules that give tokens for what they claim leave some of the tokens of a list, or others in
their place. -/
theorem spliceRules_ne_nil (hrules : ∀ r ∈ rules, r.Emits fun _ ts => ts ≠ []) (h : ts ≠ []) :
    spliceRules rules ts ≠ [] := by
  rw [spliceRules]
  have hparted := parted_splitRuns true ts
  generalize splitRuns true ts = parts at hparted
  cases hparted with
  | nil => exact absurd rfl h
  | other => simp
  | @run _ run rest parts hne =>
    have hpieces : (Run.ofTokens true rest.isEmpty run).pieces ≠ [] := by
      cases run with
      | nil => exact absurd rfl hne
      | cons t run => exact List.cons_ne_nil _ _
    simp [Run.splice_ne_nil hrules hpieces]

end WikiPress
