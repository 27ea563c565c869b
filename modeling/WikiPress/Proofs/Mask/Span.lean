import WikiPress.Mask.Basic
import WikiPress.Proofs.Scan

/-!
# The spans of a mask

Every span of a masked source comes from a claim in one of its lines: its tokens are those of the
rule that made the claim, and its claimed text is a part of the line.

## Main results

* `Mask.mem_spans_replaceFrom` : the spans of a line come from the claims in it.
* `Mask.exists_line_of_mem_spans` : the spans of a source come from the claims in its lines.
-/

namespace WikiPress.Mask

open Text

variable {rules : List Rule} {line source : List Char} {span : Span}

theorem subset_of_sliceBytes? {s t : List Char} {start stop : Nat}
    (h : sliceBytes? s start stop = some t) : t ⊆ s := by
  obtain ⟨u, v, rfl, _, _⟩ := sliceBytes?_eq_some_iff.mp h
  exact fun c hc => List.mem_append_left v (List.mem_append_right u hc)

theorem ofLines_cons_cons (rules : List Rule) (number : Nat) (line line' : List Char)
    (rest : List (List Char)) :
    ofLines rules number (line :: line' :: rest) =
      let first := ofLine rules number line
      let after := ofLines rules (number + first.spans.length) (line' :: rest)
      ⟨first.text ++ '\n' :: after.text, first.spans ++ after.spans⟩ := rfl

/-- The rules are tried over a line from its start on. -/
theorem scanned_steps (rules : List Rule) (line : List Char) :
    ∃ p : Place, p.text = line ∧ Scanned skip? rules p 0 (steps rules line) :=
  ⟨{ text := line, startsLine := true, endsLine := true }, rfl, scanned_scan skip? rules _⟩

/-- The spans of a line come from the claims in it. -/
theorem mem_spans_replaceFrom {number start : Nat} {steps : List Step}
    (h : span ∈ (replaceFrom line number start steps).spans) :
    (∃ step ∈ steps, step.outcome = .claimed span.tokens) ∧ span.raw ⊆ line := by
  fun_induction replaceFrom line number start steps with
  | case1 => exact absurd h List.not_mem_nil
  | case2 number start step rest tokens houtcome stop after claimed ih =>
    rcases List.mem_cons.mp h with rfl | h
    · refine ⟨⟨step, List.mem_cons_self .., houtcome⟩, ?_⟩
      show (sliceBytes? line step.start stop).getD [] ⊆ line
      cases hslice : sliceBytes? line step.start stop with
      | none => exact List.nil_subset _
      | some raw => exact subset_of_sliceBytes? hslice
    · obtain ⟨⟨step', hstep', houtcome'⟩, hraw⟩ := ih h
      exact ⟨⟨step', List.mem_cons_of_mem _ hstep', houtcome'⟩, hraw⟩
  | case3 number start step rest _ ih =>
    obtain ⟨⟨step', hstep', houtcome'⟩, hraw⟩ := ih h
    exact ⟨⟨step', List.mem_cons_of_mem _ hstep', houtcome'⟩, hraw⟩

variable {P : List Char → List Token → Prop}

theorem emits_of_mem_spans_ofLine (hrules : ∀ r ∈ rules, r.Emits P) {number : Nat}
    (h : span ∈ (ofLine rules number line).spans) : P line span.tokens ∧ span.raw ⊆ line := by
  obtain ⟨⟨step, hstep, houtcome⟩, hraw⟩ := mem_spans_replaceFrom h
  obtain ⟨p, rfl, hsteps⟩ := scanned_steps rules line
  exact ⟨hsteps.emits hrules step hstep _ houtcome, hraw⟩

theorem exists_line_of_mem_spans_ofLines (hrules : ∀ r ∈ rules, r.Emits P) {number : Nat}
    {lines : List (List Char)} (h : span ∈ (ofLines rules number lines).spans) :
    ∃ line ∈ lines, P line span.tokens ∧ span.raw ⊆ line := by
  induction lines generalizing number with
  | nil => exact absurd h List.not_mem_nil
  | cons line rest ih =>
    cases rest with
    | nil => exact ⟨line, List.mem_cons_self .., emits_of_mem_spans_ofLine hrules h⟩
    | cons line' rest =>
      rcases List.mem_append.mp h with h | h
      · exact ⟨line, List.mem_cons_self .., emits_of_mem_spans_ofLine hrules h⟩
      · obtain ⟨line', hline', hspan⟩ := ih h
        exact ⟨line', List.mem_cons_of_mem _ hline', hspan⟩

/-- The spans of a source come from the claims in its lines. -/
theorem exists_line_of_mem_spans (hrules : ∀ r ∈ rules, r.Emits P)
    (h : span ∈ (ofText rules source).spans) :
    ∃ line ∈ splitAtEach '\n' source, P line span.tokens ∧ span.raw ⊆ line := by
  rw [ofText] at h
  split at h
  · exact exists_line_of_mem_spans_ofLines hrules h
  · exact absurd h List.not_mem_nil

end WikiPress.Mask
