import WikiPress.Proofs.Toc.Marker

/-!
# Lines that become tables of contents

In a list of tokens, a line that says `[toc]` is replaced by the tokens of a table of contents
exactly if nothing else stands in the line.  All other lines stay as they are, but that empty texts
may be dropped from them.  No marker is left, and so the rule changes nothing when it is applied
again.

The first and the last line of a run may be parts of lines only, which end at a code span or another
token that is not plain.  `Relined` says how a list of tokens changes line by line, with two flags
for the lines at its ends.  When runs and other tokens are put one behind the other, the parts of a
line join to a line that is no marker, since a token that is not plain stands in it.

## Main definitions

* `Toc.LineTo` : how the rule changes a line.
* `Toc.Relined` : how the rule changes a list of tokens, line by line.
* `Toc.HasMarker` : a marker is one of the lines of a list of tokens.

## Main results

* `Toc.relined_splice`, `Toc.splice_eq_self` : the rule in a run.
* `Toc.relined_spliceRules` : the rule in a list of tokens.
* `Toc.spliceRules_eq_self` : without a marker the rule changes nothing.
* `Toc.lines_spliceRules` : the rule in the lines of a list of tokens.
-/

namespace WikiPress.Toc

open Text

variable {startsLine endsLine whole : Bool} {t : Token} {line out out' rest ts us : List Token}

/-! ### Lines -/

/-- A marker is replaced by the tokens of a table of contents; from another line empty texts may be
dropped. -/
def LineTo (line out : List Token) : Prop :=
  if IsMarker line then out = tokens else Thinned line out

/-- A whole line changes as a line does; from a part of a line empty texts may be dropped. -/
def PartTo (whole : Bool) (line out : List Token) : Prop :=
  if whole = true then LineTo line out else Thinned line out

theorem IsMarker.isBreak_eq_false (h : IsMarker line) : ∀ t ∈ line, isBreak t = false :=
  fun t ht => WikiPress.isBreak_eq_false (h.1 t ht)

theorem partTo_of_thinned (h : Thinned line out) (hmarker : ¬ (whole = true ∧ IsMarker line)) :
    PartTo whole line out := by
  rw [PartTo, LineTo]
  split
  · next hwhole => rwa [if_neg fun hline => hmarker ⟨hwhole, hline⟩]
  · exact h

/-- A line with a token that is not plain is no marker. -/
theorem partTo_of_other (h : Thinned line out) (hother : ∃ t ∈ line, t.kind.isPlain = false) :
    PartTo whole line out := by
  refine partTo_of_thinned h ?_
  rintro ⟨-, hkinds, -⟩
  obtain ⟨t, ht, hkind⟩ := hother
  rcases hkinds t ht with htext | htext <;> simp [htext, TokenKind.isPlain] at hkind

theorem partTo_tokens (h : whole = true ∧ IsMarker line) : PartTo whole line tokens := by
  rw [PartTo, if_pos h.1, LineTo, if_pos h.2]

theorem PartTo.thinned (h : PartTo false line out) : Thinned line out := h

theorem PartTo.mem_or (h : PartTo whole line out) (ht : t ∈ out) : t ∈ line ∨ t ∈ tokens := by
  rw [PartTo, LineTo] at h
  split at h
  · split at h
    · exact .inr (h ▸ ht)
    · exact .inl (h.mem_of_mem ht)
  · exact .inl (h.mem_of_mem ht)

theorem isBreak_of_mem_tokens (ht : t ∈ tokens) : isBreak t = false := by
  revert t
  decide

theorem PartTo.isBreak_eq_false (h : PartTo whole line out) (hline : ∀ t ∈ line, isBreak t = false) :
    ∀ t ∈ out, isBreak t = false := by
  intro t ht
  exact (h.mem_or ht).elim (hline t) isBreak_of_mem_tokens

/-- Empty texts do not matter to a marker. -/
theorem isMarker_iff_of_thinned (h : Thinned line out) : IsMarker line ↔ IsMarker out := by
  have hkinds : (∀ t ∈ line, t.kind = .text ∨ t.kind = .textSpecial) ↔
      ∀ t ∈ out, t.kind = .text ∨ t.kind = .textSpecial := by
    constructor
    · exact fun hline t ht => hline t (h.mem_of_mem ht)
    · intro hout t ht
      rcases h.mem_or ht with hmem | hempty
      · exact hout t hmem
      · simp only [isEmptyText, Bool.and_eq_true, decide_eq_true_eq] at hempty
        exact .inl hempty.1
  rw [IsMarker, IsMarker, hkinds, h.flatMap_scanText]

/-- What a line becomes is no marker. -/
theorem LineTo.not_isMarker (h : LineTo line out) : ¬ IsMarker out := by
  rw [LineTo] at h
  split at h
  · subst h
    decide
  · next hmarker => rwa [← isMarker_iff_of_thinned h]

/-! ### Lists of tokens, line by line -/

/-- How a list of tokens changes, line by line.  The flags tell whether the list starts and ends
with a whole line. -/
inductive Relined (endsLine : Bool) : Bool → List Token → List Token → Prop
  | last {startsLine : Bool} {line out : List Token} : (∀ t ∈ line, isBreak t = false) →
      PartTo (startsLine && endsLine) line out → Relined endsLine startsLine line out
  | next {startsLine : Bool} {line rest out out' : List Token} {b : Token} :
      (∀ t ∈ line, isBreak t = false) → isBreak b = true → PartTo startsLine line out →
      Relined endsLine true rest out' →
      Relined endsLine startsLine (line ++ b :: rest) (out ++ b :: out')

theorem Relined.mem_or (h : Relined endsLine startsLine ts out) (ht : t ∈ out) :
    t ∈ ts ∨ t ∈ tokens := by
  induction h with
  | last _ hpart => exact hpart.mem_or ht
  | next _ _ hpart _ ih =>
    rw [List.mem_append, List.mem_cons] at ht ⊢
    rcases ht with ht | rfl | ht
    · exact (hpart.mem_or ht).imp_left .inl
    · exact .inl (.inr (.inl rfl))
    · exact (ih ht).imp_left fun hmem => .inr (.inr hmem)

/-- A part of a line in front of a list joins its first line.  The joint line is no marker if a token
that is not plain stands in one of the two, at the seam in the second. -/
theorem Relined.join (h : Relined endsLine false ts out) (hline : ∀ t ∈ line, isBreak t = false)
    (hthin : Thinned line out')
    (hother : (∃ t ∈ line, t.kind.isPlain = false) ∨ ∃ t ∈ ts.head?, t.kind.isPlain = false) :
    Relined endsLine startsLine (line ++ ts) (out' ++ out) := by
  have hmem : ∀ {first}, (∀ t ∈ ts.head?, t.kind.isPlain = false → t ∈ first) →
      ∃ t ∈ line ++ first, t.kind.isPlain = false := by
    intro first hfirst
    rcases hother with ⟨t, ht, hkind⟩ | ⟨t, ht, hkind⟩
    · exact ⟨t, List.mem_append_left _ ht, hkind⟩
    · exact ⟨t, List.mem_append_right _ (hfirst t ht hkind), hkind⟩
  cases h with
  | last hts hpart =>
    rw [Bool.false_and] at hpart
    exact .last (List.forall_mem_append.mpr ⟨hline, hts⟩)
      (partTo_of_other (hthin.append hpart.thinned)
        (hmem fun t ht _ => List.mem_of_mem_head? ht))
  | @next _ first rest _ _ b hfirst hb hpart hrest =>
    -- The token at the seam is no break, so it stands in the first line.
    have hseam : ∀ t ∈ (first ++ b :: rest).head?, t.kind.isPlain = false → t ∈ first := by
      intro t ht hkind
      cases first with
      | nil =>
        obtain rfl : b = t := Option.some.inj ht
        rw [isPlain_of_isBreak hb] at hkind
        exact absurd hkind (by decide)
      | cons u first => exact Option.some.inj ht ▸ List.mem_cons_self ..
    rw [← List.append_assoc, ← List.append_assoc]
    exact .next (List.forall_mem_append.mpr ⟨hline, hfirst⟩) hb
      (partTo_of_other (hthin.append hpart.thinned) (hmem hseam)) hrest

/-- Two lists are put one behind the other if a token that is not plain stands at the seam. -/
theorem Relined.append (h : Relined false startsLine us out') (h' : Relined endsLine false ts out)
    (hother : ∃ t ∈ ts.head?, t.kind.isPlain = false) :
    Relined endsLine startsLine (us ++ ts) (out' ++ out) := by
  induction h with
  | last hline hpart =>
    rw [Bool.and_false] at hpart
    exact h'.join hline hpart.thinned (.inr hother)
  | next hline hb hpart _ ih =>
    rw [List.append_assoc, List.cons_append, List.append_assoc, List.cons_append]
    exact .next hline hb hpart ih

/-! ### Markers among the lines -/

/-- One of the lines of a list of tokens is a marker.  The flags tell whether the list starts and
ends with a whole line. -/
def HasMarker (startsLine endsLine : Bool) (ts : List Token) : Prop :=
  ∃ before line after, ts = before ++ (line ++ after) ∧ IsMarker line ∧
    before.getLast?.elim startsLine isBreak = true ∧ after.head?.elim endsLine isBreak = true

/-- A marker in the first of two lists. -/
theorem HasMarker.append (h : HasMarker startsLine rest.isEmpty ts) :
    HasMarker startsLine true (ts ++ rest) := by
  obtain ⟨before, line, after, rfl, hline, hbefore, hafter⟩ := h
  refine ⟨before, line, after ++ rest, by simp, hline, hbefore, ?_⟩
  cases after with
  | nil =>
    obtain rfl : rest = [] := List.isEmpty_iff.mp hafter
    rfl
  | cons b after => exact hafter

/-- A marker in the second of two lists. -/
theorem HasMarker.append_left (h : HasMarker false endsLine rest) (ts : List Token) :
    HasMarker startsLine endsLine (ts ++ rest) := by
  obtain ⟨before, line, after, rfl, hline, hbefore, hafter⟩ := h
  refine ⟨ts ++ before, line, after, by simp, hline, ?_, hafter⟩
  cases hlast : before.getLast? with
  | none => simp [hlast] at hbefore
  | some b => simpa [hlast, List.getLast?_append] using hbefore

/-- A marker behind the first break. -/
theorem HasMarker.append_break {b : Token} (h : HasMarker true endsLine rest)
    (hb : isBreak b = true) (line : List Token) :
    HasMarker startsLine endsLine (line ++ b :: rest) := by
  obtain ⟨before, marker, after, rfl, hmarker, hbefore, hafter⟩ := h
  refine ⟨line ++ b :: before, marker, after, by simp, hmarker, ?_, hafter⟩
  cases hlast : before.getLast? with
  | none => simp [List.getLast?_append, List.getLast?_cons, hlast, hb]
  | some c => simpa [List.getLast?_append, List.getLast?_cons, hlast] using hbefore

/-- A marker in a list is one of the lines into which the breaks cut the list. -/
theorem HasMarker.exists_mem_splitOnP (h : HasMarker true true ts) :
    ∃ line ∈ ts.splitOnP isBreak, IsMarker line := by
  obtain ⟨before, line, after, rfl, hline, hbefore, hafter⟩ := h
  refine ⟨line, ?_, hline⟩
  have hmem : line ∈ (line ++ after).splitOnP isBreak := by
    cases after with
    | nil =>
      rw [List.append_nil, List.splitOnP_eq_singleton hline.isBreak_eq_false]
      exact List.mem_singleton_self line
    | cons b after =>
      rw [List.splitOnP_append_cons_of_forall_mem hline.isBreak_eq_false b hafter]
      exact List.mem_cons_self ..
  rcases List.eq_nil_or_concat' before with rfl | ⟨before, b, rfl⟩
  · exact hmem
  · rw [List.getLast?_concat, Option.elim_some] at hbefore
    rw [List.append_assoc, List.singleton_append, List.splitOnP_append_cons _ _ hbefore]
    exact List.mem_append_right _ hmem

/-! ### The claims in the lines -/

section Claims

variable {r : Run} {n : Nat} {before mid after : List Token} {claims : List Step}
  {startsRun endsRun : Bool}

theorem hasMarker_of_lineClaims (h : LineClaims endsLine startsLine n ts claims)
    (hne : claims ≠ []) : HasMarker startsLine endsLine ts := by
  induction h with
  | @last startsLine n line hline =>
    rw [lineClaim] at hne
    split at hne
    · next hmarker =>
      obtain ⟨hwhole, hmarker⟩ := hmarker
      rw [Bool.and_eq_true] at hwhole
      exact ⟨[], line, [], by simp, hmarker, hwhole.1, hwhole.2⟩
    · exact absurd rfl hne
  | @next startsLine n line rest b claims hline hb _ ih =>
    rw [lineClaim] at hne
    split at hne
    · next hmarker => exact ⟨[], line, b :: rest, rfl, hmarker.2, hmarker.1, hb⟩
    · exact (ih hne).append_break hb line

theorem relined_self_of_lineClaims (h : LineClaims endsLine startsLine n ts claims)
    (hnone : claims = []) : Relined endsLine startsLine ts ts := by
  have hpart : ∀ {whole n line}, lineClaim whole n line = [] → PartTo whole line line :=
    fun hclaim => partTo_of_thinned (.refl _) fun hmarker => by
      rw [lineClaim, if_pos hmarker] at hclaim
      exact List.cons_ne_nil _ _ hclaim
  induction h with
  | last hline => exact .last hline (hpart hnone)
  | next hline hb _ ih =>
    obtain ⟨hclaim, hrest⟩ := List.append_eq_nil_iff.mp hnone
    exact .next hline hb (hpart hclaim) (ih hrest)

/-- The claim of a line replaces the line; without a claim the line is still to be kept. -/
theorem spliceFrom_lineClaim
    (hr : r = Run.ofTokens startsRun endsRun (before ++ mid ++ (line ++ after)))
    (hn : n = size ((before ++ mid).flatMap scanText))
    (hplain : ∀ t ∈ mid, t.kind.isPlain = true) (hfits : ∀ t ∈ mid, t.FitsLine) :
    r.spliceFrom (size (before.flatMap scanText)) (lineClaim whole n line ++ claims) =
      if whole = true ∧ IsMarker line then
        mid.filter (!isEmptyText ·) ++ tokens ++
          r.spliceFrom (size ((before ++ mid ++ line).flatMap scanText)) claims
      else r.spliceFrom (size (before.flatMap scanText)) claims := by
  have hstop : n + size (line.flatMap scanText) =
      size ((before ++ mid ++ line).flatMap scanText) := by
    rw [hn, ← size_append, ← List.flatMap_append]
  have hle : size ((before ++ mid ++ line).flatMap scanText) ≤ size r.text := by
    simp [hr, Run.ofTokens]
  rw [lineClaim]
  split
  · rw [List.singleton_append, Run.spliceFrom]
    simp only
    rw [hstop, Nat.min_eq_left hle, hn, Run.between_eq_filter hr hplain hfits]
  · rfl

/-- The claims in the lines of the last tokens of a run change these tokens line by line.  The
tokens `mid` in front of them are still to be kept. -/
theorem exists_relined_of_lineClaims (h : LineClaims endsLine startsLine n ts claims)
    (hr : r = Run.ofTokens startsRun endsRun (before ++ mid ++ ts))
    (hn : n = size ((before ++ mid).flatMap scanText))
    (hplain : ∀ t ∈ mid ++ ts, t.kind.isPlain = true) (hfits : ∀ t ∈ mid ++ ts, t.FitsLine) :
    ∃ out, r.spliceFrom (size (before.flatMap scanText)) claims =
        mid.filter (!isEmptyText ·) ++ out ∧ Relined endsLine startsLine ts out := by
  rw [List.forall_mem_append] at hplain hfits
  induction h generalizing before mid with
  | @last startsLine n line hline =>
    have hr' : r = Run.ofTokens startsRun endsRun (before ++ mid ++ (line ++ [])) := by
      rwa [List.append_nil]
    rw [← List.append_nil (lineClaim _ _ _), spliceFrom_lineClaim hr' hn hplain.1 hfits.1]
    split
    · next hmarker =>
      rw [← List.append_assoc] at hr'
      have hend : r.spliceFrom (size ((before ++ mid ++ line).flatMap scanText)) [] = [] :=
        Run.spliceFrom_nil_eq_filter hr' (by simp) (by simp)
      refine ⟨tokens, ?_, .last hline (partTo_tokens hmarker)⟩
      rw [hend, List.append_nil]
    · next hmarker =>
      rw [List.append_assoc] at hr
      refine ⟨_, ?_, .last hline (partTo_of_thinned (thinned_filter line) hmarker)⟩
      rw [Run.spliceFrom_nil_eq_filter hr (List.forall_mem_append.mpr hplain)
        (List.forall_mem_append.mpr hfits), List.filter_append]
  | @next startsLine n line rest b claims hline hb _ ih =>
    have hbreak : size (scanText b) = 1 := by rw [scanText_of_isBreak hb]; rfl
    have hkeep : isEmptyText b = false := isEmptyText_of_isBreak hb
    simp only [List.forall_mem_append, List.forall_mem_cons] at hplain hfits
    rw [spliceFrom_lineClaim hr hn hplain.1 hfits.1]
    split
    · next hmarker =>
      obtain ⟨out, hout, hrelined⟩ := @ih (before ++ mid ++ line) [b]
        (by simpa using hr) (by simp [hn, hbreak, Nat.add_assoc]) (by simpa using hplain.2.2)
        (by simpa using hfits.2.2)
      refine ⟨tokens ++ b :: out, ?_, .next hline hb (partTo_tokens hmarker) hrelined⟩
      rw [hout]
      simp [hkeep]
    · next hmarker =>
      obtain ⟨out, hout, hrelined⟩ := @ih before (mid ++ line ++ [b])
        (by simpa using hr) (by simp [hn, hbreak, Nat.add_assoc])
        (by simp only [List.forall_mem_append, List.forall_mem_singleton]; tauto)
        (by simp only [List.forall_mem_append, List.forall_mem_singleton]; tauto)
      refine ⟨line.filter (!isEmptyText ·) ++ b :: out, ?_,
        .next hline hb (partTo_of_thinned (thinned_filter line) hmarker) hrelined⟩
      simp [hout, hkeep]

end Claims

/-! ### Runs -/

section Runs

variable {r : Run}

theorem lineClaims_steps (hr : r = Run.ofTokens startsLine endsLine ts)
    (hplain : ∀ t ∈ ts, t.kind.isPlain = true) (hfits : ∀ t ∈ ts, t.FitsLine) :
    LineClaims endsLine startsLine 0 ts ((r.steps [rule]).filter Run.isClaim) := by
  have hwhole : ∀ step ∈ r.steps [rule], Run.isClaim step = true → EndsWhole r.text step.stop :=
    Run.endsWhole_of_scanned (List.forall_mem_singleton.mpr (claimsWhole_rule _))
      (Run.scanned_steps [rule] r) (.inr (isOffset_zero _))
  have hr' : r = Run.ofTokens startsLine endsLine ([] ++ ts) := hr
  exact lineClaims_of_claims hr' hplain hfits (Run.claims_filter_steps hwhole)

/-- A run without a marker stays as it is. -/
theorem splice_eq_self (hr : r = Run.ofTokens startsLine endsLine ts)
    (hplain : ∀ t ∈ ts, t.kind.isPlain = true) (hfits : ∀ t ∈ ts, t.FitsLine)
    (hmarker : ¬ HasMarker startsLine endsLine ts) : r.splice [rule] = ts := by
  have hnone : (r.steps [rule]).filter Run.isClaim = [] := by
    by_contra hsome
    exact hmarker (hasMarker_of_lineClaims (lineClaims_steps hr hplain hfits) hsome)
  rw [Run.splice_eq, if_pos hnone, hr]
  exact Run.map_token_placeFrom 0 ts

/-- The rule changes a run line by line. -/
theorem relined_splice (hr : r = Run.ofTokens startsLine endsLine ts)
    (hplain : ∀ t ∈ ts, t.kind.isPlain = true) (hfits : ∀ t ∈ ts, t.FitsLine) :
    Relined endsLine startsLine ts (r.splice [rule]) := by
  have hclaims := lineClaims_steps hr hplain hfits
  rw [Run.splice_eq]
  split
  · next hnone =>
    rw [hr, show (Run.ofTokens startsLine endsLine ts).pieces.map Piece.token = ts from
      Run.map_token_placeFrom 0 ts]
    exact relined_self_of_lineClaims hclaims hnone
  · have hr' : r = Run.ofTokens startsLine endsLine ([] ++ [] ++ ts) := hr
    obtain ⟨out, hout, hrelined⟩ := exists_relined_of_lineClaims hclaims hr' rfl hplain hfits
    rw [show r.spliceFrom 0 ((r.steps [rule]).filter Run.isClaim) = out from hout]
    exact hrelined

end Runs

/-! ### All tokens -/

theorem Relined.eq_nil (h : Relined endsLine false [] out) : out = [] := by
  generalize hts : [] = ts at h
  cases h with
  | last _ hpart =>
    subst hts
    exact thinned_nil_iff.mp hpart.thinned
  | next => simp at hts

/-- The rule changes a list of tokens line by line. -/
theorem relined_spliceRules (hfits : ∀ t ∈ ts, t.FitsLine) :
    Relined true true ts (spliceRules [rule] ts) := by
  refine spliceRules_induction (motive := fun startsLine ts out =>
    (∀ t ∈ ts, t.FitsLine) → Relined true startsLine ts out) ?nil ?other ?run ts hfits
  case nil =>
    have hnil : ¬ IsMarker [] := by decide
    exact fun _ _ => .last (by simp) (partTo_of_thinned (.refl []) fun hmarker => hnil hmarker.2)
  case other =>
    intro _ t rest out hother ih hfits
    rw [List.forall_mem_cons] at hfits
    have hbreak : ∀ u ∈ [t], isBreak u = false :=
      List.forall_mem_singleton.mpr (isBreak_of_isPlain_eq_false hother)
    exact (ih hfits.2).join hbreak (.refl [t]) (.inl ⟨t, List.mem_singleton_self t, hother⟩)
  case run =>
    intro startsLine run rest out _ hplain hafter ih hfits
    rw [List.forall_mem_append] at hfits
    have hrun := relined_splice (r := Run.ofTokens startsLine rest.isEmpty run) rfl hplain hfits.1
    have hrest := ih hfits.2
    cases rest with
    | nil =>
      rw [hrest.eq_nil, List.append_nil, List.append_nil]
      exact hrun
    | cons t rest => exact hrun.append hrest ⟨t, rfl, hafter t rfl⟩

/-- Without a marker the rule changes nothing. -/
theorem spliceRules_eq_self (hfits : ∀ t ∈ ts, t.FitsLine) (hmarker : ¬ HasMarker true true ts) :
    spliceRules [rule] ts = ts := by
  refine spliceRules_induction (motive := fun startsLine ts out => (∀ t ∈ ts, t.FitsLine) →
    ¬ HasMarker startsLine true ts → out = ts) ?nil ?other ?run ts hfits hmarker
  case nil => exact fun _ _ _ => rfl
  case other =>
    intro _ t rest out _ ih hfits hmarker
    rw [List.forall_mem_cons] at hfits
    rw [ih hfits.2 fun h => hmarker (h.append_left [t])]
  case run =>
    intro _ run rest out _ hplain _ ih hfits hmarker
    rw [List.forall_mem_append] at hfits
    rw [ih hfits.2 fun h => hmarker (h.append_left run),
      splice_eq_self rfl hplain hfits.1 fun h => hmarker h.append]

/-! ### The lines between the breaks -/

theorem Relined.forall₂_lineTo (h : Relined true startsLine ts out) (hstart : startsLine = true) :
    List.Forall₂ LineTo (ts.splitOnP isBreak) (out.splitOnP isBreak) := by
  induction h with
  | last hline hpart =>
    subst hstart
    rw [List.splitOnP_eq_singleton hline,
      List.splitOnP_eq_singleton (hpart.isBreak_eq_false hline)]
    exact .cons hpart .nil
  | next hline hb hpart _ ih =>
    subst hstart
    rw [List.splitOnP_append_cons_of_forall_mem hline _ hb,
      List.splitOnP_append_cons_of_forall_mem (hpart.isBreak_eq_false hline) _ hb]
    exact .cons hpart (ih rfl)

theorem Relined.filter_isBreak (h : Relined endsLine startsLine ts out) :
    out.filter isBreak = ts.filter isBreak := by
  have hnone : ∀ {line : List Token}, (∀ t ∈ line, isBreak t = false) → line.filter isBreak = [] :=
    fun hline => List.filter_eq_nil_iff.mpr fun t ht => by simp [hline t ht]
  induction h with
  | last hline hpart => rw [hnone hline, hnone (hpart.isBreak_eq_false hline)]
  | next hline _ hpart _ ih =>
    rw [List.filter_append, List.filter_append, hnone hline,
      hnone (hpart.isBreak_eq_false hline), List.filter_cons, List.filter_cons, ih]

theorem not_isMarker_of_forall₂_lineTo {lines outs : List (List Token)}
    (h : List.Forall₂ LineTo lines outs) : ∀ out ∈ outs, ¬ IsMarker out := by
  induction h with
  | nil => simp
  | cons hline _ ih => exact List.forall_mem_cons.mpr ⟨hline.not_isMarker, ih⟩

theorem fitsLine_of_mem_tokens (ht : t ∈ tokens) : t.FitsLine := by
  have hkinds : ∀ t ∈ tokens, t.kind ≠ .text ∧ t.kind ≠ .textSpecial := by decide
  exact .of_kind_ne (hkinds t ht).1 (hkinds t ht).2

/-- In tokens whose texts and escapes fit their lines, the rule replaces the lines that are markers
by the tokens of a table of contents.  The other lines are kept but for empty texts, and so are the
breaks between the lines.  When the rule is applied again nothing changes. -/
theorem lines_spliceRules (hfits : ∀ t ∈ ts, t.FitsLine) :
    List.Forall₂ LineTo (ts.splitOnP isBreak) ((spliceRules [rule] ts).splitOnP isBreak) ∧
      (spliceRules [rule] ts).filter isBreak = ts.filter isBreak ∧
      spliceRules [rule] (spliceRules [rule] ts) = spliceRules [rule] ts := by
  have hrelined := relined_spliceRules hfits
  have hlines := hrelined.forall₂_lineTo rfl
  refine ⟨hlines, hrelined.filter_isBreak, spliceRules_eq_self (fun t ht => ?_) fun hmarker => ?_⟩
  · exact (hrelined.mem_or ht).elim (hfits t) fitsLine_of_mem_tokens
  · obtain ⟨line, hline, hmarker⟩ := hmarker.exists_mem_splitOnP
    exact not_isMarker_of_forall₂_lineTo hlines line hline hmarker

/-- A marker that is a line, one with a code span in its line, one with an escape, and one with an
empty text. -/
def fourMarkers : List Token :=
  [Token.ofText "[TOC]", { kind := .softBreak }, Token.ofText "[toc]", { kind := .codeInline },
    { kind := .hardBreak }, { kind := .textSpecial, content := "[", markup := "\\[" },
    Token.ofText "toc]", { kind := .softBreak }, Token.ofText "", Token.ofText " [toc]"]

theorem lines_spliceRules_fourMarkers :
    (∀ t ∈ fourMarkers, t.FitsLine) ∧
    (spliceRules [rule] fourMarkers).map Token.kind =
      [.tocOpen, .tocBody, .tocClose, .softBreak, .text, .codeInline, .hardBreak, .textSpecial,
        .text, .softBreak, .tocOpen, .tocBody, .tocClose] ∧
    List.Forall₂ LineTo (fourMarkers.splitOnP isBreak)
      ((spliceRules [rule] fourMarkers).splitOnP isBreak) ∧
    (spliceRules [rule] fourMarkers).filter isBreak = fourMarkers.filter isBreak ∧
    spliceRules [rule] (spliceRules [rule] fourMarkers) = spliceRules [rule] fourMarkers := by
  have hfits : ∀ t ∈ fourMarkers, t.FitsLine := by
    have hescape : Token.FitsLine { kind := .textSpecial, content := "[", markup := "\\[" } :=
      ⟨nofun, fun _ => ⟨'[', rfl, by decide⟩⟩
    have hother : ∀ {t : Token}, t.kind ≠ .text → t.kind ≠ .textSpecial → t.FitsLine := .of_kind_ne
    simp only [fourMarkers, List.forall_mem_cons, List.not_mem_nil, false_implies, implies_true,
      and_true]
    exact ⟨.ofText (by decide), hother nofun nofun, .ofText (by decide), hother nofun nofun,
      hother nofun nofun, hescape, .ofText (by decide), hother nofun nofun, .ofText (by decide),
      .ofText (by decide)⟩
  exact ⟨hfits, by decide +kernel, lines_spliceRules hfits⟩

end WikiPress.Toc
