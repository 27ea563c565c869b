import WikiPress.Proofs.Text.Blank
import WikiPress.Proofs.Toc.Marker
import WikiPress.Proofs.Wikilink

/-!
# Escapes among inline tokens

No claim of a rule begins inside an escape, but nothing keeps it from ending there.  After the rules
are applied, the text of a run lies in stretches, which are the claims and what is kept between two
of them.  The escapes that lie in a stretch that is kept are kept with it, and those that lie in a
claim are replaced with it.  An escape that a claim ends in, behind its backslash, lies in no
stretch: neither is it kept nor is all of it claimed, and its character is lost.  No claim of the
rules for tables of contents and for wikilinks ends in a backslash, and so they lose no escape.

## Main definitions

* `Stretch`, `Run.stretches` : the stretches of a run after the rules are applied.
* `Tiles` : stretches one behind the other.
* `Run.IsTiled` : stretches that are claims or keep their escapes.
* `Rule.EndsClear` : nothing that the rule claims ends in a backslash.

## Main results

* `Tiles.exists_holds_iff` : what lies in one of some stretches.
* `Run.isTiled_stretches` : the stretches of a run are its claims and what is kept between them.
* `Run.exists_holds_iff` : an escape lies in a stretch unless a claim ends behind its backslash.
* `escapes_spliceRules` : what becomes of the escapes of a list of tokens.
* `exists_holds_of_own` : the rules for tables of contents and for wikilinks lose no escape.
-/

namespace WikiPress

open Text

/-- Whether a token is an escape. -/
def isEscape (t : Token) : Bool := t.kind = .textSpecial

/-- Every escape is written as a backslash and one character. -/
def HasPlainEscapes (ts : List Token) : Prop :=
  ∀ t ∈ ts, isEscape t = true → ∃ c, t.markup.toList = ['\\', c]

/-! ### Stretches -/

/-- A stretch of the text of a run, with the tokens that stand for it after the rules are applied. -/
structure Stretch where
  start : Nat
  stop : Nat
  /-- The stretch is a claim, and not what is kept between two claims. -/
  claimed : Bool
  tokens : List Token

/-- All of a token lies in the stretch. -/
def Stretch.Holds (s : Stretch) (piece : Piece) : Prop :=
  s.start ≤ piece.start ∧ piece.stop ≤ s.stop

instance (s : Stretch) (piece : Piece) : Decidable (s.Holds piece) :=
  inferInstanceAs (Decidable (_ ∧ _))

/-- The stretches lie one behind the other from the first position up to the second one. -/
def Tiles : Nat → List Stretch → Nat → Prop
  | lo, [], hi => lo = hi
  | lo, s :: rest, hi => s.start = lo ∧ lo ≤ s.stop ∧ Tiles s.stop rest hi

section Tiles

variable {lo hi : Nat} {stretches : List Stretch} {piece : Piece}

theorem Tiles.le (h : Tiles lo stretches hi) :
    ∀ s ∈ stretches, lo ≤ s.start ∧ s.start ≤ s.stop := by
  induction stretches generalizing lo with
  | nil => exact fun _ hs => absurd hs List.not_mem_nil
  | cons s rest ih =>
    obtain ⟨rfl, hle, hrest⟩ := h
    refine List.forall_mem_cons.mpr ⟨⟨Nat.le_refl _, hle⟩, fun t ht => ?_⟩
    exact ⟨Nat.le_trans hle (ih hrest t ht).1, (ih hrest t ht).2⟩

/-- A token lies in one of the stretches unless one of them ends inside it. -/
theorem Tiles.exists_holds_iff (h : Tiles lo stretches hi) (hlo : lo ≤ piece.start)
    (hhi : piece.stop ≤ hi) (hpiece : piece.start < piece.stop) :
    (∃ s ∈ stretches, s.Holds piece) ↔
      ∀ s ∈ stretches, ¬(piece.start < s.stop ∧ s.stop < piece.stop) := by
  induction stretches generalizing lo with
  | nil =>
    have heq : lo = hi := h
    omega
  | cons s rest ih =>
    obtain ⟨rfl, hle, hrest⟩ := h
    simp only [List.mem_cons, exists_eq_or_imp, forall_eq_or_imp]
    rcases Nat.lt_or_ge piece.start s.stop with hlt | hge
    · -- Later stretches begin behind the start of the token, so only the first one can hold it.
      constructor
      · rintro (⟨-, hstop⟩ | ⟨t, ht, hstart, -⟩)
        · refine ⟨by omega, fun t ht => ?_⟩
          have := hrest.le t ht
          omega
        · have := hrest.le t ht
          omega
      · rintro ⟨hs, -⟩
        exact .inl ⟨hlo, by omega⟩
    · have hs : ¬s.Holds piece := by
        rintro ⟨-, hstop⟩
        omega
      rw [ih hrest hge]
      constructor
      · rintro (h | h)
        · exact absurd h hs
        · exact ⟨by omega, h⟩
      · exact fun h => .inr h.2

end Tiles

namespace Run

/-- The escapes of a run, each with its place. -/
def escapes (r : Run) : List Piece := r.pieces.filter fun piece => isEscape piece.token

/-- What is kept between two positions of a run. -/
def kept (r : Run) (start stop : Nat) : Stretch := ⟨start, stop, false, r.between start stop⟩

/-- The stretches of a run from a position on, for a list of claims. -/
def stretchesFrom (r : Run) (start : Nat) : List Step → List Stretch
  | [] => [r.kept start (size r.text)]
  | ⟨n, stop, .claimed tokens⟩ :: rest =>
    r.kept start n :: ⟨n, min stop (size r.text), true, tokens⟩ ::
      stretchesFrom r (min stop (size r.text)) rest
  | _ :: rest => stretchesFrom r start rest

/-- The stretches of a run.  A run in which nothing is claimed is one stretch with all its tokens. -/
def stretches (rules : List Rule) (r : Run) : List Stretch :=
  if (r.steps rules).any isClaim then r.stretchesFrom 0 (r.steps rules)
  else [⟨0, size r.text, false, r.pieces.map Piece.token⟩]

/-- The stretches make up the run.  Each of them is the first claim at its start, which is no place
inside a character or an escape, and ends with the run at the latest, or the escapes among its tokens
are those of the run that lie in it. -/
structure IsTiled (rules : List Rule) (r : Run) (stretches : List Stretch) : Prop where
  tiles : Tiles 0 stretches (size r.text)
  claims : ∀ s ∈ stretches, s.claimed = true →
    IsOffset r.text s.start ∧ r.insideEscape s.start = false ∧ ∃ a,
      Rule.firstClaim? rules (r.place.goTo s.start) = some a ∧
        s.stop = min (s.start + a.advance) (size r.text) ∧ s.tokens = a.tokens
  escapes : ∀ s ∈ stretches, s.claimed = false →
    s.tokens.filter isEscape = (r.escapes.filter fun e => s.Holds e).map Piece.token

section Stretches

variable {rules : List Rule} {r : Run} {start stop : Nat} {steps : List Step}

theorem flatMap_tokens_stretchesFrom (r : Run) (start : Nat) (steps : List Step) :
    (r.stretchesFrom start steps).flatMap Stretch.tokens = r.spliceFrom start steps := by
  fun_induction stretchesFrom r start steps with
  | case1 => simp [kept, spliceFrom]
  | case2 start n stop tokens rest ih => simp [kept, spliceFrom, ih]
  | case3 start step rest hstep ih =>
    obtain ⟨n, stop, outcome⟩ := step
    cases outcome with
    | claimed tokens => exact absurd rfl (hstep n stop tokens)
    | _ => simp [spliceFrom, ih]

/-- The tokens of a run after the rules are applied are those of its stretches. -/
theorem flatMap_tokens_stretches (rules : List Rule) (r : Run) :
    (r.stretches rules).flatMap Stretch.tokens = r.splice rules := by
  rw [stretches, splice]
  split
  · exact flatMap_tokens_stretchesFrom r 0 _
  · simp

theorem stretchesFrom_filter (r : Run) (start : Nat) (steps : List Step) :
    r.stretchesFrom start (steps.filter isClaim) = r.stretchesFrom start steps := by
  fun_induction stretchesFrom r start steps with
  | case1 => rfl
  | case2 start n stop tokens rest ih => rw [List.filter_cons_of_pos rfl, stretchesFrom, ih]
  | case3 start step rest hstep ih =>
    obtain ⟨n, stop, outcome⟩ := step
    cases outcome with
    | claimed tokens => exact absurd rfl (hstep n stop tokens)
    | _ => exact ih

end Stretches

/-! ### Escapes in a stretch -/

section Escapes

variable {startsLine endsLine : Bool} {ts : List Token} {r : Run} {start stop n : Nat}

/-- What is left of a token that is no text is the token itself, if anything. -/
theorem eq_of_mem_cut {text : List Char} {piece : Piece} {t : Token}
    (hkind : piece.token.kind ≠ .text) (ht : t ∈ cut text start stop piece) : t = piece.token := by
  rw [cut, if_neg hkind] at ht
  split at ht
  · exact absurd ht List.not_mem_nil
  · split at ht
    · exact absurd ht List.not_mem_nil
    · split at ht
      · exact List.mem_singleton.mp ht
      · exact absurd ht List.not_mem_nil

/-- Between two positions the escapes are left that lie between them. -/
theorem filter_isEscape_cut {text : List Char} {piece : Piece}
    (hsize : isEscape piece.token = true → piece.start < piece.stop) :
    (cut text start stop piece).filter isEscape =
      if isEscape piece.token = true ∧ start ≤ piece.start ∧ piece.stop ≤ stop then [piece.token]
      else [] := by
  by_cases hescape : isEscape piece.token = true
  · have htext : piece.token.kind ≠ .text := by
      rw [of_decide_eq_true hescape]
      decide
    rw [cut_of_ne_text htext (hsize hescape)]
    simp only [hescape, true_and]
    split
    · rw [List.filter_cons_of_pos hescape, List.filter_nil]
    · rfl
  · rw [if_neg fun h => hescape h.1, List.filter_eq_nil_iff]
    intro t ht
    by_cases htext : piece.token.kind = .text
    · simp [isEscape, cut_of_text htext t ht]
    · rwa [eq_of_mem_cut htext ht]

theorem filter_isEscape_between (hsize : ∀ e ∈ r.escapes, e.start < e.stop) :
    (r.between start stop).filter isEscape =
      (r.escapes.filter fun e => (r.kept start stop).Holds e).map Piece.token := by
  rw [escapes, List.forall_mem_filter] at hsize
  rw [between, escapes, List.filter_filter]
  generalize r.pieces = pieces at hsize ⊢
  induction pieces with
  | nil => rfl
  | cons piece pieces ih =>
    rw [List.forall_mem_cons] at hsize
    rw [List.flatMap_cons, List.filter_append, filter_isEscape_cut hsize.1, ih hsize.2,
      List.filter_cons]
    by_cases hescape : isEscape piece.token = true <;>
      by_cases hholds : (r.kept start stop).Holds piece
    · have hin : start ≤ piece.start ∧ piece.stop ≤ stop := hholds
      simp [hescape, hholds, hin]
    · have hin : ¬(start ≤ piece.start ∧ piece.stop ≤ stop) := hholds
      simp [hescape, hholds, hin]
    · simp [hescape]
    · simp [hescape]

/-! ### The stretches of a run -/

/-- A piece of a run stands for its part of the text. -/
theorem exists_append_of_mem_placeFrom {piece : Piece} (h : piece ∈ placeFrom n ts) :
    ∃ before after, ts = before ++ piece.token :: after ∧
      piece.start = n + size (before.flatMap scanText) := by
  induction ts generalizing n with
  | nil => exact absurd h List.not_mem_nil
  | cons t ts ih =>
    rcases List.mem_cons.mp h with rfl | h
    · exact ⟨[], ts, rfl, rfl⟩
    · obtain ⟨before, after, hts, hstart⟩ := ih h
      exact ⟨t :: before, after, by rw [hts, List.cons_append],
        by rw [hstart, List.flatMap_cons, size_append, Nat.add_assoc]⟩

/-- An escape of a run stands in its text as a backslash and one character. -/
theorem exists_text_of_mem_escapes (hescapes : HasPlainEscapes ts)
    (hr : r = ofTokens startsLine endsLine ts) {e : Piece} (he : e ∈ r.escapes) :
    ∃ u c v, r.text = u ++ '\\' :: c :: v ∧ size u = e.start ∧
      e.stop = e.start + 1 + c.utf8Size := by
  subst hr
  obtain ⟨hpiece, hescape⟩ := List.mem_filter.mp he
  obtain ⟨before, after, hts, hstart⟩ := exists_append_of_mem_placeFrom hpiece
  have hmem : e.token ∈ ts := token_mem_of_mem_placeFrom hpiece
  obtain ⟨c, hmarkup⟩ := hescapes _ hmem hescape
  have hscan : scanText e.token = ['\\', c] := by
    rw [scanText, of_decide_eq_true hescape]
    exact hmarkup
  refine ⟨before.flatMap scanText, c, after.flatMap scanText, ?_, ?_, ?_⟩
  · simp [ofTokens, hts, hscan]
  · rw [hstart, Nat.zero_add]
  · rw [stop_eq_of_mem_placeFrom hpiece, hscan, size_cons, size_cons, size_nil, Nat.add_zero,
      ← Nat.add_assoc]
    rfl

/-- Between two characters, the only place inside an escape is behind its backslash. -/
theorem inside_iff_of_isOffset (hescapes : HasPlainEscapes ts)
    (hr : r = ofTokens startsLine endsLine ts) {e : Piece} (he : e ∈ r.escapes)
    (hn : IsOffset r.text n) : e.start < n ∧ n < e.stop ↔ n = e.start + 1 := by
  obtain ⟨u, c, v, htext, hu, hstop⟩ := exists_text_of_mem_escapes hescapes hr he
  have hpos := c.utf8Size_pos
  constructor
  · rintro ⟨hlt, hlt'⟩
    have hbehind : r.text = (u ++ ['\\']) ++ c :: v := by rw [htext]; simp
    have hsize : size (u ++ ['\\']) = e.start + 1 := by rw [size_append, hu]; rfl
    rw [← hsize]
    exact hn.eq_of_lt_add hbehind (by omega) (by omega)
  · rintro rfl
    omega

end Escapes

section Tiled

variable {rules : List Rule} {startsLine endsLine : Bool} {ts : List Token} {r : Run} {start : Nat}
  {steps : List Step} {e : Piece}

theorem tiles_stretchesFrom (hclaims : r.Claims rules start steps) (hstart : start ≤ size r.text) :
    Tiles start (r.stretchesFrom start steps) (size r.text) := by
  induction hclaims with
  | none => exact ⟨rfl, hstart, rfl⟩
  | @claim start n a rest hle hlt _ _ _ _ _ ih =>
    have hn : n ≤ min (n + a.advance) (size r.text) := by omega
    exact ⟨rfl, hle, rfl, hn, ih (Nat.min_le_right _ _)⟩

/-- Each stretch is what is kept up to a claim or up to the end, or the claim behind it. -/
theorem stretch_cases (hclaims : r.Claims rules start steps) :
    ∀ s ∈ r.stretchesFrom start steps,
      (∃ lo hi, s = r.kept lo hi ∧ (hi = size r.text ∨ r.insideEscape hi = false)) ∨
        ∃ n a, IsOffset r.text n ∧ r.insideEscape n = false ∧
          Rule.firstClaim? rules (r.place.goTo n) = some a ∧
          s = ⟨n, min (n + a.advance) (size r.text), true, a.tokens⟩ := by
  induction hclaims with
  | @none start => exact List.forall_mem_singleton.mpr (.inl ⟨start, _, rfl, .inl rfl⟩)
  | @claim start n a rest _ _ hoffset hescape hclaim _ _ ih =>
    refine List.forall_mem_cons.mpr ⟨.inl ⟨start, n, rfl, .inr hescape⟩, ?_⟩
    exact List.forall_mem_cons.mpr ⟨.inr ⟨n, a, hoffset, hescape, hclaim, rfl⟩, ih⟩

theorem stretches_eq (rules : List Rule) (r : Run) :
    r.stretches rules =
      if (r.steps rules).filter isClaim = [] then
        [⟨0, size r.text, false, r.pieces.map Piece.token⟩]
      else r.stretchesFrom 0 ((r.steps rules).filter isClaim) := by
  simp only [stretches, stretchesFrom_filter, List.filter_eq_nil_iff, List.any_eq_true]
  split
  · next hany => rw [if_neg (by simpa using hany)]
  · next hany => rw [if_pos (by simpa using hany)]

theorem start_lt_stop_of_mem_escapes (hescapes : HasPlainEscapes ts)
    (hr : r = ofTokens startsLine endsLine ts) : ∀ e ∈ r.escapes, e.start < e.stop := by
  intro e he
  obtain ⟨-, c, -, -, -, hstop⟩ := exists_text_of_mem_escapes hescapes hr he
  omega

theorem stop_le_of_mem_escapes (hr : r = ofTokens startsLine endsLine ts) (he : e ∈ r.escapes) :
    e.stop ≤ size r.text := by
  subst hr
  have hstop := stop_le_of_mem_placeFrom (List.mem_filter.mp he).1
  rwa [Nat.zero_add] at hstop

theorem map_token_escapes (hr : r = ofTokens startsLine endsLine ts) :
    r.escapes.map Piece.token = ts.filter isEscape := by
  subst hr
  refine Eq.trans ?_ (congrArg (List.filter isEscape) (map_token_placeFrom 0 ts))
  rw [List.filter_map]
  rfl

/-- The claims of rules that claim whole characters. -/
theorem claims_of_claimsWhole (hrules : ∀ rule ∈ rules, rule.ClaimsWhole r.text) :
    r.Claims rules 0 ((r.steps rules).filter isClaim) :=
  claims_filter_steps
    (endsWhole_of_scanned hrules (scanned_steps rules r) (.inr (isOffset_zero r.text)))

/-- The stretches of a run are its claims and what is kept between them. -/
theorem isTiled_stretches (hrules : ∀ rule ∈ rules, rule.ClaimsWhole r.text)
    (hescapes : HasPlainEscapes ts) (hr : r = ofTokens startsLine endsLine ts) :
    r.IsTiled rules (r.stretches rules) := by
  have hclaims := claims_of_claimsWhole hrules
  rw [stretches_eq]
  split
  · refine ⟨⟨rfl, Nat.zero_le _, rfl⟩, by simp, List.forall_mem_singleton.mpr fun _ => ?_⟩
    have hall : r.escapes.filter (fun e => decide
        (Stretch.Holds ⟨0, size r.text, false, r.pieces.map Piece.token⟩ e)) = r.escapes := by
      rw [List.filter_eq_self]
      intro e he
      exact decide_eq_true ⟨Nat.zero_le _, stop_le_of_mem_escapes hr he⟩
    rw [hall, map_token_escapes hr, hr]
    exact congrArg _ (map_token_placeFrom 0 ts)
  · refine ⟨tiles_stretchesFrom hclaims (Nat.zero_le _), fun s hs hclaimed => ?_,
      fun s hs hkept => ?_⟩
    · rcases stretch_cases hclaims s hs with ⟨lo, hi, rfl, -⟩ | ⟨n, a, hoffset, hout, hclaim, rfl⟩
      · exact absurd hclaimed Bool.false_ne_true
      · exact ⟨hoffset, hout, a, hclaim, rfl, rfl⟩
    · rcases stretch_cases hclaims s hs with ⟨lo, hi, rfl, -⟩ | ⟨n, a, -, -, -, rfl⟩
      · exact filter_isEscape_between (start_lt_stop_of_mem_escapes hescapes hr)
      · exact absurd hkept.symm Bool.false_ne_true

/-- An escape of a run lies in one of its stretches unless a claim ends behind its backslash. -/
theorem exists_holds_iff (hrules : ∀ rule ∈ rules, rule.ClaimsWhole r.text)
    (hescapes : HasPlainEscapes ts) (hr : r = ofTokens startsLine endsLine ts)
    (he : e ∈ r.escapes) :
    (∃ s ∈ r.stretches rules, s.Holds e) ↔
      ∀ s ∈ r.stretches rules, s.claimed = true → s.stop ≠ e.start + 1 := by
  have hclaims := claims_of_claimsWhole hrules
  have hstop := stop_le_of_mem_escapes hr he
  rw [(isTiled_stretches hrules hescapes hr).tiles.exists_holds_iff (Nat.zero_le _) hstop
    (start_lt_stop_of_mem_escapes hescapes hr e he), stretches_eq]
  refine forall₂_congr fun s hs => ?_
  split at hs
  · obtain rfl := List.mem_singleton.mp hs
    refine iff_of_true ?_ (fun h => absurd h Bool.false_ne_true)
    rintro ⟨-, hlt⟩
    exact absurd hlt (Nat.not_lt.mpr hstop)
  · rcases stretch_cases hclaims s hs with ⟨lo, hi, rfl, hhi⟩ | ⟨n, a, hoffset, -, hclaim, rfl⟩
    · refine iff_of_true (fun hinside : e.start < hi ∧ hi < e.stop => ?_)
        (fun h => absurd h Bool.false_ne_true)
      rcases hhi with rfl | hhi
      · exact absurd hinside.2 (Nat.not_lt.mpr hstop)
      · obtain ⟨hpiece, hescape⟩ := List.mem_filter.mp he
        refine List.any_eq_false.mp hhi e hpiece ?_
        have hkind : e.token.kind = .textSpecial := of_decide_eq_true hescape
        simpa [hkind] using hinside
    · have hend : IsOffset r.text (min (n + a.advance) (size r.text)) :=
        (Rule.endsWhole_add_of_firstClaim? hrules hoffset hclaim).isOffset_min
      rw [inside_iff_of_isOffset hescapes hr he hend]
      simp

end Tiled

end Run

/-! ### Lists of tokens -/

/-- Every escape of a list of tokens is one of its runs. -/
theorem filter_isEscape_eq (atStart : Bool) (ts : List Token) :
    ts.filter isEscape = (runs atStart ts).flatMap fun r => r.escapes.map Piece.token := by
  rw [runs]
  have hparted := parted_splitRuns atStart ts
  revert hparted
  generalize splitRuns atStart ts = parts
  intro hparted
  induction hparted with
  | nil => rfl
  | @other _ t rest parts ht _ ih =>
    have hescape : ¬isEscape t = true := fun h => by
      rw [of_decide_eq_true h] at ht
      exact absurd ht.symm Bool.false_ne_true
    rw [List.filter_cons_of_neg hescape, ih]
    rfl
  | @run atStart run rest parts _ _ _ _ ih =>
    rw [List.filter_append, ih, ← Run.map_token_escapes (r := .ofTokens atStart rest.isEmpty run) rfl]
    rfl

theorem exists_ofTokens_of_mem_runs {atStart : Bool} {ts : List Token} {r : Run}
    (h : r ∈ runs atStart ts) :
    ∃ startsLine endsLine us, r = .ofTokens startsLine endsLine us ∧ us ⊆ ts := by
  rw [mem_runs_iff] at h
  have hparted := parted_splitRuns atStart ts
  revert hparted h
  generalize splitRuns atStart ts = parts
  intro h hparted
  induction hparted with
  | nil => exact absurd h List.not_mem_nil
  | other _ _ ih =>
    rcases List.mem_cons.mp h with h | h
    · exact absurd h (by simp)
    · obtain ⟨startsLine, endsLine, us, hr, hus⟩ := ih h
      exact ⟨startsLine, endsLine, us, hr, List.subset_cons_of_subset _ hus⟩
  | @run atStart run rest parts _ _ _ _ ih =>
    rcases List.mem_cons.mp h with h | h
    · exact ⟨atStart, rest.isEmpty, run, Sum.inr.inj h, List.subset_append_left _ _⟩
    · obtain ⟨startsLine, endsLine, us, hr, hus⟩ := ih h
      exact ⟨startsLine, endsLine, us, hr, List.subset_append_of_subset_right _ hus⟩

/-- **What becomes of the escapes of a list of tokens.**  They are those of its runs.  The text of
each run lies in stretches, whose tokens are the ones after the rules are applied: the claims, and
what is kept between them with its escapes unchanged.  An escape lies in one of these stretches, so
that it is kept or all of it is replaced, unless a claim ends behind its backslash. -/
theorem escapes_spliceRules {rules : List Rule} {ts : List Token} (hescapes : HasPlainEscapes ts)
    (hrules : ∀ r ∈ runs true ts, ∀ rule ∈ rules, rule.ClaimsWhole r.text) :
    ts.filter isEscape = ((runs true ts).flatMap fun r => r.escapes.map Piece.token) ∧
      spliceRules rules ts =
        ((splitRuns true ts).flatMap fun part =>
          part.elim ([·]) fun r => (r.stretches rules).flatMap Stretch.tokens) ∧
      ∀ r ∈ runs true ts, r.IsTiled rules (r.stretches rules) ∧
        ∀ e ∈ r.escapes, (∃ s ∈ r.stretches rules, s.Holds e) ↔
          ∀ s ∈ r.stretches rules, s.claimed = true → s.stop ≠ e.start + 1 := by
  refine ⟨filter_isEscape_eq true ts, ?_, fun r hr => ?_⟩
  · simp only [Run.flatMap_tokens_stretches]
    rw [spliceRules]
    congr 1
    funext part
    cases part <;> rfl
  · obtain ⟨startsLine, endsLine, us, heq, hus⟩ := exists_ofTokens_of_mem_runs hr
    have hplain : HasPlainEscapes us := fun t ht => hescapes t (hus ht)
    exact ⟨Run.isTiled_stretches (hrules r hr) hplain heq, fun e he =>
      Run.exists_holds_iff (hrules r hr) hplain heq he⟩

/-- A rule that claims one given text wherever it stands. -/
def Rule.literal (s : List Char) (tokens : List Token) : Rule where
  name := "literal"
  attempt p := if s.isPrefixOf p.rest then ⟨true, tokens, size s⟩ else .declined

theorem Rule.claimsWhole_literal (s : List Char) (tokens : List Token) (text : List Char) :
    (literal s tokens).ClaimsWhole text := by
  refine claimsWhole_of_isPrefix (fun p a ha => ?_) text
  obtain ⟨rfl, hmatched, -⟩ := claim?_eq_some_iff.mp ha
  simp only [literal] at hmatched ⊢
  split at hmatched
  · next hprefix =>
    rw [if_pos hprefix]
    exact ⟨s, List.isPrefixOf_iff_prefix.mp hprefix, rfl⟩
  · exact absurd hmatched (by simp [Attempt.declined])

/-- An escape between two letters, and another one behind them. -/
def twoEscapes : List Token :=
  [Token.ofText "a", { kind := .textSpecial, content := "*", markup := "\\*" }, Token.ofText "b",
    { kind := .textSpecial, content := "_", markup := "\\_" }]

theorem hasPlainEscapes_twoEscapes : HasPlainEscapes twoEscapes := by
  simp [HasPlainEscapes, twoEscapes, isEscape, Token.ofText]

/-- A rule for an escape with the letter in front of it. -/
def overEscape : Rule := .literal ['a', '\\', '*'] [{ kind := .htmlInline }]

/-- A rule for a backslash with the letter in front of it. -/
def overBackslash : Rule := .literal ['a', '\\'] [{ kind := .htmlInline }]

theorem escapes_spliceRules_overEscape :
    HasPlainEscapes twoEscapes ∧
      (∀ r ∈ runs true twoEscapes, ∀ rule ∈ [overEscape], rule.ClaimsWhole r.text) ∧
      (spliceRules [overEscape] twoEscapes).map (fun t => (t.kind, t.content)) =
        [(.htmlInline, ""), (.text, "b"), (.textSpecial, "_")] ∧
      ∀ r ∈ runs true twoEscapes, ∀ e ∈ r.escapes, ∃ s ∈ r.stretches [overEscape], s.Holds e := by
  have hrules : ∀ r ∈ runs true twoEscapes, ∀ rule ∈ [overEscape], rule.ClaimsWhole r.text :=
    fun r _ => List.forall_mem_singleton.mpr (Rule.claimsWhole_literal _ _ r.text)
  have hends : ∀ r ∈ runs true twoEscapes, ∀ e ∈ r.escapes, ∀ s ∈ r.stretches [overEscape],
      s.claimed = true → s.stop ≠ e.start + 1 := by decide +kernel
  obtain ⟨-, -, hruns⟩ := escapes_spliceRules hasPlainEscapes_twoEscapes hrules
  exact ⟨hasPlainEscapes_twoEscapes, hrules, by decide +kernel, fun r hr e he =>
    ((hruns r hr).2 e he).mpr (hends r hr e he)⟩

/-- An escape is neither kept nor claimed where a rule claims its backslash only.  Nothing of its
character is left. -/
theorem exists_escape_lost :
    HasPlainEscapes twoEscapes ∧ (∀ s, overBackslash.ClaimsWhole s) ∧
      (spliceRules [overBackslash] twoEscapes).map (fun t => (t.kind, t.content)) =
        [(.htmlInline, ""), (.text, "b"), (.textSpecial, "_")] ∧
      ∃ r ∈ runs true twoEscapes, ∃ e ∈ r.escapes, ∀ s ∈ r.stretches [overBackslash],
        ¬s.Holds e :=
  ⟨hasPlainEscapes_twoEscapes, Rule.claimsWhole_literal _ _, by decide +kernel, by decide +kernel⟩

/-! ### Claims that do not end in a backslash -/

/-- Nothing that the rule claims ends in a backslash. -/
def Rule.EndsClear (rule : Rule) : Prop :=
  ∀ p a, rule.claim? p = some a → ∀ w v, p.rest = w ++ v → size w = a.advance →
    w.getLast? ≠ some '\\'

/-- Rules whose claims do not end in a backslash keep every escape or replace all of it. -/
theorem exists_holds_of_endsClear {rules : List Rule} {ts : List Token}
    (hescapes : HasPlainEscapes ts)
    (hrules : ∀ r ∈ runs true ts, ∀ rule ∈ rules, rule.ClaimsWhole r.text)
    (hclear : ∀ rule ∈ rules, rule.EndsClear) :
    ∀ r ∈ runs true ts, ∀ e ∈ r.escapes, ∃ s ∈ r.stretches rules, s.Holds e := by
  intro r hr e he
  obtain ⟨startsLine, endsLine, us, heq, hus⟩ := exists_ofTokens_of_mem_runs hr
  have hplain : HasPlainEscapes us := fun t ht => hescapes t (hus ht)
  refine (Run.exists_holds_iff (hrules r hr) hplain heq he).mpr fun s hs hclaimed hstop => ?_
  obtain ⟨hoffset, -, a, hclaim, hend, -⟩ :=
    (Run.isTiled_stretches (hrules r hr) hplain heq).claims s hs hclaimed
  obtain ⟨rule, hrule, ha⟩ := Rule.exists_claim?_of_firstClaim? hclaim
  obtain ⟨u, c, v, htext, hu, hescape⟩ := Run.exists_text_of_mem_escapes hplain heq he
  obtain ⟨x, y, hxy, hx⟩ := hoffset
  have hpos := Rule.advance_pos_of_firstClaim? hclaim
  have hle := Run.stop_le_of_mem_escapes heq he
  have hc := c.utf8Size_pos
  -- The claim begins in front of the backslash, and so it ends with it.
  obtain ⟨w, rfl, rfl⟩ := exists_append_of_size_le (hxy.symm.trans htext) (by omega)
  have hsize : size (w ++ ['\\']) = a.advance := by
    have hone : size ['\\'] = 1 := rfl
    rw [size_append] at hu
    rw [size_append, hone]
    omega
  refine hclear rule hrule _ a ha (w ++ ['\\']) (c :: v) ?_ hsize (List.getLast?_concat ..)
  rw [← hx, Place.rest_goTo (p := r.place) hxy]
  simp

theorem Wikilink.endsClear_rule (slugger : Slugger) : (rule slugger).EndsClear := by
  intro p a ha w v hrest hsize
  obtain ⟨inner, rest, hlink, rfl⟩ := eq_of_claim?_rule ha
  have hwhole : p.rest = ('[' :: '[' :: (inner ++ [']', ']'])) ++ rest := by rw [hlink]; simp
  obtain ⟨rfl, -⟩ := eq_of_append_eq_append_of_size_eq (hrest.symm.trans hwhole)
    (hsize.trans (size_brackets inner).symm)
  rw [← List.cons_append, ← List.cons_append,
    List.getLast?_append_of_ne_nil _ (List.cons_ne_nil _ _)]
  decide

/-- A line that says `[toc]` does not end in a backslash. -/
theorem Toc.endsClear_rule : rule.EndsClear := by
  intro p a ha w v hrest hsize hlast
  rw [← Rule.firstClaim?_singleton, firstClaim?_rule] at ha
  obtain ⟨hmarker, rfl⟩ := Option.ite_none_right_eq_some.mp ha |>.imp_right Option.some.inj
  have hline : p.rest = p.line ++ p.rest.dropWhile (· ≠ '\n') := List.takeWhile_append_dropWhile.symm
  obtain ⟨rfl, -⟩ := eq_of_append_eq_append_of_size_eq (hrest.symm.trans hline) hsize
  simp only [Bool.and_eq_true, Ascii.equalsIgnoringCase, beq_iff_eq, Ascii.lowerText] at hmarker
  have hends := congrArg List.getLast? hmarker.2
  rw [List.getLast?_map, getLast?_trim hlast (by decide)] at hends
  exact absurd hends (by decide)

/-- The rules for tables of contents and for wikilinks keep every escape or replace all of it. -/
theorem exists_holds_of_own {rules : List Rule} {ts : List Token} (hescapes : HasPlainEscapes ts)
    (hown : ∀ rule ∈ rules, rule = Toc.rule ∨ ∃ slugger, rule = Wikilink.rule slugger) :
    ∀ r ∈ runs true ts, ∀ e ∈ r.escapes, ∃ s ∈ r.stretches rules, s.Holds e := by
  refine exists_holds_of_endsClear hescapes (fun r _ rule hrule => ?_) fun rule hrule => ?_
  · rcases hown rule hrule with rfl | ⟨slugger, rfl⟩
    · exact Toc.claimsWhole_rule r.text
    · exact Wikilink.claimsWhole_rule slugger r.text
  · rcases hown rule hrule with rfl | ⟨slugger, rfl⟩
    · exact Toc.endsClear_rule
    · exact Wikilink.endsClear_rule slugger

end WikiPress
