import WikiPress.Proofs.Splice.Lines
import WikiPress.Proofs.Splice.Rules
import WikiPress.Toc

/-!
# Markers of a table of contents in a run

The rule for tables of contents claims a line of a run if the line says `[toc]` and is all of a line
of the tokens: its start is a break or the start of the tokens, and its end is a break or the end of
the tokens.  The rule claims the whole line, and nothing else.

What it claims is said here line by line.  The claims of a scan are then those of the lines of the
run, one behind the other.

## Main definitions

* `Toc.IsMarker` : a line that says `[toc]`.
* `Toc.startsAfter` : whether a line starts behind some tokens of a run.
* `Toc.LineClaims` : the claims in the lines of a run.

## Main results

* `Place.atLineStart_goTo` : the start of a line is told by the character before it.
* `Toc.lineClaims_of_claims` : the claims of the rule in a run are those in its lines.
-/

namespace WikiPress

open Text

namespace Place

variable {p : Place} {u v w : List Char}

/-- One byte before a position stands a line feed exactly if it is the character before it. -/
theorem any_dropBytes?_pred (u v : List Char) (c : Char) :
    ((dropBytes? (u ++ c :: v) (size u + c.utf8Size - 1)).any fun s => s.head? = some '\n') =
      decide (c = '\n') := by
  have hsize : ('\n' : Char).utf8Size = 1 := rfl
  have hpos := c.utf8Size_pos
  rw [Bool.eq_iff_iff, Option.any_eq_true, decide_eq_true_eq]
  constructor
  · rintro ⟨s, hs, hhead⟩
    obtain ⟨s, rfl⟩ := List.head?_eq_some_iff.mp (decide_eq_true_eq.mp hhead)
    obtain ⟨x, hx, hxsize⟩ := dropBytes?_eq_some_iff.mp hs
    have htext : u ++ [c] ++ v = x ++ ['\n'] ++ s := by simpa using hx
    have hlast := (eq_of_append_eq_append_of_size_eq htext (by simp; omega)).1
    exact List.singleton_inj.mp (List.append_inj_right' hlast rfl)
  · rintro rfl
    exact ⟨_, dropBytes?_size_append u ('\n' :: v), rfl⟩

/-- The character before a position tells whether a line starts there. -/
theorem atLineStart_goTo (h : p.text = u ++ v) :
    (p.goTo (size u)).atLineStart = u.getLast?.elim p.startsLine (· = '\n') := by
  rcases List.eq_nil_or_concat' u with rfl | ⟨x, c, rfl⟩
  · rfl
  have hpos := c.utf8Size_pos
  have hsize : size (x ++ [c]) = size x + c.utf8Size := by simp
  rw [List.append_assoc, List.singleton_append] at h
  rw [atLineStart, position_goTo, hsize, if_neg (by omega), List.getLast?_concat, Option.elim_some,
    ← any_dropBytes?_pred x v c, ← h]
  rfl

/-- No line starts inside a line. -/
theorem atLineStart_of_lt {n : Nat} (h : p.text = u ++ w ++ v) (hw : '\n' ∉ w)
    (hn : IsOffset p.text n) (hlt : size u < n) (hle : n ≤ size u + size w) :
    (p.goTo n).atLineStart = false := by
  obtain ⟨x, y, hxy, rfl⟩ := hn
  rw [hxy, List.append_assoc] at h
  obtain ⟨w', rfl, hw'⟩ := exists_append_of_size_le h.symm hlt.le
  rw [size_append] at hlt hle
  obtain ⟨w'', rfl, -⟩ := exists_append_of_size_le hw'.symm (by omega)
  have hne : w' ≠ [] := by
    rintro rfl
    simp at hlt
  rw [atLineStart_goTo hxy, List.getLast?_append_of_ne_nil _ hne, List.getLast?_eq_some_getLast hne,
    Option.elim_some, decide_eq_false_iff_not]
  rintro hlast
  exact hw (List.mem_append_left _ (hlast ▸ List.getLast_mem hne))

/-- The line at a position goes up to the next line feed. -/
theorem line_goTo (h : p.text = u ++ (w ++ v)) (hw : '\n' ∉ w) (hv : ∀ c ∈ v.head?, c = '\n') :
    (p.goTo (size u)).line = w := by
  rw [line, rest_goTo h, List.takeWhile_append_of_pos fun c hc => by
    simpa using ne_of_mem_of_not_mem hc hw]
  cases v with
  | nil => simp
  | cons c v => simp [hv c rfl]

theorem lineIsComplete_goTo (h : p.text = u ++ (w ++ v)) (hw : '\n' ∉ w)
    (hv : ∀ c ∈ v.head?, c = '\n') :
    (p.goTo (size u)).lineIsComplete = (!v.isEmpty || p.endsLine) := by
  rw [lineIsComplete, rest_goTo h]
  congr 1
  cases v with
  | nil => simp [hw]
  | cons c v => simp [hv c rfl]

end Place

namespace Toc

/-- A line of texts and escapes that says `[toc]`. -/
def IsMarker (line : List Token) : Prop :=
  (∀ t ∈ line, t.kind = .text ∨ t.kind = .textSpecial) ∧
    Ascii.equalsIgnoringCase (trim (line.flatMap scanText)) marker.toList = true

instance (line : List Token) : Decidable (IsMarker line) := inferInstanceAs (Decidable (_ ∧ _))

/-! ### The rule -/

theorem firstClaim?_rule (p : Place) :
    Rule.firstClaim? [rule] p =
      if p.atLineStart && p.lineIsComplete &&
          Ascii.equalsIgnoringCase (trim p.line) marker.toList then
        some ⟨true, tokens, size p.line⟩
      else none := by
  have hnil : Ascii.equalsIgnoringCase (trim []) marker.toList = false := by decide
  simp only [Rule.firstClaim?, List.findSome?_singleton, Rule.claim?, rule]
  split
  · next hmarker =>
    have hne : p.line ≠ [] := by
      rintro hline
      rw [hline, hnil, Bool.and_false] at hmarker
      exact Bool.false_ne_true hmarker
    simp [size_pos_of_ne_nil hne]
  · rfl

/-- The rule claims a whole line and always emits the same tokens. -/
theorem eq_of_claim?_rule {p : Place} {a : Attempt} (h : rule.claim? p = some a) :
    a = ⟨true, tokens, size p.line⟩ := by
  rw [← Rule.firstClaim?_singleton, firstClaim?_rule] at h
  exact (Option.some.inj (Option.ite_none_right_eq_some.mp h).2).symm

theorem claimsWhole_rule (s : List Char) : rule.ClaimsWhole s := by
  refine Rule.claimsWhole_of_isPrefix (fun p a ha => ?_) s
  exact ⟨p.line, List.takeWhile_prefix _, by rw [eq_of_claim?_rule ha]⟩

/-! ### The lines of a run -/

/-- Whether a line starts behind some tokens of a run. -/
def startsAfter (startsLine : Bool) (before : List Token) : Bool :=
  (before.flatMap scanText).getLast?.elim startsLine (· = '\n')

/-- What the rule claims of a line at a byte position.  `whole` tells whether the tokens are a whole
line. -/
def lineClaim (whole : Bool) (n : Nat) (line : List Token) : List Step :=
  if whole = true ∧ IsMarker line then
    [⟨n, n + size (line.flatMap scanText), .claimed tokens⟩]
  else []

/-- What the rule claims in the lines of some tokens at a byte position.  The two flags tell whether
the tokens end and whether they start with a whole line. -/
inductive LineClaims (endsLine : Bool) : Bool → Nat → List Token → List Step → Prop
  | last {startsLine : Bool} {n : Nat} {line : List Token} : (∀ t ∈ line, isBreak t = false) →
      LineClaims endsLine startsLine n line (lineClaim (startsLine && endsLine) n line)
  | next {startsLine : Bool} {n : Nat} {line rest : List Token} {b : Token} {claims : List Step} :
      (∀ t ∈ line, isBreak t = false) → isBreak b = true →
      LineClaims endsLine true (n + size (line.flatMap scanText) + 1) rest claims →
      LineClaims endsLine startsLine n (line ++ b :: rest) (lineClaim startsLine n line ++ claims)

section Lines

variable {startsLine endsLine : Bool} {r : Run} {before line after ts : List Token}
  {claims : List Step}

theorem startsAfter_append_break (startsLine : Bool) (ts : List Token) {b : Token}
    (hb : isBreak b = true) : startsAfter startsLine (ts ++ [b]) = true := by
  simp [startsAfter, scanText_of_isBreak hb]

theorem head?_flatMap_scanText (hafter : ∀ t ∈ after.head?, isBreak t = true) :
    ∀ c ∈ (after.flatMap scanText).head?, c = '\n' := by
  cases after with
  | nil => simp
  | cons b after => simp [scanText_of_isBreak (hafter b rfl)]

theorem isEmpty_flatMap_scanText (hafter : ∀ t ∈ after.head?, isBreak t = true) :
    (after.flatMap scanText).isEmpty = after.isEmpty := by
  cases after with
  | nil => rfl
  | cons b after => simp [scanText_of_isBreak (hafter b rfl)]

theorem notMem_flatMap_scanText (hplain : ∀ t ∈ line, t.kind.isPlain = true)
    (hfits : ∀ t ∈ line, t.FitsLine) (hline : ∀ t ∈ line, isBreak t = false) :
    '\n' ∉ line.flatMap scanText := by
  rw [List.mem_flatMap]
  rintro ⟨t, ht, hfeed⟩
  exact (hfits t ht).notMem_scanText (hplain t ht) (hline t ht) hfeed

/-- At the start of a line the rule claims a marker that is the whole line. -/
theorem firstClaim?_start (hr : r = Run.ofTokens startsLine endsLine (before ++ (line ++ after)))
    (hplain : ∀ t ∈ line, t.kind.isPlain = true) (hfits : ∀ t ∈ line, t.FitsLine)
    (hline : ∀ t ∈ line, isBreak t = false) (hafter : ∀ t ∈ after.head?, isBreak t = true) :
    Rule.firstClaim? [rule] (r.place.goTo (size (before.flatMap scanText))) =
      if (startsAfter startsLine before && (!after.isEmpty || endsLine)) = true ∧ IsMarker line then
        some ⟨true, tokens, size (line.flatMap scanText)⟩
      else none := by
  have htext : r.place.text =
      before.flatMap scanText ++ (line.flatMap scanText ++ after.flatMap scanText) := by
    simp [hr, Run.place, Run.ofTokens]
  have hfeed := notMem_flatMap_scanText hplain hfits hline
  have hnext := head?_flatMap_scanText hafter
  have hmarker : IsMarker line ↔
      Ascii.equalsIgnoringCase (trim (line.flatMap scanText)) marker.toList = true :=
    and_iff_right fun t ht => text_or_escape (hplain t ht) (hline t ht)
  have hstarts : r.place.startsLine = startsLine := by rw [hr]; rfl
  have hends : r.place.endsLine = endsLine := by rw [hr]; rfl
  rw [firstClaim?_rule, Place.atLineStart_goTo htext, Place.lineIsComplete_goTo htext hfeed hnext,
    Place.line_goTo htext hfeed hnext, isEmpty_flatMap_scanText hafter, hstarts, hends]
  simp [startsAfter, hmarker]

/-- Behind the start of a line the rule claims nothing up to the next line. -/
theorem quiet_line (hr : r = Run.ofTokens startsLine endsLine (before ++ (line ++ after)))
    (hplain : ∀ t ∈ line, t.kind.isPlain = true) (hfits : ∀ t ∈ line, t.FitsLine)
    (hline : ∀ t ∈ line, isBreak t = false) :
    r.Quiet [rule] (size (before.flatMap scanText) + 1)
      (size (before.flatMap scanText) + size (line.flatMap scanText) + 1) := by
  intro k hk hk' hoffset _
  have htext : r.place.text =
      before.flatMap scanText ++ line.flatMap scanText ++ after.flatMap scanText := by
    simp [hr, Run.place, Run.ofTokens]
  have hstart := Place.atLineStart_of_lt htext (notMem_flatMap_scanText hplain hfits hline) hoffset
    (by omega) (by omega)
  rw [firstClaim?_rule, hstart]
  rfl

/-- The claims of the rule from the start of a line on are that of the line and those behind it. -/
theorem exists_claims_append
    (hr : r = Run.ofTokens startsLine endsLine (before ++ (line ++ after)))
    (hplain : ∀ t ∈ line, t.kind.isPlain = true) (hfits : ∀ t ∈ line, t.FitsLine)
    (hline : ∀ t ∈ line, isBreak t = false) (hafter : ∀ t ∈ after.head?, isBreak t = true)
    (hclaims : r.Claims [rule] (size (before.flatMap scanText)) claims) :
    ∃ rest, claims = lineClaim (startsAfter startsLine before && (!after.isEmpty || endsLine))
        (size (before.flatMap scanText)) line ++ rest ∧
      r.Claims [rule] (min (size (before.flatMap scanText) + size (line.flatMap scanText) + 1)
        (size r.text)) rest := by
  have hclaim := firstClaim?_start hr hplain hfits hline hafter
  have hquiet := quiet_line hr hplain hfits hline
  have hsize : size r.text = size (before.flatMap scanText) + size (line.flatMap scanText) +
      size (after.flatMap scanText) := by
    simp [hr, Run.ofTokens, Nat.add_assoc]
  rw [lineClaim]
  split at hclaim
  · next hmarker =>
    have hne : line.flatMap scanText ≠ [] := by
      rintro hnil
      have := hmarker.2.2
      rw [hnil] at this
      exact absurd this (by decide)
    have hpos := size_pos_of_ne_nil hne
    have hoffset : IsOffset r.text (size (before.flatMap scanText)) :=
      ⟨before.flatMap scanText, (line ++ after).flatMap scanText, by simp [hr, Run.ofTokens], rfl⟩
    obtain ⟨rest, rfl, hrest⟩ := hclaims.exists_cons (by omega) hoffset
      (Run.insideEscape_of_append hr) hclaim
    rw [if_pos hmarker]
    refine ⟨rest, rfl, ?_⟩
    simp only at hrest
    rw [Nat.min_eq_left (by omega)] at hrest
    exact hrest.skip (by omega) (hquiet.mono (by omega) (by omega))
  · next hmarker =>
    rw [if_neg hmarker]
    refine ⟨claims, rfl, hclaims.skip (by omega) fun k hk hk' hoffset hescape => ?_⟩
    rcases Nat.eq_or_lt_of_le hk with rfl | hlt
    · exact hclaim
    · exact hquiet k hlt (by omega) hoffset hescape

/-- The claims of the rule from the start of a line on are those in the lines. -/
theorem lineClaims_of_claims (hr : r = Run.ofTokens startsLine endsLine (before ++ ts))
    (hplain : ∀ t ∈ ts, t.kind.isPlain = true) (hfits : ∀ t ∈ ts, t.FitsLine)
    (hclaims : r.Claims [rule] (size (before.flatMap scanText)) claims) :
    LineClaims endsLine (startsAfter startsLine before) (size (before.flatMap scanText)) ts
      claims := by
  induction ts using lines_induction generalizing before claims with
  | last line hline =>
    have hsize : size r.text = size (before.flatMap scanText) + size (line.flatMap scanText) := by
      simp [hr, Run.ofTokens]
    rw [← List.append_nil line] at hr
    obtain ⟨rest, rfl, hrest⟩ := exists_claims_append hr hplain hfits hline (by simp) hclaims
    rw [Nat.min_eq_right (by omega)] at hrest
    have hnone : rest = [] := hrest.eq_nil_iff.mpr fun k hk hk' => absurd hk' (Nat.not_lt.mpr hk)
    rw [hnone, List.append_nil]
    exact .last hline
  | next line b rest hline hb ih =>
    rw [List.forall_mem_append, List.forall_mem_cons] at hplain hfits
    obtain ⟨more, rfl, hmore⟩ := exists_claims_append hr hplain.1 hfits.1 hline
      (by simpa using hb) hclaims
    have hbreak : size (scanText b) = 1 := by rw [scanText_of_isBreak hb]; rfl
    have hnext : size (before.flatMap scanText) + size (line.flatMap scanText) + 1 =
        size ((before ++ line ++ [b]).flatMap scanText) := by simp [hbreak, Nat.add_assoc]
    have hsize : size ((before ++ line ++ [b]).flatMap scanText) ≤ size r.text := by
      simp [hr, Run.ofTokens]
    rw [hnext, Nat.min_eq_left hsize] at hmore
    have hlines := ih (by simpa using hr) hplain.2.2 hfits.2.2 hmore
    rw [startsAfter_append_break _ _ hb, ← hnext] at hlines
    simpa using LineClaims.next hline hb hlines

end Lines

end Toc

end WikiPress
